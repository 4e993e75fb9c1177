import StaticReflection.Grammar.Statements

/-!
# Programs

The syntax tree of a whole source text. `rules` ties the rules together: what
refers back to them does so with one unit of fuel less. Every such reference
stands after at least one character that was read, so the length of the text is
fuel enough.

Comments go where they stand: into the innermost node that was open there.
A text that does not fit the grammar has an `ERROR` node from the place where it
stops fitting.
-/

namespace StaticReflection.Grammar

/-- The rules, with fuel for references back to them. -/
def rules : Nat → Rules
  | 0 => ⟨fun _ => Scan.decline, Scan.decline, Scan.decline⟩
  | n + 1 =>
    ⟨fun level c => (rules n).expressionStep level c, fun c => (rules n).memberStep c,
      fun c => (rules n).statementStep c⟩

mutual

/-- The node with another one put into the innermost node whose extent holds it. -/
def nest (x : Node) : Node → Node
  | ⟨kind, start, stop, field, isNamed, isMissing, children⟩ =>
    ⟨kind, start, stop, field, isNamed, isMissing, nestAmong x children⟩

/-- Sibling nodes in order, with another one put into or between them. -/
def nestAmong (x : Node) : List Node → List Node
  | [] => [x]
  | c :: rest =>
    if c.start ≤ x.start && x.stop ≤ c.stop then nest x c :: rest
    else if x.stop ≤ c.start then x :: c :: rest
    else c :: nestAmong x rest

end

namespace Scan

/-- The text before the first opening tag, and the tag. -/
def opening : Scan (List Node) := do
  let (text, tag) := outsideLength (← rest)
  let before ← if text = 0 then pure [] else one (leaf "text" true text)
  let found ← if tag = 0 then pure [] else one (leaf "php_tag" true tag)
  return before ++ found

/-- What is left of a text that does not fit the grammar. -/
def unread : Scan (List Node) := do
  skip
  match ← rest with
  | [] => return []
  | cs => one (leaf "ERROR" true cs.length)

/-- All of a text. -/
def program (R : Rules) : Scan (List Node) := do
  let before ← opening
  let statements ← many (one R.statement)
  return before ++ statements ++ (← unread)

end Scan

/-- The syntax tree of a source text. -/
def parse (text : String) : Node :=
  let cs := text.toList
  match Scan.program (rules (cs.length + 1)) (Cursor.start cs) with
  | some (children, c) =>
    let root : Node := ⟨"program", 0, c.offset, none, true, false, children⟩
    c.extras.reverse.foldl (fun n x => nest x n) root
  | none => ⟨"program", 0, byteLength cs, none, true, false, []⟩

end StaticReflection.Grammar
