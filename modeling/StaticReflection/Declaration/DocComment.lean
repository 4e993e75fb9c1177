import StaticReflection.Syntax.Source
import StaticReflection.Text.Blank

/-!
# Doc comments

A doc comment opens with `/**` and a blank. A declaration has the nearest one
in the run of comments directly before it; other comments in that run are
passed over, and anything else ends it.
-/

namespace StaticReflection.DocComment

/-- Whether the text of a comment is that of a doc comment. -/
def isDocComment (text : String) : Bool :=
  match text.toList with
  | '/' :: '*' :: '*' :: c :: _ => Blank.isBlank c
  | _ => false

/-- The texts of the comments directly before a node, the nearest first. -/
def commentsBefore (p : ParsedSource) (s : Sited) : List String :=
  (s.before.takeWhile (·.kind == "comment")).map p.text

/-- The doc comment of a declaration; empty if it has none. -/
def preceding (p : ParsedSource) (s : Sited) : String :=
  ((commentsBefore p s).find? isDocComment).getD ""

end StaticReflection.DocComment
