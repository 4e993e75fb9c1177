import StaticReflection.Failure
import StaticReflection.Text.Blank

/-!
# Reports in text

Tables with aligned columns, titled lists and places in files. A budget limits
how many rows or lines are shown; the rest are counted. No budget is zero; a
negative one shows all but so many from the end, and counts as many more than
there are.
-/

namespace StaticReflection.Report

/-- A place in a file; a source without a file has a name of its own. -/
def location (path : Option String) (line : Option Int) : String :=
  let file := match path with
    | some p => if p.isEmpty then "<string>" else p
    | none => "<string>"
  match line with
  | some n => if 0 ≤ n then file ++ ":" ++ DecimalText.ofInt n else file
  | none => file

/-- The items that a budget shows. -/
def shown {α : Type} (budget : Int) (items : List α) : List α :=
  if 0 ≤ budget then items.take budget.toNat else items.take (items.length - (-budget).toNat)

/-- Whether a budget leaves some of a number of items out. -/
def exceeds (budget : Int) (count : Nat) : Bool := budget != 0 && budget < count

/-- How many items a budget leaves out, in words. -/
def more (budget : Int) (count : Nat) : String :=
  "(+" ++ DecimalText.ofInt (count - budget) ++ " more)"

/-- Lines as one text. -/
def joinLines (lines : List Text) : Text := Text.join (Text.ofString "\n") lines

/-- Lines under a title. -/
def titled (title : Text) (lines : List Text) (budget : Int) : Text :=
  joinLines <| title ::
    if exceeds budget lines.length then
      shown budget lines ++ [Text.ofString ("  " ++ more budget lines.length)]
    else lines

/-! ## Tables -/

/-- The number of code points of a text. -/
def width (t : Text) : Nat := t.codes.length

/-- A text repeated. -/
def fill (c : Char) (n : Nat) : Text := ⟨List.replicate n (CodePoint.ofChar c)⟩

/-- A text with blanks after it up to a width. -/
def pad (w : Nat) (t : Text) : Text := t ++ fill ' ' (w - width t)

/-- A text without the blanks it ends with. -/
def trimEnd (t : Text) : Text :=
  ⟨(t.codes.reverse.dropWhile fun c => Blank.isBlankCode c.val).reverse⟩

/-- Column widths raised to those of a row's cells; cells beyond the last column
do not count. -/
def widen : List Nat → List Text → List Nat
  | w :: ws, cell :: cells => max w (width cell) :: widen ws cells
  | ws, _ => ws

/-- The width of each column: that of its longest cell, header included. -/
def columnWidths (headers : List Text) (rows : List (List Text)) : List Nat :=
  rows.foldl widen (headers.map width)

/-- Cells with blanks after them; a cell beyond the last column is a fault. -/
def padded : List Nat → List Text → Except Failure (List Text)
  | _, [] => .ok []
  | [], _ :: _ => .error (.fault .missingHeader)
  | w :: ws, cell :: cells => do return pad w cell :: (← padded ws cells)

/-- Cells in a line. -/
def rowText (cells : List Text) : Text := Text.join (Text.ofString "  ") cells

/-- A table with its headers underlined. -/
def table (headers : List Text) (rows : List (List Text)) (budget : Int) : Except Failure Text :=
  if rows.isEmpty then .ok (Text.ofString "(none)")
  else do
    let widths := columnWidths headers rows
    let head := rowText (← padded widths headers)
    let rule := rowText (widths.map (fill '-'))
    let isCut := exceeds budget rows.length
    let visible := if isCut then shown budget rows else rows
    let lines ← visible.mapM fun row => do return trimEnd (rowText (← padded widths row))
    let rest := if isCut then [Text.ofString (more budget rows.length)] else []
    return joinLines (head :: rule :: lines ++ rest)

end StaticReflection.Report
