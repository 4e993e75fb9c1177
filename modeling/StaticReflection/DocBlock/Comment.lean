import StaticReflection.Text.Blank
import StaticReflection.Text.Lines
import StaticReflection.Text.WordTable

/-!
# The text of doc comments

A doc comment is a summary followed by tags. Each line loses the star it begins
with and one space after it. A tag's value goes on in the lines after it; the
lines before the first tag are the summary.
-/

namespace StaticReflection

/-- A tag of a doc comment. -/
structure DocTag where
  name : String
  value : String
  deriving DecidableEq, Repr

/-- What a doc comment says. -/
structure DocBlock where
  summary : String
  tags : List DocTag
  deriving DecidableEq, Repr

namespace DocBlock

/-- The text of a comment without its delimiters. -/
def body (comment : String) : String :=
  let cs := (Blank.strip comment).toList
  let opened := match cs with
    | '/' :: '*' :: '*' :: rest => rest
    | _ => cs
  String.ofList <|
    match opened.reverse with
    | '/' :: '*' :: rest => rest.reverse
    | _ => opened

/-- A line without the star it begins with, one space after it, and blanks at its end. -/
def bareLine (raw : String) : String :=
  let line := match (Blank.strip raw).toList with
    | '*' :: ' ' :: rest => rest
    | '*' :: rest => rest
    | cs => cs
  String.ofList (Blank.dropEnd line)

/-- Whether a character may stand in the name of a tag. -/
def isTagChar (c : Char) : Bool := WordTable.isWord c || c == '-' || c == '\\'

/-- The tag that a line begins, if it begins one. -/
def tagOfLine? (line : String) : Option DocTag :=
  match line.toList with
  | '@' :: rest =>
    let name := rest.takeWhile isTagChar
    if name.isEmpty then none
    else some ⟨String.ofList name, String.ofList (Blank.dropStart (rest.drop name.length))⟩
  | _ => none

/-- A tag with another line of its value. -/
def DocTag.extend (t : DocTag) (line : String) : DocTag :=
  if line.isEmpty then t
  else { t with value := if t.value.isEmpty then line else t.value ++ "\n" ++ line }

/-- The tags that lines make, given the last one before them. -/
def tagsFrom (t : DocTag) : List String → List DocTag
  | [] => [t]
  | line :: rest =>
    match tagOfLine? line with
    | some next => t :: tagsFrom next rest
    | none => tagsFrom (DocTag.extend t (Blank.strip line)) rest

/-- The tags that lines make, from the first line that begins one. -/
def tagsOf : List String → List DocTag
  | [] => []
  | line :: rest =>
    match tagOfLine? line with
    | some t => tagsFrom t rest
    | none => tagsOf rest

/-- What a comment with some text says. -/
def ofText (comment : String) : DocBlock :=
  let lines := (Lines.split (body comment)).map bareLine
  let summary := lines.takeWhile fun line => (tagOfLine? line).isNone
  ⟨Blank.strip (String.intercalate "\n" summary),
    (tagsOf lines).map fun t => { t with value := Blank.strip t.value }⟩

/-- What a comment says; no comment and an empty one say nothing. -/
def ofComment (comment : Option String) : DocBlock :=
  match comment with
  | some text => if text.isEmpty then ⟨"", []⟩ else ofText text
  | none => ⟨"", []⟩

/-- The tags with a name. -/
def named (b : DocBlock) (name : String) : List DocTag := b.tags.filter (·.name == name)

/-- The value of the first `var` tag. -/
def varValue? (b : DocBlock) : Option String := (b.named "var").head?.map (·.value)

end DocBlock

end StaticReflection
