import StaticReflection.Locating.Autoload

/-!
# Where rules lead

A rule maps the beginning of a name to directories. Each directory makes a path of the root,
the directory and a path below it, and a rule leads to the first of these that is a file.

> `followRules_texts`: rules whose directories are texts lead to a file or to none and do not
> fail; of several rules the first in order that leads to a file counts.

`AutoloadRules.findPsr4` and `AutoloadRules.findPsr0` are the two searches that an identifier
goes through when it is not in the class map.
-/

namespace StaticReflection

theorem Text.display_ofString (s : String) : (ofString s).display = s := by
  unfold display ofString
  rw [List.map_map]
  have hchar :
      (fun c : CodePoint => c.toChar?.getD (Char.ofNat 0xfffd)) ∘ CodePoint.ofChar = id := by
    funext c
    show (CodePoint.ofChar c).toChar?.getD _ = c
    rw [CodePoint.toChar?_ofChar, Option.getD_some]
  rw [hchar, List.map_id, String.ofList_toList]

namespace AutoloadRules

/-- The beginning of a name and the directories of its classes, as texts. -/
abbrev TextRule := String × List String

/-- The rule as a configuration has it. -/
def TextRule.toRule (rule : TextRule) : String × List Json :=
  (rule.1, rule.2.map Json.ofString)

/-- A project with such rules of both standards, and the paths of its class map. -/
def ofTexts (root : Path) (newer older : List TextRule) (classmap : List String) : AutoloadRules :=
  ofMappings root
    ⟨newer.map TextRule.toRule, older.map TextRule.toRule, classmap.map Json.ofString⟩

/-- The paths of a relative path below some directories. -/
def candidates (root relative : Path) (directories : List String) : List Path :=
  directories.map fun d => (root.join (Path.ofString d)).join relative

/-- The file that a rule leads to, given the path below its directories. -/
def fileOf (root : Path) (t : FileTree) (identifier : String) (relative : String → Path)
    (rule : TextRule) : Option Path :=
  if applies rule.1 identifier then (candidates root (relative rule.1) rule.2).find? t.isFile
  else none

/-- The file of a class by the rules of the newer standard. -/
def findPsr4 (r : AutoloadRules) (t : FileTree) (identifier : String) :
    Except Failure (Option Path) :=
  r.followRules t identifier (fun b => psr4Path b identifier) r.psr4

/-- The file of a class by the rules of the older standard. -/
def findPsr0 (r : AutoloadRules) (t : FileTree) (identifier : String) :
    Except Failure (Option Path) :=
  r.followRules t identifier (fun _ => psr0Path identifier) r.psr0

section

variable {r : AutoloadRules} {t : FileTree} {identifier : String}

/-- The search without a class map is by the newer standard, and by the older one for what that
does not find. -/
theorem findByRules_eq : r.findByRules t identifier = (do
    match ← r.findPsr4 t identifier with
    | some found => return some found
    | none => r.findPsr0 t identifier) := rfl

theorem pathOf_text (d : String) :
    r.pathOf (Json.ofString d) = .ok (r.root.join (Path.ofString d)) := by
  show Except.ok (r.root.join (Path.ofString (Text.ofString d).display)) = _
  rw [Text.display_ofString]

theorem firstFile_texts (relative : Path) (directories : List String) :
    r.firstFile t relative (directories.map Json.ofString)
      = .ok ((candidates r.root relative directories).find? t.isFile) := by
  induction directories with
  | nil => rfl
  | cons d rest ih =>
    rw [List.map_cons, firstFile, pathOf_text]
    unfold candidates at ih ⊢
    rw [List.map_cons, List.find?_cons]
    cases hfile : t.isFile ((r.root.join (Path.ofString d)).join relative) with
    | true =>
      simp only [bind, Except.bind, hfile]
      rfl
    | false =>
      simp only [bind, Except.bind, hfile]
      exact ih

/-- Rules lead to the file of the first of them that has one. -/
theorem followRules_texts (relative : String → Path) (rules : List TextRule) :
    r.followRules t identifier relative (rules.map TextRule.toRule)
      = .ok (rules.findSome? (fileOf r.root t identifier relative)) := by
  induction rules with
  | nil => rfl
  | cons rule rest ih =>
    rw [List.map_cons, TextRule.toRule, followRules, List.findSome?_cons, fileOf, firstFile_texts]
    cases happlies : applies rule.1 identifier with
    | false => exact ih
    | true =>
      cases hfound : (candidates r.root (relative rule.1) rule.2).find? t.isFile with
      | some p =>
        simp only [if_true]
        rfl
      | none =>
        simp only [if_true]
        exact ih

theorem longestFirst_texts (rules : List TextRule) :
    longestFirst (rules.map TextRule.toRule)
      = (rules.mergeSort fun a b => b.1.length ≤ a.1.length).map TextRule.toRule := by
  unfold longestFirst
  rw [List.map_mergeSort]
  exact fun _ _ _ _ => rfl

theorem findPsr4_texts (root : Path) (newer older : List TextRule) (classmap : List String)
    (t : FileTree) (identifier : String) :
    (ofTexts root newer older classmap).findPsr4 t identifier
      = .ok ((newer.mergeSort fun a b => b.1.length ≤ a.1.length).findSome?
        (fileOf root t identifier fun b => psr4Path b identifier)) := by
  have hrules : (ofTexts root newer older classmap).psr4
      = (newer.mergeSort fun a b => b.1.length ≤ a.1.length).map TextRule.toRule :=
    longestFirst_texts newer
  unfold findPsr4
  rw [hrules, followRules_texts]
  rfl

theorem findPsr0_texts (root : Path) (newer older : List TextRule) (classmap : List String)
    (t : FileTree) (identifier : String) :
    (ofTexts root newer older classmap).findPsr0 t identifier
      = .ok ((older.mergeSort fun a b => b.1.length ≤ a.1.length).findSome?
        (fileOf root t identifier fun _ => psr0Path identifier)) := by
  have hrules : (ofTexts root newer older classmap).psr0
      = (older.mergeSort fun a b => b.1.length ≤ a.1.length).map TextRule.toRule :=
    longestFirst_texts older
  unfold findPsr0
  rw [hrules, followRules_texts]
  rfl

/-- What a rule leads to is a file in one of its directories, and it is for the identifier. -/
theorem of_fileOf {root p : Path} {relative : String → Path} {rule : TextRule}
    (h : fileOf root t identifier relative rule = some p) :
    applies rule.1 identifier = true ∧ t.isFile p = true
      ∧ ∃ d ∈ rule.2, p = (root.join (Path.ofString d)).join (relative rule.1) := by
  unfold fileOf at h
  split at h
  next happlies =>
    obtain ⟨d, hd, hp⟩ := List.mem_map.mp (List.mem_of_find?_eq_some h)
    exact ⟨happlies, List.find?_some h, d, hd, hp.symm⟩
  next => cases h

end

end AutoloadRules

end StaticReflection
