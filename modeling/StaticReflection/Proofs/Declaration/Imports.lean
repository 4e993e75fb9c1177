import Mathlib.Data.List.Forall2
import Mathlib.Data.List.Nodup
import StaticReflection.Proofs.Declaration.Regions

/-!
# Declarations of imports

A declaration imports class-likes, functions or constants: one after the other, or in a group
that shares a path. `ImportDeclaration` is a declaration as it is written, and
`ImportDeclaration.WrittenAs` says which syntax trees it has, with comments anywhere between
its parts. A mark before a group stands beside the path that the group shares; any other mark
stands in the import that follows it.

> `Imports.addDeclaration_written`: of each alias that a declaration gives the last path
> counts, other aliases keep their paths. A declaration imports what its class-likes are,
> exactly if no alias of a function or a constant in it is taken for that of a class-like.

Only the mark before a group is looked for. The imports after any other mark are taken as
those of class-likes (`ImportDeclaration.misread`).
-/

namespace StaticReflection

/-! ## Declarations as they are written -/

/-- What marks imports as those of functions or of constants. -/
inductive ImportMark where
  | function
  | constant
  deriving DecidableEq

/-- The word of a mark. -/
def ImportMark.word : ImportMark → String
  | .function => "function"
  | .constant => "const"

/-- An import as it is written: its path, and its alias if it is given one. -/
structure WrittenImport where
  path : String
  given : Option String

/-- A declaration of imports as it is written. The mark at its start is that of all its
imports; the members of a group may have marks of their own. -/
inductive ImportDeclaration where
  | list (mark : Option ImportMark) (first : WrittenImport) (more : List WrittenImport)
  | group (mark : Option ImportMark) (shared : String)
    (members : List (Option ImportMark × WrittenImport))

namespace WrittenImport

/-- The full path of an import, which continues the path that its group shares. -/
def fullPath (i : WrittenImport) : Option String → String
  | none => Identifier.dropLeading i.path
  | some shared => Identifier.dropLeading shared ++ "\\" ++ Identifier.dropLeading i.path

/-- The alias of an import in lower case, and its full path. -/
def entry (shared : Option String) (i : WrittenImport) : String × String :=
  (LetterCase.lower (i.given.getD (Identifier.lastSegment (i.fullPath shared))), i.fullPath shared)

end WrittenImport

namespace ImportDeclaration

/-- The imports of a declaration with their marks. -/
def entries : ImportDeclaration → List (Option ImportMark × (String × String))
  | list mark first more => (first :: more).map fun i => (mark, i.entry none)
  | group mark shared members => members.map fun (own, i) => (mark <|> own, i.entry (some shared))

/-- Whether the declaration is a marked group. -/
def isMarkedGroup : ImportDeclaration → Bool
  | list .. => false
  | group mark .. => mark.isSome

/-- The imports of class-likes. -/
def classLikes (d : ImportDeclaration) : List (String × String) :=
  (d.entries.filter (·.1.isNone)).map (·.2)

/-- The imports that are taken as those of class-likes. -/
def taken (d : ImportDeclaration) : List (String × String) :=
  if d.isMarkedGroup then [] else d.entries.map (·.2)

/-- The imports of functions and constants among them. -/
def misread (d : ImportDeclaration) : List (String × String) :=
  if d.isMarkedGroup then [] else (d.entries.filter (·.1.isSome)).map (·.2)

end ImportDeclaration

/-! ## Their syntax trees -/

namespace Imports

/-- The kinds of the nodes of a declaration that say nothing: punctuation, keywords and
comments. -/
def silentKinds : List String :=
  ["use", "as", ",", ";", "\\", "\x7b", "\x7d", "comment", "text_interpolation"]

/-- Whether a node says nothing. -/
def isSilent (n : Node) : Bool := n.field.isNone && silentKinds.contains n.kind

/-- The children of a node that say something. -/
def spoken (n : Node) : List Node := n.children.filter fun c => !isSilent c

/-- The nodes of a mark. -/
inductive WritesMark : Option ImportMark → List Node → Prop
  | unmarked : WritesMark none []
  | marked (mark : ImportMark) {k : Node} (hkind : k.kind = mark.word)
      (hfield : k.field = some "type") : WritesMark (some mark) [k]

section

variable (text : Node → String)

/-- The nodes of an alias, which stands in the import or in a part of its own. -/
inductive WritesAlias : Option String → List Node → Prop
  | absent : WritesAlias none []
  | here {a : Node} (hkind : a.kind = "name") (hfield : a.field = some "alias") :
      WritesAlias (some (text a)) [a]
  | within {part a : Node} (hpart : part.kind = "namespace_aliasing_clause")
      (hfield : part.field = none) (hspoken : spoken part = [a]) (hkind : a.kind = "name") :
      WritesAlias (some (text a)) [part]

/-- The node of an import with a mark. -/
structure Writes (mark : Option ImportMark) (i : WrittenImport) (clause : Node) : Prop where
  kind : memberKinds.contains clause.kind = true
  parts : ∃ (marks : List Node) (path : Node) (ending : List Node),
    spoken clause = marks ++ path :: ending ∧ WritesMark mark marks
      ∧ pathKinds.contains path.kind = true ∧ path.field = none ∧ text path = i.path
      ∧ WritesAlias text i.given ending

end

end Imports

open Imports in
/-- The node of a declaration of imports. -/
inductive ImportDeclaration.WrittenAs (text : Node → String) : ImportDeclaration → Node → Prop
  | list {mark : Option ImportMark} {first : WrittenImport} {more : List WrittenImport}
      {n clause : Node} {clauses : List Node} (hn : spoken n = clause :: clauses)
      (hkind : ∀ c ∈ clause :: clauses, c.kind = "namespace_use_clause")
      (hfirst : Writes text mark first clause)
      (hmore : List.Forall₂ (Writes text none) more clauses) :
      WrittenAs text (.list mark first more) n
  | group {mark : Option ImportMark} {shared : String}
      {members : List (Option ImportMark × WrittenImport)} {n path body : Node}
      {marks : List Node} (hn : spoken n = marks ++ [path, body]) (hmark : WritesMark mark marks)
      (hpath : pathKinds.contains path.kind = true) (hshared : text path = shared)
      (hnamed : (Identifier.dropLeading shared).isEmpty = false)
      (hbody : body.kind = "namespace_use_group")
      (hmembers : List.Forall₂ (fun m => Writes text m.1 m.2) members (spoken body)) :
      WrittenAs text (.group mark shared members) n

namespace Imports

variable {text : Node → String} {n clause : Node}

/-! ## What is looked for among the children -/

/-- A node that says nothing has one of the silent kinds. -/
theorem kind_of_isSilent {c : Node} (hc : isSilent c = true) : c.kind ∈ silentKinds := by
  unfold isSilent at hc
  rw [Bool.and_eq_true] at hc
  exact List.contains_iff_mem.mp hc.2

theorem find?_spoken {p : Node → Bool} (hp : ∀ c, isSilent c = true → p c = false) :
    n.children.find? p = (spoken n).find? p := by
  unfold spoken
  induction n.children with
  | nil => rfl
  | cons c rest ih =>
    cases hc : isSilent c with
    | true =>
      rw [List.find?_cons_of_neg (by rw [hp c hc]; decide), ih,
        List.filter_cons_of_neg (by rw [hc]; decide)]
    | false => rw [List.filter_cons_of_pos (by rw [hc]; rfl), List.find?_cons, List.find?_cons, ih]

theorem childOfKind?_spoken {kind : String} (hkind : kind ∉ silentKinds) :
    n.childOfKind? kind = (spoken n).find? fun c => c.kind == kind := by
  refine find?_spoken fun c hc => ?_
  rw [beq_eq_false_iff_ne]
  rintro rfl
  exact hkind (kind_of_isSilent hc)

theorem childInField?_spoken (field : String) :
    n.childInField? field = (spoken n).find? fun c => c.field == some field := by
  refine find?_spoken fun c hc => ?_
  unfold isSilent at hc
  rw [Bool.and_eq_true, Option.isNone_iff_eq_none] at hc
  rw [hc.1]
  rfl

/-- A declaration is read by those of its parts that say something. -/
theorem addParts_spoken (shared : String) (parts : List Node) (imports : Imports) :
    addParts text shared parts imports
      = addParts text shared (parts.filter fun c => !isSilent c) imports := by
  induction parts generalizing shared imports with
  | nil => rfl
  | cons c rest ih =>
    cases hc : isSilent c with
    | false => rw [List.filter_cons_of_pos (by rw [hc]; rfl), addParts, addParts, ih, ih, ih, ih]
    | true =>
      have hother (kinds : List String) (hkinds : ∀ k ∈ silentKinds, k ∉ kinds) : c.kind ∉ kinds :=
        hkinds c.kind (kind_of_isSilent hc)
      have hpath : ¬pathKinds.contains c.kind = true := fun h =>
        hother pathKinds (by decide) (List.contains_iff_mem.mp h)
      have hclause : ¬(c.kind == "namespace_use_clause") = true := fun h =>
        hother ["namespace_use_clause"] (by decide) (List.mem_singleton.mpr (eq_of_beq h))
      have hgroup : ¬(c.kind == "namespace_use_group") = true := fun h =>
        hother ["namespace_use_group"] (by decide) (List.mem_singleton.mpr (eq_of_beq h))
      rw [List.filter_cons_of_neg (by rw [hc]; decide), addParts, if_neg hpath, if_neg hclause,
        if_neg hgroup, ih]

/-! ## Single imports -/

theorem WritesMark.kind {mark : Option ImportMark} {marks : List Node} (h : WritesMark mark marks)
    {k : Node} (hk : k ∈ marks) : k.kind = "function" ∨ k.kind = "const" := by
  cases h with
  | unmarked => cases hk
  | marked mark hkind =>
    rw [List.mem_singleton.mp hk, hkind]
    cases mark with
    | function => exact .inl rfl
    | constant => exact .inr rfl

theorem WritesAlias.kind {given : Option String} {ending : List Node}
    (h : WritesAlias text given ending) {a : Node} (ha : a ∈ ending) :
    a.kind = "name" ∨ a.kind = "namespace_aliasing_clause" := by
  cases h with
  | absent => cases ha
  | here hkind => exact .inl (List.mem_singleton.mp ha ▸ hkind)
  | within hpart => exact .inr (List.mem_singleton.mp ha ▸ hpart)

section

variable {mark : Option ImportMark} {given : Option String} {marks ending : List Node} {path : Node}

/-- Marks are passed over by a search for anything else. -/
theorem WritesMark.find?_append {p : Node → Bool} (h : WritesMark mark marks)
    (hp : ∀ k : Node, k.kind = "function" ∨ k.kind = "const" → k.field = some "type" → p k = false)
    (rest : List Node) : (marks ++ rest).find? p = rest.find? p := by
  cases h with
  | unmarked => rfl
  | marked mark hkind hfield =>
    have hk := WritesMark.kind (.marked mark hkind hfield) (List.mem_singleton.mpr rfl)
    rw [List.singleton_append, List.find?_cons_of_neg (by rw [hp _ hk hfield]; decide)]

theorem pathNode?_eq (hspoken : spoken clause = marks ++ path :: ending)
    (hmark : WritesMark mark marks) (hpath : pathKinds.contains path.kind = true)
    (halias : WritesAlias text given ending) : pathNode? clause = some path := by
  have hchild (kind : String) (hkind : kind ∈ pathKinds) :
      clause.childOfKind? kind = (path :: ending).find? fun c => c.kind == kind := by
    rw [childOfKind?_spoken (by revert kind; decide), hspoken]
    refine hmark.find?_append (fun k hk _ => ?_) _
    rw [beq_eq_false_iff_ne]
    rintro rfl
    rcases hk with hk | hk <;> rw [hk] at hkind <;> revert hkind <;> decide
  -- an alias is no qualified name, so that only the path can be one
  have hother (kind : String) (hkind : kind ∈ ["qualified_name", "namespace_name"])
      (hne : path.kind ≠ kind) : (path :: ending).find? (fun c => c.kind == kind) = none := by
    rw [List.find?_cons_of_neg (by simpa using hne), List.find?_eq_none]
    intro a ha heq
    rw [← eq_of_beq heq] at hkind
    rcases halias.kind ha with h | h <;> rw [h] at hkind <;> revert hkind <;> decide
  have hself (kind : String) (heq : path.kind = kind) :
      (path :: ending).find? (fun c => c.kind == kind) = some path :=
    List.find?_cons_of_pos (beq_iff_eq.mpr heq)
  unfold pathNode?
  rw [pathKinds, List.findSome?_cons, List.findSome?_cons, List.findSome?_cons,
    hchild "qualified_name" (by decide), hchild "namespace_name" (by decide),
    hchild "name" (by decide)]
  by_cases hqualified : path.kind = "qualified_name"
  · rw [hself _ hqualified]
  · rw [hother _ (by decide) hqualified]
    by_cases hnamespace : path.kind = "namespace_name"
    · rw [hself _ hnamespace]
    · rw [hother _ (by decide) hnamespace]
      have hname : path.kind = "name" := by simpa [pathKinds, hqualified, hnamespace] using hpath
      rw [hself _ hname]

theorem aliasNode?_eq (hspoken : spoken clause = marks ++ path :: ending)
    (hmark : WritesMark mark marks) (hpath : pathKinds.contains path.kind = true)
    (hfield : path.field = none) (halias : WritesAlias text given ending) :
    (aliasNode? clause).map text = given := by
  have hinField : clause.childInField? "alias" = ending.find? fun c => c.field == some "alias" := by
    rw [childInField?_spoken, hspoken, hmark.find?_append (fun k _ hk => by rw [hk]; rfl),
      List.find?_cons_of_neg (by rw [hfield]; decide)]
  have hpart : clause.childOfKind? "namespace_aliasing_clause"
      = ending.find? fun c => c.kind == "namespace_aliasing_clause" := by
    have hne : ¬(path.kind == "namespace_aliasing_clause") = true := fun h => by
      rw [eq_of_beq h] at hpath
      revert hpath
      decide
    rw [childOfKind?_spoken (by decide), hspoken, hmark.find?_append (fun k hk _ => ?_)]
    · exact List.find?_cons_of_neg hne
    · rcases hk with hk | hk <;> rw [hk] <;> rfl
  unfold aliasNode?
  rw [hinField, hpart]
  cases halias with
  | absent => rfl
  | @here a _ hfield => rw [List.find?_cons_of_pos (by rw [hfield]; rfl)]; rfl
  | @within part a hkind hnone ha hname =>
    have hfound : part.childOfKind? "name" = some a := by
      rw [childOfKind?_spoken (by decide), ha]
      exact List.find?_cons_of_pos (beq_iff_eq.mpr hname)
    have haliasing : [part].find? (fun c => c.kind == "namespace_aliasing_clause") = some part :=
      List.find?_cons_of_pos (beq_iff_eq.mpr hkind)
    rw [List.find?_cons_of_neg (by rw [hnone]; decide), haliasing]
    show (part.childOfKind? "name").map text = some (text a)
    rw [hfound]
    rfl

end

/-- An import sets the path of its alias, whatever its mark. -/
theorem addClause_writes {mark : Option ImportMark} {i : WrittenImport}
    (h : Writes text mark i clause) (shared : String) (imports : Imports) :
    addClause text shared clause imports
      = let path := Identifier.qualify shared (Identifier.dropLeading i.path)
        imports.add (LetterCase.lower (i.given.getD (Identifier.lastSegment path))) path := by
  obtain ⟨marks, path, ending, hspoken, hmark, hpath, hfield, htext, halias⟩ := h.parts
  have hgiven := aliasNode?_eq hspoken hmark hpath hfield halias
  unfold addClause
  rw [pathNode?_eq hspoken hmark hpath halias, ← hgiven]
  simp only
  rw [htext]
  cases aliasNode? clause <;> rfl

/-! ## Declarations -/

/-- The imports with some entries more, one after the other. -/
def addEntries (entries : List (String × String)) (imports : Imports) : Imports :=
  entries.foldl (fun acc e => acc.add e.1 e.2) imports

/-- Of the entries for an alias the last one counts. -/
theorem lookup_addEntries (entries : List (String × String)) (imports : Imports) (short : String) :
    (addEntries entries imports).lookup short
      = (entries.reverse.lookup short).or (imports.lookup short) := by
  induction entries generalizing imports with
  | nil => rfl
  | cons e rest ih =>
    obtain ⟨added, path⟩ := e
    have hadd : add added path [] = [(added, path)] := rfl
    have hrest := ih (imports.add added path)
    unfold addEntries at hrest ⊢
    rw [List.foldl_cons, hrest, overrides_add, hadd, List.reverse_cons, List.lookup_append,
      Option.or_assoc]

theorem map_fst_add (added path : String) (imports : Imports) :
    (imports.add added path).map (·.1) = if added ∈ imports.map (·.1) then imports.map (·.1)
      else imports.map (·.1) ++ [added] := by
  induction imports with
  | nil => rfl
  | cons e rest ih =>
    obtain ⟨a, p⟩ := e
    rw [add]
    by_cases ha : a = added
    · rw [if_pos (beq_iff_eq.mpr ha), if_pos (ha ▸ List.mem_cons_self ..)]
      rfl
    · have hmem : added ∈ ((a, p) :: rest).map (·.1) ↔ added ∈ rest.map (·.1) := by
        rw [List.map_cons, List.mem_cons]
        exact or_iff_right (Ne.symm ha)
      rw [if_neg (by simpa using ha), List.map_cons, ih]
      by_cases hrest : added ∈ rest.map (·.1)
      · rw [if_pos hrest, if_pos (hmem.mpr hrest)]
        rfl
      · rw [if_neg hrest, if_neg fun h => hrest (hmem.mp h)]
        rfl

/-- No alias gets a second entry. -/
theorem nodup_addEntries (entries : List (String × String)) {imports : Imports}
    (h : (imports.map (·.1)).Nodup) : ((addEntries entries imports).map (·.1)).Nodup := by
  induction entries generalizing imports with
  | nil => exact h
  | cons e rest ih =>
    refine ih ?_
    rw [map_fst_add]
    split
    · exact h
    next hnew => exact List.nodup_append.mpr ⟨h, List.nodup_singleton _, by
        rintro a ha b hb rfl
        exact hnew (List.mem_singleton.mp hb ▸ ha)⟩

theorem mem_spoken {c : Node} (hkind : c.kind ∉ silentKinds) : c ∈ spoken n ↔ c ∈ n.children := by
  unfold spoken
  rw [List.mem_filter, Bool.not_eq_true', and_iff_left]
  rw [← Bool.not_eq_true]
  exact fun hc => hkind (kind_of_isSilent hc)

/-- A declaration is passed over if a mark stands among its parts. -/
theorem any_mark_iff : (n.children.any fun c => c.kind == "function" || c.kind == "const") = true
    ↔ ∃ c ∈ spoken n, c.kind = "function" ∨ c.kind = "const" := by
  rw [List.any_eq_true]
  refine exists_congr fun c => ?_
  rw [Bool.or_eq_true, beq_iff_eq, beq_iff_eq]
  refine and_congr_left fun hkind => (mem_spoken ?_).symm
  rcases hkind with h | h <;> rw [h] <;> decide

theorem addParts_clauses {is : List (Option ImportMark × WrittenImport)} {clauses : List Node}
    (hkind : ∀ c ∈ clauses, c.kind = "namespace_use_clause")
    (h : List.Forall₂ (fun i => Writes text i.1 i.2) is clauses) (imports : Imports) :
    addParts text "" clauses imports = addEntries (is.map fun i => i.2.entry none) imports := by
  induction h generalizing imports with
  | nil => rfl
  | @cons i clause is clauses hi hrest ih =>
    have hclause := hkind clause (List.mem_cons_self ..)
    rw [addParts, hclause, if_neg (by decide), if_pos (by decide), addClause_writes hi,
      ih fun c hc => hkind c (List.mem_cons_of_mem _ hc)]
    rfl

theorem foldl_addClause {is : List (Option ImportMark × WrittenImport)} {clauses : List Node}
    {shared : String} (hnamed : (Identifier.dropLeading shared).isEmpty = false)
    (h : List.Forall₂ (fun i => Writes text i.1 i.2) is clauses) (imports : Imports) :
    clauses.foldl (fun acc c => addClause text (Identifier.dropLeading shared) c acc) imports
      = addEntries (is.map fun i => i.2.entry (some shared)) imports := by
  have hpath (path : String) : Identifier.qualify (Identifier.dropLeading shared) path
      = Identifier.dropLeading shared ++ "\\" ++ path := by
    unfold Identifier.qualify
    rw [hnamed]
    exact if_neg Bool.false_ne_true
  induction h generalizing imports with
  | nil => rfl
  | cons hi hrest ih =>
    rw [List.foldl_cons, addClause_writes hi, hpath, ih]
    rfl

/-- The members of a group are those of its parts that say something. -/
theorem filter_members {is : List (Option ImportMark × WrittenImport)}
    (h : List.Forall₂ (fun i => Writes text i.1 i.2) is (spoken n)) :
    (n.children.filter fun c => memberKinds.contains c.kind) = spoken n := by
  have hmember {is : List (Option ImportMark × WrittenImport)} {cs : List Node}
      (h : List.Forall₂ (fun i => Writes text i.1 i.2) is cs) :
      ∀ c ∈ cs, memberKinds.contains c.kind = true := by
    induction h with
    | nil => exact fun c hc => absurd hc List.not_mem_nil
    | cons hi _ ih => exact List.forall_mem_cons.mpr ⟨hi.kind, ih⟩
  refine List.filter_congr fun c hc => ?_
  cases hsilent : isSilent c with
  | false => exact hmember h c (List.mem_filter.mpr ⟨hc, by rw [hsilent]; rfl⟩)
  | true =>
    have hkinds : ∀ k ∈ silentKinds, memberKinds.contains k = false := by decide
    exact hkinds _ (kind_of_isSilent hsilent)

/-- A declaration adds the imports that it is taken to make. -/
theorem addDeclaration_eq {d : ImportDeclaration} (h : d.WrittenAs text n) (imports : Imports) :
    addDeclaration text n imports = addEntries d.taken imports := by
  unfold addDeclaration
  rw [addParts_spoken]
  cases h with
  | @list mark first more _ clause clauses hn hkind hfirst hmore =>
    have hunmarked :
        ¬(n.children.any fun c => c.kind == "function" || c.kind == "const") = true := by
      rw [any_mark_iff, hn]
      rintro ⟨c, hc, hmark⟩
      rw [hkind c hc] at hmark
      revert hmark
      decide
    have hall : List.Forall₂ (fun i => Writes text i.1 i.2)
        ((mark, first) :: more.map fun i => (none, i)) (clause :: clauses) :=
      .cons hfirst (List.forall₂_map_left_iff.mpr hmore)
    rw [if_neg hunmarked]
    show addParts text "" (spoken n) imports = _
    rw [hn, addParts_clauses hkind hall]
    unfold ImportDeclaration.taken ImportDeclaration.entries
    rw [if_neg (by exact Bool.false_ne_true)]
    simp only [List.map_cons, List.map_map, Function.comp_def]
  | @group mark shared members _ path body marks hn hmark hpath hshared hnamed hbody hmembers =>
    cases hmark with
    | marked mark hkind hfield =>
      have hmarked := WritesMark.kind (.marked mark hkind hfield) (List.mem_singleton.mpr rfl)
      rw [if_pos (any_mark_iff.mpr ⟨_, by rw [hn]; exact List.mem_cons_self .., hmarked⟩)]
      rfl
    | unmarked =>
      have hunmarked :
          ¬(n.children.any fun c => c.kind == "function" || c.kind == "const") = true := by
        rw [any_mark_iff, hn]
        rintro ⟨c, hc, hmark⟩
        rcases List.mem_cons.mp hc with rfl | hc
        · rcases hmark with hmark | hmark <;> rw [hmark] at hpath <;> revert hpath <;> decide
        · rw [List.mem_singleton.mp hc, hbody] at hmark
          revert hmark
          decide
      rw [if_neg hunmarked]
      show addParts text "" (spoken n) imports = _
      rw [hn, List.nil_append, addParts, if_pos hpath, hshared, addParts, hbody, if_neg (by decide),
        if_neg (by decide), if_pos (by decide), filter_members hmembers,
        foldl_addClause hnamed hmembers, addParts]
      unfold ImportDeclaration.taken ImportDeclaration.entries
      rw [if_neg (by exact Bool.false_ne_true), List.map_map]
      rfl

/-- Imports that do not give an alias make no difference to it. -/
theorem lookup_unmarked {es : List (Option ImportMark × (String × String))} {short : String}
    (h : ∀ e ∈ es, e.1.isSome = true → e.2.1 ≠ short) :
    ((es.filter (·.1.isNone)).map (·.2)).reverse.lookup short
      = (es.map (·.2)).reverse.lookup short := by
  induction es with
  | nil => rfl
  | cons e rest ih =>
    have hrest := ih fun e' he' => h e' (List.mem_cons_of_mem _ he')
    obtain ⟨mark, added, path⟩ := e
    cases mark with
    | none =>
      rw [List.filter_cons_of_pos rfl, List.map_cons, List.map_cons, List.reverse_cons,
        List.reverse_cons, List.lookup_append, List.lookup_append, hrest]
    | some mark =>
      have hadded : short ≠ added := fun heq => h _ (List.mem_cons_self ..) rfl heq.symm
      rw [List.filter_cons_of_neg (by exact Bool.false_ne_true), hrest, List.map_cons,
        List.reverse_cons, List.lookup_append, List.lookup_cons, beq_false_of_ne hadded,
        List.lookup_nil, Option.or_none]

/-- A declaration is taken to import what its class-likes are, unless a function or a constant
is taken for one. -/
theorem lookup_classLikes_iff (d : ImportDeclaration) :
    (∀ short, d.classLikes.reverse.lookup short = d.taken.reverse.lookup short)
      ↔ ∀ e ∈ d.misread, d.classLikes.reverse.lookup e.1 = d.taken.reverse.lookup e.1 := by
  refine ⟨fun h e _ => h e.1, fun h short => ?_⟩
  unfold ImportDeclaration.misread at h
  unfold ImportDeclaration.taken at h ⊢
  by_cases hgroup : d.isMarkedGroup = true
  · have hnone : d.classLikes = [] := by
      cases d with
      | list => cases hgroup
      | group mark shared members =>
        obtain ⟨m, rfl⟩ := Option.isSome_iff_exists.mp hgroup
        unfold ImportDeclaration.classLikes ImportDeclaration.entries
        rw [List.map_eq_nil_iff, List.filter_eq_nil_iff]
        intro e he
        obtain ⟨i, -, rfl⟩ := List.mem_map.mp he
        exact Bool.false_ne_true
    rw [if_pos hgroup, hnone]
  · rw [if_neg hgroup] at h ⊢
    by_cases halias : ∃ e ∈ d.entries, e.1.isSome = true ∧ e.2.1 = short
    · obtain ⟨e, he, hmark, rfl⟩ := halias
      have hsame := h e.2 (List.mem_map_of_mem (List.mem_filter.mpr ⟨he, hmark⟩))
      rw [if_neg hgroup] at hsame
      exact hsame
    · exact lookup_unmarked fun e he hmark heq => halias ⟨e, he, hmark, heq⟩

/-- A declaration of imports sets the aliases of the imports that it is taken to make, each
to the full path of the last of them, and leaves the others as they were; no alias has two
entries. So it makes exactly the imports of its class-likes if and only if these give each
alias of a function or a constant that is taken for a class-like the path that it gets. -/
theorem addDeclaration_written {d : ImportDeclaration} (h : d.WrittenAs text n) :
    (∀ imports short, (addDeclaration text n imports).lookup short
        = (d.taken.reverse.lookup short).or (imports.lookup short))
      ∧ (∀ imports : Imports, (imports.map (·.1)).Nodup →
        ((addDeclaration text n imports).map (·.1)).Nodup)
      ∧ ((∀ imports short, (addDeclaration text n imports).lookup short
          = (d.classLikes.reverse.lookup short).or (imports.lookup short))
        ↔ ∀ e ∈ d.misread, d.classLikes.reverse.lookup e.1 = d.taken.reverse.lookup e.1) := by
  have hlookup (imports : Imports) (short : String) :
      (addDeclaration text n imports).lookup short
        = (d.taken.reverse.lookup short).or (imports.lookup short) := by
    rw [addDeclaration_eq h, lookup_addEntries]
  refine ⟨hlookup, fun imports hnodup => ?_, ?_⟩
  · rw [addDeclaration_eq h]
    exact nodup_addEntries _ hnodup
  · rw [← lookup_classLikes_iff]
    constructor
    · intro hright short
      have hnone := (hright [] short).symm.trans (hlookup [] short)
      rwa [List.lookup_nil, Option.or_none, Option.or_none] at hnone
    · intro hsame imports short
      rw [hlookup, hsame]

end Imports

/-! ## A group of a class and a function -/

/-- A text with a group of imports one of which is marked. -/
def mixedText : String := "<?php use A\\\x7bB as C, function f\x7d;"

/-- The alias of the class. -/
def mixedAlias : Node := ⟨"name", 18, 19, some "alias", true, false, []⟩

/-- The import of a class. -/
def mixedClass : Node :=
  ⟨"namespace_use_clause", 13, 19, none, true, false,
    [⟨"name", 13, 14, none, true, false, []⟩, ⟨"as", 15, 17, none, false, false, []⟩, mixedAlias]⟩

/-- The import of a function. -/
def mixedFunction : Node :=
  ⟨"namespace_use_clause", 21, 31, none, true, false,
    [⟨"function", 21, 29, some "type", false, false, []⟩, ⟨"name", 30, 31, none, true, false, []⟩]⟩

/-- The members of the group. -/
def mixedBody : Node :=
  ⟨"namespace_use_group", 12, 32, some "body", true, false,
    [⟨"\x7b", 12, 13, none, false, false, []⟩, mixedClass, ⟨",", 19, 20, none, false, false, []⟩,
      mixedFunction, ⟨"\x7d", 31, 32, none, false, false, []⟩]⟩

/-- The declaration in the text. -/
def mixedNode : Node :=
  ⟨"namespace_use_declaration", 6, 33, none, true, false,
    [⟨"use", 6, 9, none, false, false, []⟩,
      ⟨"namespace_name", 10, 11, none, true, false, [⟨"name", 10, 11, none, true, false, []⟩]⟩,
      ⟨"\\", 11, 12, none, false, false, []⟩, mixedBody, ⟨";", 32, 33, none, false, false, []⟩]⟩

/-- The declaration as it is written. -/
def mixedGroup : ImportDeclaration :=
  .group none "A" [(none, ⟨"B", some "C"⟩), (some .function, ⟨"f", none⟩)]

/-- The declaration imports one class-like, and the function is taken for another. -/
theorem Imports.addDeclaration_mixedGroup :
    mixedGroup.WrittenAs (Source.ofString mixedText).text mixedNode
      ∧ mixedGroup.classLikes = [("c", "A\\B")]
      ∧ (addDeclaration (Source.ofString mixedText).text mixedNode []).lookup "c" = some "A\\B"
      ∧ (addDeclaration (Source.ofString mixedText).text mixedNode []).lookup "f"
        = some "A\\f" := by
  have hgiven : (Source.ofString mixedText).text mixedAlias = "C" := by rfl
  have halias : WritesAlias (Source.ofString mixedText).text (some "C") [mixedAlias] :=
    hgiven ▸ .here rfl rfl
  have hclass : Writes (Source.ofString mixedText).text none ⟨"B", some "C"⟩ mixedClass :=
    ⟨by rfl, _, _, _, by rfl, .unmarked, by rfl, by rfl, by rfl, halias⟩
  have hfunction : Writes (Source.ofString mixedText).text (some .function) ⟨"f", none⟩
      mixedFunction :=
    ⟨by rfl, _, _, _, by rfl, .marked _ (by rfl) (by rfl), by rfl, by rfl, by rfl, .absent⟩
  have hmembers : List.Forall₂ (fun m => Writes (Source.ofString mixedText).text m.1 m.2)
      [(none, ⟨"B", some "C"⟩), (some .function, ⟨"f", none⟩)] (spoken mixedBody) :=
    .cons hclass (.cons hfunction .nil)
  have hparts : spoken mixedNode
      = [] ++ [⟨"namespace_name", 10, 11, none, true, false,
        [⟨"name", 10, 11, none, true, false, []⟩]⟩, mixedBody] := by rfl
  have hwritten : mixedGroup.WrittenAs (Source.ofString mixedText).text mixedNode :=
    .group hparts .unmarked (by rfl) (by rfl) (by rfl) (by rfl) hmembers
  obtain ⟨hlookup, -, -⟩ := Imports.addDeclaration_written hwritten
  exact ⟨hwritten, by rfl, by rw [hlookup]; rfl, by rw [hlookup]; rfl⟩

end StaticReflection
