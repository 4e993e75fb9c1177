import StaticReflection.Proofs.Declaration.Recased
import StaticReflection.Proofs.Reflection.Progress

/-!
# Classes found by references in either letter case

A class-like refers to others by the names in its clauses, by those of the traits it uses, and
by the scopes of the constants in its expressions. Two worlds whose class-likes are pairwise
the same, but for the letter case of these names, answer their references alike.

> `Store.references_recased`: after any calls and amid any folds, a reference and the same one
in another letter case find class-likes that stand at the same position of their worlds, or
neither finds any, and both fail in the same way.

A reference to a constant is asked of the class that `Reflector.located` comes to
(`resolveConstantWith_eq`). Sources whose texts differ in letter case only, and which declare
the same class-likes, make such worlds (`World.recased_of_sources`).
-/

namespace StaticReflection

open Folding Identifier Outcome Reflector Store

/-! ## Where classes are referred to -/

namespace ReflectedClass

/-- The nodes in a part of a declaration that name classes. -/
def namingNodes (n : Node) : List Node := n.children.filter fun m => nameKinds.contains m.kind

variable (c : ReflectedClass)

/-- The nodes that name classes in the first clause of a kind. -/
def clauseNodes (kind : String) : List Node :=
  ((c.node.childOfKind? kind).map namingNodes).getD []

/-- The nodes that name the traits a class uses. -/
def traitNodes : List Node :=
  match c.body? with
  | none => []
  | some body => (body.children.filter (·.kind == "use_declaration")).flatMap namingNodes

theorem clauseNames_eq (kind : String) :
    c.clauseNames kind = (c.clauseNodes kind).map fun n => c.resolveName (c.source.text n) := by
  unfold clauseNames clauseNodes
  cases c.node.childOfKind? kind <;> rfl

theorem traitNames_map :
    c.traitNames = c.traitNodes.map fun n => c.resolveName (c.source.text n) := by
  unfold traitNames traitNodes
  cases c.body? with
  | none => rfl
  | some body =>
    simp only
    rw [List.map_flatMap]
    rfl

/-- A class-like and the same one with the names of classes in it in another letter case. -/
structure Recased (c d : ReflectedClass) : Prop where
  kind : d.classLike.kind = c.classLike.kind
  shortName : d.classLike.shortName = c.classLike.shortName
  scope : d.classLike.scope = c.classLike.scope
  clauses : ∀ kind, List.Forall₂ (fun m n => SameLetters (c.source.text m) (d.source.text n))
    (c.clauseNodes kind) (d.clauseNodes kind)
  traits : List.Forall₂ (fun m n => SameLetters (c.source.text m) (d.source.text n))
    c.traitNodes d.traitNodes

namespace Recased

variable {c d : ReflectedClass}

theorem key (h : Recased c d) : d.key = c.key := by
  unfold ReflectedClass.key ClassLike.key ClassLike.name
  rw [h.scope, h.shortName]

theorem resolveName (h : Recased c d) {a b : String} (hab : SameLetters a b) :
    SameLetters (c.resolveName a) (d.resolveName b) := by
  unfold ReflectedClass.resolveName
  rw [h.scope]
  exact c.classLike.scope.resolve_sameLetters hab

theorem resolveNames (h : Recased c d) {ms ns : List Node}
    (hnodes : List.Forall₂ (fun m n => SameLetters (c.source.text m) (d.source.text n)) ms ns) :
    List.Forall₂ SameLetters (ms.map fun n => c.resolveName (c.source.text n))
      (ns.map fun n => d.resolveName (d.source.text n)) := by
  rw [List.forall₂_map_left_iff, List.forall₂_map_right_iff]
  exact hnodes.imp fun _ _ hmn => h.resolveName hmn

theorem clauseNames (h : Recased c d) (kind : String) :
    List.Forall₂ SameLetters (c.clauseNames kind) (d.clauseNames kind) := by
  rw [clauseNames_eq, clauseNames_eq]
  exact h.resolveNames (h.clauses kind)

theorem interfaceNames (h : Recased c d) :
    List.Forall₂ SameLetters c.interfaceNames d.interfaceNames := by
  unfold ReflectedClass.interfaceNames isKind
  rw [h.kind]
  exact h.clauseNames _

theorem traitNames (h : Recased c d) :
    List.Forall₂ SameLetters c.traitNames d.traitNames := by
  rw [traitNames_map, traitNames_map]
  exact h.resolveNames h.traits

theorem parentName? (h : Recased c d) :
    (c.parentName? = none ∧ d.parentName? = none)
      ∨ ∃ a b, c.parentName? = some a ∧ d.parentName? = some b ∧ SameLetters a b := by
  have hclause := h.clauseNames "base_clause"
  unfold ReflectedClass.parentName? isKind
  rw [h.kind]
  split
  · cases hc : c.clauseNames "base_clause" with
    | nil =>
      rw [hc, List.forall₂_nil_left_iff] at hclause
      exact .inl ⟨rfl, by rw [hclause]; rfl⟩
    | cons a as =>
      rw [hc] at hclause
      obtain ⟨b, bs, hab, -, hd⟩ := List.forall₂_cons_left_iff.mp hclause
      exact .inr ⟨a, b, rfl, by rw [hd]; rfl, hab⟩
  · exact .inl ⟨rfl, rfl⟩

end Recased

end ReflectedClass

/-! ## Worlds -/

/-- Two worlds whose class-likes are pairwise the same, but for the letter case of the names
they refer to. -/
def World.Recased (w w' : World) : Prop := List.Forall₂ ReflectedClass.Recased w.classes w'.classes

/-- Two sources with the same tree and the same class-likes, whose bytes differ in the case of
letters only. -/
structure ParsedSource.Recased (p q : ParsedSource) : Prop where
  root : q.root = p.root
  letters : p.source.SameLetters q.source
  declared : ClassLike.all q = ClassLike.all p

theorem ParsedSource.Recased.classesIn {p q : ParsedSource} (h : p.Recased q) :
    List.Forall₂ ReflectedClass.Recased (World.classesIn p) (World.classesIn q) := by
  unfold World.classesIn
  rw [h.declared, List.forall₂_map_left_iff, List.forall₂_map_right_iff, List.forall₂_same]
  intro e _
  have hnodes (ns : List Node) :
      List.Forall₂ (fun m n => SameLetters (p.text m) (q.text n)) ns ns :=
    List.forall₂_same.mpr fun n _ => Source.sameLetters_text h.letters n
  exact ⟨rfl, rfl, rfl, fun _ => hnodes _, hnodes _⟩

/-- Sources that differ in letter case only make worlds that do. -/
theorem World.recased_of_sources {w w' : World}
    (h : List.Forall₂ ParsedSource.Recased w.sources w'.sources) : w.Recased w' := by
  unfold World.Recased World.classes
  generalize w.sources = ps at h
  generalize w'.sources = qs at h
  induction h with
  | nil => exact .nil
  | cons hpq _ ih =>
    rw [List.flatMap_cons, List.flatMap_cons]
    exact List.rel_append hpq.classesIn ih

/-- What two lookups come to that find class-likes at one position of their worlds, or fail in
the same way. -/
inductive World.SameLookup (w w' : World) :
    Outcome (Option ReflectedClass) → Outcome (Option ReflectedClass) → Prop
  | found {i : Nat} {c d : ReflectedClass} (hc : w.classes[i]? = some c)
      (hd : w'.classes[i]? = some d) : SameLookup w w' (.ok (some c)) (.ok (some d))
  /-- There is nothing to look up. -/
  | nothing : SameLookup w w' (.ok none) (.ok none)
  | missing {a b : String} (hab : SameLetters a b) :
      SameLookup w w' (.error (.classNotFound a)) (.error (.classNotFound b))
  | unnamed {a b : String} (hab : SameLetters a b) :
      SameLookup w w' (.error (.emptyIdentifier a)) (.error (.emptyIdentifier b))
  | unlocated {a b scope scope' constant : String} (hab : SameLetters a b)
      (hscope : SameLetters scope scope') :
      SameLookup w w' (.error (.unfoldable (.classNotLocated a scope constant)))
        (.error (.unfoldable (.classNotLocated b scope' constant)))

section

variable {w w' : World} {c d : ReflectedClass} {a b : String} {i : Nat}

theorem World.Recased.find? (h : w.Recased w') (key : String) :
    (w.find? key = none ∧ w'.find? key = none)
      ∨ ∃ (i : Nat) (c d : ReflectedClass), w.classes[i]? = some c ∧ w'.classes[i]? = some d
        ∧ w.find? key = some c ∧ w'.find? key = some d := by
  unfold World.Recased at h
  unfold World.find?
  generalize w.classes = cs at h
  generalize w'.classes = ds at h
  induction h with
  | nil => exact .inl ⟨rfl, rfl⟩
  | @cons c d cs ds hcd _ ih =>
    by_cases hkey : (c.key == key) = true
    · have hkey' : (d.key == key) = true := by rw [hcd.key]; exact hkey
      exact .inr ⟨0, c, d, rfl, rfl, List.find?_cons_of_pos hkey, List.find?_cons_of_pos hkey'⟩
    · have hkey' : ¬(d.key == key) = true := by rw [hcd.key]; exact hkey
      have hskip : (c :: cs).find? (·.key == key) = cs.find? (·.key == key) :=
        List.find?_cons_of_neg hkey
      have hskip' : (d :: ds).find? (·.key == key) = ds.find? (·.key == key) :=
        List.find?_cons_of_neg hkey'
      rw [hskip, hskip']
      rcases ih with hnone | ⟨i, e, e', he, he', hfind, hfind'⟩
      · exact .inl hnone
      · exact .inr ⟨i + 1, e, e', he, he', hfind, hfind'⟩

/-- Identifiers that differ in letter case only are answered alike. -/
theorem World.Recased.answer (h : w.Recased w') (hab : SameLetters a b) :
    (∃ (i : Nat) (c d : ReflectedClass), w.classes[i]? = some c ∧ w'.classes[i]? = some d
        ∧ w.answer a = .ok c ∧ w'.answer b = .ok d)
      ∨ ∃ f g, w.answer a = .error f ∧ w'.answer b = .error g
        ∧ w.SameLookup w' (.error f) (.error g) := by
  have hkey : normalize a = normalize b := normalize_congr (lower_congr hab)
  unfold World.answer
  simp only
  rw [hkey]
  by_cases hempty : (normalize b).isEmpty = true
  · rw [if_pos hempty, if_pos hempty]
    exact .inr ⟨_, _, rfl, rfl, .unnamed hab⟩
  · rw [if_neg hempty, if_neg hempty]
    rcases h.find? (normalize b) with ⟨hc, hd⟩ | ⟨i, c, d, hc, hd, hfind, hfind'⟩
    · rw [hc, hd]
      exact .inr ⟨_, _, rfl, rfl, .missing hab⟩
    · rw [hfind, hfind']
      exact .inl ⟨i, c, d, hc, hd, rfl, rfl⟩

theorem World.Recased.answer_some (h : w.Recased w') (hab : SameLetters a b) :
    w.SameLookup w' (do return some (← w.answer a)) (do return some (← w'.answer b)) := by
  rcases h.answer hab with ⟨i, c, d, hc, hd, ha, hb⟩ | ⟨f, g, ha, hb, hfail⟩
  · rw [ha, hb]
    exact .found hc hd
  · rw [ha, hb]
    exact hfail

theorem World.Recased.parent? (h : w.Recased w') (hcd : c.Recased d) :
    w.SameLookup w' (w.parent? c) (w'.parent? d) := by
  unfold World.parent?
  rcases hcd.parentName? with ⟨hc, hd⟩ | ⟨a, b, hc, hd, hab⟩
  · rw [hc, hd]
    exact .nothing
  · rw [hc, hd]
    exact h.answer_some hab

/-! ## Lookups -/

/-- The class that a reference to a constant names. -/
def Reflector.locateNamed (name scope constant : String) : Query ReflectedClass :=
  tryCatch (reflect name) fun f =>
    if f.isNotFound then Folding.unfoldable (.classNotLocated name scope constant) else throw f

/-- The class that a reference to a constant is asked of, if there is one. -/
def Reflector.located (c : ReflectedClass) (scope constant : String) :
    Query (Option ReflectedClass) := do
  let lowered := LetterCase.lower scope
  if lowered == "self" || lowered == "static" then return some c
  else if lowered == "parent" then parent c
  else return some (← locateNamed (c.resolveName scope) scope constant)

/-- A reference to a constant asks the class that it leads to, if it needs one. -/
theorem resolveConstantWith_eq (valueIn : ReflectedClass → String → Query Value)
    (c : ReflectedClass) (scope : String) {constant : String}
    (hneeds : asksForName constant = true →
      NameScope.relativeWords.contains (LetterCase.lower scope) = true) :
    resolveConstantWith valueIn c scope constant = (do
      match ← located c scope constant with
      | none => Folding.unfoldable (.noParent c.name constant)
      | some d =>
        if asksForName constant then return Value.ofString d.name else valueIn d constant) := by
  unfold resolveConstantWith located
  simp only
  by_cases hown : (LetterCase.lower scope == "self" || LetterCase.lower scope == "static") = true
  · rw [if_pos hown, if_pos hown]
    rfl
  rw [if_neg hown, if_neg hown]
  by_cases hparent : (LetterCase.lower scope == "parent") = true
  · rw [if_pos hparent, if_pos hparent]
    refine congrArg (parent c >>= ·) (funext fun found => ?_)
    cases found <;> rfl
  rw [if_neg hparent, if_neg hparent]
  have hasks : asksForName constant = false := by
    -- the scope is none of the words
    by_contra hasks
    have hword := hneeds (by simpa using hasks)
    rw [NameScope.contains_relativeWords_iff] at hword
    simp only [Bool.or_eq_true, beq_iff_eq] at hown hparent
    tauto
  rw [hasks, bind_assoc]
  rfl

variable {L L' : List ConstantKey} {K K' : List String} {s s' : Store}

theorem World.Recased.reflect (h : w.Recased w') (hw : w.IsStatic) (hw' : w'.IsStatic)
    (hab : SameLetters a b) (hs : s.Within w L K) (hs' : s'.Within w' L' K') :
    w.SameLookup w' (outcome (do return some (← Reflector.reflect a)) s)
      (outcome (do return some (← Reflector.reflect b)) s') := by
  have hcomes := (reflect_comes hw a).bind (fun d _ => .pure (a := some d)) s hs
  have hcomes' := (reflect_comes hw' b).bind (fun d _ => .pure (a := some d)) s' hs'
  rw [hcomes.1, hcomes'.1]
  exact h.answer_some hab

theorem World.Recased.parent (h : w.Recased w') (hw : w.IsStatic) (hw' : w'.IsStatic)
    (hcd : c.Recased d) (hs : s.Within w L K) (hs' : s'.Within w' L' K') :
    w.SameLookup w' (outcome (Reflector.parent c) s) (outcome (Reflector.parent d) s') := by
  rw [(parent_comes hw c s hs).1, (parent_comes hw' d s' hs').1]
  exact h.parent? hcd

theorem locateNamed_ok (hw : w.IsStatic) {name : String} {e : ReflectedClass}
    (hans : w.answer name = .ok e) (scope constant : String) :
    Comes (Store.Within w L K) (locateNamed name scope constant) (.ok e) (Store.Within w L K) := by
  have hreflect := reflect_comes (L := L) (K := K) hw name
  rw [hans] at hreflect
  exact hreflect.tryCatch_ok

theorem locateNamed_error (hw : w.IsStatic) {name : String} {f : Failure}
    (hans : w.answer name = .error f) (scope constant : String) :
    Comes (Store.Within w L K) (locateNamed name scope constant)
      (.error (.unfoldable (.classNotLocated name scope constant))) (Store.Within w L K) := by
  have hreflect := reflect_comes (L := L) (K := K) hw name
  rw [hans] at hreflect
  refine hreflect.tryCatch_error ?_
  rw [if_pos (World.isNotFound_of_answer hans)]
  exact .throw

/-- A scope in either letter case leads to the same class. -/
theorem World.Recased.located (h : w.Recased w') (hw : w.IsStatic) (hw' : w'.IsStatic)
    (hc : w.classes[i]? = some c) (hd : w'.classes[i]? = some d) (hcd : c.Recased d)
    (hab : SameLetters a b) (constant : String) (hs : s.Within w L K) (hs' : s'.Within w' L' K') :
    w.SameLookup w' (outcome (Reflector.located c a constant) s)
      (outcome (Reflector.located d b constant) s') := by
  unfold Reflector.located
  simp only
  rw [lower_congr hab]
  by_cases hown : (LetterCase.lower b == "self" || LetterCase.lower b == "static") = true
  · rw [if_pos hown, if_pos hown]
    exact .found hc hd
  rw [if_neg hown, if_neg hown]
  by_cases hparent : (LetterCase.lower b == "parent") = true
  · rw [if_pos hparent, if_pos hparent]
    exact h.parent hw hw' hcd hs hs'
  rw [if_neg hparent, if_neg hparent]
  have hname := hcd.resolveName hab
  rcases h.answer hname with ⟨j, e, e', he, he', hans, hans'⟩ | ⟨f, g, hans, hans', -⟩
  · rw [outcome_bind_ok (locateNamed_ok hw hans a constant s hs).1,
      outcome_bind_ok (locateNamed_ok hw' hans' b constant s' hs').1]
    exact .found he he'
  · rw [outcome_bind_error (locateNamed_error hw hans a constant s hs).1,
      outcome_bind_error (locateNamed_error hw' hans' b constant s' hs').1]
    exact .unlocated hname hab

end

/-- The references from a class and from the same one in other letters, each asked of a store
of its own world. -/
structure World.SameReferences (w w' : World) (s s' : Store) (c d : ReflectedClass) : Prop where
  parent : w.SameLookup w' (outcome (Reflector.parent c) s) (outcome (Reflector.parent d) s')
  interfaces : List.Forall₂ (fun a b => w.SameLookup w'
    (outcome (do return some (← reflect a)) s) (outcome (do return some (← reflect b)) s'))
      c.interfaceNames d.interfaceNames
  traits : List.Forall₂ (fun a b => w.SameLookup w'
    (outcome (do return some (← reflect a)) s) (outcome (do return some (← reflect b)) s'))
      c.traitNames d.traitNames
  /-- The scope of a constant may be in any letter case. -/
  scopes : ∀ a b constant, SameLetters a b →
    w.SameLookup w' (outcome (located c a constant) s) (outcome (located d b constant) s')

/-- Over sources that do not change, the letter case of a reference makes no difference, after
any calls and amid any folds: names in either case resolve to names with one key, a constant is
asked of the class that its scope leads to, and the parent, the interfaces, the traits and the
scopes of constants lead from two classes that differ in the case of their references only to
class-likes at one position of their worlds, or fail in the same way. -/
theorem Store.references_recased (w w' : World) (hw : w.IsStatic) (hw' : w'.IsStatic)
    (h : w.Recased w') (calls calls' : List Call) (L L' : List ConstantKey) :
    (∀ (scope : NameScope) (a b : String), SameLetters a b →
        normalize (scope.resolve a) = normalize (scope.resolve b))
      ∧ (∀ (valueIn : ReflectedClass → String → Query Value) (c : ReflectedClass)
          (scope constant : String),
        (asksForName constant = true →
          NameScope.relativeWords.contains (LetterCase.lower scope) = true) →
        resolveConstantWith valueIn c scope constant = (do
          match ← located c scope constant with
          | none => Folding.unfoldable (.noParent c.name constant)
          | some d =>
            if asksForName constant then return Value.ofString d.name else valueIn d constant))
      ∧ ∀ (i : Nat) (c d : ReflectedClass), w.classes[i]? = some c → w'.classes[i]? = some d →
        w.SameReferences w' (amid w calls L) (amid w' calls' L') c d := by
  have hs := within_amid hw calls L
  have hs' := within_amid hw' calls' L'
  refine ⟨fun scope _ _ hab => scope.normalize_resolve hab,
    fun valueIn c scope _ hneeds => resolveConstantWith_eq valueIn c scope hneeds,
    fun i c d hc hd => ?_⟩
  obtain ⟨hi, rfl⟩ := List.getElem?_eq_some_iff.mp hc
  obtain ⟨hi', rfl⟩ := List.getElem?_eq_some_iff.mp hd
  have hcd : (w.classes[i]).Recased w'.classes[i] := List.Forall₂.get h hi hi'
  have hnames {as bs : List String} (hab : List.Forall₂ SameLetters as bs) :=
    hab.imp fun _ _ hab => h.reflect hw hw' hab hs hs'
  exact ⟨h.parent hw hw' hcd hs hs', hnames hcd.interfaceNames, hnames hcd.traitNames,
    fun _ _ constant hab => h.located hw hw' hc hd hcd hab constant hs hs'⟩

/-! ## A class that extends another by its name in small letters -/

/-- A text with a class, and one that extends it by some name. -/
def extendingText (name : String) : String :=
  "<?php class A \x7b\x7d class B extends " ++ name ++ " \x7b\x7d"

/-- The first declaration in `extendingText`. -/
def extendedClass : Node :=
  ⟨"class_declaration", 6, 16, none, true, false,
    [⟨"class", 6, 11, none, false, false, []⟩, ⟨"name", 12, 13, some "name", true, false, []⟩,
      ⟨"declaration_list", 14, 16, some "body", true, false, []⟩]⟩

/-- The second declaration in `extendingText`, for a name of one letter. -/
def extendingClass : Node :=
  ⟨"class_declaration", 17, 37, none, true, false,
    [⟨"class", 17, 22, none, false, false, []⟩, ⟨"name", 23, 24, some "name", true, false, []⟩,
      ⟨"base_clause", 25, 34, none, true, false, [⟨"name", 33, 34, none, true, false, []⟩]⟩,
      ⟨"declaration_list", 35, 37, some "body", true, false, []⟩]⟩

/-- A world with nothing but that text. -/
def extendingWorld (name : String) : World :=
  ⟨FileTree.empty [],
    [(extendingText name,
      ⟨"program", 0, 37, none, true, false, [extendedClass, extendingClass]⟩)],
    [.text (extendingText name) "<string>"], []⟩

/-- The source in that world. -/
def extendingSource (name : String) : ParsedSource :=
  (extendingWorld name).trees.parse (extendingText name) "<string>"

theorem root_extendingSource {name : String} (h : name = "A" ∨ name = "a") :
    (extendingSource name).root
      = ⟨"program", 0, 37, none, true, false, [extendedClass, extendingClass]⟩ := by
  rcases h with rfl | rfl <;> rfl

/-- The first class in that world. -/
def extended (name : String) : ReflectedClass :=
  ⟨⟨⟨extendedClass, []⟩, .classKind, "A", NameScope.empty⟩, extendingSource name⟩

/-- The second class in that world. -/
def extending (name : String) : ReflectedClass :=
  ⟨⟨⟨extendingClass, [extendedClass]⟩, .classKind, "B", NameScope.empty⟩, extendingSource name⟩

theorem all_extendingSource {name : String} (h : name = "A" ∨ name = "a") :
    ClassLike.all (extendingSource name)
      = [(extended name).classLike, (extending name).classLike] := by
  have hchildren : (extendingSource name).root.children = [extendedClass, extendingClass] := by
    rw [root_extendingSource h]
  have hsecond : ClassLike.walk (extendingSource name).text [extendedClass] [extendingClass]
      NameScope.empty = ([(extending name).classLike], []) := by
    rw [ClassLike.walk, ClassLike.walk]
    rcases h with rfl | rfl <;> rfl
  have hfirst : ClassLike.walk (extendingSource name).text [] [extendedClass, extendingClass]
      NameScope.empty = ([(extended name).classLike, (extending name).classLike], []) := by
    rw [ClassLike.walk, hsecond]
    rcases h with rfl | rfl <;> rfl
  rw [ClassLike.all, hchildren, hfirst]

theorem classes_extendingWorld {name : String} (h : name = "A" ∨ name = "a") :
    (extendingWorld name).classes = [extended name, extending name] := by
  have hsources : (extendingWorld name).sources = [extendingSource name] := rfl
  rw [World.classes, hsources, List.flatMap_singleton, World.classesIn, all_extendingSource h]
  rfl

theorem recased_extendingWorld : (extendingWorld "A").Recased (extendingWorld "a") := by
  have hletters : SameLetters (extendingText "A") (extendingText "a") := by
    unfold SameLetters
    decide +kernel
  have hsources (name : String) : (extendingWorld name).sources = [extendingSource name] := rfl
  apply World.recased_of_sources
  rw [hsources, hsources]
  refine .cons ⟨?_, Source.sameLetters_ofString hletters, ?_⟩ .nil
  · rw [root_extendingSource (.inl rfl), root_extendingSource (.inr rfl)]
  · rw [all_extendingSource (.inl rfl), all_extendingSource (.inr rfl)]
    rfl

/-- The class that extends another leads to it by either name. -/
theorem references_recased_extending :
    (extendingWorld "A").IsStatic ∧ (extendingWorld "a").IsStatic
      ∧ (extendingWorld "A").Recased (extendingWorld "a")
      ∧ (extendingWorld "A").SameReferences (extendingWorld "a")
        (amid (extendingWorld "A") [] []) (amid (extendingWorld "a") [] [])
        (extending "A") (extending "a") := by
  have hstatic (name : String) : (extendingWorld name).IsStatic := World.isStatic_of_text rfl
  refine ⟨hstatic "A", hstatic "a", recased_extendingWorld, ?_⟩
  refine (Store.references_recased (extendingWorld "A") (extendingWorld "a") (hstatic "A")
    (hstatic "a") recased_extendingWorld [] [] [] []).2.2 1 _ _ ?_ ?_
  · rw [classes_extendingWorld (.inl rfl)]
    rfl
  · rw [classes_extendingWorld (.inr rfl)]
    rfl

end StaticReflection
