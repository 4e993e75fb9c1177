import StaticReflection.Proofs.Declaration.NameScope
import StaticReflection.Proofs.Folding.Places
import StaticReflection.Proofs.Reflection.Written

/-!
# Default values and the place where they are written

A class that uses a trait has the trait's properties, and folds their default values itself.
`World.Written` says in which class-like a declaration is written, and
`Reflector.writtenFolder` what each token of its default means there. The fold of the class
reads some tokens differently (`Reflector.Displaced`): names of classes, `__NAMESPACE__`,
`__FILE__` and `__DIR__` are those of the class that has the property, and `__LINE__` is
the line on which the whole expression starts.

> `Store.default_written`: a default value is what its expression means where it is
> written if the fold comes to no displaced token; and a token that has a value of its own
> has the value that it has there exactly if it is not displaced.

A class that declares the property itself can only displace a `__LINE__`
(`Reflector.Displaced.line_of_same`).
-/

namespace StaticReflection

open Folding Outcome

theorem Value.ofString_inj {a b : String} (h : Value.ofString a = Value.ofString b) : a = b := by
  have htext : Text.ofString a = Text.ofString b := Value.text.inj h
  have hsome := congrArg Text.toString? htext
  rw [Text.toString?_ofString, Text.toString?_ofString] at hsome
  exact Option.some.inj hsome

namespace Reflector

/-! ## What a token means where it is written -/

/-- The value of a constant of a class as it is referred to in a class-like `t`, in a
declaration of the class `c`: `self`, `static` and `parent` are those of `c`. -/
def resolveWritten (c t : ReflectedClass) (scope constant : String) : Query Value :=
  if NameScope.relativeWords.contains (LetterCase.lower scope) then resolveConstant c scope constant
  else resolveConstant t scope constant

/-- What a token of a default value is folded with that stands in the class-like `t`, in a
declaration of the class `c`. -/
def writtenFolder (c t : ReflectedClass) (e : Expression) (m : Node) : Folder Store where
  text := e.source.text
  classConstant := some (resolveWritten c t)
  magic := [
    ("__CLASS__", Value.ofString c.name),
    ("__NAMESPACE__", Value.ofString t.namespaceName),
    ("__FILE__", Value.ofString (t.fileName?.getD "")),
    ("__DIR__", Value.ofString (t.directoryName?.getD "")),
    ("__LINE__", .int (e.source.source.startLine m))]

/-- What the default values of a class are folded with. -/
def defaultFolder (c : ReflectedClass) (e : Expression) : Folder Store :=
  folder c e.source (resolveConstant c) (defaultMagic c e)

/-- The magic constant that a token of an expression names, if it names one. -/
def magicNameAt? (e : Expression) (m : Node) : Option String :=
  if ExprForm.ofKind? m.kind = some .name then Folder.magicName? (e.source.text m) else none

/-- A token of a default value of the class `c` does not mean what it means in the
class-like `t` where it is written. -/
inductive Displaced (c t : ReflectedClass) (e : Expression) (m : Node) : Prop
  | namespaceName (h : magicNameAt? e m = some "__NAMESPACE__")
      (hne : c.namespaceName ≠ t.namespaceName)
  | file (h : magicNameAt? e m = some "__FILE__")
      (hne : c.fileName?.getD "" ≠ t.fileName?.getD "")
  | directory (h : magicNameAt? e m = some "__DIR__")
      (hne : c.directoryName?.getD "" ≠ t.directoryName?.getD "")
  | line (h : magicNameAt? e m = some "__LINE__")
      (hne : e.source.source.startLine e.node ≠ e.source.source.startLine m)
  | className {scope constant : String} (h : (defaultFolder c e).plan m = .constant scope constant)
      (hscope : NameScope.relativeWords.contains (LetterCase.lower scope) = false)
      (hne : c.resolveName scope ≠ t.resolveName scope)

/-- A token that has a value of its own: a literal, a name, or the name of a class. -/
def IsToken (c : ReflectedClass) (e : Expression) (m : Node) : Prop :=
  (∃ o, (defaultFolder c e).plan m = .done o)
    ∨ ∃ scope constant, (defaultFolder c e).plan m = .constant scope constant
      ∧ asksForName constant = true

section

variable {c t : ReflectedClass} {e : Expression} {m : Node}

/-- A default that its class declares itself has no displaced token but a `__LINE__` after
the first line. -/
theorem Displaced.line_of_same (h : Displaced c t e m) (hscope : c.classLike.scope = t.classLike.scope)
    (hsource : c.source = t.source) :
    magicNameAt? e m = some "__LINE__"
      ∧ e.source.source.startLine e.node ≠ e.source.source.startLine m := by
  have hfile : c.fileName? = t.fileName? := congrArg ParsedSource.fileName? hsource
  cases h with
  | namespaceName _ hne => exact absurd (congrArg NameScope.namespaceName hscope) hne
  | file _ hne => exact absurd (congrArg (·.getD "") hfile) hne
  | directory _ hne =>
    refine absurd ?_ hne
    unfold ReflectedClass.directoryName?
    rw [hfile]
  | line h hne => exact ⟨h, hne⟩
  | className _ _ hne => exact absurd (congrArg (fun s : NameScope => s.resolve _) hscope) hne

/-- Lookups in pairs with the same keys, and with the same value under the key. -/
theorem lookup_cons_congr {k key : String} {a b : Value} {ps qs : List (String × Value)}
    (h : key = k → a = b) (hrest : ps.lookup key = qs.lookup key) :
    ((k, a) :: ps).lookup key = ((k, b) :: qs).lookup key := by
  rw [List.lookup_cons, List.lookup_cons, hrest]
  by_cases hk : key = k
  · rw [h hk]
  · rw [beq_false_of_ne hk]

/-- A token that is not displaced is looked up with the same result. -/
theorem lookup_writtenFolder {key : String} (h : ¬Displaced c t e m)
    (hkey : magicNameAt? e m = some key) :
    (writtenFolder c t e m).magic.lookup key = (defaultFolder c e).magic.lookup key := by
  have here {k : String} (hk : key = k) : magicNameAt? e m = some k := hk ▸ hkey
  -- one after the other, the pairs have the same value if the key is theirs
  apply lookup_cons_congr
  · intro _
    rfl
  apply lookup_cons_congr
  · intro hk
    by_cases hne : c.namespaceName = t.namespaceName
    · rw [hne]
    · exact absurd (.namespaceName (here hk) hne) h
  apply lookup_cons_congr
  · intro hk
    by_cases hne : c.fileName?.getD "" = t.fileName?.getD ""
    · rw [hne]
    · exact absurd (.file (here hk) hne) h
  apply lookup_cons_congr
  · intro hk
    by_cases hne : c.directoryName?.getD "" = t.directoryName?.getD ""
    · rw [hne]
    · exact absurd (.directory (here hk) hne) h
  apply lookup_cons_congr
  · intro hk
    by_cases hne : e.source.source.startLine e.node = e.source.source.startLine m
    · rw [hne]
    · exact absurd (.line (here hk) hne) h
  rfl

/-- A class that is referred to by name matters by what the name resolves to. -/
theorem resolveConstant_congr {scope : String}
    (hscope : NameScope.relativeWords.contains (LetterCase.lower scope) = false)
    (hsame : c.resolveName scope = t.resolveName scope) (constant : String) :
    resolveConstant c scope constant = resolveConstant t scope constant := by
  obtain ⟨hself, hparent⟩ := NameScope.not_relative (Bool.eq_false_iff.mp hscope)
  unfold resolveConstant resolveConstantWith
  simp only
  rw [if_neg hself, if_neg hparent, if_neg hself, if_neg hparent, hsame]

/-- The name of a class is asked for without the class. -/
theorem outcome_resolveConstant_name {scope constant : String}
    (hscope : NameScope.relativeWords.contains (LetterCase.lower scope) = false)
    (hname : asksForName constant = true) (u : Store) :
    outcome (resolveConstant c scope constant) u = .ok (Value.ofString (c.resolveName scope)) := by
  obtain ⟨hself, hparent⟩ := NameScope.not_relative (Bool.eq_false_iff.mp hscope)
  unfold resolveConstant resolveConstantWith
  simp only
  rw [if_neg hself, if_neg hparent, if_pos hname]
  rfl

/-- A token that is not displaced is read as it is where it is written. -/
theorem readsAlike_of_not_displaced (h : ¬Displaced c t e m) (u : Store) :
    (defaultFolder c e).ReadsAlike (writtenFolder c t e m) m u where
  plan := by
    have hname (hform : ExprForm.ofKind? m.kind = some .name) :
        (writtenFolder c t e m).namedConstant (e.source.text m)
          = (defaultFolder c e).namedConstant (e.source.text m) := by
      apply Folder.namedConstant_congr
      intro key hkey
      exact lookup_writtenFolder h ((if_pos hform).trans hkey)
    exact Folder.plan_congr rfl hname
  resolve := by
    intro scope constant hplan
    have hresolve : resolveWritten c t scope constant = resolveConstant c scope constant := by
      unfold resolveWritten
      by_cases hscope : NameScope.relativeWords.contains (LetterCase.lower scope) = true
      · rw [if_pos hscope]
      · have hwords := Bool.eq_false_iff.mpr hscope
        rw [if_neg hscope]
        by_cases hne : c.resolveName scope = t.resolveName scope
        · exact (resolveConstant_congr hwords hne constant).symm
        · exact absurd (.className hplan hwords hne) h
    show SameAt (resolveWritten c t scope constant) (resolveConstant c scope constant) u
    rw [hresolve]
    exact .rfl

/-- A magic constant that the two tables know with different values is folded to both. -/
theorem fold_ne_of_magic {key : String} {v v' : Value} (hkey : magicNameAt? e m = some key)
    (hv : (defaultFolder c e).magic.lookup key = some v)
    (hv' : (writtenFolder c t e m).magic.lookup key = some v') (hne : v ≠ v') (u : Store) :
    outcome ((defaultFolder c e).fold m) u ≠ outcome ((writtenFolder c t e m).fold m) u := by
  unfold magicNameAt? at hkey
  split at hkey
  next hform =>
    have hfolded : (defaultFolder c e).namedConstant (e.source.text m) = .ok v :=
      Folder.namedConstant_magic hkey hv
    have hwritten : (writtenFolder c t e m).namedConstant (e.source.text m) = .ok v' :=
      Folder.namedConstant_magic hkey hv'
    rw [Folder.fold_name hform, Folder.fold_name hform]
    exact fun heq => hne (Except.ok.inj (hfolded.symm.trans (heq.trans hwritten)))
  next => cases hkey

/-- The name of a class that resolves to two names is folded to both. -/
theorem fold_ne_of_className {scope constant : String}
    (hplan : (defaultFolder c e).plan m = .constant scope constant)
    (hscope : NameScope.relativeWords.contains (LetterCase.lower scope) = false)
    (hname : asksForName constant = true) (hne : c.resolveName scope ≠ t.resolveName scope)
    (u : Store) :
    outcome ((defaultFolder c e).fold m) u ≠ outcome ((writtenFolder c t e m).fold m) u := by
  have hsame : (writtenFolder c t e m).plan m = (defaultFolder c e).plan m :=
    Folder.plan_congr rfl fun hform => absurd hform (Folder.not_name_of_constant hplan)
  have hplan' := hsame.trans hplan
  have hfolded : outcome ((defaultFolder c e).resolve m scope constant) u
      = .ok (Value.ofString (c.resolveName scope)) := outcome_resolveConstant_name hscope hname u
  have hwritten : outcome ((writtenFolder c t e m).resolve m scope constant) u
      = .ok (Value.ofString (t.resolveName scope)) := by
    show outcome (resolveWritten c t scope constant) u = _
    unfold resolveWritten
    rw [hscope, if_neg Bool.false_ne_true]
    exact outcome_resolveConstant_name hscope hname u
  rw [Folder.fold_constant hplan, Folder.fold_constant hplan', hfolded, hwritten]
  exact fun heq => hne (Value.ofString_inj (Except.ok.inj heq))

/-- A displaced token that has a value of its own has another value than where it is
written. -/
theorem fold_ne_of_displaced (h : Displaced c t e m) (htoken : IsToken c e m) (u : Store) :
    outcome ((defaultFolder c e).fold m) u ≠ outcome ((writtenFolder c t e m).fold m) u := by
  cases h with
  | namespaceName hkey hne =>
    exact fold_ne_of_magic hkey rfl rfl (fun heq => hne (Value.ofString_inj heq)) u
  | file hkey hne =>
    exact fold_ne_of_magic hkey rfl rfl (fun heq => hne (Value.ofString_inj heq)) u
  | directory hkey hne =>
    exact fold_ne_of_magic hkey rfl rfl (fun heq => hne (Value.ofString_inj heq)) u
  | line hkey hne =>
    exact fold_ne_of_magic hkey rfl rfl (fun heq => hne (Int.ofNat.inj (Value.int.inj heq))) u
  | className hplan hscope hne =>
    rcases htoken with ⟨o, ho⟩ | ⟨_, _, hplan', hname⟩
    · rw [hplan] at ho
      cases ho
    · obtain ⟨rfl, rfl⟩ := FoldPlan.constant.inj (hplan.symm.trans hplan')
      exact fold_ne_of_className hplan hscope hname hne u

/-- A token that has a value of its own has the value that it has where it is written
exactly if it is not displaced. -/
theorem fold_token_iff (htoken : IsToken c e m) (u : Store) :
    outcome ((defaultFolder c e).fold m) u = outcome ((writtenFolder c t e m).fold m) u
      ↔ ¬Displaced c t e m := by
  constructor
  · intro heq h
    exact fold_ne_of_displaced h htoken u heq
  · intro h
    have hread := readsAlike_of_not_displaced h u
    rcases htoken with ⟨o, ho⟩ | ⟨scope, constant, hplan, _⟩
    · rw [Folder.fold_done ho, Folder.fold_done (hread.plan.trans ho)]
    · rw [Folder.fold_constant hplan, Folder.fold_constant (hread.plan.trans hplan)]
      exact (hread.resolve scope constant hplan).1.symm

/-- Where the fold of a default value comes to no displaced token, it is what each token
means where it is written. -/
theorem fold_written {s : Store}
    (h : ∀ m u, (defaultFolder c e).Reaches e.node s m u → ¬Displaced c t e m) :
    SameAt (Folder.foldEach (writtenFolder c t e) e.node) ((defaultFolder c e).fold e.node) s :=
  Folder.foldEach_same fun m u hr => readsAlike_of_not_displaced (h m u hr) u

end

end Reflector

/-! ## Default values -/

open Reflector Store

/-- Over sources that do not change, after any calls, the default of a property of a class
is written in the class itself or in a trait that it uses. Wherever it is written: if the
fold comes to no displaced token the default value is what each token means there, and a
token with a value of its own has the value that it has there exactly if it is not
displaced. -/
theorem Store.default_written (w : World) (hw : w.IsStatic) (calls : List Call) (p : Property)
    (hp : w.Owns (((ofWorld w).afterCalls calls).classes.map (·.1)) p) (e : Expression)
    (he : p.declaration.default = some e) :
    ∃ c, outcome p.declaringClass ((ofWorld w).afterCalls calls) = .ok c
      ∧ (∃ t, w.Written p.declaration c t)
      ∧ ∀ t, w.Written p.declaration c t →
        e.source = t.source
          ∧ ((∀ m u, (defaultFolder c e).Reaches e.node ((ofWorld w).afterCalls calls) m u →
              ¬Displaced c t e m) →
            outcome (defaultValue p) ((ofWorld w).afterCalls calls)
              = outcome (Folder.foldEach (writtenFolder c t e) e.node)
                  ((ofWorld w).afterCalls calls))
          ∧ ∀ m u, IsToken c e m →
            (outcome ((defaultFolder c e).fold m) u = outcome ((writtenFolder c t e m).fold m) u
              ↔ ¬Displaced c t e m) := by
  have hs := (within_ofWorld.afterCalls hw calls).keys
  obtain ⟨c, ds, d, hc, hds, hd, rfl⟩ := hp
  have hmem : d ∈ ds := List.mem_of_find?_eq_some hd
  refine ⟨c, (declaringClass_comes hw hc d _ hs).1, hds.exists_written hmem, ?_⟩
  intro t ht
  refine ⟨ht.source he, ?_, ?_⟩
  · intro hplace
    -- the value is what the expression folds to in any store, and so in this one
    rw [(defaultValue_comes_fold hw hc hds hd he _ hs).1, (fold_written hplace).1]
    exact (foldDefault_comes hw hc.1 e _ hs).1.symm
  · intro m u hm
    exact fold_token_iff hm u

/-! ## A trait in another namespace -/

/-- A text with a trait and, in another namespace, a class that uses it. -/
def displacedText : String :=
  "<?php namespace A; trait T \x7b public $x = __NAMESPACE__; \x7d "
    ++ "namespace B; class C \x7b use \\A\\T; \x7d"

/-- The start of the text. -/
def displacedTag : Node := ⟨"php_tag", 0, 5, none, true, false, []⟩

/-- The start of a namespace with a name of one letter. -/
def namespaceStart (start : Nat) : Node :=
  ⟨"namespace_definition", start, start + 12, none, true, false,
    [⟨"namespace_name", start + 10, start + 11, some "name", true, false, []⟩]⟩

/-- The default value in the trait. -/
def namespaceToken : Node := ⟨"name", 41, 54, some "default_value", true, false, []⟩

/-- The property of the trait. -/
def traitProperty : Node :=
  ⟨"property_declaration", 29, 55, none, true, false,
    [⟨"visibility_modifier", 29, 35, none, true, false, []⟩,
      ⟨"property_element", 36, 54, none, true, false,
        [⟨"variable_name", 36, 38, some "name", true, false, []⟩, namespaceToken]⟩]⟩

/-- The declaration of the trait. -/
def traitNode : Node :=
  ⟨"trait_declaration", 19, 57, none, true, false,
    [⟨"name", 25, 26, some "name", true, false, []⟩,
      ⟨"declaration_list", 27, 57, some "body", true, false, [traitProperty]⟩]⟩

/-- The declaration of the class. -/
def importingNode : Node :=
  ⟨"class_declaration", 71, 92, none, true, false,
    [⟨"name", 77, 78, some "name", true, false, []⟩,
      ⟨"declaration_list", 79, 92, some "body", true, false,
        [⟨"use_declaration", 81, 90, none, true, false,
          [⟨"qualified_name", 85, 89, none, true, false, []⟩]⟩]⟩]⟩

/-- A world with nothing but the trait and the class. -/
def displacedWorld : World :=
  ⟨FileTree.empty [],
    [(displacedText, ⟨"program", 0, 92, none, true, false,
      [displacedTag, namespaceStart 6, traitNode, namespaceStart 58, importingNode]⟩)],
    [.text displacedText "<string>"], []⟩

/-- The trait. -/
def importedTrait : ReflectedClass :=
  ⟨⟨⟨traitNode, [namespaceStart 6, displacedTag]⟩, .traitKind, "T", ⟨"A", []⟩⟩,
    displacedWorld.trees.parse displacedText "<string>"⟩

/-- The class that uses it. -/
def importing : ReflectedClass :=
  ⟨⟨⟨importingNode, [namespaceStart 58, traitNode, namespaceStart 6, displacedTag]⟩, .classKind,
      "C", ⟨"B", []⟩⟩, displacedWorld.trees.parse displacedText "<string>"⟩

/-- The default value in the source. -/
def importedDefault : Expression := ⟨namespaceToken, importedTrait.source⟩

/-- The property that the trait declares. -/
def importedProperty : PropertyDeclaration :=
  { PropertyDeclaration.shared importedTrait.source ⟨traitProperty, []⟩ with
    name := "x", default := some importedDefault }

theorem classes_displacedWorld : displacedWorld.classes = [importedTrait, importing] := by
  have hsources : displacedWorld.sources = [importedTrait.source] := rfl
  have hchildren : importedTrait.source.root.children
      = [displacedTag, namespaceStart 6, traitNode, namespaceStart 58, importingNode] := rfl
  have hclass : ClassLike.walk importedTrait.source.text
      [namespaceStart 58, traitNode, namespaceStart 6, displacedTag] [importingNode] ⟨"B", []⟩
      = ([importing.classLike], []) := by
    rw [ClassLike.walk, ClassLike.walk]
    rfl
  have hsecond : ClassLike.walk importedTrait.source.text
      [traitNode, namespaceStart 6, displacedTag] [namespaceStart 58, importingNode] ⟨"A", []⟩
      = ([importing.classLike], []) := by
    refine Eq.trans ?_ (congrArg (fun r => (r.1, [])) hclass)
    rw [ClassLike.walk]
    rfl
  have htrait : ClassLike.walk importedTrait.source.text [namespaceStart 6, displacedTag]
      [traitNode, namespaceStart 58, importingNode] ⟨"A", []⟩
      = ([importedTrait.classLike, importing.classLike], []) := by
    rw [ClassLike.walk, hsecond]
    rfl
  have hfirst : ClassLike.walk importedTrait.source.text [displacedTag]
      [namespaceStart 6, traitNode, namespaceStart 58, importingNode] NameScope.empty
      = ([importedTrait.classLike, importing.classLike], []) := by
    refine Eq.trans ?_ (congrArg (fun r => (r.1, [])) htrait)
    rw [ClassLike.walk]
    rfl
  have hwalk : ClassLike.walk importedTrait.source.text []
      [displacedTag, namespaceStart 6, traitNode, namespaceStart 58, importingNode]
      NameScope.empty = ([importedTrait.classLike, importing.classLike], []) := by
    refine Eq.trans ?_ hfirst
    rw [ClassLike.walk]
    rfl
  rw [World.classes, hsources, List.flatMap_singleton, World.classesIn, ClassLike.all, hchildren,
    hwalk]
  rfl

theorem isStatic_displacedWorld : displacedWorld.IsStatic := World.isStatic_of_text rfl

theorem magicNameAt?_importedDefault :
    magicNameAt? importedDefault namespaceToken = some "__NAMESPACE__" := by
  have htext : importedDefault.source.text namespaceToken = "__NAMESPACE__" := rfl
  have hname : magicNameAt? importedDefault namespaceToken
      = Folder.magicName? (importedDefault.source.text namespaceToken) := rfl
  rw [hname, htext, Folder.magicName?, startsWith_eq]
  rfl

theorem propertyNodes_importedTrait : importedTrait.propertyNodes = [⟨traitProperty, []⟩] := rfl

theorem ofNode_traitProperty :
    PropertyDeclaration.ofNode importedTrait.source ⟨traitProperty, []⟩
      = .ok [importedProperty] := by
  have hname : PropertyDeclaration.bareName
      (importedTrait.source.text ⟨"variable_name", 36, 38, some "name", true, false, []⟩)
      = "x" := rfl
  have hparts : traitProperty.children.filterMap (PropertyDeclaration.ofPart? importedTrait.source
      (PropertyDeclaration.shared importedTrait.source ⟨traitProperty, []⟩))
      = [{ PropertyDeclaration.shared importedTrait.source ⟨traitProperty, []⟩ with
          name := PropertyDeclaration.bareName (importedTrait.source.text
            ⟨"variable_name", 36, 38, some "name", true, false, []⟩),
          default := some importedDefault }] := rfl
  have hnode : PropertyDeclaration.ofNode importedTrait.source ⟨traitProperty, []⟩
      = (traitProperty.children.filterMap (PropertyDeclaration.ofPart? importedTrait.source
          (PropertyDeclaration.shared importedTrait.source ⟨traitProperty, []⟩))).mapM
            PropertyDeclaration.named := rfl
  rw [hnode, hparts, hname]
  rfl

theorem ownDeclarations_importedTrait :
    importedTrait.ownDeclarations = .ok [importedProperty] := by
  rw [ReflectedClass.ownDeclarations, propertyNodes_importedTrait, List.foldlM_cons,
    ofNode_traitProperty]
  rfl

theorem traitNames_importing : importing.traitNames = ["A\\T"] := by
  have hnames : importing.traitNames = [importing.classLike.scope.resolve "\\A\\T"] := rfl
  have hresolve : importing.classLike.scope.resolve "\\A\\T" = "A\\T" :=
    (NameScope.resolve_eq _ _).trans rfl
  rw [hnames, hresolve]

theorem answer_importedTrait : displacedWorld.answer "A\\T" = .ok importedTrait := by
  refine World.answer_name (c := importedTrait) ?_ rfl
  rw [World.find?, classes_displacedWorld]
  rfl

theorem has_importing (K : List String) : displacedWorld.Has K importing := by
  refine ⟨?_, .inr rfl⟩
  rw [World.find?, classes_displacedWorld]
  rfl

theorem owns_importedProperty (K : List String) :
    displacedWorld.Owns K (Property.ofClass importing importedProperty) := by
  have hgathered : displacedWorld.gathered 2 importing = .ok [importedProperty] := by
    have hown : importing.ownDeclarations = .ok [] := rfl
    rw [World.gathered, hown, ok_bind, traitNames_importing, List.foldlM_cons, World.addTrait,
      answer_importedTrait, ok_bind, World.gathered, ownDeclarations_importedTrait]
    rfl
  exact ⟨importing, [importedProperty], importedProperty, has_importing K,
    .of_gathered hgathered (by intro h; cases h), rfl, rfl⟩

theorem written_importedProperty :
    displacedWorld.Written importedProperty importing importedTrait := by
  refine .used ?_ answer_importedTrait (.here ?_ ofNode_traitProperty (List.mem_cons_self ..))
  · rw [traitNames_importing]
    exact List.mem_cons_self ..
  · rw [propertyNodes_importedTrait]
    exact List.mem_cons_self ..

/-- The namespace in the default of the trait is another than where it is written. -/
theorem default_written_displaced :
    displacedWorld.IsStatic
      ∧ displacedWorld.Owns (((ofWorld displacedWorld).afterCalls []).classes.map (·.1))
        (Property.ofClass importing importedProperty)
      ∧ importedProperty.default = some importedDefault
      ∧ displacedWorld.Written importedProperty importing importedTrait
      ∧ Displaced importing importedTrait importedDefault namespaceToken
      ∧ outcome ((defaultFolder importing importedDefault).fold namespaceToken)
          (ofWorld displacedWorld)
        ≠ outcome ((writtenFolder importing importedTrait importedDefault namespaceToken).fold
          namespaceToken) (ofWorld displacedWorld) := by
  have howns := owns_importedProperty (((ofWorld displacedWorld).afterCalls []).classes.map (·.1))
  have hdisplaced : Displaced importing importedTrait importedDefault namespaceToken :=
    .namespaceName magicNameAt?_importedDefault (by decide)
  have htoken : IsToken importing importedDefault namespaceToken := .inl ⟨_, rfl⟩
  refine ⟨isStatic_displacedWorld, howns, rfl, written_importedProperty, hdisplaced, fun heq => ?_⟩
  obtain ⟨c, hc, _, hall⟩ := Store.default_written displacedWorld isStatic_displacedWorld []
    (Property.ofClass importing importedProperty) howns importedDefault rfl
  have hclass := declaringClass_comes isStatic_displacedWorld (has_importing []) importedProperty _
    (within_ofWorld (w := displacedWorld))
  obtain rfl := Except.ok.inj (hclass.1.symm.trans hc)
  have hiff := (hall importedTrait written_importedProperty).2.2 namespaceToken
    (ofWorld displacedWorld) htoken
  exact hiff.mp heq hdisplaced

end StaticReflection
