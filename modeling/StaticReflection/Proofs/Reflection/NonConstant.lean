import StaticReflection.Proofs.Folding.LeftOut
import StaticReflection.Proofs.Reflection.Lexical
import StaticReflection.Proofs.Reflection.Ancestry

/-!
# Default values that are no constants

A default value that comes to a variable, a call, the creation of an object or a closure is
refused, but not every part of a default value is looked at: the operands that another one
made unneeded are not, nor is the scope of a class constant, which is read as a text.

> `Store.default_nonConstant`: a default value that is asked for is refused wherever its fold
> comes to such an expression, and where it has a value all of them were left out.
-/

namespace StaticReflection

open Folding Outcome Reflector Store

/-- Over sources that do not change, after any calls, the default of a property of a class is
refused with the reason of every expression without a value to which its fold comes. If it
has a value then whatever is no constant in it was left out. And it fails with another error
than that the expression is no constant exactly if the fold comes to an expression that trips,
or to a class constant whose resolver fails so. -/
theorem Store.default_nonConstant (w : World) (hw : w.IsStatic) (calls : List Call) (p : Property)
    (hp : w.Owns (((ofWorld w).afterCalls calls).classes.map (·.1)) p) (e : Expression)
    (he : p.declaration.default = some e) :
    ∃ c, outcome p.declaringClass ((ofWorld w).afterCalls calls) = .ok c
      ∧ (∀ m t reason, (defaultFolder c e).Reaches e.node ((ofWorld w).afterCalls calls) m t →
          (defaultFolder c e).Refuses m reason →
            outcome (defaultValue p) ((ofWorld w).afterCalls calls)
              = .error (.unfoldable reason))
      ∧ (∀ v, outcome (defaultValue p) ((ofWorld w).afterCalls calls) = .ok v →
          ∀ m ∈ e.node.preorder, m.isNonConstant = true →
            (defaultFolder c e).LeavesOut e.node ((ofWorld w).afterCalls calls) m)
      ∧ ((outcome (defaultValue p) ((ofWorld w).afterCalls calls)).Escapes
          ↔ ∃ m t, (defaultFolder c e).Reaches e.node ((ofWorld w).afterCalls calls) m t
              ∧ ((defaultFolder c e).Trips m t ∨ (defaultFolder c e).ResolverEscapes m t)) := by
  have hs := (within_ofWorld.afterCalls hw calls).keys
  obtain ⟨c, ds, d, hc, hds, hd, rfl⟩ := hp
  -- the value is what the expression folds to in any store, and so in this one
  have hvalue : outcome (defaultValue (Property.ofClass c d)) ((ofWorld w).afterCalls calls)
      = outcome ((defaultFolder c e).fold e.node) ((ofWorld w).afterCalls calls) :=
    (defaultValue_comes_fold hw hc hds hd he _ hs).1.trans (foldDefault_comes hw hc.1 e _ hs).1.symm
  refine ⟨c, (declaringClass_comes hw hc d _ hs).1, ?_, ?_, ?_⟩
  · intro m t reason hr hrefused
    rw [hvalue]
    exact hr.refused hrefused
  · intro v hv m hm hno
    rw [hvalue] at hv
    exact Folder.fold_ok_leavesOut hv hm hno
  · rw [hvalue]
    exact Folder.fold_escapes_iff

/-! ## The name of the class of a variable -/

/-- A text with a property whose default asks for the name of a class by way of a variable. -/
def variableText : String := "<?php class A \x7b public $p = $y::class; \x7d"

/-- The variable. -/
def variableScope : Node := ⟨"variable_name", 28, 30, none, true, false, []⟩

/-- The default value. -/
def variableAccess : Node :=
  ⟨"class_constant_access_expression", 28, 37, some "default_value", true, false,
    [variableScope, ⟨"::", 30, 32, none, false, false, []⟩,
      ⟨"name", 32, 37, none, true, false, []⟩]⟩

/-- The declaration of the property. -/
def variableStatement : Node :=
  ⟨"property_declaration", 16, 38, none, true, false,
    [⟨"visibility_modifier", 16, 22, none, true, false, []⟩,
      ⟨"property_element", 23, 37, none, true, false,
        [⟨"variable_name", 23, 25, some "name", true, false, []⟩, variableAccess]⟩]⟩

/-- The declaration of the class. -/
def variableClassNode : Node :=
  ⟨"class_declaration", 6, 40, none, true, false,
    [⟨"name", 12, 13, some "name", true, false, []⟩,
      ⟨"declaration_list", 14, 40, some "body", true, false, [variableStatement]⟩]⟩

/-- A world with nothing but the class. -/
def variableWorld : World :=
  ⟨FileTree.empty [],
    [(variableText, ⟨"program", 0, 40, none, true, false, [variableClassNode]⟩)],
    [.text variableText "<string>"], []⟩

/-- The class. -/
def variableClass : ReflectedClass :=
  ⟨⟨⟨variableClassNode, []⟩, .classKind, "A", NameScope.empty⟩,
    variableWorld.trees.parse variableText "<string>"⟩

/-- The default value in the source. -/
def variableDefault : Expression := ⟨variableAccess, variableClass.source⟩

/-- The property. -/
def variableProperty : PropertyDeclaration :=
  { PropertyDeclaration.shared variableClass.source ⟨variableStatement, []⟩ with
    name := "p", default := some variableDefault }

theorem classes_variableWorld : variableWorld.classes = [variableClass] := by
  have hsources : variableWorld.sources = [variableClass.source] := rfl
  have hchildren : variableClass.source.root.children = [variableClassNode] := rfl
  have hwalk : ClassLike.walk variableClass.source.text [] [variableClassNode] NameScope.empty
      = ([variableClass.classLike], []) := by
    rw [ClassLike.walk, ClassLike.walk]
    rfl
  rw [World.classes, hsources, List.flatMap_singleton, World.classesIn, ClassLike.all, hchildren,
    hwalk]
  rfl

theorem isStatic_variableWorld : variableWorld.IsStatic := World.isStatic_of_text rfl

theorem ownDeclarations_variableClass :
    variableClass.ownDeclarations = .ok [variableProperty] := by
  have hnodes : variableClass.propertyNodes = [⟨variableStatement, []⟩] := rfl
  have hnode : PropertyDeclaration.ofNode variableClass.source ⟨variableStatement, []⟩
      = .ok [variableProperty] := rfl
  rw [ReflectedClass.ownDeclarations, hnodes, List.foldlM_cons, hnode]
  rfl

theorem gathers_variableClass : variableWorld.Gathers variableClass (.ok [variableProperty]) := by
  rw [← ownDeclarations_variableClass]
  exact World.gathers_of_noTraits rfl

theorem has_variableClass (K : List String) : variableWorld.Has K variableClass := by
  refine ⟨?_, .inr rfl⟩
  rw [World.find?, classes_variableWorld]
  rfl

theorem owns_variableProperty (K : List String) :
    variableWorld.Owns K (Property.ofClass variableClass variableProperty) :=
  ⟨variableClass, [variableProperty], variableProperty, has_variableClass K,
    gathers_variableClass, rfl, rfl⟩

/-- The scope is read as a name, and is its own name without a namespace. -/
theorem defaultValue_variableProperty :
    outcome (defaultValue (Property.ofClass variableClass variableProperty))
      (ofWorld variableWorld) = .ok (Value.ofString "$y") := by
  have hcomes := defaultValue_comes_fold (K := []) isStatic_variableWorld (has_variableClass [])
    gathers_variableClass (d := variableProperty) rfl rfl _ within_ofWorld
  have hplan : (defaultFolder variableClass variableDefault).plan variableAccess
      = .constant "$y" "class" := rfl
  have hname : variableClass.resolveName "$y" = "$y" := (NameScope.resolve_eq _ _).trans rfl
  have hfold : outcome ((defaultFolder variableClass variableDefault).fold variableAccess)
      (ofWorld variableWorld) = .ok (Value.ofString "$y") := by
    rw [Folder.fold_constant hplan]
    refine (outcome_resolveConstant_name ?_ ?_ _).trans ?_
    · decide
    · decide
    · rw [hname]
  exact hcomes.1.trans hfold

/-- The default is the text of the variable, which was left out. -/
theorem default_nonConstant_variable :
    variableWorld.IsStatic
      ∧ variableWorld.Owns (((ofWorld variableWorld).afterCalls []).classes.map (·.1))
        (Property.ofClass variableClass variableProperty)
      ∧ variableProperty.default = some variableDefault
      ∧ outcome (defaultValue (Property.ofClass variableClass variableProperty))
          (ofWorld variableWorld) = .ok (Value.ofString "$y")
      ∧ variableScope ∈ variableAccess.preorder ∧ variableScope.isNonConstant = true
      ∧ (defaultFolder variableClass variableDefault).LeavesOut variableAccess
          (ofWorld variableWorld) variableScope := by
  have howns := owns_variableProperty (((ofWorld variableWorld).afterCalls []).classes.map (·.1))
  have hmem : variableScope ∈ variableAccess.preorder := by
    rw [Node.preorder_eq]
    exact List.mem_cons_of_mem _ (List.mem_cons_self ..)
  refine ⟨isStatic_variableWorld, howns, rfl, defaultValue_variableProperty, hmem, rfl, ?_⟩
  obtain ⟨c, hc, _, hleft, _⟩ := Store.default_nonConstant variableWorld isStatic_variableWorld []
    (Property.ofClass variableClass variableProperty) howns variableDefault rfl
  have hclass := declaringClass_comes isStatic_variableWorld (has_variableClass [])
    variableProperty _ (within_ofWorld (w := variableWorld))
  obtain rfl := Except.ok.inj (hclass.1.symm.trans hc)
  exact hleft _ defaultValue_variableProperty variableScope hmem rfl

end StaticReflection
