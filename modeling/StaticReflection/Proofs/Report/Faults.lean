import StaticReflection.Proofs.Folding.Faults
import StaticReflection.Report.Facts

/-!
# When the facts of a property fail

The facts of a property report a default that is no constant expression. The failures
that are no reports pass through them: `PropertyFacts.defaultOf` has no answer exactly
when the fold of the default fails without a report.

> `fails_unreported_iff`: which expressions a fold fails on without a report, and with
> which defaults the facts of a property therefore fail.
-/

namespace StaticReflection

open Folding Outcome

namespace PropertyFacts

/-- What the facts say of a default fails as the default does, unless that is reported. -/
theorem defaultOf_error_iff {p : Property} {s : Store} {f : Failure} :
    (defaultOf p).outcome s = .error f
      ↔ (Reflector.defaultValue p).outcome s = .error f ∧ f.isUnfoldable = false := by
  unfold defaultOf
  rw [outcome_tryCatch]
  cases h : (Reflector.defaultValue p).outcome s with
  | ok v =>
    rw [outcome_bind_ok h]
    exact ⟨fun h => (by cases h), fun h => (by cases h.1)⟩
  | error g =>
    rw [outcome_bind_error h]
    simp only
    split
    next hg =>
      refine ⟨fun h => (by cases h), fun ⟨he, hf⟩ => ?_⟩
      cases he
      rw [hg] at hf
      cases hf
    next hg =>
      rw [outcome_throw]
      refine ⟨fun he => ?_, fun ⟨he, _⟩ => by cases he; rfl⟩
      cases he
      exact ⟨rfl, Bool.eq_false_iff.mpr hg⟩

end PropertyFacts

namespace Reflector

/-- The default value of a property fails as the fold of its expression does, unless it
is known already. -/
theorem defaultValue_error_iff {p : Property} {e : Expression} {c : ReflectedClass} {s : Store}
    {f : Failure} (he : p.declaration.default = some e)
    (hk : (p.place?.bind fun k => s.defaults.lookup k) = none)
    (hc : p.declaringClass.outcome s = .ok c) :
    (defaultValue p).outcome s = .error f
      ↔ ((folder c e.source (resolveConstant c) (defaultMagic c e)).fold e.node).outcome
          (p.declaringClass.after s) = .error f := by
  unfold defaultValue
  rw [he]
  simp only
  rw [outcome_bind_ok (outcome_get s)]
  simp only [after_get, hk]
  rw [outcome_bind_ok hc]
  cases h : ((folder c e.source (resolveConstant c) (defaultMagic c e)).fold e.node).outcome
      (p.declaringClass.after s) with
  | error g => rw [outcome_bind_error h]
  | ok v =>
    rw [outcome_bind_ok h]
    cases p.place? with
    | none => exact ⟨fun h => (by cases h), fun h => (by cases h)⟩
    | some k => exact ⟨fun h => (by cases h), fun h => (by cases h)⟩

end Reflector

/-- With a resolver that reports its failures, a fold fails without a report exactly when
it reaches an expression that trips. The facts of a property fail exactly when the fold
of its default fails so, because of an expression that trips or of the resolver that
the class is given. -/
theorem fails_unreported_iff {σ : Type} {F : Folder σ} (hF : F.ReportsConstants) :
    (∀ (n : Node) (s : σ), ((F.fold n).outcome s).Escapes
      ↔ ∃ m t, F.Reaches n s m t ∧ F.Trips m t)
    ∧ ∀ (p : Property) (e : Expression) (c : ReflectedClass) (s : Store),
      p.declaration.default = some e →
      (p.place?.bind fun k => s.defaults.lookup k) = none →
      p.declaringClass.outcome s = .ok c →
      let G := Reflector.folder c e.source (Reflector.resolveConstant c) (Reflector.defaultMagic c e)
      ((∃ f, (PropertyFacts.defaultOf p).outcome s = .error f)
        ↔ ∃ m t, G.Reaches e.node (p.declaringClass.after s) m t
          ∧ (G.Trips m t ∨ G.ResolverEscapes m t)) := by
  refine ⟨fun n s => ?_, fun p e c s he hk hc => ?_⟩
  · rw [Folder.fold_escapes_iff]
    constructor
    · rintro ⟨m, t, hr, h⟩
      exact ⟨m, t, hr, h.resolve_right (hF.not_escapes m t)⟩
    · rintro ⟨m, t, hr, h⟩
      exact ⟨m, t, hr, .inl h⟩
  · intro G
    rw [← Folder.fold_escapes_iff]
    unfold Escapes
    simp only [PropertyFacts.defaultOf_error_iff, Reflector.defaultValue_error_iff he hk hc]
    exact Iff.rfl

/-- A double-quoted string. -/
def quotedNode : Node := ⟨"encapsed_string", 0, 12, none, true, false, []⟩

/-- A folder without class constants, to which every node reads as an escape beyond the
last code point. -/
def hugeEscapeFolder : Folder Unit where
  text := fun _ => String.ofList
    ['"', '\\', 'u', '{', '1', '1', '0', '0', '0', '0', '}', '"']
  classConstant := none
  magic := []

theorem fold_hugeEscape_escapes :
    hugeEscapeFolder.ReportsConstants ∧ ((hugeEscapeFolder.fold quotedNode).outcome ()).Escapes := by
  have hreports : hugeEscapeFolder.ReportsConstants := fun _ h => by cases h
  have hdigits : ['1', '1', '0', '0', '0', '0'].all (Numeral.isDigit 16) = true := rfl
  have hescape : hugeEscapeFolder.escapedText? quotedNode
      = some ['\\', 'u', '{', '1', '1', '0', '0', '0', '0', '}'] := by
    unfold Folder.escapedText? hugeEscapeFolder
    rw [String.toList_ofList]
    rfl
  have hbound : 0x110000 ≤ Numeral.ofDigits 16 ['1', '1', '0', '0', '0', '0'] := by decide
  exact ⟨hreports, ((fails_unreported_iff hreports).1 quotedNode ()).mpr
    ⟨quotedNode, (), .refl, .escape hescape (.here ⟨['1', '1', '0', '0', '0', '0'], [], rfl,
      List.cons_ne_nil _ _, List.all_eq_true.mp hdigits, hbound⟩)⟩⟩

end StaticReflection
