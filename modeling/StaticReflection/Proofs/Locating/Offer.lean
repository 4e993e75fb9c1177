import StaticReflection.Proofs.Locating.Alike

/-!
# What a locator offers by itself

A request to a locator depends on the files and on that locator, and changes no other one.

> `World.offer_after`: what a locator offers does not depend on requests to others before, nor
> on requests to itself unless it is a caller's own that changes its answer.

A caller's own locator uses up an answer with each request (`World.locateAt_own`).
-/

namespace StaticReflection

open Folding

namespace Locator

/-- Where a locator has the source for an identifier. -/
def supply (t : FileTree) (trees : GivenTrees) (identifier : String) :
    Locator → Outcome (Option Supply)
  | .text source origin => .ok (some (.text source origin))
  | .unlisted source => .ok (some (.text source unlistedOrigin))
  | .file path => .ok (some (.file path))
  | .table entries =>
    .ok ((((entries.files.lookup (Identifier.dropLeading identifier)).filter (!·.isEmpty)).map
      Path.ofString).map .file)
  | .project rules known => do
    let index ← (known.map .ok).getD ((rules.index t trees).run []).1
    return (← rules.find t index (Identifier.dropLeading identifier)).map .file
  | .own answers => do return (← answers.headD (.ok [])).head?

/-- The source that a locator offers for an identifier. -/
def offer (t : FileTree) (trees : GivenTrees) (identifier : String) (l : Locator) :
    Outcome (Option LocatedSource) := do
  match ← l.supply t trees identifier with
  | some s => return some (← t.fetch (some identifier) s)
  | none => return none

variable {t : FileTree} {trees : GivenTrees} {l l' : Locator}

/-- A class map makes no difference to what is offered. -/
theorem Fills.offer (h : l.Fills t trees l') (identifier : String) :
    l'.offer t trees identifier = l.offer t trees identifier := by
  cases h with
  | same => rfl
  | index hindex =>
    unfold Locator.offer Locator.supply
    simp only
    rw [Option.map_none, Option.getD_none, hindex]
    rfl

/-- Callers' own locators offer the same if their next answers are the same. -/
theorem offer_own {answers others : List (Except Failure (List Supply))}
    (h : answers.headD (.ok []) = others.headD (.ok [])) (identifier : String) :
    (own answers).offer t trees identifier = (own others).offer t trees identifier := by
  have hsupply : (own answers).supply t trees identifier
      = (own others).supply t trees identifier := by
    unfold supply
    simp only
    rw [h]
  unfold offer
  rw [hsupply]

end Locator

namespace World

variable {w : World} {i j : Nat} {identifier : String}

theorem outcome_projectIndex (rules : AutoloadRules) (known : Option ClassIndex) :
    outcome (projectIndex i rules known) w
      = (known.map .ok).getD ((rules.index w.files w.trees).run []).1 := by
  cases known with
  | some index => rfl
  | none =>
    unfold projectIndex
    simp only
    rw [outcome_bind_ok (outcome_get w), after_get, Option.map_none, Option.getD_none]
    cases (rules.index w.files w.trees).run [] with
    | mk o messages => cases o <;> rfl

theorem outcome_supply? (w : World) (i : Nat) (identifier : String) :
    outcome (supply? i identifier) w
      = (w.locators[i]?.map (·.supply w.files w.trees identifier)).getD (.ok none) := by
  have hlocator : outcome (locator? i) w = .ok w.locators[i]? := rfl
  have hstays : after (locator? i) w = w := rfl
  unfold supply?
  rw [outcome_bind_ok hlocator, hstays]
  cases hi : w.locators[i]? with
  | none => rfl
  | some l =>
    have hfile : outcome (do return (← findFile i identifier).map Supply.file) w
        = (outcome (findFile i identifier) w >>= fun p => .ok (p.map Supply.file)) := by
      rw [outcome_bind]
      cases outcome (findFile i identifier) w <;> rfl
    cases l with
    | text source origin => rfl
    | unlisted source => rfl
    | file path => rfl
    | own answers =>
      have hanswer : outcome (nextAnswer i answers) w = answers.headD (.ok []) := rfl
      simp only
      rw [outcome_bind, hanswer]
      show _ = (answers.headD (.ok []) >>= fun found => .ok found.head?)
      cases answers.headD (.ok []) <;> rfl
    | table entries =>
      simp only
      rw [hfile]
      unfold findFile
      rw [outcome_bind_ok hlocator, hstays, hi]
      rfl
    | project rules known =>
      simp only
      rw [hfile]
      unfold findFile
      rw [outcome_bind_ok hlocator, hstays, hi]
      simp only
      have hfiles := (projectIndex_becomes hi).files
      rw [outcome_bind, outcome_projectIndex]
      show _ = ((known.map Except.ok).getD ((rules.index w.files w.trees).run []).1 >>= fun index =>
        rules.find w.files index (Identifier.dropLeading identifier) >>= fun p =>
          .ok (p.map Supply.file))
      cases (known.map Except.ok).getD ((rules.index w.files w.trees).run []).1 with
      | error f => rfl
      | ok index =>
        simp only
        rw [outcome_bind_ok (outcome_get _), after_get, hfiles]
        rfl

/-- What a request to the locator at a position comes to. -/
theorem outcome_locateAt (w : World) (i : Nat) (identifier : String) :
    outcome (locateAt i identifier) w
      = (w.locators[i]?.map (·.offer w.files w.trees identifier)).getD (.ok none) := by
  have hfiles := (supply?_proceeds i identifier w).files
  unfold locateAt
  rw [outcome_bind, outcome_supply?]
  cases w.locators[i]? with
  | none => rfl
  | some l =>
    rw [Option.map_some, Option.map_some, Option.getD_some, Option.getD_some]
    unfold Locator.offer
    cases l.supply w.files w.trees identifier with
    | error f => rfl
    | ok supply =>
      cases supply with
      | none => rfl
      | some s =>
        have hfetch : outcome (fetch (some identifier) s) (after (supply? i identifier) w)
            = w.files.fetch (some identifier) s := by
          rw [← hfiles]
          rfl
        show _ = (w.files.fetch (some identifier) s >>= fun located => .ok (some located))
        simp only
        rw [outcome_bind, hfetch]
        cases w.files.fetch (some identifier) s <;> rfl

/-! ## Other locators -/

/-- A step that leaves the locator at a position as it is. -/
def Spares {α : Type} (j : Nat) (q : Locating α) : Prop :=
  ∀ w : World, (after q w).locators[j]? = w.locators[j]?

section

variable {α β : Type}

theorem spares_bind {q : Locating α} {g : α → Locating β}
    (h : (after q w).locators[j]? = w.locators[j]?) (hg : ∀ a, Spares j (g a)) :
    (after (q >>= g) w).locators[j]? = w.locators[j]? := by
  rw [after_bind]
  cases outcome q w with
  | ok a => exact (hg a _).trans h
  | error f => exact h

theorem Spares.bind {q : Locating α} {g : α → Locating β} (h : Spares j q)
    (hg : ∀ a, Spares j (g a)) : Spares j (q >>= g) := fun w => spares_bind (h w) hg

theorem spares_set (hij : i ≠ j) (l : Locator) : (w.locators.set i l)[j]? = w.locators[j]? := by
  rw [List.getElem?_set, if_neg hij]

theorem projectIndex_spares (hij : i ≠ j) (rules : AutoloadRules) (known : Option ClassIndex) :
    Spares j (projectIndex i rules known) := by
  intro w
  cases known with
  | some index => rfl
  | none =>
    unfold projectIndex
    simp only
    rw [after_bind_ok (outcome_get w), after_get]
    generalize (rules.index w.files w.trees).run [] = made
    obtain ⟨o, messages⟩ := made
    cases o with
    | error f => rfl
    | ok index => exact spares_set hij _

/-- What follows a look at the locator at a position. -/
theorem locator?_spares {k : Option Locator → Locating α}
    (h : (after (k w.locators[i]?) w).locators[j]? = w.locators[j]?) :
    (after (locator? i >>= k) w).locators[j]? = w.locators[j]? := h

theorem findFile_spares (hij : i ≠ j) (identifier : String) :
    Spares j (findFile i identifier) := by
  refine fun w => locator?_spares ?_
  cases w.locators[i]? with
  | none => rfl
  | some l =>
    cases l with
    | project rules known =>
      exact spares_bind (projectIndex_spares hij rules known w) fun _ _ => rfl
    | _ => rfl

theorem supply?_spares (hij : i ≠ j) (identifier : String) : Spares j (supply? i identifier) := by
  have file : Spares j (do return (← findFile i identifier).map Supply.file) :=
    (findFile_spares hij identifier).bind fun _ _ => rfl
  refine fun w => locator?_spares ?_
  cases w.locators[i]? with
  | none => rfl
  | some l =>
    cases l with
    | own answers =>
      have hnext : (after (nextAnswer i answers) w).locators[j]? = w.locators[j]? :=
        spares_set hij (.own answers.tail)
      exact spares_bind hnext fun _ _ => rfl
    | table entries => exact file w
    | project rules known => exact file w
    | _ => rfl

/-- A request changes no locator but the one that is asked. -/
theorem locateAt_spares (hij : i ≠ j) (identifier : String) :
    Spares j (locateAt i identifier) := by
  refine (supply?_spares hij identifier).bind fun found w => ?_
  cases found with
  | none => rfl
  | some s => exact spares_bind (q := fetch (some identifier) s) rfl fun _ _ => rfl

end

/-- A request to a caller's own locator uses up its answer. -/
theorem locateAt_own {answers : List (Except Failure (List Supply))}
    (hi : w.locators[i]? = some (.own answers)) (identifier : String) :
    (after (locateAt i identifier) w).locators[i]? = some (.own answers.tail) := by
  have hnext : (after (nextAnswer i answers) w).locators[i]? = some (.own answers.tail) := by
    show (w.locators.set i (.own answers.tail))[i]? = _
    rw [List.getElem?_set_self', hi]
    rfl
  have hsupply : (after (supply? i identifier) w).locators[i]? = some (.own answers.tail) := by
    have hlocator : outcome (locator? i) w = .ok (some (.own answers)) := congrArg Except.ok hi
    have hstays : after (locator? i) w = w := rfl
    unfold supply?
    rw [after_bind_ok hlocator, hstays, after_bind]
    cases outcome (nextAnswer i answers) w <;> exact hnext
  unfold locateAt
  rw [after_bind]
  cases outcome (supply? i identifier) w with
  | error f => exact hsupply
  | ok found =>
    cases found with
    | none => exact hsupply
    | some s =>
      exact (spares_bind (q := fetch (some identifier) s) rfl fun _ _ => rfl).trans hsupply

/-- A request to one locator makes no difference to what another offers, nor to what it
offers itself the next time unless it is a caller's own with another answer then. -/
theorem offer_after (w : World) {other : String}
    (h : ∀ answers, w.locators[j]? = some (.own answers) → i = j →
      answers.tail.headD (.ok []) = answers.headD (.ok [])) :
    outcome (locateAt j identifier) (after (locateAt i other) w)
      = outcome (locateAt j identifier) w := by
  have hbecomes := locateAt_proceeds i other w
  rw [outcome_locateAt, outcome_locateAt, hbecomes.files, hbecomes.trees]
  cases hj : w.locators[j]? with
  | none =>
    have hnone : (after (locateAt i other) w).locators[j]? = none := by
      rw [List.getElem?_eq_none_iff] at hj ⊢
      rw [hbecomes.length]
      exact hj
    rw [hnone]
  | some l =>
    by_cases hij : i = j
    · obtain ⟨l', hl', hfills | ⟨answers, _, rfl, _⟩⟩ := hbecomes.locators j l hj
      · rw [hl', Option.map_some, Option.map_some, hfills.offer]
      · obtain rfl := hij
        rw [locateAt_own hj, Option.map_some, Option.map_some, Locator.offer_own (h answers hj rfl)]
    · rw [locateAt_spares hij other w, hj]

end World

end StaticReflection
