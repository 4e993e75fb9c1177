import StaticReflection.Locating.Locator
import StaticReflection.Proofs.Folding.Outcome

/-!
# Worlds that locate alike

Asking locators for sources leaves warnings and fills in class maps, and neither makes a
difference to what is located later. `World.Alike w w'` says that two worlds differ in
nothing else.

> `locateAt_agree`: worlds that are alike offer the same source for an identifier, and are
> alike afterwards; the listing and the fetching of sources agree likewise.

What a request leaves behind is one that the world may become (`World.Becomes`). A caller's
own locator uses up an answer with each request, so a world with one does not stay like what
it was. `World.IsSteady` rules them out: what a steady world becomes is alike, and a request
comes to the same before and after any others (`locateAt_steady`).
-/

namespace StaticReflection

open Folding

/-- A locator, and the same with its class map filled in. -/
inductive Locator.Fills (t : FileTree) (trees : GivenTrees) : Locator → Locator → Prop
  | same (l : Locator) : Fills t trees l l
  | index {rules : AutoloadRules} {index : ClassIndex}
      (h : ((rules.index t trees).run []).1 = .ok index) :
      Fills t trees (.project rules none) (.project rules (some index))

theorem Locator.Fills.trans {t : FileTree} {trees : GivenTrees} {l m n : Locator}
    (h : l.Fills t trees m) (h' : m.Fills t trees n) : l.Fills t trees n := by
  cases h with
  | same => exact h'
  | index h =>
    cases h' with
    | same => exact .index h

namespace World

/-- Two worlds that differ in their warnings, and in class maps that the second knows. -/
structure Alike (w w' : World) : Prop where
  files : w'.files = w.files
  trees : w'.trees = w.trees
  length : w'.locators.length = w.locators.length
  locators : ∀ (i : Nat) (l : Locator), w.locators[i]? = some l →
    ∃ l', w'.locators[i]? = some l' ∧ l.Fills w.files w.trees l'

/-- No locator is a caller's own, which may change its mind. -/
def IsSteady (w : World) : Prop := ∀ answers, Locator.own answers ∉ w.locators

section

variable {w w' : World}

theorem Alike.refl (w : World) : w.Alike w :=
  ⟨rfl, rfl, rfl, fun _ l hl => ⟨l, hl, .same l⟩⟩

theorem Alike.trans {w'' : World} (h : w.Alike w') (h' : w'.Alike w'') : w.Alike w'' := by
  refine ⟨h'.files.trans h.files, h'.trees.trans h.trees, h'.length.trans h.length, ?_⟩
  intro i l hl
  obtain ⟨m, hm, hlm⟩ := h.locators i l hl
  obtain ⟨n, hn, hmn⟩ := h'.locators i m hm
  rw [h.files, h.trees] at hmn
  exact ⟨n, hn, hlm.trans hmn⟩

/-- The locators of two worlds that are alike, at one position. -/
theorem Alike.cases (h : w.Alike w') (i : Nat) :
    (w.locators[i]? = none ∧ w'.locators[i]? = none)
      ∨ ∃ l l', w.locators[i]? = some l ∧ w'.locators[i]? = some l'
        ∧ l.Fills w.files w.trees l' := by
  cases hi : w.locators[i]? with
  | none =>
    rw [List.getElem?_eq_none_iff, ← h.length, ← List.getElem?_eq_none_iff] at hi
    exact .inl ⟨rfl, hi⟩
  | some l =>
    obtain ⟨l', hi', hl⟩ := h.locators i l hi
    exact .inr ⟨l, l', rfl, hi', hl⟩

/-- More warnings keep worlds alike. -/
theorem Alike.warned (h : w.Alike w') (more more' : List String) :
    ({ w with warnings := more } : World).Alike { w' with warnings := more' } :=
  ⟨h.files, h.trees, h.length, h.locators⟩

/-- Other locators at one position keep worlds alike. -/
theorem Alike.set (h : w.Alike w') {l l' : Locator} (hl : l.Fills w.files w.trees l') (i : Nat) :
    ({ w with locators := w.locators.set i l } : World).Alike
      { w' with locators := w'.locators.set i l' } := by
  refine ⟨h.files, h.trees, ?_, ?_⟩
  · show (w'.locators.set i l').length = (w.locators.set i l).length
    rw [List.length_set, List.length_set, h.length]
  · intro j m hm
    show ∃ m', (w'.locators.set i l')[j]? = some m' ∧ m.Fills w.files w.trees m'
    replace hm : (w.locators.set i l)[j]? = some m := hm
    rw [List.getElem?_set] at hm ⊢
    by_cases hij : i = j
    · rw [if_pos hij] at hm ⊢
      rw [h.length]
      by_cases hlt : i < w.locators.length
      · rw [if_pos hlt] at hm ⊢
        cases hm
        exact ⟨l', rfl, hl⟩
      · rw [if_neg hlt] at hm
        cases hm
    · rw [if_neg hij] at hm ⊢
      exact h.locators j m hm

end

/-! ## Steps that agree -/

section

variable {α : Type} {w w' : World}

theorem lift_agree (o : Except Failure α) : Agree Alike (fun _ => True) (lift o) (lift o) :=
  fun _ _ h => ⟨rfl, trivial, h⟩

theorem warn_agree (messages : List String) :
    Agree Alike (fun _ => True) (warn messages) (warn messages) :=
  fun _ _ h => ⟨rfl, trivial, h.warned _ _⟩

/-- Looking at the files of the world. -/
theorem files_agree {k : FileTree → Locating α}
    (h : ∀ t, Agree Alike (fun _ => True) (k t) (k t)) :
    Agree Alike (fun _ => True) (get >>= fun w => k w.files) (get >>= fun w => k w.files) :=
  .get_bind fun w w' hw => by
    rw [hw.files]
    exact h w.files w w' hw

theorem fetch_agree (identifier : Option String) (s : Supply) :
    Agree Alike (fun _ => True) (fetch identifier s) (fetch identifier s) :=
  files_agree fun t => lift_agree (t.fetch identifier s)

/-- What follows a look at the locator at a position. -/
theorem locator?_agree {i : Nat} {k : Option Locator → Locating α}
    (h : AgreeAt Alike (fun _ => True) (k w.locators[i]?) (k w'.locators[i]?) w w') :
    AgreeAt Alike (fun _ => True) (locator? i >>= k) (locator? i >>= k) w w' := h

/-- Making the class map of a project leaves warnings, and the map. -/
theorem projectIndex_made {i : Nat} {rules : AutoloadRules} {index : ClassIndex}
    (h : ((rules.index w.files w.trees).run []).1 = .ok index) :
    outcome (projectIndex i rules none) w = .ok index
      ∧ after (projectIndex i rules none) w
        = { w with
            warnings := w.warnings ++ ((rules.index w.files w.trees).run []).2
            locators := w.locators.set i (.project rules (some index)) } := by
  unfold projectIndex
  simp only
  rw [outcome_bind_ok (outcome_get w), after_bind_ok (outcome_get w), after_get]
  generalize (rules.index w.files w.trees).run [] = made at h
  obtain ⟨o, messages⟩ := made
  cases h
  exact ⟨rfl, rfl⟩

/-- The class map of a project is the same whether it is known already or made now. -/
theorem projectIndex_agree (hw : w.Alike w') {i : Nat} {rules : AutoloadRules}
    {known known' : Option ClassIndex}
    (h : (Locator.project rules known).Fills w.files w.trees (.project rules known'))
    (hi' : w'.locators[i]? = some (.project rules known')) :
    AgreeAt Alike (fun _ => True) (projectIndex i rules known) (projectIndex i rules known') w w' := by
  cases h with
  | same =>
    cases known with
    | some index => exact ⟨rfl, trivial, hw⟩
    | none =>
      -- both worlds make it, from the same files
      refine Agree.get_bind (fun v v' hv => ?_) w w' hw
      rw [hv.files, hv.trees]
      refine AgreeAt.bind (warn_agree _ v v' hv) (fun _ _ => ?_) fun _ _ => trivial
      refine (lift_agree _).bind (fun index _ => ?_) fun _ _ => trivial
      exact fun u u' hu => ⟨rfl, trivial, hu.set (.same _) i⟩
  | @index _ index h =>
    obtain ⟨ho, ha⟩ := projectIndex_made (i := i) h
    obtain ⟨hlt, hget⟩ := List.getElem?_eq_some_iff.mp hi'
    have hsame : w'.locators.set i (.project rules (some index)) = w'.locators := by
      rw [← hget, List.set_getElem_self]
    refine ⟨ho, trivial, ?_⟩
    rw [ha]
    have hset := (hw.set (.same (.project rules (some index))) i).warned
      (w.warnings ++ ((rules.index w.files w.trees).run []).2) w'.warnings
    rw [hsame] at hset
    exact hset

theorem nextAnswer_agree (i : Nat) (answers : List (Except Failure (List Supply))) :
    Agree Alike (fun _ => True) (nextAnswer i answers) (nextAnswer i answers) := by
  have hset : Agree Alike (fun _ => True)
      (modify fun w : World => { w with locators := w.locators.set i (.own answers.tail) })
      (modify fun w : World => { w with locators := w.locators.set i (.own answers.tail) }) :=
    fun w w' hw => ⟨rfl, trivial, hw.set (.same _) i⟩
  exact hset.bind (fun _ _ => lift_agree _) fun _ _ => trivial

theorem classMap_agree (i : Nat) : Agree Alike (fun _ => True) (classMap i) (classMap i) := by
  intro w w' hw
  refine locator?_agree ?_
  obtain ⟨hi, hi'⟩ | ⟨l, l', hi, hi', hl⟩ := hw.cases i
  · rw [hi, hi']
    exact Agree.pure trivial w w' hw
  · rw [hi, hi']
    cases hl with
    | index h => exact projectIndex_agree hw (.index h) hi'
    | same =>
      cases l with
      | project rules known => exact projectIndex_agree hw (.same _) hi'
      | _ => exact Agree.pure trivial w w' hw

theorem findFile_agree (i : Nat) (identifier : String) :
    Agree Alike (fun _ => True) (findFile i identifier) (findFile i identifier) := by
  intro w w' hw
  refine locator?_agree ?_
  -- the index is looked up, then the files
  have found (rules : AutoloadRules) (index : ClassIndex) :
      Agree Alike (fun _ => True)
        (get >>= fun v : World => lift (rules.find v.files index (Identifier.dropLeading identifier)))
        (get >>= fun v : World => lift (rules.find v.files index (Identifier.dropLeading identifier))) :=
    files_agree (k := fun t => lift (rules.find t index (Identifier.dropLeading identifier)))
      fun _ => lift_agree _
  obtain ⟨hi, hi'⟩ | ⟨l, l', hi, hi', hl⟩ := hw.cases i
  · rw [hi, hi']
    exact Agree.pure trivial w w' hw
  · rw [hi, hi']
    cases hl with
    | @index rules index h =>
      exact (projectIndex_agree hw (.index h) hi').bind (fun index _ => found rules index)
        fun _ _ => trivial
    | same =>
      cases l with
      | project rules known =>
        exact (projectIndex_agree hw (.same _) hi').bind (fun index _ => found rules index)
          fun _ _ => trivial
      | _ => exact Agree.pure trivial w w' hw

theorem supply?_agree (i : Nat) (identifier : String) :
    Agree Alike (fun _ => True) (supply? i identifier) (supply? i identifier) := by
  intro w w' hw
  have file : Agree Alike (fun _ => True) (do return (← findFile i identifier).map Supply.file)
      (do return (← findFile i identifier).map Supply.file) :=
    (findFile_agree i identifier).bind (fun _ _ => .pure trivial) fun _ _ => trivial
  refine locator?_agree ?_
  obtain ⟨hi, hi'⟩ | ⟨l, l', hi, hi', hl⟩ := hw.cases i
  · rw [hi, hi']
    exact Agree.pure trivial w w' hw
  · rw [hi, hi']
    cases hl with
    | index h => exact file w w' hw
    | same =>
      cases l with
      | own answers =>
        exact ((nextAnswer_agree i answers).bind (fun _ _ => .pure trivial) fun _ _ => trivial)
          w w' hw
      | table t => exact file w w' hw
      | project rules known => exact file w w' hw
      | _ => exact Agree.pure trivial w w' hw

/-- Worlds that are alike offer the same source for an identifier. -/
theorem locateAt_agree (i : Nat) (identifier : String) :
    Agree Alike (fun _ => True) (locateAt i identifier) (locateAt i identifier) := by
  refine (supply?_agree i identifier).bind (fun found _ => ?_) fun _ _ => trivial
  cases found with
  | none => exact .pure trivial
  | some s =>
    exact (fetch_agree (some identifier) s).bind (fun _ _ => .pure trivial) fun _ _ => trivial

/-- Worlds that are alike list the same sources. -/
theorem supplies_agree (i : Nat) : Agree Alike (fun _ => True) (supplies i) (supplies i) := by
  intro w w' hw
  have listed : Agree Alike (fun _ => True)
      (do return ((← classMap i).map (·.2)).eraseDups.map Supply.file)
      (do return ((← classMap i).map (·.2)).eraseDups.map Supply.file) :=
    (classMap_agree i).bind (fun _ _ => .pure trivial) fun _ _ => trivial
  refine locator?_agree ?_
  obtain ⟨hi, hi'⟩ | ⟨l, l', hi, hi', hl⟩ := hw.cases i
  · rw [hi, hi']
    exact Agree.pure trivial w w' hw
  · rw [hi, hi']
    cases hl with
    | index h => exact listed w w' hw
    | same =>
      cases l with
      | own answers => exact nextAnswer_agree i answers w w' hw
      | table t => exact listed w w' hw
      | project rules known => exact listed w w' hw
      | _ => exact Agree.pure trivial w w' hw

end

/-! ## What requests leave behind -/

/-- A world and what it may become by requests: there are more warnings, class maps are
filled in, and callers' own locators have other answers left. -/
structure Becomes (w w' : World) : Prop where
  files : w'.files = w.files
  trees : w'.trees = w.trees
  length : w'.locators.length = w.locators.length
  locators : ∀ (i : Nat) (l : Locator), w.locators[i]? = some l →
    ∃ l', w'.locators[i]? = some l'
      ∧ (l.Fills w.files w.trees l' ∨ ∃ answers left, l = .own answers ∧ l' = .own left)

/-- A step that leaves the world as what it may become. -/
def Proceeds {α : Type} (q : Locating α) : Prop := ∀ w : World, w.Becomes (after q w)

section

variable {α β : Type} {w w' : World}

theorem Becomes.refl (w : World) : w.Becomes w :=
  ⟨rfl, rfl, rfl, fun _ l hl => ⟨l, hl, .inl (.same l)⟩⟩

theorem Becomes.trans {w'' : World} (h : w.Becomes w') (h' : w'.Becomes w'') : w.Becomes w'' := by
  refine ⟨h'.files.trans h.files, h'.trees.trans h.trees, h'.length.trans h.length, ?_⟩
  intro i l hl
  obtain ⟨m, hm, hlm⟩ := h.locators i l hl
  obtain ⟨n, hn, hmn⟩ := h'.locators i m hm
  refine ⟨n, hn, ?_⟩
  rw [h.files, h.trees] at hmn
  rcases hlm with hlm | ⟨answers, left, rfl, rfl⟩
  · rcases hmn with hmn | ⟨answers, left, rfl, rfl⟩
    · exact .inl (hlm.trans hmn)
    · cases hlm
      exact .inr ⟨answers, left, rfl, rfl⟩
  · rcases hmn with hmn | ⟨_, last, _, rfl⟩
    · cases hmn
      exact .inr ⟨answers, left, rfl, rfl⟩
    · exact .inr ⟨answers, last, rfl, rfl⟩

/-- A steady world becomes one that is like it. -/
theorem Becomes.alike (h : w.Becomes w') (hw : w.IsSteady) : w.Alike w' := by
  refine ⟨h.files, h.trees, h.length, fun i l hl => ?_⟩
  obtain ⟨l', hl', hfills | ⟨answers, _, rfl, _⟩⟩ := h.locators i l hl
  · exact ⟨l', hl', hfills⟩
  · exact absurd (List.mem_of_getElem? hl) (hw answers)

/-- Another locator at one position, which the one there may become. -/
theorem becomes_set {i : Nat} {l l' : Locator} (hi : w.locators[i]? = some l)
    (hl : l.Fills w.files w.trees l' ∨ ∃ answers left, l = .own answers ∧ l' = .own left)
    (warnings : List String) :
    w.Becomes { w with warnings := warnings, locators := w.locators.set i l' } := by
  obtain ⟨hlt, _⟩ := List.getElem?_eq_some_iff.mp hi
  refine ⟨rfl, rfl, List.length_set, fun j m hm => ?_⟩
  show ∃ m', (w.locators.set i l')[j]? = some m' ∧ _
  rw [List.getElem?_set]
  by_cases hij : i = j
  · subst hij
    rw [if_pos rfl, if_pos hlt]
    obtain rfl := Option.some.inj (hi.symm.trans hm)
    exact ⟨l', rfl, hl⟩
  · rw [if_neg hij]
    exact ⟨m, hm, .inl (.same m)⟩

theorem Proceeds.pure {a : α} : Proceeds (pure a : Locating α) := fun w => .refl w

theorem becomes_bind {q : Locating α} {g : α → Locating β} (h : w.Becomes (after q w))
    (hg : ∀ a, Proceeds (g a)) : w.Becomes (after (q >>= g) w) := by
  rw [after_bind]
  cases outcome q w with
  | ok a => exact h.trans (hg a _)
  | error f => exact h

theorem Proceeds.bind {q : Locating α} {g : α → Locating β} (h : Proceeds q)
    (hg : ∀ a, Proceeds (g a)) : Proceeds (q >>= g) := fun w => becomes_bind (h w) hg

theorem warn_proceeds (messages : List String) : Proceeds (warn messages) := fun _ =>
  ⟨rfl, rfl, rfl, fun _ l hl => ⟨l, hl, .inl (.same l)⟩⟩

theorem fetch_proceeds (identifier : Option String) (s : Supply) :
    Proceeds (fetch identifier s) := fun w => .refl w

theorem projectIndex_becomes {i : Nat} {rules : AutoloadRules} {known : Option ClassIndex}
    (hi : w.locators[i]? = some (.project rules known)) :
    w.Becomes (after (projectIndex i rules known) w) := by
  cases known with
  | some index => exact .refl w
  | none =>
    cases hmade : ((rules.index w.files w.trees).run []).1 with
    | ok index =>
      rw [(projectIndex_made hmade).2]
      exact becomes_set hi (.inl (.index hmade)) _
    | error f =>
      -- the warnings stay, the map is not made
      unfold projectIndex
      simp only
      rw [after_bind_ok (outcome_get w), after_get]
      generalize (rules.index w.files w.trees).run [] = made at hmade
      obtain ⟨o, messages⟩ := made
      cases hmade
      exact warn_proceeds messages w

theorem nextAnswer_becomes {i : Nat} {answers : List (Except Failure (List Supply))}
    (hi : w.locators[i]? = some (.own answers)) :
    w.Becomes (after (nextAnswer i answers) w) :=
  becomes_set hi (.inr ⟨answers, answers.tail, rfl, rfl⟩) w.warnings

/-- What follows a look at the locator at a position. -/
theorem locator?_becomes {i : Nat} {k : Option Locator → Locating α}
    (h : w.Becomes (after (k w.locators[i]?) w)) :
    w.Becomes (after (locator? i >>= k) w) := h

theorem classMap_proceeds (i : Nat) : Proceeds (classMap i) := by
  refine fun w => locator?_becomes ?_
  cases hi : w.locators[i]? with
  | none => exact .refl w
  | some l =>
    cases l with
    | project rules known => exact projectIndex_becomes hi
    | _ => exact .refl w

theorem findFile_proceeds (i : Nat) (identifier : String) : Proceeds (findFile i identifier) := by
  refine fun w => locator?_becomes ?_
  cases hi : w.locators[i]? with
  | none => exact .refl w
  | some l =>
    cases l with
    | project rules known => exact becomes_bind (projectIndex_becomes hi) fun _ w => .refl w
    | _ => exact .refl w

theorem supply?_proceeds (i : Nat) (identifier : String) : Proceeds (supply? i identifier) := by
  have file : Proceeds (do return (← findFile i identifier).map Supply.file) :=
    (findFile_proceeds i identifier).bind fun _ => .pure
  refine fun w => locator?_becomes ?_
  cases hi : w.locators[i]? with
  | none => exact .refl w
  | some l =>
    cases l with
    | own answers => exact becomes_bind (nextAnswer_becomes hi) fun _ => .pure
    | table t => exact file w
    | project rules known => exact file w
    | _ => exact .refl w

theorem locateAt_proceeds (i : Nat) (identifier : String) : Proceeds (locateAt i identifier) := by
  refine (supply?_proceeds i identifier).bind fun found => ?_
  cases found with
  | none => exact .pure
  | some s => exact (fetch_proceeds (some identifier) s).bind fun _ => .pure

theorem supplies_proceeds (i : Nat) : Proceeds (supplies i) := by
  have listed : Proceeds (do return ((← classMap i).map (·.2)).eraseDups.map Supply.file) :=
    (classMap_proceeds i).bind fun _ => .pure
  refine fun w => locator?_becomes ?_
  cases hi : w.locators[i]? with
  | none => exact .refl w
  | some l =>
    cases l with
    | own answers => exact nextAnswer_becomes hi
    | table t => exact listed w
    | project rules known => exact listed w
    | _ => exact .refl w

/-- In a steady world a step that agrees with itself comes to the same at any time. -/
theorem comes_of_agree {q : Locating α} (hw : w.IsSteady)
    (h : Agree Alike (fun _ => True) q q) (hq : Proceeds q) :
    Comes w.Alike q (outcome q w) w.Alike := fun w' hw' =>
  ⟨(h w w' hw').1.symm, ((hq w).alike hw).trans (h w w' hw').2.2⟩

theorem locateAt_steady (hw : w.IsSteady) (i : Nat) (identifier : String) :
    Comes w.Alike (locateAt i identifier) (outcome (locateAt i identifier) w) w.Alike :=
  comes_of_agree hw (locateAt_agree i identifier) (locateAt_proceeds i identifier)

end

end World

end StaticReflection
