import Mathlib.Logic.Relation
import StaticReflection.Proofs.Declaration.NameScope
import StaticReflection.Proofs.Reflection.Ancestry
import StaticReflection.Proofs.Reflection.Progress

/-!
# Hierarchies that go round in circles

A class or an interface may be its own ancestor, and a trait may use itself. Climbing from
parent to parent notices this (`Fate.circular`). The search of a constant among relatives
and the gathering of properties from traits do not: they go on until they need their own
answer, which is a failure without end.

> `Store.circles_followed`: a constant that no relative declares is searched without end
> exactly if some way through relatives goes round; the properties of a class are gathered
> without end exactly if the gathering comes to a trait that imports itself; and a class
> that uses such a trait, directly or not, has no list of properties.

In none of these cases is the circle reported.
-/

namespace StaticReflection

open Folding Outcome Reflector Store

/-- A way from a class leads to a class that a way leads back to. -/
def Circles (r : ReflectedClass → ReflectedClass → Prop) (c : ReflectedClass) : Prop :=
  ∃ d, Relation.ReflTransGen r c d ∧ Relation.TransGen r d d

section

variable {r : ReflectedClass → ReflectedClass → Prop}

/-- A way goes round if it does after its first step. -/
theorem circles_iff {c : ReflectedClass} : Circles r c ↔ ∃ d, r c d ∧ Circles r d := by
  constructor
  · rintro ⟨e, hce, hround⟩
    rcases Relation.ReflTransGen.cases_head hce with rfl | ⟨d, hcd, hde⟩
    · -- the class is on the circle, and so is the next one
      obtain ⟨d, hcd, hdc⟩ := Relation.TransGen.head'_iff.mp hround
      exact ⟨d, hcd, c, hdc, hround⟩
    · exact ⟨d, hcd, e, hde, hround⟩
  · rintro ⟨d, hcd, e, hde, hround⟩
    exact ⟨e, .head hcd hde, hround⟩

/-- What is handed on forever through the classes of a world goes round. -/
theorem circles_of_forever {w : World} {P : ReflectedClass → Prop}
    (hstep : ∀ d, P d → ∃ e, r d e ∧ P e) (hfind : ∀ d e, r d e → w.find? e.key = some e)
    (seen : List String) {c : ReflectedClass} (hc : w.find? c.key = some c) (hP : P c)
    (hseen : ∀ k ∈ seen, ∃ d, w.find? k = some d ∧ Relation.TransGen r d c) : Circles r c := by
  by_cases hmem : c.key ∈ seen
  · obtain ⟨d, hd, hpath⟩ := hseen _ hmem
    rw [hc] at hd
    cases hd
    exact ⟨c, .refl, hpath⟩
  · obtain ⟨e, hce, he⟩ := hstep c hP
    have hless := unused_cons_lt (World.key_mem_knownKeys (World.mem_classes_of_find? hc)) hmem
    rw [circles_iff]
    refine ⟨e, hce, circles_of_forever hstep hfind (c.key :: seen) (hfind _ _ hce) he ?_⟩
    intro k hk
    rcases List.mem_cons.mp hk with rfl | hk
    · exact ⟨c, hc, .single hce⟩
    · obtain ⟨d, hd, hpath⟩ := hseen k hk
      exact ⟨d, hd, .tail hpath hce⟩
termination_by unused w.knownKeys seen

end

/-! ## Constants -/

section

variable {w : World} {L : List ConstantKey} {K : List String}

/-- A search among some names is without end if that in one of the classes is, and the rest
have no constant. -/
theorem firstRelative_circles (hw : w.IsStatic) {valueIn : ReflectedClass → Query Value}
    {failure : Failure} {names : List String}
    (h : ∀ name ∈ names, ∀ d, w.answer name = .ok d →
      ∃ o, Comes (Within w L K) (valueIn d) o (Within w L K)
        ∧ (Circles w.Relative d → o = endless)
        ∧ (¬Circles w.Relative d → ∃ reason, o = .error (.unfoldable reason))) :
    ∃ o, Comes (Within w L K) (firstRelative valueIn failure names) o (Within w L K)
      ∧ ((∃ name ∈ names, ∃ d, w.answer name = .ok d ∧ Circles w.Relative d) → o = endless)
      ∧ ((¬∃ name ∈ names, ∃ d, w.answer name = .ok d ∧ Circles w.Relative d) →
        o = .error failure) := by
  induction names with
  | nil =>
    refine ⟨.error failure, .throw, ?_, fun _ => rfl⟩
    rintro ⟨_, hmem, _⟩
    exact absurd hmem List.not_mem_nil
  | cons name rest ih =>
    obtain ⟨o, hrest, hround, hnone⟩ := ih fun other hother =>
      h other (List.mem_cons_of_mem _ hother)
    have hreflect := reflect_comes (L := L) (K := K) hw name
    -- a relative that is passed over leaves it to the others
    have hpass {f : Failure} (hf : (f.isNotFound || f.isUnfoldable) = true)
        (hhead : Comes (Within w L K) (reflect name >>= valueIn) (.error f) (Within w L K)) :
        Comes (Within w L K) (firstRelative valueIn failure (name :: rest)) o (Within w L K) := by
      refine hhead.tryCatch_error ?_
      rw [if_pos hf]
      exact hrest
    have hothers (hhead : ∀ d, w.answer name = .ok d → ¬Circles w.Relative d) :
        (∃ other ∈ name :: rest, ∃ d, w.answer other = .ok d ∧ Circles w.Relative d)
          ↔ ∃ other ∈ rest, ∃ d, w.answer other = .ok d ∧ Circles w.Relative d := by
      constructor
      · rintro ⟨other, hother, d, hans, hd⟩
        rcases List.mem_cons.mp hother with rfl | hother
        · exact absurd hd (hhead d hans)
        · exact ⟨other, hother, d, hans, hd⟩
      · rintro ⟨other, hother, hd⟩
        exact ⟨other, List.mem_cons_of_mem _ hother, hd⟩
    cases hans : w.answer name with
    | error f =>
      rw [hans] at hreflect
      refine ⟨o, hpass ?_ hreflect.bind_error, ?_⟩
      · rw [World.isNotFound_of_answer hans, Bool.true_or]
      · rw [hothers fun d hd => by rw [hans] at hd; cases hd]
        exact ⟨hround, hnone⟩
    | ok d =>
      rw [hans] at hreflect
      obtain ⟨p, hvalue, hdround, hdnone⟩ := h name (List.mem_cons_self ..) d hans
      by_cases hd : Circles w.Relative d
      · rw [hdround hd] at hvalue
        refine ⟨endless, ?_, fun _ => rfl, ?_⟩
        · exact (hreflect.bind_ok hvalue).tryCatch_error .throw
        · intro hnot
          exact absurd ⟨name, List.mem_cons_self .., d, hans, hd⟩ hnot
      · obtain ⟨reason, rfl⟩ := hdnone hd
        refine ⟨o, hpass rfl (hreflect.bind_ok hvalue), ?_⟩
        rw [hothers fun e he => by rw [hans] at he; cases he; exact hd]
        exact ⟨hround, hnone⟩

/-- A constant that no relative declares is searched without end if a way through relatives
goes round, and is not located otherwise. -/
theorem constantWithin_circles (hw : w.IsStatic) {fuel : Nat} {searched : List String}
    {c : ReflectedClass} {name : String} (hc : w.find? c.key = some c)
    (hlacks : ∀ d, Relation.ReflTransGen w.Relative c d → d.constant? name = none)
    (hfuel : unused w.knownKeys searched < fuel) (hpath : w.LeadsFrom searched c) :
    ∃ o, Comes (Within w L K) (constantWithin fuel searched c name) o (Within w L K)
      ∧ (Circles w.Relative c → o = endless)
      ∧ (¬Circles w.Relative c → o = .error (.unfoldable (.constantNotLocated c.name name))) := by
  induction fuel generalizing searched c with
  | zero => exact absurd hfuel (Nat.not_lt_zero _)
  | succ fuel ih =>
    unfold constantWithin
    rw [hlacks c .refl]
    simp only
    by_cases hmem : searched.contains c.key = true
    · -- the search came back to the class
      obtain ⟨d, hd, hround⟩ := hpath _ (List.contains_iff_mem.mp hmem)
      rw [hc] at hd
      cases hd
      rw [if_pos hmem]
      exact ⟨endless, .throw, fun _ => rfl, fun hnot => absurd ⟨c, .refl, hround⟩ hnot⟩
    · rw [if_neg hmem]
      have hless := unused_cons_lt (World.key_mem_knownKeys (World.mem_classes_of_find? hc))
        fun h => hmem (List.contains_iff_mem.mpr h)
      have hcircles : Circles w.Relative c
          ↔ ∃ name ∈ c.relatedNames, ∃ d, w.answer name = .ok d ∧ Circles w.Relative d := by
        rw [circles_iff]
        constructor
        · rintro ⟨d, ⟨relative, hrelative, hans⟩, hd⟩
          exact ⟨relative, hrelative, d, hans, hd⟩
        · rintro ⟨relative, hrelative, d, hans, hd⟩
          exact ⟨d, ⟨relative, hrelative, hans⟩, hd⟩
      rw [hcircles]
      apply firstRelative_circles hw
      intro relative hrelative d hans
      have hstep : w.Relative c d := ⟨relative, hrelative, hans⟩
      obtain ⟨o, hvalue, hround, hnone⟩ := ih (World.find?_key_of_answer hans)
        (fun e he => hlacks e (.head hstep he)) (by omega) (hpath.step hc hstep)
      exact ⟨o, hvalue, hround, fun hnot => ⟨_, hnone hnot⟩⟩

theorem constantValue_circles (hw : w.IsStatic) {c : ReflectedClass} {name : String}
    (hc : w.find? c.key = some c)
    (hlacks : ∀ d, Relation.ReflTransGen w.Relative c d → d.constant? name = none) {s : Store}
    (hs : s.Within w L K) :
    (Circles w.Relative c → outcome (constantValue c name) s = endless)
      ∧ (¬Circles w.Relative c → outcome (constantValue c name) s
        = .error (.unfoldable (.constantNotLocated c.name name))) := by
  have hfuel : unused w.knownKeys [] < s.depth :=
    Nat.lt_of_le_of_lt unused_le_length hs.coherent.keys_lt_depth
  obtain ⟨o, hvalue, hcases⟩ := constantWithin_circles (L := L) (K := K) hw hc hlacks hfuel .nil
  rw [outcome_constantValue, (hvalue s hs).1]
  exact hcases

end

/-! ## Properties -/

namespace World

variable (w : World)

/-- A class uses a trait. -/
def Uses (c d : ReflectedClass) : Prop := ∃ name ∈ c.traitNames, w.answer name = .ok d

/-- Gathering the properties of a class comes to those of a trait: its own declarations can
be read, and the traits before are gathered. -/
def Imports (c d : ReflectedClass) : Prop :=
  ∃ own before name rest, c.ownDeclarations = .ok own ∧ c.traitNames = before ++ name :: rest
    ∧ (∀ b ∈ before, ∃ e ds, w.answer b = .ok e ∧ w.Gathers e (.ok ds))
    ∧ w.answer name = .ok d

/-- From some fuel on adding some traits to some declarations comes to an outcome. -/
def Adds (names : List String) (acc : List PropertyDeclaration)
    (o : Outcome (List PropertyDeclaration)) : Prop :=
  ∃ n, ∀ m, n ≤ m → names.foldlM (w.addTrait (w.gathered m)) acc = o

variable {w} {c d : ReflectedClass} {names before rest : List String} {name : String}
  {acc : List PropertyDeclaration} {o : Outcome (List PropertyDeclaration)}

theorem Adds.unique {o' : Outcome (List PropertyDeclaration)} (h : w.Adds names acc o)
    (h' : w.Adds names acc o') : o = o' := by
  obtain ⟨n, hn⟩ := h
  obtain ⟨m, hm⟩ := h'
  exact (hn _ (Nat.le_max_left n m)).symm.trans (hm _ (Nat.le_max_right n m))

theorem addTraits_cons (p : ReflectedClass → Outcome (List PropertyDeclaration))
    (hans : w.answer name = .ok d) :
    (name :: rest).foldlM (w.addTrait p) acc
      = p d >>= fun ds => rest.foldlM (w.addTrait p) (merge acc ds) := by
  rw [List.foldlM_cons, addTrait, hans, ok_bind, bind_assoc]
  rfl

theorem adds_nil : w.Adds [] acc (.ok acc) := ⟨0, fun _ _ => rfl⟩

theorem adds_missing {f : Failure} (hans : w.answer name = .error f) :
    w.Adds (name :: rest) acc (.error f) := by
  refine ⟨0, fun m _ => ?_⟩
  rw [List.foldlM_cons, addTrait, hans]
  rfl

theorem adds_failed {f : Failure} (hans : w.answer name = .ok d) (hd : w.Gathers d (.error f)) :
    w.Adds (name :: rest) acc (.error f) := by
  obtain ⟨n, hn⟩ := hd
  refine ⟨n, fun m hm => ?_⟩
  rw [addTraits_cons _ hans, hn m hm]
  rfl

theorem adds_gathered {ds : List PropertyDeclaration} (hans : w.answer name = .ok d)
    (hd : w.Gathers d (.ok ds)) (hrest : w.Adds rest (merge acc ds) o) :
    w.Adds (name :: rest) acc o := by
  obtain ⟨n, hn⟩ := hd
  obtain ⟨m, hm⟩ := hrest
  refine ⟨max n m, fun k hk => ?_⟩
  rw [addTraits_cons _ hans, hn k (Nat.le_trans (Nat.le_max_left n m) hk)]
  exact hm k (Nat.le_trans (Nat.le_max_right n m) hk)

theorem exists_adds (names : List String) (acc : List PropertyDeclaration) :
    ∃ o, w.Adds names acc o := by
  induction names generalizing acc with
  | nil => exact ⟨_, adds_nil⟩
  | cons name rest ih =>
    cases hans : w.answer name with
    | error f => exact ⟨_, adds_missing hans⟩
    | ok d =>
      obtain ⟨p, hd⟩ := exists_gathers (w := w) d
      cases p with
      | error f => exact ⟨_, adds_failed hans hd⟩
      | ok ds =>
        obtain ⟨o, ho⟩ := ih (merge acc ds)
        exact ⟨o, adds_gathered hans hd ho⟩

/-- A class whose declarations cannot be read fails as reading them does. -/
theorem gathers_of_unreadable {f : Failure} (hown : c.ownDeclarations = .error f) :
    w.Gathers c (.error f) := by
  refine .of_gathered (n := 1) (by rw [gathered, hown, error_bind]) ?_
  intro hendless
  have hkind := c.ownDeclarations_failsOnly f hown
  cases hendless
  cases hkind

/-- A class whose declarations can be read has them and what its traits add. -/
theorem gathers_iff_adds {own : List PropertyDeclaration} (hown : c.ownDeclarations = .ok own) :
    w.Gathers c o ↔ w.Adds c.traitNames own o := by
  have hforward {p : Outcome (List PropertyDeclaration)} (h : w.Adds c.traitNames own p) :
      w.Gathers c p := by
    obtain ⟨n, hn⟩ := h
    refine ⟨n + 1, fun m hm => ?_⟩
    obtain ⟨m, rfl⟩ : ∃ k, m = k + 1 := ⟨m - 1, by omega⟩
    rw [gathered, hown, ok_bind]
    exact hn m (by omega)
  constructor
  · intro h
    obtain ⟨p, hp⟩ := exists_adds (w := w) c.traitNames own
    rw [h.unique (hforward hp)]
    exact hp
  · exact hforward

/-- Traits are added without end if and only if, after some that are gathered, one is
gathered without end. -/
theorem adds_endless_iff :
    w.Adds names acc endless ↔ ∃ before name rest d, names = before ++ name :: rest
      ∧ (∀ b ∈ before, ∃ e ds, w.answer b = .ok e ∧ w.Gathers e (.ok ds))
      ∧ w.answer name = .ok d ∧ w.Gathers d endless := by
  constructor
  · intro h
    induction names generalizing acc with
    | nil => cases h.unique adds_nil
    | cons name rest ih =>
      cases hans : w.answer name with
      | error f =>
        have hsame := h.unique (adds_missing hans)
        have hnot := isNotFound_of_answer hans
        rw [← Except.error.inj hsame] at hnot
        cases hnot
      | ok d =>
        obtain ⟨p, hd⟩ := exists_gathers (w := w) d
        cases p with
        | error f =>
          rw [← h.unique (adds_failed hans hd)] at hd
          exact ⟨[], name, rest, d, rfl, fun _ hb => absurd hb List.not_mem_nil, hans, hd⟩
        | ok ds =>
          obtain ⟨o, ho⟩ := exists_adds (w := w) rest (merge acc ds)
          rw [← h.unique (adds_gathered hans hd ho)] at ho
          obtain ⟨before, other, after, e, hnames, hbefore, he⟩ := ih ho
          refine ⟨name :: before, other, after, e, by rw [hnames, List.cons_append], ?_, he⟩
          intro b hb
          rcases List.mem_cons.mp hb with rfl | hb
          · exact ⟨d, ds, hans, hd⟩
          · exact hbefore b hb
  · rintro ⟨before, name, rest, d, rfl, hbefore, hans, hd⟩
    induction before generalizing acc with
    | nil => exact adds_failed hans hd
    | cons b before ih =>
      obtain ⟨e, ds, hb, he⟩ := hbefore b (List.mem_cons_self ..)
      exact adds_gathered hb he
        (ih fun other hother => hbefore other (List.mem_cons_of_mem _ hother))

/-- A class is gathered without end if and only if it comes to a trait that is. -/
theorem gathers_endless_iff :
    w.Gathers c endless ↔ ∃ d, w.Imports c d ∧ w.Gathers d endless := by
  cases hown : c.ownDeclarations with
  | error f =>
    constructor
    · intro h
      have hkind := c.ownDeclarations_failsOnly f hown
      cases (gathers_of_unreadable hown).unique h
      cases hkind
    · rintro ⟨d, ⟨own, _, _, _, hok, _⟩, _⟩
      rw [hown] at hok
      cases hok
  | ok own =>
    rw [gathers_iff_adds hown, adds_endless_iff]
    constructor
    · rintro ⟨before, name, rest, d, hnames, hbefore, hans, hd⟩
      exact ⟨d, ⟨own, before, name, rest, hown, hnames, hbefore, hans⟩, hd⟩
    · rintro ⟨d, ⟨_, before, name, rest, _, hnames, hbefore, hans⟩, hd⟩
      exact ⟨before, name, rest, d, hnames, hbefore, hans, hd⟩

/-- Gathering a class to an end gathers the traits on the way to an end with less fuel. -/
theorem Imports.leads (h : w.Imports c d) : w.Leads c d := by
  obtain ⟨own, before, name, rest, hown, hnames, hbefore, hans⟩ := h
  intro m hm
  cases m with
  | zero => exact absurd rfl hm
  | succ m =>
    refine ⟨m, Nat.lt_succ_self m, ?_⟩
    rw [gathered, hown, ok_bind, hnames] at hm
    clear hown hnames
    induction before generalizing own with
    | nil =>
      rw [List.nil_append, addTraits_cons _ hans] at hm
      exact ne_endless_of_bind hm
    | cons b before ih =>
      obtain ⟨e, ds, hb, he⟩ := hbefore b (List.mem_cons_self ..)
      rw [List.cons_append, addTraits_cons _ hb] at hm
      rw [he.eq_of_gathered (ne_endless_of_bind hm)] at hm
      exact ih _ (fun other hother => hbefore other (List.mem_cons_of_mem _ hother)) hm

theorem leads_of_imports (h : Relation.TransGen w.Imports c d) : w.Leads c d := by
  induction h with
  | single h => exact h.leads
  | tail _ h ih => exact ih.trans h.leads

theorem Imports.find? (h : w.Imports c d) : w.find? d.key = some d := by
  obtain ⟨_, _, _, _, _, _, _, hans⟩ := h
  exact find?_key_of_answer hans

/-- The properties of a class are gathered without end exactly if gathering them comes to a
trait that imports itself. -/
theorem gathers_circles_iff (hc : w.find? c.key = some c) :
    w.Gathers c endless ↔ Circles w.Imports c := by
  constructor
  · intro h
    exact circles_of_forever (P := fun d => w.Gathers d endless)
      (fun d hd => gathers_endless_iff.mp hd) (fun _ _ hstep => hstep.find?) [] hc h
      fun k hk => absurd hk List.not_mem_nil
  · rintro ⟨d, hcd, hround⟩
    clear hc
    have hd : w.Gathers d endless := ⟨0, fun m _ => (leads_of_imports hround).gathered_self m⟩
    induction hcd using Relation.ReflTransGen.head_induction_on with
    | refl => exact hd
    | head h _ ih => exact gathers_endless_iff.mpr ⟨_, h, ih⟩

/-- Traits that are added to an end are all found, and have lists of properties. -/
theorem Adds.forall_gathered {ds : List PropertyDeclaration} (h : w.Adds names acc (.ok ds)) :
    ∀ name ∈ names, ∃ e es, w.answer name = .ok e ∧ w.Gathers e (.ok es) := by
  induction names generalizing acc with
  | nil => exact fun _ hmem => absurd hmem List.not_mem_nil
  | cons name rest ih =>
    cases hans : w.answer name with
    | error f => cases h.unique (adds_missing hans)
    | ok d =>
      obtain ⟨p, hd⟩ := exists_gathers (w := w) d
      cases p with
      | error f => cases h.unique (adds_failed hans hd)
      | ok es =>
        obtain ⟨o, ho⟩ := exists_adds (w := w) rest (merge acc es)
        rw [← h.unique (adds_gathered hans hd ho)] at ho
        exact List.forall_mem_cons.mpr ⟨⟨d, es, hans, hd⟩, ih ho⟩

/-- A class with a list of properties imports the traits that it uses, and they have such
lists. -/
theorem Uses.imports {ds : List PropertyDeclaration} (hd : w.Uses c d)
    (h : w.Gathers c (.ok ds)) : w.Imports c d ∧ ∃ es, w.Gathers d (.ok es) := by
  obtain ⟨name, hmem, hans⟩ := hd
  cases hown : c.ownDeclarations with
  | error f =>
    have hfails : w.Gathers c (.error f) := gathers_of_unreadable hown
    cases hfails.unique h
  | ok own =>
    rw [gathers_iff_adds hown] at h
    have hall := h.forall_gathered
    obtain ⟨before, rest, hnames⟩ := List.append_of_mem hmem
    constructor
    · refine ⟨own, before, name, rest, hown, hnames, ?_, hans⟩
      intro b hb
      exact hall b (by rw [hnames]; exact List.mem_append_left _ hb)
    · obtain ⟨e, es, he, hes⟩ := hall name hmem
      rw [hans] at he
      cases he
      exact ⟨es, hes⟩

theorem transGen_imports {ds : List PropertyDeclaration} (hd : Relation.TransGen w.Uses c d)
    (h : w.Gathers c (.ok ds)) :
    Relation.TransGen w.Imports c d ∧ ∃ es, w.Gathers d (.ok es) := by
  induction hd with
  | single hstep =>
    obtain ⟨himports, hes⟩ := hstep.imports h
    exact ⟨.single himports, hes⟩
  | tail _ hstep ih =>
    obtain ⟨hpath, es, hes⟩ := ih
    obtain ⟨himports, hlast⟩ := hstep.imports hes
    exact ⟨.tail hpath himports, hlast⟩

/-- A class that uses a trait which uses itself, directly or not, has no list of properties. -/
theorem not_gathers_of_circles {ds : List PropertyDeclaration} (h : Circles w.Uses c) :
    ¬w.Gathers c (.ok ds) := by
  intro hds
  obtain ⟨d, hcd, hround⟩ := h
  have hd : ∃ es, w.Gathers d (.ok es) := by
    rcases Relation.reflTransGen_iff_eq_or_transGen.mp hcd with rfl | hcd
    · exact ⟨ds, hds⟩
    · exact (transGen_imports hcd hds).2
  obtain ⟨es, hes⟩ := hd
  have hself := leads_of_imports (transGen_imports hround hes).1
  cases hself.gathers_self hes

/-- Gathering properties never reports a circle. -/
theorem gathered_failsOnly (n : Nat) (c : ReflectedClass) :
    (w.gathered n c).FailsOnly fun f => !(f.kind? == some .circularReference) := by
  induction n generalizing c with
  | zero => exact failsOnly_error rfl
  | succ n ih =>
    have hown : c.ownDeclarations.FailsOnly fun f => !(f.kind? == some .circularReference) := by
      refine c.ownDeclarations_failsOnly.mono fun f hf => ?_
      rw [eq_of_beq hf]
      rfl
    refine hown.bind fun own => failsOnly_foldlM (fun acc name => ?_) c.traitNames own
    unfold addTrait
    cases hans : w.answer name with
    | error f =>
      apply failsOnly_error
      have hnot := isNotFound_of_answer hans
      rw [eq_of_beq hnot]
      rfl
    | ok d => exact (ih d).bind fun _ => failsOnly_ok

end World

section

variable {w : World} {L : List ConstantKey} {K : List String} {s : Store} {c : ReflectedClass}

theorem immediateProperties_endless_iff (hw : w.IsStatic) (hc : w.find? c.key = some c)
    (hs : s.Within w L K) :
    outcome (immediateProperties c) s = endless ↔ Circles w.Imports c := by
  obtain ⟨o, ho⟩ := World.exists_gathers (w := w) c
  rw [(immediateProperties_comes hw hc ho s hs).1, ← World.gathers_circles_iff hc]
  constructor
  · intro h
    cases o with
    | error f => cases h; exact ho
    | ok ds => cases h
  · intro h
    rw [ho.unique h]
    rfl

/-- A class that uses a trait which uses itself has no properties, and the circle is not
reported. -/
theorem immediateProperties_circles (hw : w.IsStatic) (hc : w.find? c.key = some c)
    (hs : s.Within w L K) (h : Circles w.Uses c) :
    ∃ f, outcome (immediateProperties c) s = .error f ∧ f.kind? ≠ some .circularReference := by
  obtain ⟨o, ho⟩ := World.exists_gathers (w := w) c
  rw [(immediateProperties_comes hw hc ho s hs).1]
  cases o with
  | ok ds => exact absurd ho (World.not_gathers_of_circles h)
  | error f =>
    refine ⟨f, rfl, ?_⟩
    obtain ⟨n, hn⟩ := ho
    have hkind := World.gathered_failsOnly n c f (hn n (Nat.le_refl n))
    simpa using hkind

/-- A climb fails if its first visit does. -/
theorem climbFrom_error {α : Type} {visit : α → ReflectedClass → Query (Bool × α)} {a : α}
    {f : Failure} (h : outcome (visit a c) s = .error f) :
    outcome (climbFrom c a visit) s = .error f := by
  obtain ⟨fuel, hfuel⟩ := Nat.exists_eq_add_one.mpr s.depth_pos
  rw [climbFrom, (depth_bind _ s).1, hfuel, climb_new List.not_mem_nil]
  exact outcome_bind_error h

theorem properties_error {f : Failure} (h : outcome (immediateProperties c) s = .error f) :
    outcome (properties c) s = .error f := climbFrom_error (outcome_bind_error h)

theorem property_error {f : Failure} (h : outcome (immediateProperties c) s = .error f)
    (written : String) : outcome (property c written) s = .error f :=
  outcome_bind_error (climbFrom_error (outcome_bind_error h))

end

/-- Over sources that do not change, after any calls and amid any folds: a constant that
no relative of a class declares is searched without end if a way through relatives goes
round, and is not located otherwise; the properties of a class are gathered without end
exactly if gathering them comes to a trait that imports itself; and a class that uses a
trait which uses itself has no properties of its own, none at all and none of any name,
with one failure that is no report of a circle. -/
theorem Store.circles_followed (w : World) (hw : w.IsStatic) (calls : List Call)
    (L : List ConstantKey) (c : ReflectedClass) (hc : w.find? c.key = some c) :
    (∀ name, (∀ d, Relation.ReflTransGen w.Relative c d → d.constant? name = none) →
        (Circles w.Relative c → outcome (constantValue c name) (amid w calls L) = endless)
          ∧ (¬Circles w.Relative c → outcome (constantValue c name) (amid w calls L)
            = .error (.unfoldable (.constantNotLocated c.name name))))
      ∧ (outcome (immediateProperties c) (amid w calls L) = endless ↔ Circles w.Imports c)
      ∧ (Circles w.Uses c → ∃ f, f.kind? ≠ some .circularReference
        ∧ outcome (immediateProperties c) (amid w calls L) = .error f
        ∧ outcome (properties c) (amid w calls L) = .error f
        ∧ ∀ written, outcome (property c written) (amid w calls L) = .error f) := by
  have hs := within_amid hw calls L
  refine ⟨fun name hlacks => constantValue_circles hw hc hlacks hs,
    immediateProperties_endless_iff hw hc hs, fun h => ?_⟩
  obtain ⟨f, hf, hkind⟩ := immediateProperties_circles hw hc hs h
  exact ⟨f, hkind, hf, properties_error hf, property_error hf⟩

/-! ## An interface and a trait that go round -/

/-- A text with an interface that extends itself, a trait that uses itself, and a class that
uses the trait. -/
def circlingText : String :=
  "<?php interface I extends I \x7b\x7d trait T \x7b use T; \x7d class C \x7b use T; \x7d"

/-- The start of the text. -/
def circlingTag : Node := ⟨"php_tag", 0, 5, none, true, false, []⟩

/-- A class-like that uses a trait, both with names of one letter. -/
def traitUser (kind : String) (start name : Nat) : Node :=
  ⟨kind, start, name + 12, none, true, false,
    [⟨"name", name, name + 1, some "name", true, false, []⟩,
      ⟨"declaration_list", name + 2, name + 12, some "body", true, false,
        [⟨"use_declaration", name + 4, name + 10, none, true, false,
          [⟨"name", name + 8, name + 9, none, true, false, []⟩]⟩]⟩]⟩

/-- The first declaration in `circlingText`. -/
def circlingInterfaceNode : Node :=
  ⟨"interface_declaration", 6, 30, none, true, false,
    [⟨"name", 16, 17, some "name", true, false, []⟩,
      ⟨"base_clause", 18, 27, none, true, false, [⟨"name", 26, 27, none, true, false, []⟩]⟩,
      ⟨"declaration_list", 28, 30, some "body", true, false, []⟩]⟩

/-- The second declaration in `circlingText`. -/
def circlingTraitNode : Node := traitUser "trait_declaration" 31 37

/-- The third declaration in `circlingText`. -/
def circlingClassNode : Node := traitUser "class_declaration" 50 56

/-- A world with nothing but these class-likes. -/
def circlingWorld : World :=
  ⟨FileTree.empty [],
    [(circlingText, ⟨"program", 0, 68, none, true, false,
      [circlingTag, circlingInterfaceNode, circlingTraitNode, circlingClassNode]⟩)],
    [.text circlingText "<string>"], []⟩

/-- The interface. -/
def circlingInterface : ReflectedClass :=
  ⟨⟨⟨circlingInterfaceNode, [circlingTag]⟩, .interfaceKind, "I", NameScope.empty⟩,
    circlingWorld.trees.parse circlingText "<string>"⟩

/-- The trait. -/
def circlingTrait : ReflectedClass :=
  ⟨⟨⟨circlingTraitNode, [circlingInterfaceNode, circlingTag]⟩, .traitKind, "T", NameScope.empty⟩,
    circlingWorld.trees.parse circlingText "<string>"⟩

/-- The class that uses the trait. -/
def circlingClass : ReflectedClass :=
  ⟨⟨⟨circlingClassNode, [circlingTraitNode, circlingInterfaceNode, circlingTag]⟩, .classKind, "C",
      NameScope.empty⟩, circlingWorld.trees.parse circlingText "<string>"⟩

theorem classes_circlingWorld :
    circlingWorld.classes = [circlingInterface, circlingTrait, circlingClass] := by
  have hsources : circlingWorld.sources = [circlingInterface.source] := rfl
  have hchildren : circlingInterface.source.root.children
      = [circlingTag, circlingInterfaceNode, circlingTraitNode, circlingClassNode] := rfl
  have hthird : ClassLike.walk circlingInterface.source.text
      [circlingTraitNode, circlingInterfaceNode, circlingTag] [circlingClassNode] NameScope.empty
      = ([circlingClass.classLike], []) := by
    rw [ClassLike.walk, ClassLike.walk]
    rfl
  have hsecond : ClassLike.walk circlingInterface.source.text [circlingInterfaceNode, circlingTag]
      [circlingTraitNode, circlingClassNode] NameScope.empty
      = ([circlingTrait.classLike, circlingClass.classLike], []) := by
    rw [ClassLike.walk, hthird]
    rfl
  have hfirst : ClassLike.walk circlingInterface.source.text [circlingTag]
      [circlingInterfaceNode, circlingTraitNode, circlingClassNode] NameScope.empty
      = ([circlingInterface.classLike, circlingTrait.classLike, circlingClass.classLike], []) := by
    rw [ClassLike.walk, hsecond]
    rfl
  have hwalk : ClassLike.walk circlingInterface.source.text []
      [circlingTag, circlingInterfaceNode, circlingTraitNode, circlingClassNode] NameScope.empty
      = ([circlingInterface.classLike, circlingTrait.classLike, circlingClass.classLike], []) := by
    refine Eq.trans ?_ hfirst
    rw [ClassLike.walk]
    rfl
  rw [World.classes, hsources, List.flatMap_singleton, World.classesIn, ClassLike.all, hchildren,
    hwalk]
  rfl

theorem isStatic_circlingWorld : circlingWorld.IsStatic := World.isStatic_of_text rfl

theorem answer_circlingInterface : circlingWorld.answer "I" = .ok circlingInterface := by
  refine World.answer_name (c := circlingInterface) ?_ rfl
  rw [World.find?, classes_circlingWorld]
  rfl

theorem answer_circlingTrait : circlingWorld.answer "T" = .ok circlingTrait := by
  refine World.answer_name (c := circlingTrait) ?_ rfl
  rw [World.find?, classes_circlingWorld]
  rfl

theorem relatedNames_circlingInterface : circlingInterface.relatedNames = ["I"] := by
  have hclause : circlingInterface.relatedNames = [NameScope.empty.resolve "I"] := rfl
  rw [hclause, NameScope.resolve_eq]
  rfl

theorem traitNames_circling :
    circlingTrait.traitNames = ["T"] ∧ circlingClass.traitNames = ["T"] := by
  have hresolve : NameScope.empty.resolve "T" = "T" := (NameScope.resolve_eq _ _).trans rfl
  have htrait : circlingTrait.traitNames = [NameScope.empty.resolve "T"] := rfl
  have hclass : circlingClass.traitNames = [NameScope.empty.resolve "T"] := rfl
  rw [htrait, hclass, hresolve]
  exact ⟨rfl, rfl⟩

theorem relative_circlingInterface {d : ReflectedClass} :
    circlingWorld.Relative circlingInterface d ↔ d = circlingInterface := by
  unfold World.Relative
  rw [relatedNames_circlingInterface]
  simp [answer_circlingInterface, eq_comm]

/-- The interface is searched for a constant without end, and the properties of the class
are gathered without end, after both were asked for once. -/
theorem circles_followed_circling :
    circlingWorld.IsStatic
      ∧ circlingWorld.find? circlingInterface.key = some circlingInterface
      ∧ (∀ d, Relation.ReflTransGen circlingWorld.Relative circlingInterface d →
        d.constant? "X" = none)
      ∧ Circles circlingWorld.Relative circlingInterface
      ∧ outcome (constantValue circlingInterface "X")
          (amid circlingWorld [.constantValue (.named "I") "X"] []) = endless
      ∧ circlingWorld.find? circlingClass.key = some circlingClass
      ∧ Circles circlingWorld.Uses circlingClass
      ∧ outcome (immediateProperties circlingClass)
          (amid circlingWorld [.properties (.named "C")] []) = endless
      ∧ ∃ f, f.kind? ≠ some .circularReference ∧ outcome (properties circlingClass)
          (amid circlingWorld [.properties (.named "C")] []) = .error f := by
  have hfindInterface : circlingWorld.find? circlingInterface.key = some circlingInterface := by
    rw [World.find?, classes_circlingWorld]
    rfl
  have hfindClass : circlingWorld.find? circlingClass.key = some circlingClass := by
    rw [World.find?, classes_circlingWorld]
    rfl
  have hround : Circles circlingWorld.Relative circlingInterface :=
    ⟨_, .refl, .single (relative_circlingInterface.mpr rfl)⟩
  have hlacks : ∀ d, Relation.ReflTransGen circlingWorld.Relative circlingInterface d →
      d.constant? "X" = none := by
    intro d hd
    have hsame : d = circlingInterface := by
      induction hd with
      | refl => rfl
      | tail _ hstep ih =>
        subst ih
        exact relative_circlingInterface.mp hstep
    rw [hsame]
    rfl
  have himports (c : ReflectedClass) (hown : c.ownDeclarations = .ok [])
      (hnames : c.traitNames = ["T"]) : circlingWorld.Imports c circlingTrait :=
    ⟨[], [], "T", [], hown, hnames, fun _ hb => absurd hb List.not_mem_nil, answer_circlingTrait⟩
  have huses (c : ReflectedClass) (hnames : c.traitNames = ["T"]) :
      circlingWorld.Uses c circlingTrait :=
    ⟨"T", by rw [hnames]; exact List.mem_cons_self .., answer_circlingTrait⟩
  obtain ⟨htrait, hclass⟩ := traitNames_circling
  have hcircle : Circles circlingWorld.Uses circlingClass :=
    ⟨_, .single (huses _ hclass), .single (huses _ htrait)⟩
  have hconstant := Store.circles_followed circlingWorld isStatic_circlingWorld
    [.constantValue (.named "I") "X"] [] circlingInterface hfindInterface
  have hproperties := Store.circles_followed circlingWorld isStatic_circlingWorld
    [.properties (.named "C")] [] circlingClass hfindClass
  obtain ⟨f, hkind, _, hf, _⟩ := hproperties.2.2 hcircle
  refine ⟨isStatic_circlingWorld, hfindInterface, hlacks, hround,
    (hconstant.1 "X" hlacks).1 hround, hfindClass, hcircle, hproperties.2.1.mpr ?_, f, hkind, hf⟩
  exact ⟨_, .single (himports _ rfl hclass), .single (himports _ rfl htrait)⟩

end StaticReflection
