import StaticReflection.Proofs.Reflection.Extent
import StaticReflection.Proofs.Value.Outcome

/-!
# Following parents

From a class parents lead through some classes until one has no parent, or its parent
cannot be found, or is a class that came up before. `Lineage` is that way, with the
classes on it, and `Fate` how it ends. There is always one, and only one
(`exists_lineage`, `Lineage.unique`).

> `Lineage.climb_comes`: a climb that starts with a class visits the classes of its
> lineage in order, as long as the visits ask to go on, and then comes to what the fate
> of the lineage makes of the last visit.

What is said of the parents need not hold in all stores: it is enough that it holds in
those that the climb comes through.
-/

namespace StaticReflection

open Folding Reflector

/-- How following parents ends. -/
inductive Fate where
  /-- A class has no parent. -/
  | rootless
  /-- The parent of a class cannot be found. -/
  | missing (failure : Failure)
  /-- The parent of a class came up before. -/
  | circular

/-- What a climb comes to after the last visit. -/
def Fate.close {α : Type} (origin : String) (b : α) : Fate → Outcome α
  | .rootless => .ok b
  | .missing f => .error f
  | .circular => .error (.circularInheritance origin)

/-- Following parents ends at a class, after classes with some keys came up. -/
inductive Fate.EndsAt (next : ReflectedClass → Outcome (Option ReflectedClass))
    (seen : List String) (c : ReflectedClass) : Fate → Prop
  | rootless (h : next c = .ok none) : EndsAt next seen c .rootless
  | missing {f : Failure} (h : next c = .error f) : EndsAt next seen c (.missing f)
  | circular {d : ReflectedClass} (h : next c = .ok (some d)) (hd : d.key ∈ c.key :: seen) :
      EndsAt next seen c .circular

/-- The classes that parents lead through from a class, itself the first, and how that
ends, after classes with some keys came up. -/
inductive Lineage (next : ReflectedClass → Outcome (Option ReflectedClass)) :
    List String → ReflectedClass → List ReflectedClass → Fate → Prop
  | last {seen : List String} {c : ReflectedClass} {fate : Fate}
      (h : fate.EndsAt next seen c) : Lineage next seen c [c] fate
  | step {seen : List String} {c d : ReflectedClass} {cs : List ReflectedClass} {fate : Fate}
      (h : next c = .ok (some d)) (hd : d.key ∉ c.key :: seen)
      (rest : Lineage next (c.key :: seen) d cs fate) : Lineage next seen c (c :: cs) fate

/-- Visits of some classes in order, as long as they ask to go on, and what is made of
the last one. -/
def survey {α : Type} (see : α → ReflectedClass → Outcome (Bool × α)) (last : α → Outcome α) :
    List ReflectedClass → α → Outcome α
  | [], a => last a
  | c :: cs, a => do
    let (goesOn, b) ← see a c
    if goesOn then survey see last cs b else return b

/-! ## Surveys -/

section

variable {α β : Type} {last : α → Outcome α} {cs : List ReflectedClass}

/-- A survey whose visits all ask to go on is a fold. -/
theorem survey_all {f : α → ReflectedClass → α} (a : α) :
    survey (fun b d => .ok (true, f b d)) last cs a = last (cs.foldl f a) := by
  induction cs generalizing a with
  | nil => rfl
  | cons c cs ih => exact ih (f a c)

/-- A visit that looks for something, and asks to go on if it is not there. -/
def lookFor (look : ReflectedClass → Outcome (Option β)) (_ : Option β) (d : ReflectedClass) :
    Outcome (Bool × Option β) := do
  let here ← look d
  return (here.isNone, here)

theorem lookFor_ok {look : ReflectedClass → Outcome (Option β)} {d : ReflectedClass}
    {here before : Option β} (h : look d = .ok here) :
    lookFor look before d = .ok (here.isNone, here) := by
  rw [lookFor, h]
  rfl

theorem survey_found {look : ReflectedClass → Outcome (Option β)}
    {last : Option β → Outcome (Option β)} {c : ReflectedClass} {x : β} {a : Option β}
    (h : look c = .ok (some x)) : survey (lookFor look) last (c :: cs) a = .ok (some x) := by
  rw [survey, lookFor_ok h]
  rfl

theorem survey_notFound {look : ReflectedClass → Outcome (Option β)}
    {last : Option β → Outcome (Option β)} {c : ReflectedClass} {a : Option β}
    (h : look c = .ok none) :
    survey (lookFor look) last (c :: cs) a = survey (lookFor look) last cs none := by
  rw [survey, lookFor_ok h]
  rfl

theorem survey_error {look : ReflectedClass → Outcome (Option β)}
    {last : Option β → Outcome (Option β)} {c : ReflectedClass} {f : Failure} {a : Option β}
    (h : look c = .error f) : survey (lookFor look) last (c :: cs) a = .error f := by
  rw [survey, lookFor, h]
  rfl

/-- Looking for something with visits that do not fail finds what the first class has. -/
theorem survey_findSome {f : ReflectedClass → Option β} :
    survey (lookFor fun d => .ok (f d)) (fun b => .ok b) cs none = .ok (cs.findSome? f) := by
  induction cs with
  | nil => rfl
  | cons c cs ih =>
    rw [List.findSome?_cons]
    cases hc : f c with
    | some x => exact survey_found (congrArg Except.ok hc)
    | none => exact (survey_notFound (congrArg Except.ok hc)).trans ih

/-- Looking for something fails as the end does exactly if it is nowhere before, provided
that no visit fails in such a way. -/
theorem survey_error_iff {look : ReflectedClass → Outcome (Option β)}
    (last : Option β → Outcome (Option β)) {p : Failure → Bool}
    (hlook : ∀ d ∈ cs, (look d).FailsOnly fun f => !p f) :
    (∃ f, survey (lookFor look) last cs none = .error f ∧ p f = true)
      ↔ (∀ d ∈ cs, look d = .ok none) ∧ ∃ f, last none = .error f ∧ p f = true := by
  induction cs with
  | nil => exact ⟨fun h => ⟨fun _ hd => (List.not_mem_nil hd).elim, h⟩, fun h => h.2⟩
  | cons c cs ih =>
    have hrest := ih fun d hd => hlook d (List.mem_cons_of_mem _ hd)
    rw [List.forall_mem_cons]
    cases hc : look c with
    | error f =>
      have hf : (!p f) = true := hlook c (List.mem_cons_self ..) f hc
      rw [survey_error hc]
      refine ⟨fun ⟨g, he, hg⟩ => ?_, fun ⟨⟨he, _⟩, _⟩ => by cases he⟩
      cases he
      rw [hg] at hf
      cases hf
    | ok found =>
      cases found with
      | some x =>
        rw [survey_found hc]
        exact ⟨fun ⟨_, he, _⟩ => by (cases he), fun ⟨⟨he, _⟩, _⟩ => by (cases he)⟩
      | none =>
        rw [survey_notFound hc, hrest]
        exact ⟨fun h => ⟨⟨rfl, h.1⟩, h.2⟩, fun h => ⟨h.1.2, h.2⟩⟩

end

/-! ## Lineages -/

section

variable {next : ReflectedClass → Outcome (Option ReflectedClass)} {seen : List String}
variable {c : ReflectedClass} {cs : List ReflectedClass} {fate : Fate}

theorem Fate.EndsAt.unique {fate' : Fate} (h : fate.EndsAt next seen c)
    (h' : fate'.EndsAt next seen c) : fate' = fate := by
  cases h <;> cases h' <;> simp_all

/-- Following parents does not end at a class whose parent is new. -/
theorem Fate.EndsAt.not_step {d : ReflectedClass} (h : fate.EndsAt next seen c)
    (hd : next c = .ok (some d)) : d.key ∈ c.key :: seen := by
  cases h with
  | rootless h => rw [hd] at h; cases h
  | missing h => rw [hd] at h; cases h
  | circular h hmem => rw [hd] at h; cases h; exact hmem

namespace Lineage

theorem exists_cons (h : Lineage next seen c cs fate) : ∃ rest, cs = c :: rest := by
  cases h with
  | last _ => exact ⟨[], rfl⟩
  | step _ _ _ => exact ⟨_, rfl⟩

/-- A lineage depends on nothing but the parents of its classes. -/
theorem congr {next' : ReflectedClass → Outcome (Option ReflectedClass)}
    (h : Lineage next seen c cs fate) (hnext : ∀ d ∈ cs, next' d = next d) :
    Lineage next' seen c cs fate := by
  induction h with
  | last h =>
    have hlast := hnext _ (List.mem_cons_self ..)
    cases h with
    | rootless h => exact .last (.rootless (hlast.trans h))
    | missing h => exact .last (.missing (hlast.trans h))
    | circular h hd => exact .last (.circular (hlast.trans h) hd)
  | step h hd _ ih =>
    exact .step ((hnext _ (List.mem_cons_self ..)).trans h) hd
      (ih fun e he => hnext e (List.mem_cons_of_mem _ he))

/-- What holds of a class and is handed on to parents holds of a whole lineage. -/
theorem forall_mem {P : ReflectedClass → Prop} (h : Lineage next seen c cs fate) (hc : P c)
    (hnext : ∀ d e, P d → next d = .ok (some e) → P e) : ∀ d ∈ cs, P d := by
  induction h with
  | last _ => exact List.forall_mem_singleton.mpr hc
  | step hstep _ _ ih => exact List.forall_mem_cons.mpr ⟨hc, ih (hnext _ _ hc hstep)⟩

/-- No class of a lineage came up before, and none comes up twice. -/
theorem keys_nodup (h : Lineage next seen c cs fate) (hnew : c.key ∉ seen) :
    (cs.map (·.key)).Nodup ∧ ∀ k ∈ cs.map (·.key), k ∉ seen := by
  induction h with
  | last _ =>
    rw [List.map_singleton]
    exact ⟨List.pairwise_singleton _ _, List.forall_mem_singleton.mpr hnew⟩
  | step _ hd _ ih =>
    obtain ⟨hnodup, hall⟩ := ih hd
    rw [List.map_cons]
    refine ⟨List.nodup_cons.mpr ⟨fun hmem => ?_, hnodup⟩, List.forall_mem_cons.mpr ⟨hnew, ?_⟩⟩
    · exact hall _ hmem (List.mem_cons_self ..)
    · exact fun k hk hmem => hall k hk (List.mem_cons_of_mem _ hmem)

/-- A parent that cannot be found is that of a class of the lineage. -/
theorem exists_missing {f : Failure} (h : Lineage next seen c cs fate) (hf : fate = .missing f) :
    ∃ d ∈ cs, next d = .error f := by
  induction h with
  | last h =>
    subst hf
    cases h with
    | missing h => exact ⟨_, List.mem_cons_self .., h⟩
  | step _ _ _ ih =>
    obtain ⟨d, hd, hnext⟩ := ih hf
    exact ⟨d, List.mem_cons_of_mem _ hd, hnext⟩

theorem unique {cs' : List ReflectedClass} {fate' : Fate} (h : Lineage next seen c cs fate)
    (h' : Lineage next seen c cs' fate') : cs' = cs ∧ fate' = fate := by
  induction h generalizing cs' fate' with
  | last h =>
    cases h' with
    | last g => exact ⟨rfl, h.unique g⟩
    | step g hd _ => exact absurd (h.not_step g) hd
  | step h hd _ ih =>
    cases h' with
    | last g => exact absurd (g.not_step h) hd
    | step g _ rest =>
      rw [h] at g
      cases g
      obtain ⟨rfl, rfl⟩ := ih rest
      exact ⟨rfl, rfl⟩

/-- A lineage has no more classes than there are keys that did not come up before. -/
theorem length_le {keys : List String} (h : Lineage next seen c cs fate) (hnew : c.key ∉ seen)
    (hkeys : ∀ d ∈ cs, d.key ∈ keys) : cs.length ≤ unused keys seen := by
  induction h with
  | last _ => exact Nat.zero_lt_of_lt (unused_cons_lt (hkeys _ (List.mem_cons_self ..)) hnew)
  | step _ hd _ ih =>
    have hrest := ih hd fun e he => hkeys e (List.mem_cons_of_mem _ he)
    have hless := unused_cons_lt (hkeys _ (List.mem_cons_self ..)) hnew
    rw [List.length_cons]
    omega

end Lineage

/-- Where parents lead to classes with some keys only, every class has a lineage. -/
theorem exists_lineage {keys : List String}
    (hkeys : ∀ d e, next d = .ok (some e) → e.key ∈ keys) (seen : List String)
    (c : ReflectedClass) : ∃ cs fate, Lineage next seen c cs fate := by
  cases hnext : next c with
  | error f => exact ⟨_, _, .last (.missing hnext)⟩
  | ok found =>
    cases found with
    | none => exact ⟨_, _, .last (.rootless hnext)⟩
    | some d =>
      by_cases hd : d.key ∈ c.key :: seen
      · exact ⟨_, _, .last (.circular hnext hd)⟩
      · -- the parent is new, so fewer keys are left
        have hless := unused_cons_lt (hkeys c d hnext) hd
        obtain ⟨cs, fate, hrest⟩ := exists_lineage hkeys (c.key :: seen) d
        exact ⟨_, _, .step hnext hd hrest⟩
termination_by unused keys (c.key :: seen)

/-! ## Climbing along a lineage -/

/-- One step of a climb: a visit, and if it asks to go on what follows from the parent. -/
theorem climb_new {α : Type} {origin : String} {visit : α → ReflectedClass → Query (Bool × α)}
    {fuel : Nat} (hnew : c.key ∉ seen) (a : α) :
    climb origin visit (fuel + 1) seen a c = (do
      let (goesOn, b) ← visit a c
      if goesOn then do
        match ← parent c with
        | none => return b
        | some p => climb origin visit fuel (c.key :: seen) b p
      else return b) := by
  have hseen : ¬seen.contains c.key = true := fun h => hnew (List.contains_iff_mem.mp h)
  rw [climb]
  simp only
  rw [if_neg hseen]
  refine congrArg (visit a c >>= ·) (funext fun r => ?_)
  cases r.1 <;> rfl

/-- A climb ends with a failure at a class that came up before, and when its fuel is spent. -/
theorem climb_seen {α : Type} {origin : String} {visit : α → ReflectedClass → Query (Bool × α)}
    {fuel : Nat} {J : Store → Prop} (hseen : c.key ∈ seen) (a : α) :
    Comes J (climb origin visit fuel seen a c) (.error (.circularInheritance origin)) J := by
  cases fuel with
  | zero => exact .throw
  | succ fuel =>
    rw [climb]
    simp only
    rw [if_pos (List.contains_iff_mem.mpr hseen)]
    exact .bind_error .throw

/-- Along a lineage a climb comes to the survey of its classes, if in all stores on the way
visits and parents come to what they are said to come to. -/
theorem Lineage.climb_comes {α : Type} {J : Store → Prop} {origin : String}
    {visit : α → ReflectedClass → Query (Bool × α)}
    {see : α → ReflectedClass → Outcome (Bool × α)} {fuel : Nat}
    (h : Lineage next seen c cs fate) (hnew : c.key ∉ seen)
    (hvisit : ∀ a, ∀ d ∈ cs, Comes J (visit a d) (see a d) J)
    (hparent : ∀ d ∈ cs, Comes J (parent d) (next d) J) (hfuel : cs.length ≤ fuel) (a : α) :
    Comes J (climb origin visit fuel seen a c)
      (survey see (fun b => fate.close origin b) cs a) J := by
  induction h generalizing fuel a with
  | @last seen c fate h =>
    obtain ⟨fuel, rfl⟩ : ∃ k, fuel = k + 1 := ⟨fuel - 1, by rw [List.length_singleton] at hfuel; omega⟩
    rw [climb_new hnew]
    have hnext := hparent c (List.mem_cons_self ..)
    refine (hvisit a c (List.mem_cons_self ..)).bind fun r _ => ?_
    obtain ⟨goesOn, b⟩ := r
    cases goesOn with
    | false => exact .pure
    | true =>
      cases h with
      | rootless h => rw [h] at hnext; exact hnext.bind_ok .pure
      | missing h => rw [h] at hnext; exact hnext.bind_error
      | circular h hd => rw [h] at hnext; exact hnext.bind_ok (climb_seen hd b)
  | @step seen c d cs fate h hd _ ih =>
    obtain ⟨fuel, rfl⟩ : ∃ k, fuel = k + 1 := ⟨fuel - 1, by rw [List.length_cons] at hfuel; omega⟩
    rw [climb_new hnew]
    have hnext := hparent c (List.mem_cons_self ..)
    refine (hvisit a c (List.mem_cons_self ..)).bind fun r _ => ?_
    obtain ⟨goesOn, b⟩ := r
    cases goesOn with
    | false => exact .pure
    | true =>
      rw [h] at hnext
      refine hnext.bind_ok (ih hd (fun a e he => hvisit a e (List.mem_cons_of_mem _ he))
        (fun e he => hparent e (List.mem_cons_of_mem _ he)) ?_ b)
      rw [List.length_cons] at hfuel
      omega

end

end StaticReflection
