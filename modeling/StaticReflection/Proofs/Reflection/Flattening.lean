import Mathlib.Data.List.Forall2
import StaticReflection.Proofs.Reflection.Circles
import StaticReflection.Proofs.Reflection.Visibility

/-!
# Traits flattened

The properties of a class are merged level by level: its own, then those of each trait it uses,
which were merged in the same way, and of each name the first stays. Merging is associative
(`merge_assoc`), so the levels do not matter: what comes out are the first of each name in one
listing of all declarations, depth first (`World.Lists`).

> `Store.immediateProperties_flattened`: where all traits on the way from a class are found, and no
> way goes round, its properties are the first of each name in that listing, as properties of the
> class itself; there is no list only if some declaration on the way cannot be read.

The way goes through the traits that are named in the use declarations, with one exception: names
relative to the namespace are passed over (`ReflectedClass.traitNames_eq`).
-/

namespace StaticReflection

open Folding Outcome Reflector Store

namespace ReflectedClass

/-- All that the nodes of a class declare, in the order of the nodes, repeated names included. -/
def writtenDeclarations (c : ReflectedClass) : Outcome (List PropertyDeclaration) := do
  return (← c.propertyNodes.mapM (PropertyDeclaration.ofNode c.source)).flatten

/-- The nodes that name traits in the use declarations of a class. -/
def usedNodes (c : ReflectedClass) : List Node :=
  match c.body? with
  | none => []
  | some body => (body.children.filter (·.kind == "use_declaration")).flatMap fun n =>
      n.children.filter fun m => nameKinds.contains m.kind || m.kind == "relative_name"

/-- The names of the used traits are those that are not relative to the namespace. -/
theorem traitNames_eq (c : ReflectedClass) :
    c.traitNames = (c.usedNodes.filter (·.kind != "relative_name")).map fun n =>
      c.resolveName (c.source.text n) := by
  have hkinds : nameKinds.contains "relative_name" = false := by decide
  unfold traitNames usedNodes
  cases c.body? with
  | none => rfl
  | some body =>
    simp only
    rw [List.filter_flatMap, List.map_flatMap]
    rw [List.flatMap_def, List.flatMap_def]
    refine congrArg List.flatten (List.map_congr_left fun n _ => ?_)
    unfold namesIn
    rw [List.filter_filter]
    congr 1
    refine List.filter_congr fun m _ => ?_
    by_cases hm : m.kind = "relative_name"
    · rw [hm, hkinds]
      rfl
    · rw [bne_iff_ne.mpr hm, beq_false_of_ne hm, Bool.or_false, Bool.true_and]

end ReflectedClass

/-! ## Merging -/

/-- The first declaration of each name. -/
def firstOfEach (ds : List PropertyDeclaration) : List PropertyDeclaration :=
  ds.eraseDupsBy fun d e => d.name == e.name

section

open ReflectedClass

variable {acc ds more : List PropertyDeclaration}

theorem merge_append (acc ds more : List PropertyDeclaration) :
    merge acc (ds ++ more) = merge (merge acc ds) more := List.foldl_append

theorem declares_append (name : String) :
    declares (acc ++ ds) name = (declares acc name || declares ds name) := List.any_append

/-- After a merge the names of both lists are there. -/
theorem declares_merge (name : String) :
    declares (merge acc ds) name = (declares acc name || declares ds name) := by
  induction ds generalizing acc with
  | nil => exact (Bool.or_false _).symm
  | cons d ds ih =>
    have hcons : declares (d :: ds) name = (d.name == name || declares ds name) := rfl
    show declares (merge (addDeclaration acc d) ds) name = _
    rw [ih, hcons, addDeclaration]
    split
    next hd =>
      by_cases hname : d.name = name
      · rw [hname] at hd
        rw [hd, Bool.true_or, Bool.true_or]
      · rw [beq_false_of_ne hname, Bool.false_or]
    next =>
      have hlast : declares [d] name = (d.name == name) := Bool.or_false _
      rw [declares_append, hlast, Bool.or_assoc]

theorem merge_assoc (acc ds more : List PropertyDeclaration) :
    merge acc (merge ds more) = merge (merge acc ds) more := by
  induction more generalizing ds with
  | nil => rfl
  | cons d more ih =>
    show merge acc (merge (addDeclaration ds d) more) = merge (addDeclaration (merge acc ds) d) more
    rw [ih]
    congr 1
    unfold addDeclaration
    by_cases hd : declares ds d.name = true
    · rw [if_pos hd, if_pos (by rw [declares_merge, hd, Bool.or_true])]
    · rw [if_neg hd, merge_append]
      rfl

/-- What merging adds to a list are the first of each name that it lacks. -/
theorem merge_eq (acc ds : List PropertyDeclaration) :
    merge acc ds = acc ++ firstOfEach (ds.filter fun d => !declares acc d.name) := by
  induction ds generalizing acc with
  | nil => exact (List.append_nil acc).symm
  | cons d ds ih =>
    show merge (addDeclaration acc d) ds = _
    unfold addDeclaration
    by_cases hd : declares acc d.name = true
    · rw [if_pos hd, ih, List.filter_cons_of_neg (by rw [hd]; decide)]
    · have hnew : (!declares acc d.name) = true := by rw [Bool.eq_false_iff.mpr hd]; rfl
      have hfirst : (d :: ds).filter (fun d => !declares acc d.name)
          = d :: ds.filter fun d => !declares acc d.name := List.filter_cons_of_pos hnew
      rw [if_neg hd, ih, hfirst, firstOfEach, firstOfEach,
        List.eraseDupsBy_cons, List.filter_filter, List.append_assoc, List.singleton_append]
      congr 3
      refine List.filter_congr fun e _ => ?_
      have hlast : declares [d] e.name = (d.name == e.name) := Bool.or_false _
      rw [declares_append, hlast, Bool.not_or]
      by_cases he : e.name = d.name
      · rw [he, beq_self_eq_true, Bool.not_true, Bool.and_false]
        rfl
      · rw [beq_false_of_ne he, beq_false_of_ne (Ne.symm he), Bool.not_false, Bool.and_true]
        rfl

theorem merge_nil_eq (ds : List PropertyDeclaration) : merge [] ds = firstOfEach ds := by
  have hall : ds.filter (fun d => !declares [] d.name) = ds :=
    List.filter_eq_self.mpr fun _ _ => rfl
  rw [merge_eq, List.nil_append, hall]

/-- It does not matter to a merge whether the lists of a listing are merged before. -/
theorem merge_flatten (acc : List PropertyDeclaration) (lists : List (List PropertyDeclaration)) :
    merge acc (lists.map firstOfEach).flatten = merge acc lists.flatten := by
  induction lists generalizing acc with
  | nil => rfl
  | cons ds lists ih =>
    rw [List.map_cons, List.flatten_cons, List.flatten_cons, merge_append, merge_append, ih,
      ← merge_nil_eq, merge_assoc]
    rfl

/-- The names that are left are those that were there. -/
theorem exists_firstOfEach (name : String) :
    (∃ d ∈ firstOfEach ds, d.name = name) ↔ ∃ d ∈ ds, d.name = name := by
  have hdeclares (ds : List PropertyDeclaration) :
      (∃ d ∈ ds, d.name = name) ↔ declares ds name = true := by
    simp only [declares, List.any_eq_true, beq_iff_eq]
  have hsame : declares (merge [] ds) name = declares ds name := declares_merge name
  rw [hdeclares, hdeclares, ← merge_nil_eq, hsame]

/-- What a class declares are the first of each name of what its nodes declare. -/
theorem ReflectedClass.ownDeclarations_eq (c : ReflectedClass) :
    c.ownDeclarations = c.writtenDeclarations >>= fun ds => .ok (firstOfEach ds) := by
  have hfold (nodes : List Sited) (acc : List PropertyDeclaration) :
      nodes.foldlM (fun acc n => do
          return (← PropertyDeclaration.ofNode c.source n).foldl addDeclaration acc) acc
        = nodes.mapM (PropertyDeclaration.ofNode c.source) >>= fun lists =>
            (.ok (merge acc lists.flatten) : Outcome _) := by
    induction nodes generalizing acc with
    | nil => rfl
    | cons n nodes ih =>
      rw [List.foldlM_cons, List.mapM_cons]
      cases PropertyDeclaration.ofNode c.source n with
      | error f => rfl
      | ok ds =>
        rw [ok_bind, ok_bind]
        show nodes.foldlM _ (merge acc ds) = _
        rw [ih]
        cases nodes.mapM (PropertyDeclaration.ofNode c.source) with
        | error f => rfl
        | ok lists =>
          show Except.ok _ = Except.ok (merge acc (ds :: lists).flatten)
          rw [List.flatten_cons, merge_append]
  unfold ownDeclarations writtenDeclarations
  rw [hfold]
  cases c.propertyNodes.mapM (PropertyDeclaration.ofNode c.source) with
  | error f => rfl
  | ok lists =>
    show Except.ok _ = Except.ok _
    rw [merge_nil_eq]

end

/-! ## The listing of all declarations -/

namespace World

variable (w : World)

/-- The declarations of some traits, depth first: those that a trait itself declares, those of the
traits that it uses, then those of the next. -/
inductive ListsTraits : List String → List PropertyDeclaration → Prop
  | nil : ListsTraits [] []
  | cons {name : String} {rest : List String} {d : ReflectedClass}
      {own sub more : List PropertyDeclaration} (hans : w.answer name = .ok d)
      (hown : d.writtenDeclarations = .ok own) (hsub : ListsTraits d.traitNames sub)
      (hrest : ListsTraits rest more) : ListsTraits (name :: rest) (own ++ sub ++ more)

/-- The declarations of a class, depth first. -/
def Lists (c : ReflectedClass) (ds : List PropertyDeclaration) : Prop :=
  ∃ own more, c.writtenDeclarations = .ok own ∧ w.ListsTraits c.traitNames more ∧ ds = own ++ more

variable {w} {c d : ReflectedClass} {names : List String}
  {own acc ds more : List PropertyDeclaration}

theorem ownDeclarations_of_written (hown : c.writtenDeclarations = .ok own) :
    c.ownDeclarations = .ok (firstOfEach own) := by rw [c.ownDeclarations_eq, hown]; rfl

/-- Traits add the first of each name of their listing. -/
theorem ListsTraits.adds (h : w.ListsTraits names more) (acc : List PropertyDeclaration) :
    w.Adds names acc (.ok (merge acc more)) := by
  induction h generalizing acc with
  | nil => exact adds_nil
  | @cons name rest d own sub more hans hown _ _ ihsub ihrest =>
    have hd : w.Gathers d (.ok (merge (firstOfEach own) sub)) :=
      (gathers_iff_adds (ownDeclarations_of_written hown)).mpr (ihsub _)
    have hmerge : merge acc (own ++ sub ++ more)
        = merge (merge acc (merge (firstOfEach own) sub)) more := by
      rw [merge_append, merge_append, ← merge_nil_eq, merge_assoc, merge_assoc]
      rfl
    rw [hmerge]
    exact adds_gathered hans hd (ihrest _)

theorem Lists.gathers (h : w.Lists c ds) : w.Gathers c (.ok (firstOfEach ds)) := by
  obtain ⟨own, more, hown, hmore, rfl⟩ := h
  have hmerge : firstOfEach (own ++ more) = merge (firstOfEach own) more := by
    rw [← merge_nil_eq, merge_append, merge_nil_eq]
  rw [hmerge]
  exact (gathers_iff_adds (ownDeclarations_of_written hown)).mpr (hmore.adds _)

/-- The listing of some traits is made up of the listings of each. -/
theorem ListsTraits.forall₂ (h : w.ListsTraits names more) :
    ∃ lists, List.Forall₂ (fun name ds => ∃ d, w.answer name = .ok d ∧ w.Lists d ds) names lists
      ∧ more = lists.flatten := by
  induction h with
  | nil => exact ⟨[], .nil, rfl⟩
  | cons hans hown hsub _ _ ih =>
    obtain ⟨lists, hlists, rfl⟩ := ih
    exact ⟨_ :: lists, .cons ⟨_, hans, _, _, hown, hsub, rfl⟩ hlists, rfl⟩

/-! ## Which classes have one -/

variable (w) in
/-- All traits on the way from a class are found. -/
def FindsTraits (c : ReflectedClass) : Prop :=
  ∀ d, Relation.ReflTransGen w.Uses c d → ∀ name ∈ d.traitNames, ∃ e, w.answer name = .ok e

variable (w) in
/-- All declarations on the way from a class can be read. -/
def ReadsTraits (c : ReflectedClass) : Prop :=
  ∀ d, Relation.ReflTransGen w.Uses c d → ∃ own, d.writtenDeclarations = .ok own

theorem FindsTraits.step (h : w.FindsTraits c) (hstep : w.Uses c d) : w.FindsTraits d :=
  fun e he => h e (.head hstep he)

/-- What does not hold of a class unless it fails for a trait that the class uses, and is handed on
to it, holds where no way goes round. -/
theorem of_handed_on {P : ReflectedClass → Prop} (hacyclic : ¬Circles w.Uses c)
    (hc : w.find? c.key = some c)
    (hstep : ∀ d, Relation.ReflTransGen w.Uses c d → (∀ e, w.Uses d e → P e) → P d) : P c := by
  refine Classical.byContradiction fun hP => hacyclic ?_
  refine circles_of_forever (r := w.Uses) (P := fun d => Relation.ReflTransGen w.Uses c d ∧ ¬P d)
    (fun d ⟨hd, hPd⟩ => ?_) (fun _ _ ⟨_, _, hans⟩ => find?_key_of_answer hans) [] hc ⟨.refl, hP⟩
    fun _ hk => absurd hk List.not_mem_nil
  refine Classical.byContradiction fun hnone => hPd (hstep d hd fun e he => ?_)
  exact Classical.byContradiction fun hPe => hnone ⟨e, he, hd.tail he, hPe⟩

theorem exists_listsTraits (h : ∀ name ∈ names, ∃ d ds, w.answer name = .ok d ∧ w.Lists d ds) :
    ∃ more, w.ListsTraits names more := by
  induction names with
  | nil => exact ⟨[], .nil⟩
  | cons name rest ih =>
    obtain ⟨d, _, hans, own, sub, hown, hsub, rfl⟩ := h name (List.mem_cons_self ..)
    obtain ⟨more, hmore⟩ := ih fun other hother => h other (List.mem_cons_of_mem _ hother)
    exact ⟨_, .cons hans hown hsub hmore⟩

theorem exists_lists (hc : w.find? c.key = some c) (hfinds : w.FindsTraits c)
    (hreads : w.ReadsTraits c) (hacyclic : ¬Circles w.Uses c) : ∃ ds, w.Lists c ds := by
  refine of_handed_on (P := fun d => ∃ ds, w.Lists d ds) hacyclic hc fun d hd hused => ?_
  obtain ⟨own, hown⟩ := hreads d hd
  obtain ⟨more, hmore⟩ := exists_listsTraits fun name hname => by
    obtain ⟨e, he⟩ := hfinds d hd name hname
    obtain ⟨ds, hds⟩ := hused e ⟨name, hname, he⟩
    exact ⟨e, ds, he, hds⟩
  exact ⟨_, own, more, hown, hmore, rfl⟩

variable (w) in
/-- A declaration of a class, or of a trait on the way from it. -/
def DeclaredOnWay (c : ReflectedClass) (p : PropertyDeclaration) : Prop :=
  ∃ t own, Relation.ReflTransGen w.Uses c t ∧ t.writtenDeclarations = .ok own ∧ p ∈ own

theorem declaredOnWay_iff (hown : c.writtenDeclarations = .ok own) {p : PropertyDeclaration} :
    w.DeclaredOnWay c p ↔ p ∈ own ∨ ∃ name ∈ c.traitNames, ∃ d, w.answer name = .ok d
      ∧ w.DeclaredOnWay d p := by
  constructor
  · rintro ⟨t, own', hpath, hown', hp⟩
    rcases Relation.ReflTransGen.cases_head hpath with rfl | ⟨d, ⟨name, hname, hans⟩, hrest⟩
    · rw [hown] at hown'
      cases hown'
      exact .inl hp
    · exact .inr ⟨name, hname, d, hans, t, own', hrest, hown', hp⟩
  · rintro (hp | ⟨name, hname, d, hans, t, own', hpath, hown', hp⟩)
    · exact ⟨c, own, .refl, hown, hp⟩
    · exact ⟨t, own', .head ⟨name, hname, hans⟩ hpath, hown', hp⟩

theorem ListsTraits.mem_iff (h : w.ListsTraits names more) {p : PropertyDeclaration} :
    p ∈ more ↔ ∃ name ∈ names, ∃ d, w.answer name = .ok d ∧ w.DeclaredOnWay d p := by
  induction h with
  | nil => exact ⟨fun h => (by cases h), fun ⟨_, h, _⟩ => by cases h⟩
  | @cons name rest d own sub more hans hown _ _ ihsub ihrest =>
    have hfirst : (∃ e, w.answer name = .ok e ∧ w.DeclaredOnWay e p) ↔ p ∈ own ∨ p ∈ sub := by
      rw [ihsub, ← declaredOnWay_iff hown, hans]
      exact ⟨fun ⟨e, he, hp⟩ => (by cases he; exact hp), fun hp => ⟨d, rfl, hp⟩⟩
    rw [List.mem_append, List.mem_append, ← hfirst, ihrest]
    simp only [List.mem_cons, exists_eq_or_imp]

/-- In the listing are the declarations of the class and of all traits on the way. -/
theorem Lists.mem_iff (h : w.Lists c ds) {p : PropertyDeclaration} :
    p ∈ ds ↔ w.DeclaredOnWay c p := by
  obtain ⟨own, more, hown, hmore, rfl⟩ := h
  rw [List.mem_append, hmore.mem_iff, ← declaredOnWay_iff hown]

/-! ## Failures -/

/-- Where all traits are found, adding them fails as gathering one of them does. -/
theorem Adds.exists_failed {f : Failure} (h : w.Adds names acc (.error f))
    (hfound : ∀ name ∈ names, ∃ d, w.answer name = .ok d) :
    ∃ name ∈ names, ∃ d, w.answer name = .ok d ∧ w.Gathers d (.error f) := by
  induction names generalizing acc with
  | nil => cases h.unique adds_nil
  | cons name rest ih =>
    obtain ⟨⟨d, hans⟩, hrest⟩ := List.forall_mem_cons.mp hfound
    obtain ⟨o, hd⟩ := exists_gathers (w := w) d
    cases o with
    | error g =>
      cases h.unique (adds_failed hans hd)
      exact ⟨name, List.mem_cons_self .., d, hans, hd⟩
    | ok ds =>
      obtain ⟨o, ho⟩ := exists_adds (w := w) rest (merge acc ds)
      rw [← h.unique (adds_gathered hans hd ho)] at ho
      obtain ⟨other, hother, hfailed⟩ := ih ho hrest
      exact ⟨other, List.mem_cons_of_mem _ hother, hfailed⟩

/-- Where all traits are found and no way goes round, gathering fails only because a declaration
cannot be read. -/
theorem kind_of_gathers_error (hc : w.find? c.key = some c) (hfinds : w.FindsTraits c)
    (hacyclic : ¬Circles w.Uses c) {f : Failure} (h : w.Gathers c (.error f)) :
    f.kind? = some .invalidNode := by
  refine of_handed_on (P := fun d => ∀ f, w.Gathers d (.error f) → f.kind? = some .invalidNode)
    hacyclic hc (fun d hd hused f hf => ?_) f h
  cases hown : d.ownDeclarations with
  | error g =>
    rw [Except.error.inj (hf.unique (gathers_of_unreadable hown))]
    exact eq_of_beq (d.ownDeclarations_failsOnly g hown)
  | ok own =>
    obtain ⟨name, hname, e, hans, he⟩ := ((gathers_iff_adds hown).mp hf).exists_failed (hfinds d hd)
    exact hused e ⟨name, hname, hans⟩ f he

/-- A class with a list of properties has declarations that can be read, and so have all traits on
the way. -/
theorem Gathers.readsTraits (h : w.Gathers c (.ok ds)) : w.ReadsTraits c := by
  intro d hd
  have hgathers : ∃ es, w.Gathers d (.ok es) := by
    rcases Relation.reflTransGen_iff_eq_or_transGen.mp hd with rfl | hd
    · exact ⟨ds, h⟩
    · exact (transGen_imports hd h).2
  obtain ⟨es, hes⟩ := hgathers
  cases hown : d.ownDeclarations with
  | error f => cases hes.unique (gathers_of_unreadable hown)
  | ok own =>
    rw [d.ownDeclarations_eq] at hown
    cases hwritten : d.writtenDeclarations with
    | error f => rw [hwritten] at hown; cases hown
    | ok written => exact ⟨written, rfl⟩

end World

/-! ## The properties of a class -/

/-- Calls ask, and change no visibility. -/
theorem Call.asked (call : Call) : call.run.Asked := by
  have hask (t : Target) {query : ReflectedClass → Query Answer} (h : ∀ c, (query c).Asked) :
      (t.ask query).Asked := by
    refine .bind ?_ fun found => ?_
    · cases t with
      | named identifier => exact .bind (.reflect identifier) fun _ => .pure _
      | listed position => exact .bind .allClasses fun _ => .pure _
    · cases found with
      | none => exact .pure _
      | some c => exact h c
  cases call with
  | reflect identifier => exact .bind (.reflect identifier) fun _ => .pure _
  | hasClass identifier => exact .bind (.hasClass identifier) fun _ => .pure _
  | allClasses => exact .bind .allClasses fun _ => .pure _
  | properties t => exact hask t fun c => .bind (.properties c) fun _ => .pure _
  | property t name => exact hask t fun c => .bind (.property c name) fun _ => .pure _
  | constantValue t name => exact hask t fun c => .bind (.constantValue c name) fun _ => .pure _
  | defaultValue t name =>
    exact hask t fun c => .bind (.property c name) fun p => .bind (.defaultValue p) fun _ => .pure _

theorem Query.Asked.visibilities {α : Type} {q : Query α} (h : q.Asked) (s : Store) :
    (after q s).visibilities = s.visibilities :=
  (h.alike (lastingPair_visibilities s.visibilities) ⟨rfl, rfl⟩).2.2

theorem Store.visibilities_amid (w : World) (calls : List Call) (L : List ConstantKey) :
    (amid w calls L).visibilities = [] := by
  have hcalls (s : Store) : (s.afterCalls calls).visibilities = s.visibilities := by
    unfold afterCalls
    induction calls generalizing s with
    | nil => rfl
    | cons call rest ih =>
      rw [List.foldl_cons, ih]
      exact call.asked.visibilities s
  exact hcalls (ofWorld w)

/-- The properties of a class are the first of each name, level by level and in one listing; they
have the names of all declarations on the way; and each is a property of the class itself, with the
visibility of its declaration. -/
structure Store.Flattened (w : World) (s : Store) (c : ReflectedClass) (ps : List Property) :
    Prop where
  nested : ∃ own lists, c.writtenDeclarations = .ok own
    ∧ List.Forall₂ (fun name ds => ∃ d, w.answer name = .ok d
        ∧ outcome (immediateProperties d) s = .ok (ds.map (Property.ofClass d))) c.traitNames lists
    ∧ ps = (firstOfEach (own ++ lists.flatten)).map (Property.ofClass c)
  depthFirst : ∃ ds, w.Lists c ds ∧ ps = (firstOfEach ds).map (Property.ofClass c)
  names : ∀ name, (∃ p ∈ ps, p.name = name) ↔ ∃ t own, Relation.ReflTransGen w.Uses c t
    ∧ t.writtenDeclarations = .ok own ∧ ∃ d ∈ own, d.name = name
  declaringClass : ∀ p ∈ ps,
    outcome p.declaringClass (after (immediateProperties c) s) = .ok c
  visibility : ∀ p ∈ ps,
    outcome p.visibility (after (immediateProperties c) s) = .ok p.declaration.visibility

section

variable {w : World} {L : List ConstantKey} {K : List String} {s : Store} {c : ReflectedClass}
  {ds : List PropertyDeclaration}

theorem immediateProperties_lists (hw : w.IsStatic) (hs : s.Within w L K)
    (hc : w.find? c.key = some c) (h : w.Lists c ds) :
    outcome (immediateProperties c) s = .ok ((firstOfEach ds).map (Property.ofClass c)) :=
  (immediateProperties_comes hw hc h.gathers s hs).1

theorem Store.flattened_of_lists (hw : w.IsStatic) (hs : s.Within w L K)
    (hvisibilities : s.visibilities = []) (hc : w.Has K c) (h : w.Lists c ds) :
    Flattened w s c ((firstOfEach ds).map (Property.ofClass c)) where
  nested := by
    obtain ⟨own, more, hown, hmore, rfl⟩ := h
    obtain ⟨lists, hlists, rfl⟩ := hmore.forall₂
    refine ⟨own, lists.map firstOfEach, hown, ?_, ?_⟩
    · rw [List.forall₂_map_right_iff]
      refine hlists.imp fun name ds ⟨d, hans, hd⟩ => ⟨d, hans, ?_⟩
      exact immediateProperties_lists hw hs (World.find?_key_of_answer hans) hd
    · rw [← merge_nil_eq, ← merge_nil_eq, merge_append, merge_append, merge_flatten]
  depthFirst := ⟨ds, h, rfl⟩
  names name := by
    have hmap : (∃ p ∈ (firstOfEach ds).map (Property.ofClass c), p.name = name)
        ↔ ∃ d ∈ firstOfEach ds, d.name = name :=
      ⟨fun ⟨_, hp, hname⟩ => by obtain ⟨d, hd, rfl⟩ := List.mem_map.mp hp; exact ⟨d, hd, hname⟩,
        fun ⟨d, hd, hname⟩ => ⟨_, List.mem_map_of_mem hd, hname⟩⟩
    rw [hmap, exists_firstOfEach]
    constructor
    · rintro ⟨d, hd, hname⟩
      obtain ⟨t, own, hpath, hown, hmem⟩ := h.mem_iff.mp hd
      exact ⟨t, own, hpath, hown, d, hmem, hname⟩
    · rintro ⟨t, own, hpath, hown, d, hmem, hname⟩
      exact ⟨d, h.mem_iff.mpr ⟨t, own, hpath, hown, hmem⟩, hname⟩
  declaringClass p hp := by
    obtain ⟨d, _, rfl⟩ := List.mem_map.mp hp
    have hafter := (immediateProperties_comes hw hc.1 h.gathers s hs).2
    exact (declaringClass_comes hw hc d _ hafter).1
  visibility p hp := by
    have hafter : (after (immediateProperties c) s).visibilities = [] :=
      ((Query.Asked.immediateProperties c).visibilities s).trans hvisibilities
    obtain ⟨d, _, rfl⟩ := List.mem_map.mp hp
    rw [Property.visibility_eq, Property.shown, hafter]
    rfl

end

/-- Over sources that do not change and after any calls: where all traits on the way from a class
are found and no way goes round, the class has a list of properties exactly if all declarations on
the way can be read, and the list is flattened; the traits of every class are those that its use
declarations name, but for names that are relative to the namespace. -/
theorem Store.immediateProperties_flattened (w : World) (hw : w.IsStatic) (calls : List Call)
    (L : List ConstantKey) (c : ReflectedClass)
    (hc : w.Has ((amid w calls L).classes.map (·.1)) c) (hfinds : w.FindsTraits c)
    (hacyclic : ¬Circles w.Uses c) :
    (w.ReadsTraits c → ∃ ps, outcome (immediateProperties c) (amid w calls L) = .ok ps
        ∧ Flattened w (amid w calls L) c ps)
      ∧ (¬w.ReadsTraits c → ∃ f, outcome (immediateProperties c) (amid w calls L) = .error f
        ∧ f.kind? = some .invalidNode)
      ∧ ∀ d : ReflectedClass, d.traitNames
        = (d.usedNodes.filter (·.kind != "relative_name")).map fun n =>
            d.resolveName (d.source.text n) := by
  have hs := within_amid hw calls L
  refine ⟨fun hreads => ?_, fun hreads => ?_, fun d => d.traitNames_eq⟩
  · obtain ⟨ds, hds⟩ := World.exists_lists hc.1 hfinds hreads hacyclic
    exact ⟨_, immediateProperties_lists hw hs hc.1 hds,
      flattened_of_lists hw hs (visibilities_amid w calls L) hc hds⟩
  · obtain ⟨o, ho⟩ := World.exists_gathers (w := w) c
    have houtcome := (immediateProperties_comes hw hc.1 ho _ hs).1
    cases o with
    | ok ds => exact (hreads ho.readsTraits).elim
    | error f => exact ⟨f, houtcome, World.kind_of_gathers_error hc.1 hfinds hacyclic ho⟩

/-! ## A trait under a relative name -/

/-- A text with two traits and a class that uses both, the second under a name that is relative to
the namespace. -/
def relativeText : String :=
  "<?php trait T \x7b public $a; \x7d trait U \x7b public $b; \x7d "
    ++ "class C \x7b use T, namespace\\U; \x7d"

/-- The start of the text. -/
def relativeTag : Node := ⟨"php_tag", 0, 5, none, true, false, []⟩

/-- The variable of a trait with one property, by the start of the trait. -/
def onlyVariable (start : Nat) : Node :=
  ⟨"variable_name", start + 17, start + 19, some "name", true, false, []⟩

/-- The statement that declares it. -/
def onlyProperty (start : Nat) : Node :=
  ⟨"property_declaration", start + 10, start + 20, none, true, false,
    [⟨"visibility_modifier", start + 10, start + 16, none, true, false, []⟩,
      ⟨"property_element", start + 17, start + 19, none, true, false, [onlyVariable start]⟩]⟩

/-- The declaration of the trait. -/
def onlyTrait (start : Nat) : Node :=
  ⟨"trait_declaration", start, start + 22, none, true, false,
    [⟨"name", start + 6, start + 7, some "name", true, false, []⟩,
      ⟨"declaration_list", start + 8, start + 22, some "body", true, false, [onlyProperty start]⟩]⟩

/-- The name of the first trait in the class. -/
def plainName : Node := ⟨"name", 66, 67, none, true, false, []⟩

/-- The name of the second. -/
def relativeName : Node := ⟨"relative_name", 69, 80, none, true, false, []⟩

/-- The declaration of the class. -/
def usingNode : Node :=
  ⟨"class_declaration", 52, 83, none, true, false,
    [⟨"name", 58, 59, some "name", true, false, []⟩,
      ⟨"declaration_list", 60, 83, some "body", true, false,
        [⟨"use_declaration", 62, 81, none, true, false, [plainName, relativeName]⟩]⟩]⟩

/-- A world with nothing but the traits and the class. -/
def relativeWorld : World :=
  ⟨FileTree.empty [],
    [(relativeText, ⟨"program", 0, 83, none, true, false,
      [relativeTag, onlyTrait 6, onlyTrait 29, usingNode]⟩)],
    [.text relativeText "<string>"], []⟩

/-- The first trait. -/
def plainTrait : ReflectedClass :=
  ⟨⟨⟨onlyTrait 6, [relativeTag]⟩, .traitKind, "T", NameScope.empty⟩,
    relativeWorld.trees.parse relativeText "<string>"⟩

/-- The second trait. -/
def relativeTrait : ReflectedClass :=
  ⟨⟨⟨onlyTrait 29, [onlyTrait 6, relativeTag]⟩, .traitKind, "U", NameScope.empty⟩,
    relativeWorld.trees.parse relativeText "<string>"⟩

/-- The class that uses them. -/
def usingClass : ReflectedClass :=
  ⟨⟨⟨usingNode, [onlyTrait 29, onlyTrait 6, relativeTag]⟩, .classKind, "C", NameScope.empty⟩,
    relativeWorld.trees.parse relativeText "<string>"⟩

theorem classes_relativeWorld :
    relativeWorld.classes = [plainTrait, relativeTrait, usingClass] := by
  have hsources : relativeWorld.sources = [plainTrait.source] := rfl
  have hchildren : plainTrait.source.root.children
      = [relativeTag, onlyTrait 6, onlyTrait 29, usingNode] := rfl
  have hthird : ClassLike.walk plainTrait.source.text [onlyTrait 29, onlyTrait 6, relativeTag]
      [usingNode] NameScope.empty = ([usingClass.classLike], []) := by
    rw [ClassLike.walk, ClassLike.walk]
    rfl
  have hsecond : ClassLike.walk plainTrait.source.text [onlyTrait 6, relativeTag]
      [onlyTrait 29, usingNode] NameScope.empty
      = ([relativeTrait.classLike, usingClass.classLike], []) := by
    rw [ClassLike.walk, hthird]
    rfl
  have hfirst : ClassLike.walk plainTrait.source.text [relativeTag]
      [onlyTrait 6, onlyTrait 29, usingNode] NameScope.empty
      = ([plainTrait.classLike, relativeTrait.classLike, usingClass.classLike], []) := by
    rw [ClassLike.walk, hsecond]
    rfl
  have hwalk : ClassLike.walk plainTrait.source.text []
      [relativeTag, onlyTrait 6, onlyTrait 29, usingNode] NameScope.empty
      = ([plainTrait.classLike, relativeTrait.classLike, usingClass.classLike], []) := by
    refine Eq.trans ?_ hfirst
    rw [ClassLike.walk]
    rfl
  rw [World.classes, hsources, List.flatMap_singleton, World.classesIn, ClassLike.all, hchildren,
    hwalk]
  rfl

theorem isStatic_relativeWorld : relativeWorld.IsStatic := World.isStatic_of_text rfl

theorem answer_plainTrait : relativeWorld.answer "T" = .ok plainTrait := by
  refine World.answer_name (c := plainTrait) ?_ rfl
  rw [World.find?, classes_relativeWorld]
  rfl

theorem answer_relativeTrait : relativeWorld.answer "U" = .ok relativeTrait := by
  refine World.answer_name (c := relativeTrait) ?_ rfl
  rw [World.find?, classes_relativeWorld]
  rfl

theorem has_usingClass (K : List String) : relativeWorld.Has K usingClass := by
  refine ⟨?_, .inr rfl⟩
  rw [World.find?, classes_relativeWorld]
  rfl

theorem traitNames_usingClass : usingClass.traitNames = ["T"] := by
  have hnames : usingClass.traitNames = [NameScope.empty.resolve "T"] := rfl
  rw [hnames, NameScope.resolve_eq]
  rfl

/-- What a class-like declares whose body is that of such a trait. -/
theorem writtenDeclarations_only {c : ReflectedClass} {start : Nat} {name : String}
    (hnodes : c.propertyNodes = [⟨onlyProperty start, []⟩])
    (hname : PropertyDeclaration.bareName (c.source.text (onlyVariable start)) = name)
    (hsome : name.isEmpty = false) :
    ∃ d, d.name = name ∧ c.writtenDeclarations = .ok [d] := by
  have hparts : (onlyProperty start).children.filterMap (PropertyDeclaration.ofPart? c.source
      (PropertyDeclaration.shared c.source ⟨onlyProperty start, []⟩))
      = [{ PropertyDeclaration.shared c.source ⟨onlyProperty start, []⟩ with
          name := PropertyDeclaration.bareName (c.source.text (onlyVariable start)),
          default := none }] := rfl
  have hnode : PropertyDeclaration.ofNode c.source ⟨onlyProperty start, []⟩
      = ((onlyProperty start).children.filterMap (PropertyDeclaration.ofPart? c.source
          (PropertyDeclaration.shared c.source ⟨onlyProperty start, []⟩))).mapM
            PropertyDeclaration.named := rfl
  rw [hparts, hname] at hnode
  refine ⟨{ PropertyDeclaration.shared c.source ⟨onlyProperty start, []⟩ with
    name := name, default := none }, rfl, ?_⟩
  rw [ReflectedClass.writtenDeclarations, hnodes, List.mapM_cons, hnode, List.mapM_cons,
    PropertyDeclaration.named, if_neg (by rw [hsome]; decide)]
  rfl

/-- The class has the property of the first trait, and not that of the second. -/
theorem immediateProperties_flattened_relative :
    relativeWorld.IsStatic
      ∧ relativeWorld.Has ((amid relativeWorld [] []).classes.map (·.1)) usingClass
      ∧ relativeWorld.FindsTraits usingClass ∧ ¬Circles relativeWorld.Uses usingClass
      ∧ relativeWorld.ReadsTraits usingClass
      ∧ (∃ ps, outcome (immediateProperties usingClass) (amid relativeWorld [] []) = .ok ps
        ∧ ps.map (·.name) = ["a"])
      ∧ usingClass.usedNodes.map (fun n => usingClass.resolveName (usingClass.source.text n))
        = ["T", "U"]
      ∧ relativeWorld.answer "U" = .ok relativeTrait
      ∧ ∃ d, d.name = "b" ∧ relativeTrait.writtenDeclarations = .ok [d] := by
  have hwritten : ∃ d, d.name = "a" ∧ plainTrait.writtenDeclarations = .ok [d] :=
    writtenDeclarations_only rfl rfl rfl
  obtain ⟨a, ha, hplain⟩ := hwritten
  have hclass : usingClass.writtenDeclarations = .ok [] := rfl
  have hnone : plainTrait.traitNames = [] := rfl
  -- the class uses the first trait, which uses none
  have huses (d : ReflectedClass) : relativeWorld.Uses usingClass d ↔ d = plainTrait := by
    unfold World.Uses
    rw [traitNames_usingClass]
    simp [answer_plainTrait, eq_comm]
  have hlast (d : ReflectedClass) : ¬relativeWorld.Uses plainTrait d := by
    rintro ⟨name, hname, -⟩
    rw [hnone] at hname
    cases hname
  have hway (d : ReflectedClass) (hd : Relation.ReflTransGen relativeWorld.Uses usingClass d) :
      d = usingClass ∨ d = plainTrait := by
    induction hd with
    | refl => exact .inl rfl
    | tail _ hstep ih =>
      rcases ih with rfl | rfl
      · exact .inr ((huses _).mp hstep)
      · exact (hlast _ hstep).elim
  have hfinds : relativeWorld.FindsTraits usingClass := by
    intro d hd name hname
    rcases hway d hd with rfl | rfl
    · rw [traitNames_usingClass, List.mem_singleton] at hname
      exact ⟨_, hname ▸ answer_plainTrait⟩
    · rw [hnone] at hname
      cases hname
  have hacyclic : ¬Circles relativeWorld.Uses usingClass := by
    intro h
    obtain ⟨d, hd, hround⟩ := circles_iff.mp h
    rw [(huses d).mp hd] at hround
    obtain ⟨e, he, -⟩ := circles_iff.mp hround
    exact hlast e he
  have hreads : relativeWorld.ReadsTraits usingClass := by
    intro d hd
    rcases hway d hd with rfl | rfl
    · exact ⟨_, hclass⟩
    · exact ⟨_, hplain⟩
  obtain ⟨hlist, -, -⟩ := Store.immediateProperties_flattened relativeWorld
    isStatic_relativeWorld [] [] usingClass (has_usingClass _) hfinds hacyclic
  obtain ⟨ps, hps, hflat⟩ := hlist hreads
  have hnames : usingClass.usedNodes.map (fun n =>
      usingClass.resolveName (usingClass.source.text n)) = ["T", "U"] := by
    have hnodes : usingClass.usedNodes.map (fun n =>
        usingClass.resolveName (usingClass.source.text n))
        = [NameScope.empty.resolve "T", NameScope.empty.resolve "namespace\\U"] := rfl
    rw [hnodes, NameScope.resolve_eq, NameScope.resolve_eq]
    rfl
  refine ⟨isStatic_relativeWorld, has_usingClass _, hfinds, hacyclic, hreads, ⟨ps, hps, ?_⟩,
    hnames, answer_relativeTrait, writtenDeclarations_only rfl rfl rfl⟩
  obtain ⟨_, ⟨own, more, hown, hmore, rfl⟩, rfl⟩ := hflat.depthFirst
  rw [hclass] at hown
  cases hown
  rw [traitNames_usingClass] at hmore
  cases hmore with
  | cons hans hown hsub hrest =>
    rw [answer_plainTrait] at hans
    cases hans
    rw [hplain] at hown
    cases hown
    rw [hnone] at hsub
    cases hsub
    cases hrest
    show [a.name] = ["a"]
    rw [ha]

end StaticReflection
