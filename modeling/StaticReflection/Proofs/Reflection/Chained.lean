import StaticReflection.Proofs.Locating.Offer
import StaticReflection.Proofs.Reflection.Enumeration
import StaticReflection.Proofs.Reflection.FirstComer
import StaticReflection.Reflection.Chain

/-!
# Reflection over chains

An aggregate asks the locators of its members in order, so a nested one is the same as the
flat one of its `Chain.positions`: it locates, offers candidates and is searched like the
locators at these positions (`Chain.locate_eq`, `Chain.candidates_eq`, `Chain.visit_eq`).

> `Chain.answers_first`: reflecting over an aggregate comes to what the first member comes to
> over which the class is found, and the class is not found if there is no such member. The
> source that an aggregate locates is the first of its candidates.

That a search comes to the same in the middle of others is `search_eq_searched`. It rests on
what a request leaves alone (`World.offer_after`).
-/

namespace StaticReflection

open Folding Outcome Reflector Store

/-! ## Nested and flat -/

namespace World

theorem locateIn_append (identifier : String) (is js : List Nat) :
    locateIn identifier (is ++ js) = (do
      match ← locateIn identifier is with
      | some s => return some s
      | none => locateIn identifier js) := by
  induction is with
  | nil => exact (pure_bind _ _).symm
  | cons i rest ih =>
    rw [List.cons_append, locateIn, locateIn, bind_assoc]
    congr 1
    funext here
    cases here with
    | none => exact ih
    | some s => exact (pure_bind _ _).symm

theorem candidatesIn_append (identifier : String) (is js : List Nat) :
    candidatesIn identifier (is ++ js) = (do
      let here ← candidatesIn identifier is
      return here ++ (← candidatesIn identifier js)) := by
  induction is with
  | nil =>
    rw [candidatesIn, pure_bind, List.nil_append]
    exact (bind_pure _).symm
  | cons i rest ih =>
    rw [List.cons_append, candidatesIn, candidatesIn, ih]
    simp only [bind_assoc, pure_bind, List.append_assoc]

end World

theorem search_append (key identifier : String) (is js : List Nat) :
    search key identifier (is ++ js) = (do
      match ← search key identifier is with
      | some c => return some c
      | none => search key identifier js) := by
  induction is with
  | nil => exact (pure_bind _ _).symm
  | cons i rest ih =>
    rw [List.cons_append, search, search, bind_assoc]
    congr 1
    funext here
    cases here with
    | none => exact ih
    | some located =>
      simp only
      rw [bind_assoc]
      congr 1
      funext p
      cases findIn p key with
      | none => exact ih
      | some c =>
        simp only
        rw [bind_assoc]
        rfl

namespace Chain

mutual

/-- An aggregate locates what the locators at its positions do. -/
theorem locate_eq (identifier : String) :
    ∀ chain : Chain, chain.locate identifier = World.locateIn identifier chain.positions
  | .single i => by
    rw [locate, positions, World.locateIn]
    refine (bind_pure _).symm.trans ?_
    congr 1
    funext here
    cases here <;> rfl
  | .aggregate members => locateFirst_eq identifier members

theorem locateFirst_eq (identifier : String) :
    ∀ members : List Chain,
      locateFirst identifier members = World.locateIn identifier (positionsOf members)
  | [] => rfl
  | m :: rest => by
    have happend := World.locateIn_append identifier m.positions (positionsOf rest)
    rw [← locate_eq identifier m, ← locateFirst_eq identifier rest] at happend
    exact happend.symm

end

mutual

/-- An aggregate has the candidates of the locators at its positions. -/
theorem candidates_eq (identifier : String) :
    ∀ chain : Chain, chain.candidates identifier = World.candidatesIn identifier chain.positions
  | .single i => by
    rw [candidates, positions, World.candidatesIn, World.candidatesIn]
    simp only [pure_bind, List.append_nil]
  | .aggregate members => candidatesOf_eq identifier members

theorem candidatesOf_eq (identifier : String) :
    ∀ members : List Chain,
      candidatesOf identifier members = World.candidatesIn identifier (positionsOf members)
  | [] => rfl
  | m :: rest => by
    rw [candidatesOf, positionsOf, World.candidatesIn_append, candidates_eq identifier m,
      candidatesOf_eq identifier rest]

end

mutual

/-- A visit to the candidates in search of a class searches the locators at the positions. -/
theorem visit_eq (key identifier : String) :
    ∀ chain : Chain, chain.visit identifier (declaredIn key) = search key identifier chain.positions
  | .single i => by
    rw [visit, positions, search]
    congr 1
    funext here
    cases here with
    | none => rfl
    | some located =>
      show declaredIn key located = _
      unfold declaredIn
      congr 1
  | .aggregate members => visitEach_eq key identifier members

theorem visitEach_eq (key identifier : String) :
    ∀ members : List Chain,
      visitEach identifier (declaredIn key) members = search key identifier (positionsOf members)
  | [] => rfl
  | m :: rest => by
    rw [visitEach, positionsOf, search_append, visit_eq key identifier m,
      visitEach_eq key identifier rest]
    congr 1
    funext found
    cases found <;> rfl

end

/-! ## What is located and the candidates -/

theorem locating_bind {α β : Type} (q : Locating α) (g : α → Locating β) :
    Query.locating (q >>= g) = Query.locating q >>= fun a => Query.locating (g a) := by
  funext s
  show Query.locating (q >>= g) s = _
  simp only [Query.locating, bind, ExceptT.bind, ExceptT.mk, StateT.bind, ExceptT.run,
    ExceptT.bindCont]
  rcases q s.world with ⟨o, w⟩
  cases o <;> rfl

mutual

/-- The first candidate is what is located. -/
theorem first_eq (identifier : String) :
    ∀ chain : Chain, chain.first identifier = Query.locating (chain.locate identifier)
  | .single i => by
    show Query.locating (World.locateAt i identifier) >>= _ = _
    refine Eq.trans ?_ (bind_pure _)
    congr 1
    funext here
    cases here <;> rfl
  | .aggregate members => firstOf_eq identifier members

theorem firstOf_eq (identifier : String) :
    ∀ members : List Chain, visitEach identifier (fun s => return some s) members
      = Query.locating (locateFirst identifier members)
  | [] => rfl
  | m :: rest => by
    have hm : m.visit identifier (fun s => return some s) = _ := first_eq identifier m
    rw [visitEach, locateFirst, locating_bind, hm, firstOf_eq identifier rest]
    congr 1
    funext here
    cases here <;> rfl

end

/-- If locators have all their candidates, they locate the first of them. -/
theorem outcome_locateIn {w : World} {identifier : String} {is : List Nat}
    {sources : List LocatedSource}
    (h : outcome (World.candidatesIn identifier is) w = .ok sources) :
    outcome (World.locateIn identifier is) w = .ok sources.head? := by
  induction is generalizing w sources with
  | nil =>
    cases h
    rfl
  | cons i rest ih =>
    obtain ⟨here, hhere, h⟩ := exists_of_bind_ok h
    obtain ⟨others, hothers, h⟩ := exists_of_bind_ok h
    cases h
    rw [World.locateIn, outcome_bind_ok hhere]
    cases here with
    | none => exact ih hothers
    | some s => rfl

/-- Locators that fail to locate a source fail to have candidates. -/
theorem outcome_candidatesIn {w : World} {identifier : String} {is : List Nat} {f : Failure}
    (h : outcome (World.locateIn identifier is) w = .error f) :
    outcome (World.candidatesIn identifier is) w = .error f := by
  induction is generalizing w with
  | nil => cases h
  | cons i rest ih =>
    rw [World.candidatesIn]
    rcases of_bind_error h with hhere | ⟨here, hhere, h⟩
    · exact outcome_bind_error hhere
    · rw [outcome_bind_ok hhere]
      cases here with
      | none => exact outcome_bind_error (ih h)
      | some s => cases h

end Chain

/-! ## Searches among others -/

/-- Worlds that are alike have the same callers' own locators. -/
theorem World.Alike.own {w w' : World} (h : w.Alike w') {i : Nat}
    {answers : List (Except Failure (List Supply))} (hi : w'.locators[i]? = some (.own answers)) :
    w.locators[i]? = some (.own answers) := by
  obtain ⟨_, hnone⟩ | ⟨l, l', hl, hl', hfills⟩ := h.cases i
  · cases hnone.symm.trans hi
  · obtain rfl := Option.some.inj (hl'.symm.trans hi)
    cases hfills
    exact hl

/-- What has become a caller's own locator was one. -/
theorem World.Becomes.own {w w' : World} (h : w.Becomes w') {i : Nat}
    {answers : List (Except Failure (List Supply))} (hi : w'.locators[i]? = some (.own answers)) :
    ∃ before, w.locators[i]? = some (.own before) := by
  have hlt : i < w.locators.length := by
    rw [← h.length]
    exact (List.getElem?_eq_some_iff.mp hi).1
  obtain ⟨l', hl', hl⟩ := h.locators i w.locators[i] (List.getElem?_eq_getElem hlt)
  obtain rfl := Option.some.inj (hi.symm.trans hl')
  rw [List.getElem?_eq_getElem hlt]
  rcases hl with hfills | ⟨before, _, hown, _⟩
  · generalize w.locators[i] = l at hfills
    cases hfills
    exact ⟨answers, rfl⟩
  · exact ⟨before, congrArg some hown⟩

/-- A caller's own locator that stands at some positions more than once gives the same answer
each time that it is asked. -/
def World.AnswersAgain (w : World) (positions : List Nat) : Prop :=
  ∀ i answers, w.locators[i]? = some (.own answers) → ∀ k < positions.count i,
    (answers.drop k).headD (.ok []) = answers.headD (.ok [])

theorem World.AnswersAgain.sublist {w : World} {is js : List Nat} (h : w.AnswersAgain js)
    (hsub : is.Sublist js) : w.AnswersAgain is := fun i answers hi k hk =>
  h i answers hi k (Nat.lt_of_lt_of_le hk (hsub.count_le i))

/-- A store whose locators at some positions offer for an identifier what those of a world
do, and whose sources are parsed as there. -/
structure Store.OffersAs (w : World) (identifier : String) (positions : List Nat) (s : Store) :
    Prop where
  again : s.world.AnswersAgain positions
  offers : ∀ i ∈ positions, outcome (World.locateAt i identifier) s.world
    = outcome (World.locateAt i identifier) w
  parses : ∀ located : LocatedSource,
    s.parseOf located = w.trees.parse located.text located.origin

section

variable {w : World} {s t : Store} {key identifier : String} {i : Nat} {rest : List Nat}

/-- After a request to the first locator the others offer what they did. -/
theorem Store.OffersAs.step (h : s.OffersAs w identifier (i :: rest))
    (hparses : t.parseOf = s.parseOf)
    (halike : (after (World.locateAt i identifier) s.world).Alike t.world) :
    t.OffersAs w identifier rest := by
  refine ⟨fun j answers hj k hk => ?_, fun j hj => ?_, fun located => hparses ▸ h.parses located⟩
  · have hasked := halike.own hj
    by_cases hij : i = j
    · -- the answers that are left are those after the one that was used up
      subst hij
      obtain ⟨before, hbefore⟩ := (World.locateAt_proceeds i identifier s.world).own hasked
      rw [World.locateAt_own hbefore] at hasked
      obtain rfl : before.tail = answers := by
        cases hasked
        rfl
      have hcount : (i :: rest).count i = rest.count i + 1 := List.count_cons_self
      have hfirst := h.again i before hbefore 1 (by omega)
      have hnext := h.again i before hbefore (k + 1) (by omega)
      rw [List.drop_one] at hfirst
      rw [List.drop_tail, hnext, hfirst]
    · rw [World.locateAt_spares hij] at hasked
      exact h.again j answers hasked k (Nat.lt_of_lt_of_le hk (List.count_le_count_cons ..))
  · have hagain : ∀ answers, s.world.locators[j]? = some (.own answers) → i = j →
        answers.tail.headD (.ok []) = answers.headD (.ok []) := by
      rintro answers hown rfl
      have hcount : (i :: rest).count i = rest.count i + 1 := List.count_cons_self
      have hpos := List.count_pos_iff.mpr hj
      have hfirst := h.again i answers hown 1 (by omega)
      rwa [List.drop_one] at hfirst
    rw [← (World.locateAt_agree j identifier _ _ halike).1, World.offer_after s.world hagain]
    exact h.offers j (List.mem_cons_of_mem _ hj)

/-- A class that the first of the sources has is found and kept, if none is kept. -/
theorem search_found {here : Option LocatedSource} {c : ReflectedClass} (rest : List Nat)
    (h : outcome (World.locateAt i identifier) s.world = .ok here)
    (hfound : (here.bind fun located => findIn (s.parseOf located) key) = some c)
    (hnew : s.classes.lookup key = none) :
    outcome (search key identifier (i :: rest)) s = .ok (some c) := by
  have hlocated : outcome (Query.locating (World.locateAt i identifier)) s = .ok here := h
  obtain ⟨located, rfl, hc⟩ := Option.bind_eq_some_iff.mp hfound
  obtain ⟨hparses, hclasses, _⟩ := locating_parseOf (World.locateAt_proceeds i identifier) s
  rw [search, outcome_bind_ok hlocated]
  generalize after (Query.locating (World.locateAt i identifier)) s = u at hparses hclasses
  obtain ⟨hp, _, hclasses', _⟩ := parse_parseOf located u
  rw [hparses] at hp
  simp only
  rw [outcome_bind_ok hp, hc]
  have hkeep : outcome (keep c) (after (parse located) u) = .ok c := by
    unfold keep
    rw [outcome_bind_ok (outcome_get _), after_get, findIn_key hc, hclasses', hclasses, hnew]
    rfl
  simp only
  rw [outcome_bind_ok hkeep]
  rfl

/-- A search for a class that is not kept comes to what it does over the world. -/
theorem search_eq_searched {positions : List Nat} (h : s.OffersAs w identifier positions)
    (hnew : s.classes.lookup key = none) :
    outcome (search key identifier positions) s = w.searched key identifier positions := by
  induction positions generalizing s with
  | nil => rfl
  | cons i rest ih =>
    rw [World.searched, ← h.offers i (List.mem_cons_self ..)]
    cases hhere : outcome (World.locateAt i identifier) s.world with
    | error f =>
      have hfails : outcome (Query.locating (World.locateAt i identifier)) s = .error f := hhere
      rw [search, outcome_bind_error hfails]
      rfl
    | ok here =>
      have hparses : (fun located => findIn (s.parseOf located) key)
          = fun located => findIn (w.trees.parse located.text located.origin) key := by
        funext located
        rw [h.parses]
      rw [Outcome.ok_bind]
      cases hfound : here.bind fun located => findIn (s.parseOf located) key with
      | some c =>
        rw [search_found rest hhere hfound hnew]
        rw [hparses] at hfound
        rw [hfound]
      | none =>
        obtain ⟨t, hclasses, hparsed, halike, hmiss, _⟩ := search_cons key rest hhere
        rw [(hmiss hfound).1, ih (h.step hparsed halike) (hclasses ▸ hnew)]
        rw [hparses] at hfound
        rw [hfound]

/-- The search of some locators goes on with others if it finds nothing. -/
theorem World.searched_append (w : World) (key identifier : String) (is js : List Nat) :
    w.searched key identifier (is ++ js) = (do
      match ← w.searched key identifier is with
      | some c => .ok (some c)
      | none => w.searched key identifier js) := by
  induction is with
  | nil => rfl
  | cons i rest ih =>
    rw [List.cons_append, World.searched, World.searched]
    cases outcome (World.locateAt i identifier) w with
    | error f => rfl
    | ok here =>
      rw [Outcome.ok_bind, Outcome.ok_bind]
      cases here.bind fun located =>
          findIn (w.trees.parse located.text located.origin) key with
      | none => exact ih
      | some c => rfl

theorem World.searched_ok (key : String) {positions : List Nat}
    (h : ∀ i ∈ positions, ∃ here, outcome (World.locateAt i identifier) w = .ok here) :
    ∃ found, w.searched key identifier positions = .ok found := by
  induction positions with
  | nil => exact ⟨none, rfl⟩
  | cons i rest ih =>
    obtain ⟨here, hhere⟩ := h i (List.mem_cons_self ..)
    rw [World.searched, hhere, Outcome.ok_bind]
    cases here.bind fun located => findIn (w.trees.parse located.text located.origin) key with
    | none => exact ih fun j hj => h j (List.mem_cons_of_mem _ hj)
    | some c => exact ⟨some c, rfl⟩

end

namespace Chain

variable {w : World} {identifier : String}

/-- No locator of a chain fails when it is asked for an identifier. -/
def IsReadable (w : World) (identifier : String) (chain : Chain) : Prop :=
  ∀ i ∈ chain.positions, ∃ here,
    outcome (World.locateAt i (Identifier.trimmed identifier)) w = .ok here

/-- Why an identifier is not reflected that is declared nowhere. -/
def unanswered (identifier : String) : Failure :=
  if (Identifier.normalize identifier).isEmpty then .emptyIdentifier identifier
  else .classNotFound identifier

theorem outcome_reflect_empty (hempty : (Identifier.normalize identifier).isEmpty = true)
    (chain : Chain) (s : Store) :
    outcome (chain.reflect identifier) s = .error (.emptyIdentifier identifier) := by
  unfold reflect
  simp only
  rw [if_pos hempty]
  rfl

/-- A reflector reflects over the aggregate of all its locators. -/
theorem reflect_eq {chain : Chain} {s : Store}
    (h : chain.positions = List.range s.world.locators.length) :
    outcome (chain.reflect identifier) s = outcome (Reflector.reflect identifier) s := by
  cases hempty : (Identifier.normalize identifier).isEmpty with
  | true => rw [outcome_reflect_empty hempty, (reflect_empty hempty).1]
  | false =>
    unfold reflect
    simp only
    rw [if_neg (Bool.eq_false_iff.mp hempty), visit_eq, h]
    show outcome (match s.classes.lookup (Identifier.normalize identifier) with
      | some known => pure known
      | none => _) s = _
    cases hkept : s.classes.lookup (Identifier.normalize identifier) with
    | some known => exact (reflect_settled hempty hkept).1.symm
    | none =>
      rw [(reflect_search hempty hkept).1, outcome_bind]
      cases outcome (search (Identifier.normalize identifier) (Identifier.trimmed identifier)
          (List.range s.world.locators.length)) s with
      | error f => rfl
      | ok found => cases found <;> rfl

/-- Reflecting over a chain when nothing has been asked comes to what the search does. -/
theorem outcome_reflect (hempty : (Identifier.normalize identifier).isEmpty = false)
    {chain : Chain} (hagain : w.AnswersAgain chain.positions) :
    outcome (chain.reflect identifier) (ofWorld w)
      = (w.searched (Identifier.normalize identifier) (Identifier.trimmed identifier)
          chain.positions >>= fun found =>
            found.elim (.error (.classNotFound identifier)) .ok) := by
  have hoffers : (ofWorld w).OffersAs w (Identifier.trimmed identifier) chain.positions :=
    ⟨hagain, fun _ _ => rfl, fun _ => rfl⟩
  have hsearch : outcome (search (Identifier.normalize identifier) (Identifier.trimmed identifier)
      chain.positions) (ofWorld w) = _ := search_eq_searched hoffers rfl
  unfold reflect
  simp only
  rw [if_neg (Bool.eq_false_iff.mp hempty), visit_eq]
  show outcome (search (Identifier.normalize identifier) (Identifier.trimmed identifier)
    chain.positions >>= _) (ofWorld w) = _
  rw [outcome_bind, hsearch]
  cases w.searched (Identifier.normalize identifier) (Identifier.trimmed identifier)
      chain.positions with
  | error f => rfl
  | ok found => cases found <;> rfl

/-- The search of some chains finds what the first of them does over which the identifier
is reflected. -/
theorem searched_positionsOf (hempty : (Identifier.normalize identifier).isEmpty = false)
    {members : List Chain} (hread : (aggregate members).IsReadable w identifier)
    (hagain : w.AnswersAgain (positionsOf members)) :
    w.searched (Identifier.normalize identifier) (Identifier.trimmed identifier)
        (positionsOf members)
      = .ok (members.findSome? fun m => (outcome (m.reflect identifier) (ofWorld w)).toOption) := by
  induction members with
  | nil => rfl
  | cons m rest ih =>
    have hm : m.IsReadable w identifier := fun i hi => hread i (List.mem_append_left _ hi)
    have hrest : (aggregate rest).IsReadable w identifier := fun i hi =>
      hread i (List.mem_append_right _ hi)
    have hmagain : w.AnswersAgain m.positions := hagain.sublist (List.sublist_append_left ..)
    have hrestagain : w.AnswersAgain (positionsOf rest) :=
      hagain.sublist (List.sublist_append_right ..)
    obtain ⟨found, hfound⟩ := World.searched_ok (Identifier.normalize identifier) hm
    rw [positionsOf, World.searched_append, ih hrest hrestagain, List.findSome?_cons,
      outcome_reflect hempty hmagain, hfound, Outcome.ok_bind]
    cases found <;> rfl

/-- Over locators that can all be read an aggregate reflects an identifier as the first of
its members does over which there is such a class, and fails as there being none if there
is no such member. What it locates is the first of its candidates. -/
theorem answers_first (w : World) (members : List Chain) (identifier : String) :
    ((aggregate members).IsReadable w identifier → w.AnswersAgain (aggregate members).positions →
      outcome ((aggregate members).reflect identifier) (ofWorld w)
        = match members.findSome? fun m =>
            (outcome (m.reflect identifier) (ofWorld w)).toOption with
          | some c => .ok c
          | none => .error (unanswered identifier))
      ∧ outcome ((aggregate members).first identifier) (ofWorld w)
        = outcome ((aggregate members).locate identifier) w
      ∧ (∀ cs, outcome ((aggregate members).candidates identifier) w = .ok cs →
        outcome ((aggregate members).locate identifier) w = .ok cs.head?)
      ∧ ∀ f, outcome ((aggregate members).locate identifier) w = .error f →
        outcome ((aggregate members).candidates identifier) w = .error f := by
  rw [first_eq, candidates_eq, locate_eq]
  refine ⟨fun hread hagain => ?_, rfl, fun _ => outcome_locateIn, fun _ => outcome_candidatesIn⟩
  unfold unanswered
  cases hempty : (Identifier.normalize identifier).isEmpty with
  | true =>
    have hnone : members.findSome? (fun m =>
        (outcome (m.reflect identifier) (ofWorld w)).toOption) = none :=
      List.findSome?_eq_none_iff.mpr fun m _ => by rw [outcome_reflect_empty hempty]; rfl
    rw [outcome_reflect_empty hempty, hnone]
    rfl
  | false =>
    rw [outcome_reflect hempty hagain]
    show w.searched _ _ (positionsOf members) >>= _ = _
    rw [searched_positionsOf hempty hread hagain, Outcome.ok_bind]
    cases members.findSome? _ <;> rfl

/-! ## A nested aggregate that does not declare the class -/

/-- A text without classes. -/
def bareRoot : Node := ⟨"program", 0, 5, none, true, false, [repeatedTag]⟩

/-- The class is declared by the second text, and the first has none. -/
def shadowingWorld : World :=
  ⟨FileTree.empty [], [("<?php", bareRoot), (repeatedText, repeatedRoot)],
    [.text "<?php" "<first>", .text repeatedText "<second>"], []⟩

/-- The first text in an aggregate of its own, then the second. -/
def shadowingMembers : List Chain := [aggregate [single 0], single 1]

theorem isReadable_shadowingWorld :
    (aggregate shadowingMembers).IsReadable shadowingWorld "A" := by
  intro i hi
  rcases List.mem_cons.mp hi with rfl | hi
  · exact ⟨_, rfl⟩
  · obtain rfl := List.mem_singleton.mp hi
    exact ⟨_, rfl⟩

theorem answersAgain_shadowingWorld (positions : List Nat) :
    shadowingWorld.AnswersAgain positions := by
  intro i answers hi
  rcases List.mem_cons.mp (List.mem_of_getElem? hi) with h | h
  · cases h
  · cases List.mem_singleton.mp h

theorem reflect_shadowingWorld :
    outcome ((aggregate [single 0]).reflect "A") (ofWorld shadowingWorld)
        = .error (.classNotFound "A")
      ∧ ∃ c, outcome ((single 1).reflect "A") (ofWorld shadowingWorld) = .ok c := by
  have hempty : (Identifier.normalize "A").isEmpty = false := rfl
  constructor
  · have hall : ClassLike.all (shadowingWorld.trees.parse "<?php" "<first>") = [] := by
      show ClassLike.found _ [] [repeatedTag] NameScope.empty = _
      rw [ClassLike.found_cons, ClassLike.found_nil]
      rfl
    have hfind : findIn (shadowingWorld.trees.parse "<?php" "<first>") (Identifier.normalize "A")
        = none := by
      unfold findIn
      rw [hall]
      rfl
    have hlocated : outcome (World.locateAt 0 (Identifier.trimmed "A")) shadowingWorld
        = .ok (some ⟨"<?php", "<first>", some (Identifier.trimmed "A")⟩) := rfl
    have hpositions : (aggregate [single 0]).positions = [0] := rfl
    rw [outcome_reflect hempty (answersAgain_shadowingWorld _), hpositions, World.searched,
      hlocated, Outcome.ok_bind, Option.bind_some, hfind]
    rfl
  · have hfind : ∃ c, findIn (shadowingWorld.trees.parse repeatedText "<second>")
        (Identifier.normalize "A") = some c := by
      have hparse : shadowingWorld.trees.parse repeatedText "<second>"
          = ⟨Source.ofString repeatedText, "<second>", repeatedRoot⟩ := rfl
      unfold findIn
      rw [hparse, all_repeatedText]
      exact ⟨_, rfl⟩
    obtain ⟨c, hc⟩ := hfind
    have hlocated : outcome (World.locateAt 1 (Identifier.trimmed "A")) shadowingWorld
        = .ok (some ⟨repeatedText, "<second>", some (Identifier.trimmed "A")⟩) := rfl
    have hpositions : (single 1).positions = [1] := rfl
    rw [outcome_reflect hempty (answersAgain_shadowingWorld _), hpositions, World.searched,
      hlocated, Outcome.ok_bind, Option.bind_some, hc]
    exact ⟨c, rfl⟩

/-- The text without a class does not stand in the way of the other. -/
theorem answers_first_shadowing :
    (aggregate shadowingMembers).IsReadable shadowingWorld "A"
      ∧ shadowingWorld.AnswersAgain (aggregate shadowingMembers).positions
      ∧ ∃ c, outcome ((single 1).reflect "A") (ofWorld shadowingWorld) = .ok c
        ∧ outcome ((aggregate shadowingMembers).reflect "A") (ofWorld shadowingWorld)
          = .ok c := by
  have hagain := answersAgain_shadowingWorld (aggregate shadowingMembers).positions
  obtain ⟨hfirst, c, hsecond⟩ := reflect_shadowingWorld
  refine ⟨isReadable_shadowingWorld, hagain, c, hsecond, ?_⟩
  have hfound : shadowingMembers.findSome?
      (fun m => (outcome (m.reflect "A") (ofWorld shadowingWorld)).toOption) = some c := by
    unfold shadowingMembers
    rw [List.findSome?_cons, hfirst, List.findSome?_cons, hsecond]
    rfl
  have hreflect := (answers_first shadowingWorld shadowingMembers "A").1
    isReadable_shadowingWorld hagain
  rw [hreflect, hfound]

end Chain

end StaticReflection
