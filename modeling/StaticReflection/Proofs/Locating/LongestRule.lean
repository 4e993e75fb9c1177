import StaticReflection.Proofs.Declaration.NameScope
import StaticReflection.Proofs.Locating.Rules

/-!
# The longest rule

Rules are tried in the order of their lengths, and one that leads to no file leaves the
identifier to the shorter ones.

> `AutoloadRules.findPsr4_longest`: the file of an identifier is that of the longest rule which
> matches it and leads to a file, and there is none if no rule does both. If no two rules begin
> alike, the order in which they are configured makes no difference.

Sorting keeps rules of one length in their order, so of two that begin alike the first counts
(`findSome?_mergeSort_eq_some_iff`). Rules of one length that match one identifier begin alike
(`lower_eq_of_applies`), which is why the order matters for no others.
-/

namespace StaticReflection

/-! ## The first of the heaviest -/

section

variable {α β : Type} {weight : α → Nat} {f : α → Option β} {l : List α} {b : β}

/-- Of the elements with an answer the heaviest, and the first of equally heavy ones. -/
def IsFirstHeaviest (weight : α → Nat) (answers : α → Prop) (l : List α) (a : α) : Prop :=
  ∃ earlier later, l = earlier ++ a :: later
    ∧ (∀ o ∈ earlier, answers o → weight o < weight a)
    ∧ ∀ o ∈ later, answers o → weight o ≤ weight a

theorem weight_trans (weight : α → Nat) (a b c : α) (hab : decide (weight b ≤ weight a) = true)
    (hbc : decide (weight c ≤ weight b) = true) : decide (weight c ≤ weight a) = true := by
  rw [decide_eq_true_eq] at hab hbc ⊢
  exact Nat.le_trans hbc hab

theorem weight_total (weight : α → Nat) (a b : α) :
    (decide (weight b ≤ weight a) || decide (weight a ≤ weight b)) = true := by
  rw [Bool.or_eq_true, decide_eq_true_eq, decide_eq_true_eq]
  exact Nat.le_total ..

theorem pairwise_mergeSort_weight (weight : α → Nat) (l : List α) :
    (l.mergeSort fun a b => weight b ≤ weight a).Pairwise fun a b => weight b ≤ weight a :=
  (List.pairwise_mergeSort (weight_trans weight) (weight_total weight) l).imp of_decide_eq_true

/-- Sorting by falling weight keeps elements of one weight in their order. -/
theorem filter_mergeSort (weight : α → Nat) (l : List α) (n : Nat) :
    (l.mergeSort fun a b => weight b ≤ weight a).filter (fun a => weight a == n)
      = l.filter fun a => weight a == n := by
  have hequal : (l.filter fun a => weight a == n).Pairwise
      fun a b => decide (weight b ≤ weight a) = true := by
    refine List.Pairwise.imp_of_mem (R := fun _ _ => True) ?_
      (List.pairwise_of_forall fun _ _ => trivial)
    intro a b ha hb _
    have ha := eq_of_beq (List.mem_filter.mp ha).2
    have hb := eq_of_beq (List.mem_filter.mp hb).2
    exact decide_eq_true (Nat.le_of_eq (hb.trans ha.symm))
  -- those of one weight are in order already, so they are a part of the sorted list
  have hsub := (List.sublist_mergeSort (weight_trans weight) (weight_total weight) hequal
    List.filter_sublist).filter fun a => weight a == n
  rw [List.filter_filter] at hsub
  simp only [Bool.and_self] at hsub
  exact (hsub.eq_of_length ((List.mergeSort_perm l _).symm.filter _).length_eq).symm

theorem IsFirstHeaviest.mem {answers : α → Prop} {a : α}
    (h : IsFirstHeaviest weight answers l a) : a ∈ l := by
  obtain ⟨earlier, later, rfl, _⟩ := h
  exact List.mem_append_right _ (List.mem_cons_self ..)

theorem IsFirstHeaviest.le {answers : α → Prop} {a : α} (h : IsFirstHeaviest weight answers l a) :
    ∀ o ∈ l, answers o → weight o ≤ weight a := by
  obtain ⟨earlier, later, rfl, hearlier, hlater⟩ := h
  intro o ho hanswers
  rcases List.mem_append.mp ho with ho | ho
  · exact Nat.le_of_lt (hearlier o ho hanswers)
  · rcases List.mem_cons.mp ho with rfl | ho
    · exact Nat.le_refl _
    · exact hlater o ho hanswers

theorem IsFirstHeaviest.congr {answers answers' : α → Prop} {a : α}
    (h : IsFirstHeaviest weight answers l a) (hcongr : ∀ o ∈ l, answers' o → answers o) :
    IsFirstHeaviest weight answers' l a := by
  obtain ⟨earlier, later, rfl, hearlier, hlater⟩ := h
  refine ⟨earlier, later, rfl, fun o ho ho' => hearlier o ho (hcongr o ?_ ho'),
    fun o ho ho' => hlater o ho (hcongr o ?_ ho')⟩
  · exact List.mem_append_left _ ho
  · exact List.mem_append_right _ (List.mem_cons_of_mem _ ho)

theorem IsFirstHeaviest.unique {answers : α → Prop} {a a' : α}
    (h : IsFirstHeaviest weight answers l a) (h' : IsFirstHeaviest weight answers l a')
    (ha : answers a) (ha' : answers a') : a = a' := by
  obtain ⟨earlier, later, rfl, hearlier, hlater⟩ := h
  obtain ⟨earlier', later', heq, hearlier', hlater'⟩ := h'
  rcases List.append_eq_append_iff.mp heq with ⟨between, rfl, hrest⟩ | ⟨between, rfl, hrest⟩
  · cases between with
    | nil => exact (List.cons.inj hrest).1
    | cons c cs =>
      obtain ⟨rfl, rfl⟩ := List.cons.inj hrest
      have hlt := hearlier' a (by simp) ha
      have hle := hlater a' (by simp) ha'
      omega
  · cases between with
    | nil => exact (List.cons.inj hrest).1.symm
    | cons c cs =>
      obtain ⟨rfl, rfl⟩ := List.cons.inj hrest
      have hlt := hearlier a' (by simp) ha'
      have hle := hlater' a (by simp) ha
      omega

theorem exists_firstHeaviest (weight : α → Nat)
    (h : (l.mergeSort fun a b => weight b ≤ weight a).findSome? f = some b) :
    ∃ a, f a = some b ∧ IsFirstHeaviest weight (fun o => (f o).isSome) l a := by
  obtain ⟨tried, a, left, hsorted, hb, htried⟩ := List.findSome?_eq_some_iff.mp h
  have hlighter : ∀ o ∈ left, weight o ≤ weight a := by
    have hpairwise := pairwise_mergeSort_weight weight l
    rw [hsorted] at hpairwise
    intro o ho
    exact (List.pairwise_cons.mp (List.pairwise_append.mp hpairwise).2.1).1 o ho
  have hheaviest : ∀ o ∈ l, (f o).isSome → weight o ≤ weight a := by
    intro o ho hanswers
    have hmem : o ∈ tried ++ a :: left := hsorted ▸ List.mem_mergeSort.mpr ho
    rcases List.mem_append.mp hmem with hmem | hmem
    · rw [htried o hmem] at hanswers
      cases hanswers
    · rcases List.mem_cons.mp hmem with rfl | hmem
      · exact Nat.le_refl _
      · exact hlighter o hmem
  -- those as heavy as `a` stand in the list as they were tried
  have hequal := filter_mergeSort weight l (weight a)
  rw [hsorted, List.filter_append,
    List.filter_cons_of_pos (p := fun c => weight c == weight a) (beq_self_eq_true _)] at hequal
  obtain ⟨front, back, rfl, hfront, hback⟩ := List.filter_eq_append_iff.mp hequal.symm
  obtain ⟨between, later, rfl, hbetween, _, _⟩ := List.filter_eq_cons_iff.mp hback
  refine ⟨a, hb, front ++ between, later, (List.append_assoc ..).symm, fun o ho hanswers => ?_,
    fun o ho hanswers => hheaviest o (by simp [ho]) hanswers⟩
  refine Nat.lt_of_le_of_ne (hheaviest o ?_ hanswers) fun heq => ?_
  · rcases List.mem_append.mp ho with ho | ho <;> simp [ho]
  · rcases List.mem_append.mp ho with ho | ho
    · have hmem : o ∈ front.filter fun c => weight c == weight a :=
        List.mem_filter.mpr ⟨ho, beq_iff_eq.mpr heq⟩
      rw [hfront] at hmem
      have hnone := htried o (List.mem_filter.mp hmem).1
      simp only at hanswers
      rw [hnone] at hanswers
      cases hanswers
    · exact hbetween o ho (beq_iff_eq.mpr heq)

/-- The first answer in the order of falling weights is that of the first of the heaviest. -/
theorem findSome?_mergeSort_eq_some_iff (weight : α → Nat) :
    (l.mergeSort fun a b => weight b ≤ weight a).findSome? f = some b
      ↔ ∃ a, f a = some b ∧ IsFirstHeaviest weight (fun o => (f o).isSome) l a := by
  refine ⟨exists_firstHeaviest weight, fun ⟨a, hb, ha⟩ => ?_⟩
  have hanswers : (f a).isSome := hb ▸ rfl
  cases hfirst : (l.mergeSort fun a b => weight b ≤ weight a).findSome? f with
  | none =>
    have hnone := List.findSome?_eq_none_iff.mp hfirst a (List.mem_mergeSort.mpr ha.mem)
    rw [hnone] at hb
    cases hb
  | some b' =>
    obtain ⟨a', hb', ha'⟩ := exists_firstHeaviest weight hfirst
    obtain rfl := ha.unique ha' hanswers (hb' ▸ rfl)
    exact hb'.symm.trans hb

theorem findSome?_mergeSort_eq_none_iff (weight : α → Nat) :
    (l.mergeSort fun a b => weight b ≤ weight a).findSome? f = none ↔ ∀ a ∈ l, f a = none := by
  rw [List.findSome?_eq_none_iff]
  exact forall_congr' fun a => by rw [List.mem_mergeSort]

/-- An answer is the first by weight if no other is among those that are as heavy or heavier. -/
theorem findSome?_mergeSort_of_agree (weight : α → Nat) {a : α} (ha : a ∈ l) (hb : f a = some b)
    (hagree : ∀ o ∈ l, (f o).isSome → weight a ≤ weight o → f o = some b) :
    (l.mergeSort fun a b => weight b ≤ weight a).findSome? f = some b := by
  cases hfirst : (l.mergeSort fun a b => weight b ≤ weight a).findSome? f with
  | none =>
    rw [findSome?_mergeSort_eq_none_iff weight] at hfirst
    rw [hfirst a ha] at hb
    cases hb
  | some b' =>
    obtain ⟨o, ho, hheaviest⟩ := exists_firstHeaviest weight hfirst
    have hge := hheaviest.le a ha (hb ▸ rfl)
    exact ho.symm.trans (hagree o hheaviest.mem (ho ▸ rfl) hge)

/-- Permuting a list makes no difference to its first answer by weight, if elements of one
weight have the same answer. -/
theorem findSome?_mergeSort_perm (weight : α → Nat) {l' : List α} (hperm : l'.Perm l)
    (hequal : ∀ a ∈ l, ∀ a' ∈ l, (f a).isSome → (f a').isSome → weight a = weight a' → f a = f a') :
    (l'.mergeSort fun a b => weight b ≤ weight a).findSome? f
      = (l.mergeSort fun a b => weight b ≤ weight a).findSome? f := by
  cases hfirst : (l.mergeSort fun a b => weight b ≤ weight a).findSome? f with
  | none =>
    rw [findSome?_mergeSort_eq_none_iff weight] at hfirst ⊢
    exact fun a ha => hfirst a (hperm.mem_iff.mp ha)
  | some b =>
    obtain ⟨a, hb, ha⟩ := exists_firstHeaviest weight hfirst
    refine findSome?_mergeSort_of_agree weight (hperm.mem_iff.mpr ha.mem) hb
      fun o ho hanswers hge => ?_
    have hmem := hperm.mem_iff.mp ho
    have hle := ha.le o hmem hanswers
    exact (hequal o hmem a ha.mem hanswers (hb ▸ rfl) (Nat.le_antisymm hle hge)).trans hb

end

/-! ## Rules that match -/

namespace AutoloadRules

/-- A text of ASCII characters. -/
def IsAscii (s : String) : Prop := ∀ c ∈ s.toList, c.toNat < 128

instance (s : String) : Decidable (IsAscii s) :=
  decidable_of_iff (s.toList.all (·.toNat < 128) = true) (by simp [IsAscii])

/-- An identifier begins, letter case aside, with the beginning of a rule, and this follows. -/
def Continues (beginning identifier rest : String) : Prop :=
  ∃ start, identifier = start ++ rest ∧ LetterCase.same start beginning = true

/-- A rule leads to a path: the first of its directories in which the rest of the identifier,
with slashes for backslashes, is the path of a file. -/
def LeadsTo (root : Path) (t : FileTree) (identifier : String) (rule : TextRule) (p : Path) :
    Prop :=
  ∃ rest, Continues rule.1 identifier rest
    ∧ (candidates root (Path.ofString (replaceChar '\\' '/' rest ++ ".php")) rule.2).find? t.isFile
      = some p

/-- The longest of the rules that lead to a file, and the first of equally long ones. -/
def IsLongest (root : Path) (t : FileTree) (identifier : String) (rules : List TextRule)
    (rule : TextRule) : Prop :=
  IsFirstHeaviest (fun rule => rule.1.length) (fun rule => ∃ p, LeadsTo root t identifier rule p)
    rules rule

section

variable {beginning other identifier : String}

theorem toList_lower_ascii {s : String} (h : IsAscii s) :
    (LetterCase.lower s).toList = s.toList.map Char.toLower := by
  rw [LetterCase.lower_ascii h, String.toList_ofList]

/-- Rules of one length that are for one identifier begin alike. -/
theorem lower_eq_of_applies (h : applies beginning identifier = true)
    (h' : applies other identifier = true) (hb : IsAscii beginning) (ho : IsAscii other)
    (hlength : beginning.length = other.length) :
    LetterCase.lower beginning = LetterCase.lower other := by
  have hstart := String.startsWith_string_iff.mp h
  have hstart' := String.startsWith_string_iff.mp h'
  have hlower :
      (LetterCase.lower beginning).toList.length = (LetterCase.lower other).toList.length := by
    rw [toList_lower_ascii hb, toList_lower_ascii ho, List.length_map, List.length_map,
      String.length_toList, String.length_toList, hlength]
  have hsame := List.prefix_of_prefix_length_le hstart hstart' (Nat.le_of_eq hlower)
  exact String.toList_inj.mp (hsame.eq_of_length hlower)

/-- A rule is for an ASCII identifier if that begins like it, and what follows is the rest. -/
theorem continues_iff {rest : String} (hb : IsAscii beginning) (hi : IsAscii identifier) :
    Continues beginning identifier rest
      ↔ applies beginning identifier = true
        ∧ String.ofList (identifier.toList.drop beginning.length) = rest := by
  have happlies : applies beginning identifier = true
      ↔ beginning.toList.map Char.toLower <+: identifier.toList.map Char.toLower := by
    rw [← toList_lower_ascii hb, ← toList_lower_ascii hi]
    exact String.startsWith_string_iff
  have hsame {start : String} (hs : IsAscii start) : LetterCase.same start beginning = true
      ↔ start.toList.map Char.toLower = beginning.toList.map Char.toLower := by
    rw [← toList_lower_ascii hs, ← toList_lower_ascii hb, String.toList_inj]
    exact beq_iff_eq
  rw [happlies]
  constructor
  · rintro ⟨start, rfl, hstart⟩
    have hs : IsAscii start := fun c hc =>
      hi c (String.toList_append ▸ List.mem_append_left _ hc)
    have hmap := (hsame hs).mp hstart
    have hlength : start.toList.length = beginning.length := by
      have := congrArg List.length hmap
      rwa [List.length_map, List.length_map, String.length_toList (s := beginning)] at this
    rw [String.toList_append, List.map_append, hmap, ← hlength, List.drop_left,
      String.ofList_toList]
    exact ⟨List.prefix_append .., rfl⟩
  · rintro ⟨hbegins, rfl⟩
    have htake := List.prefix_iff_eq_take.mp hbegins
    rw [List.length_map, String.length_toList, ← List.map_take] at htake
    refine ⟨String.ofList (identifier.toList.take beginning.length), ?_, ?_⟩
    · rw [← String.ofList_append, List.take_append_drop, String.ofList_toList]
    · have hs : IsAscii (String.ofList (identifier.toList.take beginning.length)) := fun c hc =>
        hi c (List.mem_of_mem_take (String.toList_ofList ▸ hc))
      rw [hsame hs, String.toList_ofList, htake]

/-- What a rule leads to is the file that it has for the identifier. -/
theorem leadsTo_iff {root p : Path} {t : FileTree} {rule : TextRule} (hb : IsAscii rule.1)
    (hi : IsAscii identifier) :
    LeadsTo root t identifier rule p
      ↔ fileOf root t identifier (fun b => psr4Path b identifier) rule = some p := by
  unfold LeadsTo fileOf
  simp only [continues_iff hb hi]
  cases applies rule.1 identifier with
  | false => simp
  | true =>
    simp only [true_and, if_true, exists_eq_left']
    exact Iff.rfl

end

/-- Rules lead from an ASCII identifier to the file of the longest rule that matches it and
has one, whatever the order of rules that begin differently. -/
theorem findPsr4_longest (root : Path) (t : FileTree) (rules older : List TextRule)
    (classmap : List String) (hascii : ∀ rule ∈ rules, IsAscii rule.1) :
    (∀ identifier, IsAscii identifier → ∃ found,
      (ofTexts root rules older classmap).findPsr4 t identifier = .ok found
        ∧ (∀ p, found = some p ↔ ∃ rule, LeadsTo root t identifier rule p
          ∧ IsLongest root t identifier rules rule)
        ∧ (found = none ↔ ∀ rule ∈ rules, ∀ p, ¬LeadsTo root t identifier rule p))
      ∧ ((∀ a ∈ rules, ∀ b ∈ rules, LetterCase.same a.1 b.1 = true → a = b) →
        ∀ others : List TextRule, others.Perm rules → ∀ identifier,
          (ofTexts root others older classmap).findPsr4 t identifier
            = (ofTexts root rules older classmap).findPsr4 t identifier) := by
  constructor
  · intro identifier hi
    have hleads {rule : TextRule} (hrule : rule ∈ rules) {p : Path} :
        LeadsTo root t identifier rule p
          ↔ fileOf root t identifier (fun b => psr4Path b identifier) rule = some p :=
      leadsTo_iff (hascii rule hrule) hi
    have hanswers {rule : TextRule} (hrule : rule ∈ rules) :
        (∃ p, LeadsTo root t identifier rule p)
          ↔ (fileOf root t identifier (fun b => psr4Path b identifier) rule).isSome := by
      rw [Option.isSome_iff_exists]
      exact exists_congr fun p => hleads hrule
    refine ⟨_, findPsr4_texts root rules older classmap t identifier, fun p => ?_, ?_⟩
    · rw [findSome?_mergeSort_eq_some_iff (fun rule : TextRule => rule.1.length)]
      constructor
      · rintro ⟨rule, hfile, hfirst⟩
        exact ⟨rule, (hleads hfirst.mem).mpr hfile,
          hfirst.congr fun o ho => (hanswers ho).mp⟩
      · rintro ⟨rule, hrule, hlongest⟩
        exact ⟨rule, (hleads hlongest.mem).mp hrule,
          hlongest.congr fun o ho => (hanswers ho).mpr⟩
    · rw [findSome?_mergeSort_eq_none_iff (fun rule : TextRule => rule.1.length)]
      refine forall₂_congr fun rule hrule => ?_
      rw [Option.eq_none_iff_forall_not_mem]
      exact forall_congr' fun p => not_congr (hleads hrule).symm
  · intro hdistinct others hperm identifier
    rw [findPsr4_texts, findPsr4_texts]
    refine congrArg _ (findSome?_mergeSort_perm (fun rule : TextRule => rule.1.length) hperm ?_)
    intro a ha b hb hfile hfile' hlength
    obtain ⟨p, hp⟩ := Option.isSome_iff_exists.mp hfile
    obtain ⟨q, hq⟩ := Option.isSome_iff_exists.mp hfile'
    have hlower := lower_eq_of_applies (of_fileOf hp).1 (of_fileOf hq).1 (hascii a ha) (hascii b hb)
      hlength
    rw [hdistinct a ha b hb (beq_iff_eq.mpr hlower)]

/-! ## A longer rule and a shorter one -/

/-- Classes below `App`, with the models elsewhere. -/
def layeredRules : List TextRule := [("App\\", ["src"]), ("App\\Model\\", ["model", "more"])]

/-- A file for a model in the second of its directories, and one in that of the other rule. -/
def layeredTree : FileTree :=
  ⟨[(["more", "User.php"], []), (["src", "Model", "User.php"], [])],
    [["model"], ["more"], ["src"], ["src", "Model"]], []⟩

/-- The file is the one in the second directory of the longer rule, in either order of the
rules. -/
theorem findPsr4_longest_layered :
    (∀ rule ∈ layeredRules, IsAscii rule.1) ∧ IsAscii "app\\model\\User"
      ∧ (ofTexts Path.here layeredRules [] []).findPsr4 layeredTree
          "app\\model\\User" = .ok (some ⟨"", ["more", "User.php"]⟩)
      ∧ (ofTexts Path.here layeredRules.reverse [] []).findPsr4 layeredTree
          "app\\model\\User" = .ok (some ⟨"", ["more", "User.php"]⟩) := by
  have hascii : ∀ rule ∈ layeredRules, IsAscii rule.1 := by decide +kernel
  have hi : IsAscii "app\\model\\User" := by decide +kernel
  obtain ⟨hlongest, horder⟩ := findPsr4_longest Path.here layeredTree layeredRules [] [] hascii
  obtain ⟨found, hfound, hsome, _⟩ := hlongest "app\\model\\User" hi
  have hfile : found = some ⟨"", ["more", "User.php"]⟩ := by
    refine (hsome _).mpr ⟨("App\\Model\\", ["model", "more"]), ⟨"User", ?_, by decide +kernel⟩, ?_⟩
    · exact ⟨"app\\model\\", by decide +kernel, by decide +kernel⟩
    · refine ⟨[("App\\", ["src"])], [], rfl, fun o ho _ => ?_, fun _ h => by cases h⟩
      rw [List.mem_singleton.mp ho]
      decide +kernel
  rw [hfile] at hfound
  refine ⟨hascii, hi, hfound, ?_⟩
  exact (horder (by decide +kernel) layeredRules.reverse (List.reverse_perm _) _).trans hfound

end AutoloadRules

end StaticReflection
