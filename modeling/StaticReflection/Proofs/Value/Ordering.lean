import Mathlib.Data.List.Lex
import Mathlib.Order.Fin.Basic
import StaticReflection.Proofs.Value.Equality

/-!
# The order of values without doubles

Behind all comparisons of two exact values there is one ordering, or none (`Value.order?`): that of
the integers that they count as, that of texts by code point, and that of lists by the first items
that differ, or by length if none do. Each comparison asks for it alone (`Value.compareValues_eq`).

> `Value.order?_swap`, `Value.order?_eq_iff`, `Value.order?_trans`: the ordering of two values is
> turned around with them, is equality exactly if they are alike, and being less is transitive.

Values that are alike compare with all others in the same way (`Value.Alike.order?_eq`), which is
what carries transitivity past the items that lists have in common.
-/

namespace StaticReflection

/-! ## Texts -/

namespace Text

theorem codesBefore_iff {as bs : List CodePoint} : codesBefore as bs = true ↔ as < bs := by
  induction as generalizing bs with
  | nil =>
    cases bs with
    | nil => exact iff_of_false Bool.false_ne_true (List.not_lt_nil _)
    | cons b bs => exact iff_of_true rfl (List.nil_lt_cons b bs)
  | cons a as ih =>
    cases bs with
    | nil => exact iff_of_false Bool.false_ne_true (List.not_lt_nil _)
    | cons b bs =>
      rw [codesBefore, List.cons_lt_cons_iff]
      by_cases hab : a = b
      · subst hab
        rw [if_pos rfl, ih, or_iff_right (lt_irrefl a), and_iff_right rfl]
      · rw [if_neg hab, decide_eq_true_eq, or_iff_left fun h => hab h.1]

end Text

namespace Value

theorem compareTexts_lt_iff {s t : Text} : compareTexts s t = .lt ↔ s.codes < t.codes := by
  rw [← Text.codesBefore_iff]
  unfold compareTexts Text.before
  by_cases hlt : Text.codesBefore s.codes t.codes = true
  · rw [if_pos hlt]
    exact iff_of_true rfl hlt
  · rw [if_neg hlt]
    refine iff_of_false (fun h => ?_) hlt
    split at h <;> cases h

theorem compareTexts_swap (s t : Text) : compareTexts t s = (compareTexts s t).swap := by
  unfold compareTexts Text.before
  by_cases hlt : Text.codesBefore s.codes t.codes = true
  · have hgt : ¬Text.codesBefore t.codes s.codes = true := fun h =>
      lt_asymm (Text.codesBefore_iff.mp hlt) (Text.codesBefore_iff.mp h)
    rw [if_pos hlt, if_neg hgt, if_pos hlt]
    rfl
  · rw [if_neg hlt, if_neg hlt]
    split <;> rfl

theorem compareTexts_eq_iff {s t : Text} : compareTexts s t = .eq ↔ s = t := by
  constructor
  · intro h
    have hgt : compareTexts t s = .eq := by
      rw [compareTexts_swap, h]
      rfl
    rcases lt_trichotomy s.codes t.codes with hlt | heq | hlt
    · rw [compareTexts_lt_iff.mpr hlt] at h
      cases h
    · exact congrArg Text.mk heq
    · rw [compareTexts_lt_iff.mpr hlt] at hgt
      cases hgt
  · rintro rfl
    have hirrefl : ¬s.before s = true := fun h => lt_irrefl _ (Text.codesBefore_iff.mp h)
    rw [compareTexts, if_neg hirrefl, if_neg hirrefl]

/-! ## Scalars -/

/-- What a scalar is compared by: the integer that it counts as, or its text. -/
inductive Rank where
  | number (n : Int)
  | text (t : Text)

namespace Rank

/-- How two ranks compare; an integer and a text do not. -/
def order? : Rank → Rank → Option Ordering
  | number m, number n => some (compare m n)
  | text s, text t => some (compareTexts s t)
  | _, _ => none

theorem order?_swap (x y : Rank) : y.order? x = (x.order? y).map Ordering.swap := by
  cases x with
  | number m =>
    cases y with
    | number n => exact congrArg some (Int.compare_swap m n).symm
    | text t => rfl
  | text s =>
    cases y with
    | number n => rfl
    | text t => exact congrArg some (compareTexts_swap s t)

theorem order?_eq_iff {x y : Rank} {o : Ordering} (h : x.order? y = some o) :
    o = .eq ↔ x = y := by
  cases x with
  | number m =>
    cases y with
    | number n =>
      cases h
      rw [Int.compare_eq_eq, Rank.number.injEq]
    | text t => cases h
  | text s =>
    cases y with
    | number n => cases h
    | text t =>
      cases h
      rw [compareTexts_eq_iff, Rank.text.injEq]

theorem order?_trans {x y z : Rank} (hxy : x.order? y = some .lt) (hyz : y.order? z = some .lt) :
    x.order? z = some .lt := by
  cases x with
  | number m =>
    cases y with
    | text t => cases hxy
    | number n =>
      cases z with
      | text t => cases hyz
      | number k =>
        have hmn := Int.compare_eq_lt.mp (Option.some.inj hxy)
        have hnk := Int.compare_eq_lt.mp (Option.some.inj hyz)
        exact congrArg some (Int.compare_eq_lt.mpr (Int.lt_trans hmn hnk))
  | text s =>
    cases y with
    | number n => cases hxy
    | text t =>
      cases z with
      | number n => cases hyz
      | text u =>
        have hst := compareTexts_lt_iff.mp (Option.some.inj hxy)
        have htu := compareTexts_lt_iff.mp (Option.some.inj hyz)
        exact congrArg some (compareTexts_lt_iff.mpr (lt_trans hst htu))

end Rank

/-- What a value is compared by if it is a number or a text. -/
def rank? : Value → Option Rank
  | .bool b => some (.number (if b then 1 else 0))
  | .int n => some (.number n)
  | .text t => some (.text t)
  | _ => none

/-- How two values compare by their ranks. -/
def orderRanks? (a b : Value) : Option Ordering := do (← a.rank?).order? (← b.rank?)

variable {a b c : Value}

theorem Alike.rank?_eq (h : Alike a b) : a.rank? = b.rank? := by
  have hrank {v : Value} {m : Int} (hv : v.integer? = some m) : v.rank? = some (.number m) := by
    cases v with
    | bool b =>
      cases hv
      rfl
    | int n =>
      cases hv
      rfl
    | _ => cases hv
  cases h with
  | number ha hb => rw [hrank ha, hrank hb]
  | _ => rfl

theorem alike_of_rank? {x : Rank} (ha : a.rank? = some x) (hb : b.rank? = some x) : Alike a b := by
  have hinteger {v : Value} {m : Int} (hv : v.rank? = some (.number m)) :
      v.integer? = some m := by
    cases v with
    | bool b =>
      cases hv
      rfl
    | int n =>
      cases hv
      rfl
    | _ => cases hv
  have htext {v : Value} {t : Text} (hv : v.rank? = some (.text t)) : v = .text t := by
    cases v with
    | text s =>
      cases hv
      rfl
    | _ => cases hv
  cases x with
  | number m => exact .number (hinteger ha) (hinteger hb)
  | text t =>
    rw [htext ha, htext hb]
    exact .text t

/-- Scalars without doubles are compared by their ranks. -/
theorem compareScalars_eq (ha : a.Exact) (hb : b.Exact) (r : Comparison) :
    (compareScalars r a b).toOption = (orderRanks? a b).map r.holds := by
  cases ha with
  | _ => cases hb with
    | _ => rfl

/-! ## Values -/

mutual

/-- How two values compare, if they do: lists by their items, and all others by their ranks. -/
def order? : Value → Value → Option Ordering
  | .list xs, .list ys => orderItems? xs ys
  | a, b => orderRanks? a b

/-- How two lists of items compare: by the first that differ, or by their lengths. -/
def orderItems? : List Value → List Value → Option Ordering
  | [], [] => some .eq
  | [], _ :: _ => some .lt
  | _ :: _, [] => some .gt
  | x :: xs, y :: ys => if eq x y then orderItems? xs ys else order? x y

end

theorem order?_of_not_list (h : a.kind ≠ .list) :
    order? a b = orderRanks? a b ∧ order? b a = orderRanks? b a := by
  cases a with
  | list xs => exact absurd rfl h
  | _ =>
    refine ⟨rfl, ?_⟩
    cases b <;> rfl

/-! ### What comparisons ask for -/

theorem compareItems_eq {xs ys : List Value} (r : Comparison) (hxs : ∀ v ∈ xs, v.Exact)
    (h : ∀ v ∈ xs, ∀ w ∈ ys, (compareValues r v w).toOption = (order? v w).map r.holds) :
    (compareItems r xs ys).toOption = (orderItems? xs ys).map r.holds := by
  induction xs generalizing ys with
  | nil =>
    rw [compareItems]
    cases ys with
    | nil => rfl
    | cons y ys =>
      rw [List.length_cons, Nat.compare_eq_lt.mpr (Nat.succ_pos ys.length)]
      rfl
  | cons x xs ih =>
    obtain ⟨hx, hxs⟩ := List.forall_mem_cons.mp hxs
    cases ys with
    | nil =>
      rw [compareItems, Nat.compare_eq_gt.mpr (Nat.succ_pos xs.length)]
      rfl
    | cons y ys =>
      rw [compareItems, orderItems?, sameNaN_of_exact hx, Bool.false_or]
      by_cases hxy : eq x y = true
      · rw [if_pos hxy, if_pos hxy]
        exact ih hxs fun v hv w hw =>
          h v (List.mem_cons_of_mem _ hv) w (List.mem_cons_of_mem _ hw)
      · rw [if_neg hxy, if_neg hxy]
        exact h x (List.mem_cons_self ..) y (List.mem_cons_self ..)

/-- A comparison of exact values holds of their ordering, and without one there is no value. -/
theorem compareValues_eq (ha : a.Exact) (hb : b.Exact) (r : Comparison) :
    (compareValues r a b).toOption = (order? a b).map r.holds := by
  induction ha generalizing b with
  | @list xs hxs ih =>
    cases hb with
    | @list ys hys => exact compareItems_eq r hxs fun v hv w hw => ih v hv (hys w hw)
    | _ => rfl
  | null => exact compareScalars_eq .null hb r
  | bool t => exact compareScalars_eq (.bool t) hb r
  | int n => exact compareScalars_eq (.int n) hb r
  | text t => exact compareScalars_eq (.text t) hb r
  | map hkeys hxs _ => exact compareScalars_eq (.map hkeys hxs) hb r

/-! ### Turned around -/

theorem orderRanks?_swap (a b : Value) : orderRanks? b a = (orderRanks? a b).map Ordering.swap := by
  unfold orderRanks?
  cases a.rank? with
  | none => cases b.rank? <;> rfl
  | some x =>
    cases b.rank? with
    | none => rfl
    | some y => exact x.order?_swap y

theorem order?_swap_of_not_list (h : a.kind ≠ .list) :
    order? b a = (order? a b).map Ordering.swap := by
  obtain ⟨hab, hba⟩ := order?_of_not_list (b := b) h
  rw [hab, hba]
  exact orderRanks?_swap a b

theorem eq_comm_of_exact (ha : a.Exact) (hb : b.Exact) : eq b a = eq a b := by
  rw [Bool.eq_iff_iff, eq_iff hb ha, eq_iff ha hb]
  exact ⟨.symm, .symm⟩

theorem orderItems?_swap {xs ys : List Value}
    (heq : ∀ v ∈ xs, ∀ w ∈ ys, eq w v = eq v w)
    (h : ∀ v ∈ xs, ∀ w ∈ ys, order? w v = (order? v w).map Ordering.swap) :
    orderItems? ys xs = (orderItems? xs ys).map Ordering.swap := by
  induction xs generalizing ys with
  | nil => cases ys <;> rfl
  | cons x xs ih =>
    cases ys with
    | nil => rfl
    | cons y ys =>
      have hx := List.mem_cons_self (a := x) (l := xs)
      have hy := List.mem_cons_self (a := y) (l := ys)
      have htail := ih (fun v hv w hw => heq v (.tail x hv) w (.tail y hw))
        fun v hv w hw => h v (.tail x hv) w (.tail y hw)
      rw [orderItems?, orderItems?, heq x hx y hy]
      by_cases hxy : eq x y = true
      · rw [if_pos hxy, if_pos hxy, htail]
      · rw [if_neg hxy, if_neg hxy, h x hx y hy]

/-- The ordering of two values is turned around with them. -/
theorem order?_swap (ha : a.Exact) (hb : b.Exact) :
    order? b a = (order? a b).map Ordering.swap := by
  induction ha generalizing b with
  | @list xs hxs ih =>
    cases hb with
    | @list ys hys =>
      exact orderItems?_swap (fun v hv w hw => eq_comm_of_exact (hxs v hv) (hys w hw))
        fun v hv w hw => ih v hv (hys w hw)
    | _ => exact orderRanks?_swap _ _
  | _ => exact order?_swap_of_not_list nofun

/-! ### Equality -/

theorem orderRanks?_eq_iff {o : Ordering} (h : orderRanks? a b = some o) :
    o = .eq ↔ Alike a b := by
  unfold orderRanks? at h
  cases ha : a.rank? with
  | none =>
    rw [ha] at h
    cases h
  | some x =>
    cases hb : b.rank? with
    | none =>
      rw [ha, hb] at h
      cases h
    | some y =>
      rw [ha, hb] at h
      refine (Rank.order?_eq_iff h).trans ⟨?_, fun hab => ?_⟩
      · rintro rfl
        exact alike_of_rank? ha hb
      · exact Option.some.inj (ha.symm.trans (hab.rank?_eq.trans hb))

theorem orderItems?_eq_iff {xs ys : List Value} {o : Ordering}
    (h : ∀ v ∈ xs, ∀ w ∈ ys, ∀ p, order? v w = some p → (p = .eq ↔ eq v w = true))
    (ho : orderItems? xs ys = some o) (hxs : ∀ v ∈ xs, v.Exact) :
    o = .eq ↔ eqItems xs ys = true := by
  induction xs generalizing ys with
  | nil =>
    cases ys with
    | nil =>
      cases ho
      exact iff_of_true rfl rfl
    | cons y ys =>
      cases ho
      exact iff_of_false nofun nofun
  | cons x xs ih =>
    cases ys with
    | nil =>
      cases ho
      exact iff_of_false nofun nofun
    | cons y ys =>
      obtain ⟨hx, hxs⟩ := List.forall_mem_cons.mp hxs
      rw [orderItems?] at ho
      rw [eqItems, sameNaN_of_exact hx, Bool.false_or, Bool.and_eq_true]
      by_cases hxy : eq x y = true
      · rw [if_pos hxy] at ho
        rw [and_iff_right hxy]
        exact ih (fun v hv w hw => h v (.tail x hv) w (.tail y hw)) ho hxs
      · rw [if_neg hxy] at ho
        -- the items differ, so neither side holds
        refine (h x (List.mem_cons_self ..) y (List.mem_cons_self ..) o ho).trans ?_
        exact iff_of_false hxy fun hall => hxy hall.1

/-- Where two values have an ordering, it is equality exactly if they are equal. -/
theorem order?_eq_iff (ha : a.Exact) (hb : b.Exact) {o : Ordering} (h : order? a b = some o) :
    o = .eq ↔ eq a b = true := by
  induction ha generalizing b o with
  | @list xs hxs ih =>
    cases hb with
    | @list ys hys =>
      exact orderItems?_eq_iff (fun v hv w hw p hp => ih v hv (hys w hw) hp) h hxs
    | _ => cases h
  | null => exact (orderRanks?_eq_iff h).trans (eq_iff .null hb).symm
  | bool t => exact (orderRanks?_eq_iff h).trans (eq_iff (.bool t) hb).symm
  | int n => exact (orderRanks?_eq_iff h).trans (eq_iff (.int n) hb).symm
  | text t => exact (orderRanks?_eq_iff h).trans (eq_iff (.text t) hb).symm
  | map hkeys hxs _ => cases h

/-! ### Values that are alike -/

theorem Alike.eq_left (h : Alike a b) (ha : a.Exact) (hb : b.Exact) (hc : c.Exact) :
    eq a c = eq b c := by
  rw [Bool.eq_iff_iff, eq_iff ha hc, eq_iff hb hc]
  exact ⟨h.symm.trans, h.trans⟩

theorem orderItems?_congr {xs ys zs : List Value} (hlength : xs.length = ys.length)
    (h : ∀ (i : Nat) v w, xs[i]? = some v → ys[i]? = some w →
      ∀ u ∈ zs, eq v u = eq w u ∧ order? v u = order? w u) :
    orderItems? xs zs = orderItems? ys zs := by
  induction xs generalizing ys zs with
  | nil =>
    obtain rfl : ys = [] := List.length_eq_zero_iff.mp hlength.symm
    rfl
  | cons x xs ih =>
    cases ys with
    | nil => cases hlength
    | cons y ys =>
      cases zs with
      | nil => rfl
      | cons z zs =>
        obtain ⟨heq, horder⟩ := h 0 x y rfl rfl z (List.mem_cons_self ..)
        have htail : orderItems? xs zs = orderItems? ys zs :=
          ih (Nat.succ.inj hlength) fun i v w hv hw u hu =>
            h (i + 1) v w hv hw u (List.mem_cons_of_mem _ hu)
        rw [orderItems?, orderItems?, heq, htail, horder]

/-- Values that are alike compare with another one in the same way. -/
theorem Alike.order?_eq (h : Alike a b) (ha : a.Exact) (hb : b.Exact) (hc : c.Exact) :
    order? a c = order? b c := by
  induction h generalizing c with
  | null => rfl
  | text t => rfl
  | map => rfl
  | @number a b m hm hn =>
    have hkind {v : Value} (hv : v.integer? = some m) : v.kind ≠ .list := by
      cases v with
      | list => cases hv
      | _ => exact nofun
    rw [(order?_of_not_list (hkind hm)).1, (order?_of_not_list (hkind hn)).1]
    unfold orderRanks?
    rw [(Alike.number hm hn).rank?_eq]
  | @list xs ys hlength hitems ih =>
    cases hc with
    | @list zs hzs =>
      cases ha with
      | list hxs =>
        cases hb with
        | list hys =>
          refine orderItems?_congr hlength fun i v w hv hw u hu => ?_
          have hvExact := hxs v (List.mem_of_getElem? hv)
          have hwExact := hys w (List.mem_of_getElem? hw)
          exact ⟨(hitems i v w hv hw).eq_left hvExact hwExact (hzs u hu),
            ih i v w hv hw hvExact hwExact (hzs u hu)⟩
    | _ => rfl

/-- It does not matter either which of them another value is compared with. -/
theorem Alike.order?_eq_right (h : Alike a b) (ha : a.Exact) (hb : b.Exact) (hc : c.Exact) :
    order? c a = order? c b := by
  rw [order?_swap ha hc, order?_swap hb hc, h.order?_eq ha hb hc]

/-! ### Transitivity -/

theorem orderRanks?_trans (hab : orderRanks? a b = some .lt) (hbc : orderRanks? b c = some .lt) :
    orderRanks? a c = some .lt := by
  unfold orderRanks? at hab hbc ⊢
  obtain ⟨x, hx, hab⟩ := Option.bind_eq_some_iff.mp hab
  obtain ⟨y, hy, hxy⟩ := Option.bind_eq_some_iff.mp hab
  obtain ⟨y', hy', hbc⟩ := Option.bind_eq_some_iff.mp hbc
  obtain ⟨z, hz, hyz⟩ := Option.bind_eq_some_iff.mp hbc
  obtain rfl := Option.some.inj (hy.symm.trans hy')
  rw [hx, hz]
  exact Rank.order?_trans hxy hyz

/-- What is ordered by rank is no list. -/
theorem not_list_of_orderRanks? {o : Ordering} (h : orderRanks? a b = some o) :
    a.kind ≠ .list ∧ b.kind ≠ .list := by
  have hkind {v : Value} {x : Rank} (hv : v.rank? = some x) : v.kind ≠ .list := by
    cases v with
    | list => cases hv
    | _ => exact nofun
  obtain ⟨x, hx, h⟩ := Option.bind_eq_some_iff.mp h
  obtain ⟨y, hy, -⟩ := Option.bind_eq_some_iff.mp h
  exact ⟨hkind hx, hkind hy⟩

theorem orderItems?_trans {xs ys zs : List Value} (hxs : ∀ v ∈ xs, v.Exact)
    (hys : ∀ v ∈ ys, v.Exact) (hzs : ∀ v ∈ zs, v.Exact)
    (h : ∀ v ∈ xs, ∀ w ∈ ys, ∀ u ∈ zs,
      order? v w = some .lt → order? w u = some .lt → order? v u = some .lt)
    (hab : orderItems? xs ys = some .lt) (hbc : orderItems? ys zs = some .lt) :
    orderItems? xs zs = some .lt := by
  induction xs generalizing ys zs with
  | nil =>
    cases ys with
    | nil => cases hab
    | cons y ys =>
      cases zs with
      | nil => cases hbc
      | cons z zs => rfl
  | cons x xs ih =>
    cases ys with
    | nil => cases hab
    | cons y ys =>
      cases zs with
      | nil => cases hbc
      | cons z zs =>
        obtain ⟨hx, hxs⟩ := List.forall_mem_cons.mp hxs
        obtain ⟨hy, hys⟩ := List.forall_mem_cons.mp hys
        obtain ⟨hz, hzs⟩ := List.forall_mem_cons.mp hzs
        rw [orderItems?] at hab hbc ⊢
        -- the first items of the three lists: which of them are equal
        by_cases hxy : eq x y = true
        · have halike : Alike x y := (eq_iff hx hy).mp hxy
          rw [if_pos hxy] at hab
          rw [halike.eq_left hx hy hz, halike.order?_eq hx hy hz]
          by_cases hyz : eq y z = true
          · rw [if_pos hyz] at hbc ⊢
            exact ih hxs hys hzs (fun v hv w hw u hu => h v (.tail x hv) w (.tail y hw) u (.tail z hu))
              hab hbc
          · rw [if_neg hyz] at hbc ⊢
            exact hbc
        · rw [if_neg hxy] at hab
          have hlt : order? x z = some .lt := by
            by_cases hyz : eq y z = true
            · rw [← ((eq_iff hy hz).mp hyz).order?_eq_right hy hz hx]
              exact hab
            · rw [if_neg hyz] at hbc
              exact h x (List.mem_cons_self ..) y (List.mem_cons_self ..) z (List.mem_cons_self ..)
                hab hbc
          have hxz : ¬eq x z = true := fun heq => nomatch (order?_eq_iff hx hz hlt).mpr heq
          rw [if_neg hxz]
          exact hlt

theorem order?_trans_of_not_list (h : a.kind ≠ .list) (hab : order? a b = some .lt)
    (hbc : order? b c = some .lt) : order? a c = some .lt := by
  rw [(order?_of_not_list h).1] at hab ⊢
  rw [(order?_of_not_list (not_list_of_orderRanks? hab).2).1] at hbc
  exact orderRanks?_trans hab hbc

/-- What is less than something less is less. -/
theorem order?_trans (ha : a.Exact) (hb : b.Exact) (hc : c.Exact) (hab : order? a b = some .lt)
    (hbc : order? b c = some .lt) : order? a c = some .lt := by
  induction ha generalizing b c with
  | @list xs hxs ih =>
    cases hb with
    | @list ys hys =>
      cases hc with
      | @list zs hzs =>
        exact orderItems?_trans hxs hys hzs (fun v hv w hw u hu hvw hwu =>
          ih v hv (hys w hw) (hzs u hu) hvw hwu) hab hbc
      | _ => cases hbc
    | _ => cases hab
  | _ => exact order?_trans_of_not_list nofun hab hbc

end Value

end StaticReflection
