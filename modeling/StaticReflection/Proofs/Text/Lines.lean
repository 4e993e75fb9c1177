import StaticReflection.Text.Lines
import StaticReflection.Proofs.Text.Blank

/-!
# Lines, written and read

Characters without breaks are read as one line if an end of a line stands behind them
(`Lines.splitFrom_line`). Trimmed lines that are put together with line feeds are trimmed again
unless the first one or the last one is empty (`Lines.isTrimmed_joined`).
-/

namespace StaticReflection.Lines

open Blank

/-- What a line ends with: a break, or a carriage return and a line feed. -/
inductive IsEnd : String → Prop
  | single {c : Char} (h : isBreak c = true) : IsEnd (String.singleton c)
  | pair : IsEnd "\r\n"

theorem isBlank_of_isBreak {c : Char} (h : isBreak c = true) : isBlank c = true := by
  unfold isBreak at h
  unfold isBlank isBlankCode
  simp only [Bool.or_eq_true, Bool.and_eq_true, decide_eq_true_eq, beq_iff_eq] at h ⊢
  omega

/-! ## Reading a line -/

theorem splitFrom_kept {c : Char} (h : isBreak c = false) (line rest : List Char) :
    splitFrom line (c :: rest) = splitFrom (c :: line) rest := by
  rw [splitFrom, if_neg (Bool.eq_false_iff.mp h)]
  intro _ hreturn _
  rw [hreturn] at h
  cases h

theorem splitFrom_append {cs : List Char} (h : ∀ c ∈ cs, isBreak c = false)
    (line rest : List Char) :
    splitFrom line (cs ++ rest) = splitFrom (cs.reverse ++ line) rest := by
  induction cs generalizing line with
  | nil => rfl
  | cons c cs ih =>
    obtain ⟨hc, hcs⟩ := List.forall_mem_cons.mp h
    rw [List.cons_append, splitFrom_kept hc, ih hcs, List.reverse_cons, List.append_assoc]
    rfl

/-- A line ends at its end, unless that is the first half of a carriage return and line feed. -/
theorem splitFrom_end {ending : String} (h : IsEnd ending) (line : List Char) {rest : List Char}
    (hrest : rest.head? ≠ some '\n') :
    splitFrom line (ending.toList ++ rest) = line.reverse :: splitFrom [] rest := by
  cases h with
  | pair =>
    show splitFrom line ('\r' :: '\n' :: rest) = _
    rw [splitFrom]
  | @single c h =>
    rw [String.toList_singleton, List.singleton_append, splitFrom, if_pos h]
    intro more _ hmore
    rw [hmore] at hrest
    exact hrest rfl

theorem splitFrom_line {cs rest : List Char} {ending : String} (h : ∀ c ∈ cs, isBreak c = false)
    (hend : IsEnd ending) (hrest : rest.head? ≠ some '\n') :
    splitFrom [] (cs ++ (ending.toList ++ rest)) = cs :: splitFrom [] rest := by
  rw [splitFrom_append h, splitFrom_end hend _ hrest, List.append_nil, List.reverse_reverse]

/-- The characters behind the last end make a line if there are any. -/
theorem splitFrom_last {cs : List Char} (h : ∀ c ∈ cs, isBreak c = false) :
    splitFrom [] cs = if cs.isEmpty then [] else [cs] := by
  have hall := splitFrom_append h [] []
  rw [List.append_nil, List.append_nil, splitFrom, List.reverse_reverse,
    List.isEmpty_reverse] at hall
  exact hall

/-! ## Lines put together -/

theorem joined_eq_append (l : String) (ls : List String) :
    ∃ rest, (String.intercalate "\n" (l :: ls)).toList = l.toList ++ rest := by
  by_cases hls : ls = []
  · subst hls
    exact ⟨[], by rw [String.intercalate_singleton, List.append_nil]⟩
  · rw [String.intercalate_cons_of_ne_nil hls, String.append_assoc, String.toList_append]
    exact ⟨_, rfl⟩

theorem joined_eq_append_last (ls : List String) (l : String) :
    ∃ before, (String.intercalate "\n" (ls ++ [l])).toList = before ++ l.toList := by
  by_cases hls : ls = []
  · subst hls
    exact ⟨[], by rw [List.nil_append, String.intercalate_singleton, List.nil_append]⟩
  · rw [String.intercalate_append_of_ne_nil hls (List.cons_ne_nil l []), String.toList_append,
      String.intercalate_singleton]
    exact ⟨_, rfl⟩

/-- Trimmed lines make a trimmed text if the first and the last of them are not empty. -/
theorem isTrimmed_joined {ls : List String} (h : ∀ l ∈ ls, IsTrimmed l.toList)
    (hfirst : ∀ l, ls.head? = some l → l ≠ "") (hlast : ∀ l, ls.getLast? = some l → l ≠ "") :
    IsTrimmed (String.intercalate "\n" ls).toList := by
  constructor
  · intro c hc
    cases ls with
    | nil => cases hc
    | cons l ls =>
      obtain ⟨rest, hrest⟩ := joined_eq_append l ls
      rw [hrest, List.head?_append] at hc
      cases hl : l.toList.head? with
      | none =>
        rw [List.head?_eq_none_iff, String.toList_eq_nil_iff] at hl
        exact absurd hl (hfirst l rfl)
      | some d =>
        rw [hl] at hc
        cases hc
        exact (h l (List.mem_cons_self ..)).head _ hl
  · intro c hc
    rcases List.eq_nil_or_concat ls with hnil | ⟨front, l, hls⟩
    · rw [hnil] at hc
      cases hc
    · rw [List.concat_eq_append] at hls
      subst hls
      obtain ⟨before, hbefore⟩ := joined_eq_append_last front l
      rw [hbefore, List.getLast?_append] at hc
      cases hl : l.toList.getLast? with
      | none =>
        rw [List.getLast?_eq_none_iff, String.toList_eq_nil_iff] at hl
        exact absurd hl (hlast l (List.getLast?_concat ..))
      | some d =>
        rw [hl] at hc
        cases hc
        exact (h l (List.mem_append_right _ (List.mem_singleton_self l))).last _ hl

end StaticReflection.Lines
