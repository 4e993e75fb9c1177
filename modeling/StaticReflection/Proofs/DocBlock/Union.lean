import StaticReflection.Proofs.Text.Blank
import StaticReflection.DocBlock.Type

/-!
# Unions, written and split

A member of a union (`DocType.IsToken`) has no blank and no bar outside its brackets, and closes all
brackets. Members written one after the other with bars between them, blanks around the bars, and
other text behind, are split into these members again. What is split off any value at all, also one
whose brackets are not closed, is a list of such members but for the brackets of the last one
(`DocType.AreMembers`), and so it is split the same way when it is put together with bars.

> `DocType.split_written`: both of these.
-/

namespace StaticReflection.DocType

open Blank

/-! ## Characters outside brackets -/

/-- Whether no character of some sort stands outside brackets, given the number of open ones. -/
def avoids (p : Char → Bool) (depth : Nat) : List Char → Bool
  | [] => true
  | c :: rest => (decide (0 < depth) || !p c) && avoids p (depthAfter depth c) rest

/-- Whether a character is a bar. -/
def isBar (c : Char) : Bool := c == '|'

/-- The number of brackets that are open after some characters. -/
def openAfter (depth : Nat) (cs : List Char) : Nat := cs.foldl depthAfter depth

/-- Whether the last of some characters is a bar, given whether one stands just before them. -/
def endsInBar (afterBar : Bool) (cs : List Char) : Bool := cs.foldl (fun _ c => isBar c) afterBar

theorem avoids_append {p : Char → Bool} {depth : Nat} {xs ys : List Char} :
    avoids p depth (xs ++ ys) = true
      ↔ avoids p depth xs = true ∧ avoids p (openAfter depth xs) ys = true := by
  induction xs generalizing depth with
  | nil => exact (and_iff_right rfl).symm
  | cons c rest ih =>
    rw [List.cons_append, avoids, avoids, Bool.and_eq_true, Bool.and_eq_true, ih, and_assoc]
    rfl

theorem openAfter_append (depth : Nat) (xs ys : List Char) :
    openAfter depth (xs ++ ys) = openAfter (openAfter depth xs) ys := List.foldl_append

/-- The first character outside brackets. -/
theorem avoids_cons {p : Char → Bool} {depth : Nat} {c : Char} {rest : List Char}
    (h : avoids p depth (c :: rest) = true) :
    (depth = 0 → p c = false) ∧ avoids p (depthAfter depth c) rest = true := by
  rw [avoids, Bool.and_eq_true, Bool.or_eq_true, decide_eq_true_eq, Bool.not_eq_true'] at h
  exact ⟨fun hzero => h.1.resolve_left (by omega), h.2⟩

theorem depthAfter_blank {c : Char} (h : isBlank c = true) (depth : Nat) :
    depthAfter depth c = depth := by
  have hne {d : Char} (hd : isBlank d = false) : (c == d) = false :=
    beq_eq_false_iff_ne.mpr fun he => by rw [he, hd] at h; cases h
  unfold depthAfter opens closes
  rw [hne (by decide : isBlank '<' = false), hne (by decide : isBlank '(' = false),
    hne (by decide : isBlank '\x7b' = false), hne (by decide : isBlank '>' = false),
    hne (by decide : isBlank ')' = false), hne (by decide : isBlank '\x7d' = false)]
  rfl

/-- Characters without blanks outside brackets do not begin with one. -/
theorem head_of_gapless {cs : List Char} (h : avoids isBlank 0 cs = true) :
    ∀ c, cs.head? = some c → isBlank c = false := by
  cases cs with
  | nil => exact fun c hc => by cases hc
  | cons d rest =>
    rintro c hc
    cases hc
    exact (avoids_cons h).1 rfl

/-- Nor do they end with one if they close their brackets. -/
theorem last_of_closed {cs : List Char} (h : avoids isBlank 0 cs = true)
    (hclosed : openAfter 0 cs = 0) : ∀ c, cs.getLast? = some c → isBlank c = false := by
  intro c hc
  obtain ⟨start, rfl⟩ := List.getLast?_eq_some_iff.mp hc
  obtain ⟨-, hlast⟩ := avoids_append.mp h
  rw [openAfter_append] at hclosed
  cases hblank : isBlank c with
  | false => rfl
  | true =>
    have hsame : openAfter (openAfter 0 start) [c] = openAfter 0 start :=
      depthAfter_blank hblank _
    rw [← hblank]
    exact (avoids_cons hlast).1 (hsame.symm.trans hclosed)

theorem endsInBar_of_closed {cs : List Char} {depth : Nat} {afterBar : Bool}
    (h : avoids isBar depth cs = true) (hclosed : openAfter depth cs = 0)
    (hbar : afterBar = true → 0 < depth) : endsInBar afterBar cs = false := by
  induction cs generalizing depth afterBar with
  | nil =>
    have hzero : depth = 0 := hclosed
    cases afterBar with
    | false => rfl
    | true => exact absurd (hbar rfl) (by omega)
  | cons c rest ih =>
    obtain ⟨hc, hrest⟩ := avoids_cons h
    refine ih hrest hclosed fun hcbar => ?_
    obtain rfl : c = '|' := beq_iff_eq.mp hcbar
    rcases Nat.eq_zero_or_pos depth with hzero | hpos
    · cases hc hzero
    · exact hpos

/-! ## The first word of a value -/

/-- Characters without blanks outside brackets are part of the word. -/
theorem wordFrom_append {depth : Nat} {cs : List Char} (h : avoids isBlank depth cs = true)
    (afterBar : Bool) (rest : List Char) :
    wordFrom depth afterBar (cs ++ rest)
      = cs ++ wordFrom (openAfter depth cs) (endsInBar afterBar cs) rest := by
  induction cs generalizing depth afterBar with
  | nil => rfl
  | cons c cs ih =>
    obtain ⟨hc, hcs⟩ := avoids_cons h
    have hkept : ¬(isBlank c && decide (depth = 0)) = true := by
      rw [Bool.and_eq_true, decide_eq_true_eq]
      rintro ⟨hblank, hzero⟩
      rw [hc hzero] at hblank
      cases hblank
    rw [List.cons_append, wordFrom, if_neg hkept, ih hcs]
    rfl

/-- Blanks before a bar are left out. -/
theorem wordFrom_beforeBar {ws : List Char} (h : ∀ c ∈ ws, isBlank c = true) (afterBar : Bool)
    (rest : List Char) :
    wordFrom 0 afterBar (ws ++ '|' :: rest) = '|' :: wordFrom 0 true rest := by
  induction ws with
  | nil => rfl
  | cons c ws ih =>
    obtain ⟨hc, hws⟩ := List.forall_mem_cons.mp h
    have hbar : (dropStart (ws ++ '|' :: rest)).head? = some '|' := by
      rw [dropStart_blanks hws]
      rfl
    rw [List.cons_append, wordFrom, if_pos (by rw [hc]; rfl), hbar]
    simp only [beq_self_eq_true, Bool.or_true, if_true]
    exact ih hws

/-- Blanks after a bar are left out. -/
theorem wordFrom_afterBar {ws : List Char} (h : ∀ c ∈ ws, isBlank c = true) (rest : List Char) :
    wordFrom 0 true (ws ++ rest) = wordFrom 0 true rest := by
  induction ws with
  | nil => rfl
  | cons c ws ih =>
    obtain ⟨hc, hws⟩ := List.forall_mem_cons.mp h
    rw [List.cons_append, wordFrom, if_pos (by rw [hc]; rfl)]
    exact ih hws

/-- At other blanks the word ends. -/
theorem wordFrom_gap {ws rest : List Char} (hne : ws ≠ []) (h : ∀ c ∈ ws, isBlank c = true)
    (hrest : (dropStart rest).head? ≠ some '|') : wordFrom 0 false (ws ++ rest) = [] := by
  obtain ⟨c, ws, rfl⟩ := List.exists_cons_of_ne_nil hne
  obtain ⟨hc, hws⟩ := List.forall_mem_cons.mp h
  rw [List.cons_append, wordFrom, if_pos (by rw [hc]; rfl), dropStart_blanks hws,
    beq_eq_false_iff_ne.mpr hrest]
  rfl

/-- A word has no blanks outside brackets. -/
theorem avoids_wordFrom (depth : Nat) (afterBar : Bool) (cs : List Char) :
    avoids isBlank depth (wordFrom depth afterBar cs) = true := by
  induction cs generalizing depth afterBar with
  | nil => rfl
  | cons c rest ih =>
    rw [wordFrom]
    split
    next hgap =>
      rw [Bool.and_eq_true, decide_eq_true_eq] at hgap
      obtain rfl := hgap.2
      dsimp only
      split
      · exact ih 0 afterBar
      · rfl
    next hkept =>
      rw [avoids, ih, Bool.and_true]
      rw [Bool.and_eq_true, decide_eq_true_eq] at hkept
      rcases Nat.eq_zero_or_pos depth with hzero | hpos
      · rw [Bool.eq_false_iff.mpr fun hblank => hkept ⟨hblank, hzero⟩]
        exact Bool.or_true _
      · rw [decide_eq_true hpos]
        rfl

/-- A word ends with a blank only if its value does. -/
theorem last_wordFrom {cs : List Char} (h : ∀ c, cs.getLast? = some c → isBlank c = false)
    (depth : Nat) (afterBar : Bool) :
    ∀ c, (wordFrom depth afterBar cs).getLast? = some c → isBlank c = false := by
  induction cs generalizing depth afterBar with
  | nil => exact fun c hc => by cases hc
  | cons d rest ih =>
    have hrest : ∀ c, rest.getLast? = some c → isBlank c = false := fun c hc =>
      h c (by rw [List.getLast?_cons, hc]; rfl)
    rw [wordFrom]
    split
    · dsimp only
      split
      · exact ih hrest 0 afterBar
      · exact fun c hc => by cases hc
    next hkept =>
      intro c hc
      rw [List.getLast?_cons] at hc
      cases hword : wordFrom (depthAfter depth d) (d == '|') rest with
      | cons e more =>
        have hlast := ih hrest (depthAfter depth d) (d == '|')
        rw [hword] at hc hlast
        rw [List.getLast?_cons] at hc hlast
        exact hlast c hc
      | nil =>
        rw [hword] at hc
        obtain rfl : d = c := Option.some.inj hc
        refine Bool.eq_false_iff.mpr fun hblank => ?_
        -- a blank that is kept stands in brackets, where the word goes on
        have hpos : depth ≠ 0 := fun hzero => hkept (by rw [hblank, hzero]; rfl)
        rw [depthAfter_blank hblank] at hword
        cases rest with
        | nil =>
          rw [h d rfl] at hblank
          cases hblank
        | cons e more =>
          rw [wordFrom, if_neg (by simp [hpos])] at hword
          cases hword

/-! ## Members of a union -/

/-- Members of a union as they follow each other. Blanks and bars stand only in brackets, and all
brackets are closed but those of the last member, which does not end with a blank. -/
inductive AreMembers : List (List Char) → Prop
  | nil : AreMembers []
  | last {t : List Char} (gapless : avoids isBlank 0 t = true) (barless : avoids isBar 0 t = true)
    (trimmed : ∀ c, t.getLast? = some c → isBlank c = false) : AreMembers [t]
  | cons {t : List Char} {ts : List (List Char)} (gapless : avoids isBlank 0 t = true)
    (barless : avoids isBar 0 t = true) (closed : openAfter 0 t = 0) (rest : AreMembers ts) :
    AreMembers (t :: ts)

/-- Members with bars between them. -/
def joined (ts : List (List Char)) : List Char := List.intercalate ['|'] ts

theorem joined_singleton (t : List Char) : joined [t] = t := List.intercalate_singleton

theorem joined_cons (t u : List Char) (ts : List (List Char)) :
    joined (t :: u :: ts) = t ++ '|' :: joined (u :: ts) := by
  unfold joined
  rw [List.intercalate_cons_cons, List.append_assoc]
  rfl

namespace AreMembers

variable {ts : List (List Char)}

theorem trimmed_of_mem (h : AreMembers ts) : ∀ t ∈ ts, IsTrimmed t := by
  induction h with
  | nil => exact fun t ht => by cases ht
  | last gapless _ trimmed =>
    exact List.forall_mem_singleton.mpr ⟨head_of_gapless gapless, trimmed⟩
  | cons gapless _ closed _ ih =>
    exact List.forall_mem_cons.mpr
      ⟨⟨head_of_gapless gapless, last_of_closed gapless closed⟩, ih⟩

/-- Empty members can be left out. -/
theorem filter (h : AreMembers ts) (p : List Char → Bool) : AreMembers (ts.filter p) := by
  induction h with
  | nil => exact .nil
  | @last t gapless barless trimmed =>
    rw [List.filter_cons]
    split
    · exact .last gapless barless trimmed
    · exact .nil
  | @cons t ts gapless barless closed _ ih =>
    rw [List.filter_cons]
    split
    · exact .cons gapless barless closed ih
    · exact ih

/-- Members with bars between them have no blanks outside brackets. -/
theorem gapless_joined (h : AreMembers ts) : avoids isBlank 0 (joined ts) = true := by
  induction h with
  | nil => rfl
  | last gapless => rw [joined_singleton]; exact gapless
  | @cons t ts gapless _ closed _ ih =>
    cases ts with
    | nil => rw [joined_singleton]; exact gapless
    | cons u ts =>
      rw [joined_cons, avoids_append, closed]
      exact ⟨gapless, ih⟩

theorem last_joined (h : AreMembers ts) :
    ∀ c, (joined ts).getLast? = some c → isBlank c = false := by
  induction h with
  | nil => exact fun c hc => by cases hc
  | last _ _ trimmed => rw [joined_singleton]; exact trimmed
  | @cons t ts gapless _ closed _ ih =>
    cases ts with
    | nil => rw [joined_singleton]; exact last_of_closed gapless closed
    | cons u ts =>
      intro c hc
      rw [joined_cons, List.getLast?_append, List.getLast?_cons, Option.some_or] at hc
      cases hlast : (joined (u :: ts)).getLast? with
      | some d =>
        rw [hlast] at hc
        cases hc
        exact ih _ hlast
      | none =>
        rw [hlast] at hc
        cases hc
        decide

theorem isTrimmed_joined (h : AreMembers ts) : IsTrimmed (joined ts) :=
  ⟨head_of_gapless h.gapless_joined, h.last_joined⟩

end AreMembers

/-! ## Pieces between bars -/

/-- Characters without bars outside brackets go into one piece. -/
theorem piecesFrom_append {depth : Nat} {piece cs : List Char} (h : avoids isBar depth cs = true)
    (rest : List Char) :
    piecesFrom depth piece (cs ++ rest)
      = piecesFrom (openAfter depth cs) (cs.reverse ++ piece) rest := by
  induction cs generalizing depth piece with
  | nil => rfl
  | cons c cs ih =>
    obtain ⟨hc, hcs⟩ := avoids_cons h
    have hkept : ¬(c == '|' && decide (depth = 0)) = true := by
      rw [Bool.and_eq_true, decide_eq_true_eq]
      rintro ⟨hbar, hzero⟩
      rw [isBar, hbar] at hc
      cases hc hzero
    rw [List.cons_append, piecesFrom, if_neg hkept, ih hcs, List.reverse_cons, List.append_assoc]
    rfl

/-- The pieces of members with bars between them are the members. -/
theorem piecesFrom_joined {ts : List (List Char)} (h : AreMembers ts) (hne : ts ≠ []) :
    piecesFrom 0 [] (joined ts) = ts := by
  have hone {t : List Char} (barless : avoids isBar 0 t = true) : piecesFrom 0 [] t = [t] := by
    have happend : piecesFrom 0 [] (t ++ []) = piecesFrom (openAfter 0 t) (t.reverse ++ []) [] :=
      piecesFrom_append barless []
    rw [List.append_nil, List.append_nil, piecesFrom, List.reverse_reverse] at happend
    exact happend
  induction h with
  | nil => exact absurd rfl hne
  | last _ barless => rw [joined_singleton, hone barless]
  | @cons t ts _ barless closed _ ih =>
    cases ts with
    | nil => rw [joined_singleton, hone barless]
    | cons u ts =>
      rw [joined_cons, piecesFrom_append barless, closed, piecesFrom, if_pos (by rfl),
        List.append_nil, List.reverse_reverse, ih (List.cons_ne_nil u ts)]

/-- The pieces of a text without blanks outside brackets are members of a union. -/
theorem areMembers_piecesFrom {depth : Nat} {piece cs : List Char}
    (hgap : avoids isBlank 0 (piece.reverse ++ cs) = true)
    (hbar : avoids isBar 0 piece.reverse = true) (hdepth : openAfter 0 piece.reverse = depth)
    (hlast : ∀ c, (piece.reverse ++ cs).getLast? = some c → isBlank c = false) :
    AreMembers (piecesFrom depth piece cs) := by
  induction cs generalizing depth piece with
  | nil =>
    rw [List.append_nil] at hgap hlast
    exact .last hgap hbar hlast
  | cons c rest ih =>
    obtain ⟨hpiece, hcs⟩ := avoids_append.mp hgap
    rw [hdepth] at hcs
    rw [piecesFrom]
    split
    next hparts =>
      rw [Bool.and_eq_true, beq_iff_eq, decide_eq_true_eq] at hparts
      obtain ⟨rfl, rfl⟩ := hparts
      refine .cons hpiece hbar hdepth (ih (avoids_cons hcs).2 rfl rfl fun c hc => hlast c ?_)
      rw [List.getLast?_append, List.getLast?_cons, show rest.getLast? = some c from hc]
      rfl
    next hkept =>
      have hnext : (c :: piece).reverse ++ rest = piece.reverse ++ c :: rest := by
        rw [List.reverse_cons, List.append_assoc]
        rfl
      refine ih (hnext ▸ hgap) ?_ ?_ (hnext ▸ hlast)
      · rw [List.reverse_cons, avoids_append, hdepth, avoids]
        refine ⟨hbar, ?_⟩
        rw [Bool.and_eq_true, decide_eq_true_eq] at hkept
        rcases Nat.eq_zero_or_pos depth with hzero | hpos
        · have hnoBar : isBar c = false := Bool.eq_false_iff.mpr fun hc => hkept ⟨hc, hzero⟩
          rw [hnoBar, Bool.not_false, Bool.or_true]
          rfl
        · rw [decide_eq_true hpos]
          rfl
      · rw [List.reverse_cons, openAfter_append, hdepth]
        rfl

/-- All of a text without blanks outside brackets. -/
theorem areMembers_pieces {cs : List Char} (hgap : avoids isBlank 0 cs = true)
    (hlast : ∀ c, cs.getLast? = some c → isBlank c = false) : AreMembers (piecesFrom 0 [] cs) :=
  areMembers_piecesFrom hgap rfl rfl hlast

/-! ## Splitting -/

/-- Splitting leaves out the empty pieces. -/
theorem splitUnion_eq {cs : List Char} (h : AreMembers (piecesFrom 0 [] cs)) :
    splitUnion cs = ((piecesFrom 0 [] cs).filter (!·.isEmpty)).map String.ofList := by
  unfold splitUnion
  have hstrip : (piecesFrom 0 [] cs).map (fun p => strip (String.ofList p))
      = (piecesFrom 0 [] cs).map String.ofList :=
    List.map_congr_left fun p hp => strip_of_isTrimmed (by
      rw [String.toList_ofList]
      exact h.trimmed_of_mem p hp)
  rw [hstrip, List.filter_map]
  congr 2
  funext p
  have hempty : (String.ofList p).isEmpty = p.isEmpty := by
    rw [Bool.eq_iff_iff, String.isEmpty_iff, List.isEmpty_iff, ← String.toList_inj,
      String.toList_ofList]
    rfl
  exact congrArg (!·) hempty

/-- Members that are not empty come back when they are put together with bars. -/
theorem splitUnion_joined {ts : List (List Char)} (h : AreMembers ts) (hne : ∀ t ∈ ts, t ≠ []) :
    splitUnion (joined ts) = ts.map String.ofList := by
  cases ts with
  | nil => rfl
  | cons t ts =>
    have hpieces := piecesFrom_joined h (List.cons_ne_nil t ts)
    rw [splitUnion_eq (hpieces.symm ▸ h), hpieces, List.filter_eq_self.mpr]
    intro u hu
    simpa using hne u hu

/-- Members with bars between them are one word. -/
theorem expression_joined {ts : List (List Char)} (h : AreMembers ts) :
    expression (String.ofList (joined ts)) = joined ts := by
  have hstrip : strip (String.ofList (joined ts)) = String.ofList (joined ts) :=
    strip_of_isTrimmed (by
      rw [String.toList_ofList]
      exact h.isTrimmed_joined)
  have hword := wordFrom_append h.gapless_joined false []
  rw [List.append_nil, wordFrom, List.append_nil] at hword
  rw [expression, hstrip, String.toList_ofList, hword]

/-! ## Unions as they are written -/

/-- A member of a union as it is written. -/
structure IsToken (s : String) : Prop where
  nonempty : s.toList ≠ []
  gapless : avoids isBlank 0 s.toList = true
  barless : avoids isBar 0 s.toList = true
  closed : openAfter 0 s.toList = 0

/-- A further member of a union, with the bar before it and the blanks around the bar. -/
structure BarredToken where
  before : String
  after : String
  token : String

/-- A union as it is written: blanks, its members, and blanks and other text behind it. -/
structure WrittenUnion where
  lead : String
  first : String
  more : List BarredToken
  gap : String
  rest : String

namespace BarredToken

/-- The bar and the member. -/
def text (t : BarredToken) : String := t.before ++ "|" ++ t.after ++ t.token

/-- There are only blanks around the bar. -/
structure IsWellFormed (t : BarredToken) : Prop where
  before : ∀ c ∈ t.before.toList, isBlank c = true
  after : ∀ c ∈ t.after.toList, isBlank c = true
  token : IsToken t.token

theorem toList_text (t : BarredToken) :
    t.text.toList = t.before.toList ++ '|' :: (t.after.toList ++ t.token.toList) := by
  rw [text, String.toList_append, String.toList_append, String.toList_append, List.append_assoc,
    List.append_assoc]
  rfl

end BarredToken

namespace WrittenUnion

/-- The members of the union. -/
def tokens (u : WrittenUnion) : List String := u.first :: u.more.map (·.token)

/-- The union and the text behind it. -/
def text (u : WrittenUnion) : String :=
  u.lead ++ u.first ++ String.join (u.more.map (·.text)) ++ u.gap ++ u.rest

/-- There are only blanks before the union. Text behind it stands after blanks, and begins with
no blank and no bar. -/
structure IsWellFormed (u : WrittenUnion) : Prop where
  lead : ∀ c ∈ u.lead.toList, isBlank c = true
  first : IsToken u.first
  more : ∀ t ∈ u.more, t.IsWellFormed
  gap : ∀ c ∈ u.gap.toList, isBlank c = true
  gap_of_rest : u.rest ≠ "" → u.gap ≠ ""
  rest : ∀ c, u.rest.toList.head? = some c → isBlank c = false ∧ isBar c = false

end WrittenUnion

/-- A member does not end with a bar, also if it stands after one. -/
theorem IsToken.endsInBar_eq {s : String} (h : IsToken s) (afterBar : Bool) :
    endsInBar afterBar s.toList = false := by
  obtain ⟨c, cs, hcs⟩ := List.exists_cons_of_ne_nil h.nonempty
  have hsame : endsInBar afterBar s.toList = endsInBar false s.toList := by
    rw [hcs]
    rfl
  rw [hsame]
  exact endsInBar_of_closed h.barless h.closed fun hbar => by cases hbar

/-- What ends with a member does not end with a blank. -/
theorem IsToken.last_append {s : String} (h : IsToken s) (cs : List Char) :
    ∀ c, (cs ++ s.toList).getLast? = some c → isBlank c = false := by
  intro c hc
  cases hlast : s.toList.getLast? with
  | none => exact absurd (List.getLast?_eq_none_iff.mp hlast) h.nonempty
  | some d =>
    rw [List.getLast?_append, hlast, Option.some_or] at hc
    cases hc
    exact last_of_closed h.gapless h.closed _ hlast

theorem areMembers_tokens {ss : List String} (h : ∀ s ∈ ss, IsToken s) :
    AreMembers (ss.map String.toList) := by
  induction ss with
  | nil => exact .nil
  | cons s ss ih =>
    obtain ⟨hs, hss⟩ := List.forall_mem_cons.mp h
    exact .cons hs.gapless hs.barless hs.closed (ih hss)

/-- The first word of members as they are written, before text that adds nothing to it. -/
theorem wordFrom_written {first : String} {more : List BarredToken} {behind : List Char}
    (hfirst : IsToken first) (hmore : ∀ t ∈ more, t.IsWellFormed)
    (hbehind : wordFrom 0 false behind = []) (afterBar : Bool) :
    wordFrom 0 afterBar (first.toList ++ (more.flatMap (·.text.toList) ++ behind))
      = joined ((first :: more.map (·.token)).map String.toList) := by
  induction more generalizing first afterBar with
  | nil =>
    rw [wordFrom_append hfirst.gapless, hfirst.closed, hfirst.endsInBar_eq, List.flatMap_nil,
      List.nil_append, hbehind, List.append_nil]
    exact (joined_singleton _).symm
  | cons t more ih =>
    obtain ⟨ht, hmore⟩ := List.forall_mem_cons.mp hmore
    rw [wordFrom_append hfirst.gapless, hfirst.closed, hfirst.endsInBar_eq, List.flatMap_cons,
      t.toList_text, List.append_assoc, List.append_assoc, List.cons_append, List.append_assoc,
      wordFrom_beforeBar ht.before, wordFrom_afterBar ht.after, ih ht.token hmore true]
    exact (joined_cons _ _ _).symm

namespace WrittenUnion

variable {u : WrittenUnion}

theorem toList_text (u : WrittenUnion) :
    u.text.toList = u.lead.toList ++ ((u.first.toList ++ u.more.flatMap (·.text.toList))
      ++ (u.gap.toList ++ u.rest.toList)) := by
  have hjoin : (String.join (u.more.map (·.text))).toList = u.more.flatMap (·.text.toList) := by
    rw [String.toList_join, List.flatMap_map]
  rw [text, String.toList_append, String.toList_append, String.toList_append, String.toList_append,
    hjoin]
  simp only [List.append_assoc]

theorem IsWellFormed.tokens (h : u.IsWellFormed) : ∀ s ∈ u.tokens, IsToken s := by
  refine List.forall_mem_cons.mpr ⟨h.first, fun s hs => ?_⟩
  obtain ⟨t, ht, rfl⟩ := List.mem_map.mp hs
  exact (h.more t ht).token

/-- The members as they are written do not end with a blank. -/
theorem IsWellFormed.last (h : u.IsWellFormed) :
    ∀ c, (u.first.toList ++ u.more.flatMap (·.text.toList)).getLast? = some c
      → isBlank c = false := by
  rcases List.eq_nil_or_concat u.more with hnil | ⟨before, t, hmore⟩
  · rw [hnil, List.flatMap_nil, List.append_nil]
    exact h.first.last_append []
  · rw [List.concat_eq_append] at hmore
    have ht : t.IsWellFormed :=
      h.more t (hmore ▸ List.mem_append_right _ (List.mem_singleton_self t))
    have hlast : u.first.toList ++ u.more.flatMap (·.text.toList)
        = (u.first.toList ++ (before.flatMap (·.text.toList)
            ++ (t.before.toList ++ '|' :: t.after.toList))) ++ t.token.toList := by
      rw [hmore, List.flatMap_append, List.flatMap_cons, List.flatMap_nil, List.append_nil,
        t.toList_text]
      simp only [List.append_assoc, List.cons_append]
    rw [hlast]
    exact ht.token.last_append _

/-- Stripping leaves the members as they are written, and text that is no part of the type. -/
theorem IsWellFormed.strip_text (h : u.IsWellFormed) :
    ∃ behind, wordFrom 0 false behind = []
      ∧ (strip u.text).toList
          = u.first.toList ++ (u.more.flatMap (·.text.toList) ++ behind) := by
  have hstart : dropStart u.text.toList
      = (u.first.toList ++ u.more.flatMap (·.text.toList)) ++ (u.gap.toList ++ u.rest.toList) := by
    rw [toList_text, dropStart_blanks h.lead]
    refine dropStart_of_head fun c hc => head_of_gapless h.first.gapless c ?_
    obtain ⟨d, cs, hcs⟩ := List.exists_cons_of_ne_nil h.first.nonempty
    rw [hcs] at hc ⊢
    exact hc
  rw [toList_strip, hstart]
  cases hrest : u.rest.toList with
  | nil =>
    refine ⟨[], rfl, ?_⟩
    rw [List.append_nil, dropEnd_blanks h.gap, dropEnd_of_last h.last, List.append_nil]
  | cons c rest =>
    obtain ⟨hblank, hbar⟩ := h.rest c (by rw [hrest]; rfl)
    have hgap : u.gap ≠ "" := h.gap_of_rest fun hempty => by
      rw [hempty] at hrest
      cases hrest
    refine ⟨u.gap.toList ++ c :: dropEnd rest, ?_, ?_⟩
    · refine wordFrom_gap (fun hnil => hgap (String.toList_eq_nil_iff.mp hnil)) h.gap ?_
      rw [dropStart_of_head fun d hd => by cases hd; exact hblank]
      rintro hc
      cases hc
      cases hbar
    · rw [← List.append_assoc, dropEnd_append_cons _ hblank]
      simp only [List.append_assoc]

/-- The type expression of a union is its members with bars between them. -/
theorem IsWellFormed.expression_text (h : u.IsWellFormed) :
    expression u.text = joined (u.tokens.map String.toList) := by
  obtain ⟨behind, hbehind, hstrip⟩ := h.strip_text
  rw [expression, hstrip, wordFrom_written h.first h.more hbehind]
  rfl

/-- A union as it is written is split into its members. -/
theorem IsWellFormed.split_text (h : u.IsWellFormed) : split (some u.text) = u.tokens := by
  have hne : ∀ t ∈ u.tokens.map String.toList, t ≠ [] := by
    intro t ht
    obtain ⟨s, hs, rfl⟩ := List.mem_map.mp ht
    exact (h.tokens s hs).nonempty
  have hsame : String.ofList ∘ String.toList = id := funext fun _ => String.ofList_toList
  rw [split, h.expression_text, splitUnion_joined (areMembers_tokens h.tokens) hne, List.map_map,
    hsame, List.map_id]

end WrittenUnion

/-- What a value is split into comes back when it is put together with bars. -/
theorem split_intercalate (value : Option String) :
    split (some (String.intercalate "|" (split value))) = split value := by
  cases value with
  | none => decide
  | some v =>
    have hlast : ∀ c, (expression v).getLast? = some c → isBlank c = false := by
      rw [expression]
      exact last_wordFrom (isTrimmed_strip v).last 0 false
    have hgap : avoids isBlank 0 (expression v) = true := avoids_wordFrom 0 false _
    have hpieces := areMembers_pieces hgap hlast
    have hsplit : split (some v)
        = ((piecesFrom 0 [] (expression v)).filter (!·.isEmpty)).map String.ofList :=
      splitUnion_eq hpieces
    have hmembers := hpieces.filter (!·.isEmpty)
    have hne : ∀ t ∈ (piecesFrom 0 [] (expression v)).filter (!·.isEmpty), t ≠ [] := by
      intro t ht
      simpa using (List.mem_filter.mp ht).2
    rw [hsplit]
    generalize (piecesFrom 0 [] (expression v)).filter (!·.isEmpty) = ts at hmembers hne
    have htext : String.intercalate "|" (ts.map String.ofList) = String.ofList (joined ts) := by
      have hsame : String.toList ∘ String.ofList = id := funext fun _ => String.toList_ofList
      rw [← String.toList_inj, String.toList_intercalate, List.map_map, String.toList_ofList,
        hsame, List.map_id, String.toList_ofList]
      rfl
    rw [htext, split, expression_joined hmembers, splitUnion_joined hmembers hne]

/-- A union is split into the members it is written with, whatever blanks are around its bars and
whatever text stands behind it. The members of any value at all make a value with the same
members when bars are put between them. -/
theorem split_written :
    (∀ u : WrittenUnion, u.IsWellFormed → split (some u.text) = u.tokens)
      ∧ ∀ value : Option String,
          split (some (String.intercalate "|" (split value))) = split value :=
  ⟨fun _ h => h.split_text, split_intercalate⟩

/-- Blanks and bars inside brackets do not split, and those around a bar are left out. -/
theorem split_written_brackets :
    (⟨" ", "array<int, a|b>", [⟨" ", "\t", "?c"⟩, ⟨"", "", "d[]"⟩], " ", "$x | e"⟩
        : WrittenUnion).IsWellFormed
      ∧ split (some " array<int, a|b> |\t?c|d[] $x | e") = ["array<int, a|b>", "?c", "d[]"]
      ∧ split (some "f<g, | h i") = ["f<g, | h i"]
      ∧ split (some (String.intercalate "|" (split (some "f<g, | h i"))))
          = split (some "f<g, | h i") := by
  have harray : IsToken "array<int, a|b>" := ⟨by decide, by decide, by decide, by decide⟩
  have hclass : IsToken "?c" := ⟨by decide, by decide, by decide, by decide⟩
  have hlist : IsToken "d[]" := ⟨by decide, by decide, by decide, by decide⟩
  have hmore : ∀ t ∈ [⟨" ", "\t", "?c"⟩, ⟨"", "", "d[]"⟩], BarredToken.IsWellFormed t :=
    List.forall_mem_cons.mpr
      ⟨⟨List.all_eq_true.mp (by decide), List.all_eq_true.mp (by decide), hclass⟩,
        List.forall_mem_singleton.mpr
          ⟨List.all_eq_true.mp (by decide), List.all_eq_true.mp (by decide), hlist⟩⟩
  have hrest : ∀ c, "$x | e".toList.head? = some c → isBlank c = false ∧ isBar c = false := by
    intro c hc
    have hhead : "$x | e".toList.head? = some '$' := by decide
    obtain rfl : '$' = c := Option.some.inj (hhead.symm.trans hc)
    decide
  have hwritten : WrittenUnion.IsWellFormed
      ⟨" ", "array<int, a|b>", [⟨" ", "\t", "?c"⟩, ⟨"", "", "d[]"⟩], " ", "$x | e"⟩ :=
    ⟨List.all_eq_true.mp (by decide), harray, hmore, List.all_eq_true.mp (by decide), by decide,
      hrest⟩
  have hsplit := split_written.1 _ hwritten
  have htext : WrittenUnion.text
      ⟨" ", "array<int, a|b>", [⟨" ", "\t", "?c"⟩, ⟨"", "", "d[]"⟩], " ", "$x | e"⟩
      = " array<int, a|b> |\t?c|d[] $x | e" := by decide
  rw [htext] at hsplit
  exact ⟨hwritten, hsplit, by decide, split_written.2 _⟩

end StaticReflection.DocType
