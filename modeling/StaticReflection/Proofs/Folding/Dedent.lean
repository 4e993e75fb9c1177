import Mathlib.Data.List.Forall2
import StaticReflection.Grammar.Cursor
import StaticReflection.Proofs.Folding.Plan

/-!
# Dedented texts

The lines of a heredoc or nowdoc lose as many characters as there are blanks before its closing
label. They are counted on the whole last line, from its start to the first character that is no
blank. A label may begin with a character that is a blank: an ideographic space is a character of
names. Such blanks are counted as well, and the lines lose characters of their own.

> `Folder.fold_dedented`: a text that was written with an indentation folds to its lines without as
> many characters as there are blanks at the start of the label, whatever the indentation was.

These are the lines themselves exactly if the label begins with no blank, or no line has characters.
-/

namespace StaticReflection

open Grammar

/-! ## Lines and their text -/

namespace Literal

/-- A line that no other follows. -/
theorem lines_last {l : List Char} (h : '\n' ∉ l) : lines l = [l] := by
  induction l with
  | nil => rfl
  | cons c l ih =>
    rw [List.mem_cons, not_or] at h
    obtain ⟨hc, hl⟩ := h
    rw [lines, if_neg (Ne.symm hc), ih hl]

/-- A line before others. -/
theorem lines_cons {l : List Char} (h : '\n' ∉ l) (rest : List Char) :
    lines (l ++ '\n' :: rest) = l :: lines rest := by
  induction l with
  | nil => rfl
  | cons c l ih =>
    rw [List.mem_cons, not_or] at h
    obtain ⟨hc, hl⟩ := h
    rw [List.cons_append, lines, if_neg (Ne.symm hc), ih hl]

/-- Lines that are joined are found again. -/
theorem lines_joinLines {ls : List (List Char)} (hne : ls ≠ []) (h : ∀ l ∈ ls, '\n' ∉ l) :
    lines (joinLines ls) = ls := by
  induction ls with
  | nil => exact absurd rfl hne
  | cons l ls ih =>
    obtain ⟨hl, hls⟩ := List.forall_mem_cons.mp h
    cases ls with
    | nil => exact lines_last hl
    | cons m ls =>
      have hjoined : joinLines (l :: m :: ls) = l ++ '\n' :: joinLines (m :: ls) := rfl
      rw [hjoined, lines_cons hl, ih (List.cons_ne_nil m ls) hls]

/-- Joined lines tell which lines they are, if it is known whether there are any. -/
theorem joinLines_inj {ls ms : List (List Char)} (hls : ∀ l ∈ ls, '\n' ∉ l)
    (hms : ∀ m ∈ ms, '\n' ∉ m) (hlength : ls.length = ms.length)
    (h : joinLines ls = joinLines ms) : ls = ms := by
  cases ls with
  | nil => exact (List.length_eq_zero_iff.mp hlength.symm).symm
  | cons l ls =>
    have hne : ms ≠ [] := by
      rintro rfl
      cases hlength
    rw [← lines_joinLines (List.cons_ne_nil l ls) hls, h, lines_joinLines hne hms]

/-! ## Indentation -/

/-- How many blanks some characters begin with. -/
def leadingBlanks (cs : List Char) : Nat := (cs.takeWhile Blank.isBlank).length

/-- A line as it is written after an indentation; an empty line may be left without one. -/
def IsIndented (indent line written : List Char) : Prop :=
  written = indent ++ line ∨ line = [] ∧ written = []

theorem leadingBlanks_append {indent : List Char} (h : ∀ c ∈ indent, Blank.isBlank c = true)
    (label : List Char) :
    leadingBlanks (indent ++ label) = indent.length + leadingBlanks label := by
  unfold leadingBlanks
  rw [List.takeWhile_append_of_pos h, List.length_append]

/-- Without an indentation, a line loses what is counted beyond it. -/
theorem IsIndented.drop {indent line written : List Char} (h : IsIndented indent line written)
    (k : Nat) : written.drop (indent.length + k) = line.drop k := by
  rcases h with rfl | ⟨rfl, rfl⟩
  · rw [List.drop_append, List.drop_eq_nil_of_le (Nat.le_add_right ..), Nat.add_sub_cancel_left]
    rfl
  · rw [List.drop_nil, List.drop_nil]

theorem IsIndented.not_mem {indent line written : List Char} (h : IsIndented indent line written)
    (hindent : '\n' ∉ indent) (hline : '\n' ∉ line) : '\n' ∉ written := by
  rcases h with rfl | ⟨rfl, rfl⟩
  · exact fun hmem => (List.mem_append.mp hmem).elim hindent hline
  · exact hline

/-- A label: a character that may begin a name, and others that may stand in one. -/
def IsLabel (label : List Char) : Prop :=
  ∃ x xs, label = x :: xs ∧ isNameStart x = true ∧ ∀ y ∈ xs, isNamePart y = true

theorem IsLabel.not_mem {label : List Char} (h : IsLabel label) : '\n' ∉ label := by
  obtain ⟨x, xs, rfl, hx, hxs⟩ := h
  intro hmem
  rcases List.mem_cons.mp hmem with rfl | hmem
  · cases hx
  · cases hxs _ hmem

variable {opening indent label : List Char} {body written : List (List Char)}

/-- The text of a heredoc or nowdoc: its opening, its lines as they are written, and its closing
label after the indentation. -/
def docText (opening : List Char) (written : List (List Char)) (indent label : List Char) :
    List Char := joinLines (opening :: (written ++ [indent ++ label]))

/-- The body of a heredoc or nowdoc whose lines are written with an indentation. -/
theorem heredocBody_docText (hopening : '\n' ∉ opening)
    (hindent : ∀ c ∈ indent, Blank.isBlank c = true ∧ c ≠ '\n') (hlabel : '\n' ∉ label)
    (hbody : ∀ l ∈ body, '\n' ∉ l) (h : List.Forall₂ (IsIndented indent) body written) :
    heredocBody (docText opening written indent label)
      = joinLines (body.map (List.drop (leadingBlanks label))) := by
  have hplain : '\n' ∉ indent := fun hmem => (hindent _ hmem).2 rfl
  have hwritten : ∀ w ∈ written, '\n' ∉ w := by
    intro w hw
    obtain ⟨i, hi, rfl⟩ := List.getElem_of_mem hw
    have hj : i < body.length := h.length_eq ▸ hi
    exact (h.get hj hi).not_mem hplain (hbody _ (List.getElem_mem hj))
  have hclosing : '\n' ∉ indent ++ label :=
    fun hmem => (List.mem_append.mp hmem).elim hplain hlabel
  have hlines : lines (docText opening written indent label)
      = opening :: (written ++ [indent ++ label]) := by
    refine lines_joinLines (List.cons_ne_nil _ _) (List.forall_mem_cons.mpr ⟨hopening, ?_⟩)
    exact List.forall_mem_append.mpr ⟨hwritten, List.forall_mem_singleton.mpr hclosing⟩
  have hlast : (opening :: (written ++ [indent ++ label])).getLast?.getD [] = indent ++ label := by
    rw [← List.cons_append, List.getLast?_concat]
    rfl
  have hdropped : written.map (List.drop (leadingBlanks (indent ++ label)))
      = body.map (List.drop (leadingBlanks label)) := by
    rw [leadingBlanks_append fun c hc => (hindent c hc).1]
    clear hwritten hlines hlast hbody
    induction h with
    | nil => rfl
    | cons hline _ ih => rw [List.map_cons, List.map_cons, hline.drop, ih]
  have hunfold : heredocBody (docText opening written indent label)
      = joinLines (((written ++ [indent ++ label]).dropLast).map
        (List.drop (leadingBlanks (indent ++ label)))) := by
    unfold heredocBody
    simp only [hlines, hlast]
    rfl
  rw [hunfold, List.dropLast_concat, hdropped]

/-- Lines stay as they are if no characters are taken from them, or have none. -/
theorem joinLines_drop_iff (hbody : ∀ l ∈ body, '\n' ∉ l) (k : Nat) :
    joinLines (body.map (List.drop k)) = joinLines body ↔ k = 0 ∨ ∀ l ∈ body, l = [] := by
  constructor
  · intro h
    have hdropped : ∀ l ∈ body.map (List.drop k), '\n' ∉ l := by
      intro l hl
      obtain ⟨m, hm, rfl⟩ := List.mem_map.mp hl
      exact fun hmem => hbody m hm (List.mem_of_mem_drop hmem)
    have heq := joinLines_inj hdropped hbody (List.length_map _) h
    refine or_iff_not_imp_left.mpr fun hk l hl => ?_
    have hsame : l.drop k = id l := List.map_inj_left.mp (heq.trans (List.map_id body).symm) l hl
    have hlength : l.length - k = l.length := by rw [← List.length_drop, hsame, id]
    exact List.length_eq_zero_iff.mp (by omega)
  · intro h
    have hsame : body.map (List.drop k) = body.map id := by
      refine List.map_inj_left.mpr fun l hl => ?_
      rcases h with rfl | hempty
      · rfl
      · rw [hempty l hl, List.drop_nil, id]
    rw [hsame, List.map_id]

theorem mem_joinLines {c : Char} {ls : List (List Char)} (h : c ∈ joinLines ls) :
    c = '\n' ∨ ∃ l ∈ ls, c ∈ l := by
  induction ls with
  | nil => cases h
  | cons l ls ih =>
    cases ls with
    | nil => exact .inr ⟨l, List.mem_singleton_self l, h⟩
    | cons m ls =>
      have hjoined : joinLines (l :: m :: ls) = l ++ '\n' :: joinLines (m :: ls) := rfl
      rw [hjoined, List.mem_append, List.mem_cons] at h
      rcases h with hl | rfl | hrest
      · exact .inr ⟨l, List.mem_cons_self .., hl⟩
      · exact .inl rfl
      · exact (ih hrest).imp id fun ⟨k, hk, hc⟩ => ⟨k, List.mem_cons_of_mem _ hk, hc⟩

/-- Without backslashes nothing is an escape sequence. -/
theorem unescapeDouble_plain {cs : List Char} (h : '\\' ∉ cs) :
    unescapeDouble cs = .ok (Text.ofString (String.ofList cs)) := by
  have hcodes : unescapeFrom 0 cs = .ok (cs.map CodePoint.ofChar) := by
    induction cs with
    | nil => rfl
    | cons c cs ih =>
      rw [List.mem_cons, not_or] at h
      rw [unescapeFrom, if_neg (Ne.symm h.1), ih h.2]
      rfl
  rw [unescapeDouble, hcodes, Text.ofString, String.toList_ofList]
  rfl

end Literal

/-! ## Folding -/

namespace Folder

open Literal

/-- A node of a nowdoc, or of a heredoc in which nothing is escaped or interpolated. -/
def IsPlainDoc (body : List (List Char)) (n : Node) : Prop :=
  n.kind = "nowdoc"
    ∨ n.kind = "heredoc" ∧ (∀ l ∈ body, '\\' ∉ l) ∧ Node.interpolatedParts n.children = []

/-- Heredocs and nowdocs whose lines and closing label are written with an indentation. In every
state and without changing it, they fold to their lines without as many characters as there are
blanks at the start of the label, which does not depend on the indentation. These are the lines
themselves exactly if there are no such blanks or the lines are empty. -/
theorem fold_dedented {opening indent label : List Char} {body written : List (List Char)}
    (hopening : '\n' ∉ opening) (hindent : ∀ c ∈ indent, Blank.isBlank c = true ∧ c ≠ '\n')
    (hlabel : IsLabel label) (hbody : ∀ l ∈ body, '\n' ∉ l)
    (hwritten : List.Forall₂ (IsIndented indent) body written) :
    ∃ dedented : List Char, dedented = joinLines (body.map (List.drop (leadingBlanks label)))
      ∧ (∀ {σ : Type} (F : Folder σ) (n : Node),
        F.text n = String.ofList (docText opening written indent label) → IsPlainDoc body n →
          ∀ st : σ, (F.fold n).outcome st = .ok (.ofString (String.ofList dedented))
            ∧ (F.fold n).after st = st)
      ∧ (dedented = joinLines body ↔ leadingBlanks label = 0 ∨ ∀ l ∈ body, l = []) := by
  have hdoc := heredocBody_docText hopening hindent hlabel.not_mem hbody hwritten
  refine ⟨_, rfl, fun F n htext hplain st => ?_, joinLines_drop_iff hbody _⟩
  have hchars : heredocBody (F.text n).toList
      = joinLines (body.map (List.drop (leadingBlanks label))) := by
    rw [htext, String.toList_ofList, hdoc]
  rcases hplain with hkind | ⟨hkind, hbackslash, hparts⟩
  · have hfold : F.fold n = Folding.lift (F.nowdoc n) := by
      rw [fold_eq, plan, hkind]
      rfl
    rw [hfold, nowdoc, hchars]
    exact ⟨rfl, rfl⟩
  · have hunescaped : '\\' ∉ joinLines (body.map (List.drop (leadingBlanks label))) := by
      intro hmem
      rcases mem_joinLines hmem with hfeed | ⟨l, hl, hc⟩
      · cases hfeed
      · obtain ⟨m, hm, rfl⟩ := List.mem_map.mp hl
        exact hbackslash m hm (List.mem_of_mem_drop hc)
    have hstring : F.plainString n = .ok () := by
      unfold plainString
      rw [hparts]
      rfl
    have hfold : F.fold n = Folding.lift (F.heredoc n) := by
      rw [fold_eq, plan, hkind]
      rfl
    rw [hfold, heredoc, hstring, hchars, unescapeDouble_plain hunescaped]
    exact ⟨rfl, rfl⟩

/-- A label that begins with an ideographic space: without any indentation, the line loses its first
character. -/
theorem fold_dedented_blankLabel :
    IsLabel "\u3000X".toList ∧ ∀ {σ : Type} (F : Folder σ) (n : Node) (st : σ),
      n.kind = "nowdoc" → F.text n = "<<<'\u3000X'\nab\n\u3000X" →
        (F.fold n).outcome st = .ok (.ofString "b") := by
  have hlabel : IsLabel "\u3000X".toList :=
    ⟨_, _, rfl, by decide, List.forall_mem_singleton.mpr (by decide)⟩
  refine ⟨hlabel, fun F n st hkind htext => ?_⟩
  have hopening : '\n' ∉ "<<<'\u3000X'".toList := by decide
  have hindent : ∀ c ∈ ([] : List Char), Blank.isBlank c = true ∧ c ≠ '\n' := List.forall_mem_nil _
  have hbody : ∀ l ∈ ["ab".toList], '\n' ∉ l := List.forall_mem_singleton.mpr (by decide)
  have hwritten : List.Forall₂ (IsIndented []) ["ab".toList] ["ab".toList] :=
    .cons (.inl rfl) .nil
  obtain ⟨dedented, rfl, hfold, -⟩ := fold_dedented hopening hindent hlabel hbody hwritten
  exact (hfold F n htext (.inl hkind) st).1

end Folder

end StaticReflection
