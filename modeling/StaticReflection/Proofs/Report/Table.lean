import Mathlib.Algebra.Ring.Nat
import Mathlib.Data.List.Forall2
import StaticReflection.Proofs.Decimal.Digits
import StaticReflection.Report.Text

/-!
# Tables are aligned

A table has a line of headers, a line of dashes under them, and a line for each row that its
budget shows, with a last line that counts the others if there are any.

> `Report.table_aligned`: in each line the text of a column stands where the column begins, with
blanks behind it up to the width of the column, but for white space that the line would end with.

The width of a column is that of the longest text in it, also of rows that are not shown
(`Report.columnWidth`); a column begins two blanks behind the one before it
(`Report.columnOffset`). `Report.rowText_aligned` is what puts each text in its place.
-/

namespace StaticReflection.Report

/-- What stands in a column: its header and the cells below it. -/
def column (headers : List Text) (rows : List (List Text)) (i : Nat) : List Text :=
  (headers :: rows).filterMap fun row => row[i]?

/-- The width of a column: that of the longest text in it. -/
def columnWidth (headers : List Text) (rows : List (List Text)) (i : Nat) : Nat :=
  ((column headers rows i).map width).max?.getD 0

/-- Where a column begins. -/
def columnOffset (headers : List Text) (rows : List (List Text)) (i : Nat) : Nat :=
  ((List.range i).map fun j => columnWidth headers rows j + 2).sum

/-- Each cell stands in a line where its column begins, with blanks up to the width of that. -/
def Aligned (headers : List Text) (rows : List (List Text)) (cells : List Text)
    (line : List CodePoint) : Prop :=
  ∀ i cell, cells[i]? = some cell →
    (pad (columnWidth headers rows i) cell).codes <+: line.drop (columnOffset headers rows i)

/-- A line shows a row if the cells stand in it where their columns begin, once the white space
that the line would end with is put back. -/
def Shows (headers : List Text) (rows : List (List Text)) (row : List Text) (line : Text) : Prop :=
  ∃ removed : List CodePoint, (∀ c ∈ removed, Blank.isBlankCode c.val = true)
    ∧ Aligned headers rows row (line.codes ++ removed)

/-- Whether a table leaves rows out. -/
def IsCut (budget : Int) (rows : List (List Text)) : Prop := 0 < budget ∧ budget < rows.length

instance (budget : Int) (rows : List (List Text)) : Decidable (IsCut budget rows) :=
  inferInstanceAs (Decidable (_ ∧ _))

/-- The code point that ends a line. -/
def lineFeed : CodePoint := CodePoint.ofChar '\n'

/-- The lines of a text. -/
def linesOf (t : Text) : List Text := (t.codes.splitOn lineFeed).map Text.mk

/-- The line that counts rows which are not shown. -/
def countLine (rest : Nat) : Text := Text.ofString ("(+" ++ DecimalText.ofInt rest ++ " more)")

/-! ## Widths -/

section

variable {headers : List Text} {rows : List (List Text)} {i : Nat}

theorem width_le_columnWidth {row : List Text} (hrow : row ∈ headers :: rows) {cell : Text}
    (hcell : row[i]? = some cell) : width cell ≤ columnWidth headers rows i := by
  have hmem : cell ∈ column headers rows i := List.mem_filterMap.mpr ⟨row, hrow, hcell⟩
  exact List.le_max?_getD_of_mem (List.mem_map_of_mem hmem)

theorem getElem?_widen (ws : List Nat) (cells : List Text) (i : Nat) :
    (widen ws cells)[i]? = ws[i]?.map fun w => (cells[i]?.toList.map width).foldl max w := by
  induction ws generalizing cells i with
  | nil => cases cells <;> rfl
  | cons w ws ih =>
    cases cells with
    | nil => exact (Option.map_id' ..).symm
    | cons cell cells =>
      rw [widen]
      cases i with
      | zero => rfl
      | succ i => rw [List.getElem?_cons_succ, List.getElem?_cons_succ, List.getElem?_cons_succ, ih]

/-- Each row raises the widths of its columns. -/
theorem getElem?_foldl_widen (ws : List Nat) (rows : List (List Text)) (i : Nat) :
    (rows.foldl widen ws)[i]?
      = ws[i]?.map fun w => ((rows.filterMap fun row => row[i]?).map width).foldl max w := by
  induction rows generalizing ws with
  | nil => exact (Option.map_id' ..).symm
  | cons row rows ih =>
    rw [List.foldl_cons, ih, getElem?_widen, Option.map_map]
    refine congrArg (ws[i]?.map ·) (funext fun w => ?_)
    cases hcell : row[i]? with
    | none => rw [List.filterMap_cons, hcell]; rfl
    | some cell => rw [List.filterMap_cons, hcell]; rfl

/-- Columns are as wide as the longest texts in them. -/
theorem columnWidths_eq (headers : List Text) (rows : List (List Text)) :
    columnWidths headers rows = (List.range headers.length).map (columnWidth headers rows) := by
  apply List.ext_getElem?
  intro i
  unfold columnWidths
  rw [getElem?_foldl_widen, List.getElem?_map, List.getElem?_map]
  cases hheader : headers[i]? with
  | none =>
    rw [List.getElem?_eq_none (by simpa using List.getElem?_eq_none_iff.mp hheader)]
    rfl
  | some header =>
    have hi := (List.getElem?_eq_some_iff.mp hheader).1
    rw [List.getElem?_range hi, Option.map_some, Option.map_some, Option.map_some]
    unfold columnWidth column
    rw [List.filterMap_cons, hheader, List.map_cons, List.max?_cons']
    rfl

end

/-! ## Offsets -/

theorem width_pad {w : Nat} {t : Text} (h : width t ≤ w) : width (pad w t) = w := by
  show (t.codes ++ List.replicate (w - width t) (CodePoint.ofChar ' ')).length = w
  rw [List.length_append, List.length_replicate]
  exact Nat.add_sub_cancel' h

theorem pad_fill (c : Char) (w : Nat) : pad w (fill c w) = fill c w := by
  have hwidth : width (fill c w) = w := List.length_replicate ..
  show Text.mk ((fill c w).codes
    ++ List.replicate (w - width (fill c w)) (CodePoint.ofChar ' ')) = _
  rw [hwidth, Nat.sub_self, List.replicate_zero, List.append_nil]

theorem padded_eq {widths : List Nat} {cells : List Text} (h : cells.length ≤ widths.length) :
    padded widths cells = .ok (List.zipWith pad widths cells) := by
  induction cells generalizing widths with
  | nil => cases widths <;> rfl
  | cons cell cells ih =>
    cases widths with
    | nil => cases h
    | cons w ws =>
      rw [padded, ih (Nat.le_of_succ_le_succ h)]
      rfl

/-- Each piece of a line stands behind those before it, with two blanks after each of them. -/
theorem rowText_aligned {pieces : List Text} {i : Nat} {piece : Text}
    (h : pieces[i]? = some piece) :
    piece.codes <+: (rowText pieces).codes.drop ((pieces.take i).map (width · + 2)).sum := by
  induction pieces generalizing i with
  | nil => cases h
  | cons first rest ih =>
    cases rest with
    | nil =>
      cases i with
      | zero => rw [← Option.some.inj h]; exact List.prefix_refl _
      | succ i => cases h
    | cons next rest =>
      have hcodes : (rowText (first :: next :: rest)).codes
          = (first.codes ++ (Text.ofString "  ").codes) ++ (rowText (next :: rest)).codes := rfl
      cases i with
      | zero =>
        rw [← Option.some.inj h, hcodes, List.append_assoc]
        exact List.prefix_append ..
      | succ i =>
        have hlength : (first.codes ++ (Text.ofString "  ").codes).length = width first + 2 :=
          List.length_append
        rw [hcodes, List.take_succ_cons, List.map_cons, List.sum_cons, ← hlength, ← List.drop_drop,
          List.drop_left]
        exact ih h

section

variable {headers : List Text} {rows : List (List Text)} {cells : List Text}

theorem getElem?_zipWith_pad (hlength : cells.length ≤ headers.length) {i : Nat} {cell : Text}
    (hcell : cells[i]? = some cell) :
    (List.zipWith pad (columnWidths headers rows) cells)[i]?
      = some (pad (columnWidth headers rows i) cell) := by
  have hi := (List.getElem?_eq_some_iff.mp hcell).1
  rw [List.getElem?_zipWith, columnWidths_eq, List.getElem?_map,
    List.getElem?_range (Nat.lt_of_lt_of_le hi hlength), hcell]
  rfl

/-- Cells that fit their columns stand where these begin. -/
theorem aligned_of_fits (hlength : cells.length ≤ headers.length)
    (hfits : ∀ i cell, cells[i]? = some cell → width cell ≤ columnWidth headers rows i) :
    Aligned headers rows cells
      (rowText (List.zipWith pad (columnWidths headers rows) cells)).codes := by
  intro i cell hcell
  have hi := (List.getElem?_eq_some_iff.mp hcell).1
  have hoffset : ((List.zipWith pad (columnWidths headers rows) cells).take i).map (width · + 2)
      = (List.range i).map fun j => columnWidth headers rows j + 2 := by
    apply List.ext_getElem?
    intro j
    rw [List.getElem?_map, List.getElem?_map, List.getElem?_take]
    by_cases hj : j < i
    · have hother := List.getElem?_eq_getElem (Nat.lt_trans hj hi)
      rw [if_pos hj, List.getElem?_range hj, getElem?_zipWith_pad hlength hother, Option.map_some,
        Option.map_some, width_pad (hfits j _ hother)]
    · rw [if_neg hj, List.getElem?_eq_none (by simpa using hj)]
      rfl
  unfold columnOffset
  rw [← hoffset]
  exact rowText_aligned (getElem?_zipWith_pad hlength hcell)

/-- The headers and each row stand where the columns begin. -/
theorem aligned_row (hlength : ∀ row ∈ headers :: rows, row.length ≤ headers.length)
    {row : List Text} (hrow : row ∈ headers :: rows) :
    Aligned headers rows row
      (rowText (List.zipWith pad (columnWidths headers rows) row)).codes :=
  aligned_of_fits (hlength row hrow) fun _ _ hcell => width_le_columnWidth hrow hcell

/-- The dashes under the headers. -/
def dashes (headers : List Text) (rows : List (List Text)) : List Text :=
  (List.range headers.length).map fun i => fill '-' (columnWidth headers rows i)

theorem aligned_dashes :
    Aligned headers rows (dashes headers rows)
      (rowText ((columnWidths headers rows).map (fill '-'))).codes := by
  have hpadded : List.zipWith pad (columnWidths headers rows) (dashes headers rows)
      = (columnWidths headers rows).map (fill '-') := by
    unfold dashes
    rw [columnWidths_eq, List.zipWith_map, List.zipWith_self, List.map_map]
    exact List.map_congr_left fun i _ => pad_fill '-' _
  rw [← hpadded]
  refine aligned_of_fits ?_ fun i cell hcell => ?_
  · unfold dashes
    exact Nat.le_of_eq (by rw [List.length_map, List.length_range])
  · obtain ⟨j, hj, rfl⟩ := Option.map_eq_some_iff.mp (List.getElem?_map ▸ hcell)
    obtain ⟨hrange, hj⟩ := List.getElem?_eq_some_iff.mp hj
    rw [← hj, List.getElem_range]
    exact Nat.le_of_eq (List.length_replicate ..)

end

/-! ## Lines -/

theorem ofChar_inj {c d : Char} (h : CodePoint.ofChar c = CodePoint.ofChar d) : c = d :=
  Char.toNat_inj.mp (congrArg (fun e : CodePoint => e.val) h)

theorem mem_join {sep : Text} {ts : List Text} {c : CodePoint} (h : c ∈ (Text.join sep ts).codes) :
    c ∈ sep.codes ∨ ∃ t ∈ ts, c ∈ t.codes := by
  induction ts with
  | nil => cases h
  | cons t ts ih =>
    cases ts with
    | nil => exact .inr ⟨t, List.mem_cons_self .., h⟩
    | cons u ts =>
      have hcodes : (Text.join sep (t :: u :: ts)).codes
          = t.codes ++ sep.codes ++ (Text.join sep (u :: ts)).codes := rfl
      rw [hcodes, List.mem_append, List.mem_append] at h
      rcases h with (ht | hsep) | hrest
      · exact .inr ⟨t, List.mem_cons_self .., ht⟩
      · exact .inl hsep
      · rcases ih hrest with hsep | ⟨v, hv, hc⟩
        · exact .inl hsep
        · exact .inr ⟨v, List.mem_cons_of_mem _ hv, hc⟩

theorem lineFeed_not_mem_fill {c : Char} (hc : c ≠ '\n') (n : Nat) : lineFeed ∉ (fill c n).codes :=
  fun h => hc (ofChar_inj (List.eq_of_mem_replicate h)).symm

/-- A line breaks nowhere if none of its pieces does. -/
theorem lineFeed_not_mem_rowText {pieces : List Text} (h : ∀ t ∈ pieces, lineFeed ∉ t.codes) :
    lineFeed ∉ (rowText pieces).codes := by
  intro hmem
  rcases mem_join hmem with hsep | ⟨t, ht, hc⟩
  · exact absurd hsep (by decide)
  · exact h t ht hc

theorem lineFeed_not_mem_padded (widths : List Nat) {cells : List Text}
    (h : ∀ cell ∈ cells, lineFeed ∉ cell.codes) :
    lineFeed ∉ (rowText (List.zipWith pad widths cells)).codes := by
  apply lineFeed_not_mem_rowText
  intro t ht
  obtain ⟨i, hi⟩ := List.mem_iff_getElem?.mp ht
  obtain ⟨w, cell, -, hcell, rfl⟩ := List.getElem?_zipWith_eq_some.mp hi
  have hcodes : (pad w cell).codes = cell.codes ++ (fill ' ' (w - width cell)).codes := rfl
  rw [hcodes, List.mem_append]
  rintro (hmem | hmem)
  · exact h cell (List.mem_of_getElem? hcell) hmem
  · exact lineFeed_not_mem_fill (by decide) _ hmem

theorem lineFeed_not_mem_countLine (rest : Nat) : lineFeed ∉ (countLine rest).codes := by
  intro h
  obtain ⟨c, hc, heq⟩ := List.mem_map.mp h
  obtain rfl : c = '\n' := ofChar_inj heq
  rw [String.toList_append, String.toList_append, List.mem_append, List.mem_append] at hc
  rcases hc with (hc | hc) | hc
  · exact absurd hc (by decide)
  · unfold DecimalText.ofInt at hc
    rw [String.toList_ofList, if_neg (by omega), List.nil_append] at hc
    have hdigit := Numeral.isDigit_of_mem_toDigits (by decide) (by decide) hc
    exact absurd hdigit (by decide)
  · exact absurd hc (by decide)

theorem codes_joinLines (lines : List Text) :
    (joinLines lines).codes = [lineFeed].intercalate (lines.map Text.codes) := by
  unfold joinLines
  induction lines with
  | nil => rfl
  | cons line lines ih =>
    cases lines with
    | nil => exact List.intercalate_singleton.symm
    | cons next lines =>
      rw [List.map_cons, List.map_cons, List.intercalate_cons_cons, ← List.map_cons, ← ih]
      rfl

/-- Lines that are put together are read again. -/
theorem linesOf_joinLines {lines : List Text} (hlines : lines ≠ [])
    (h : ∀ line ∈ lines, lineFeed ∉ line.codes) : linesOf (joinLines lines) = lines := by
  unfold linesOf
  rw [codes_joinLines, List.splitOn_intercalate lineFeed ?_ (by simpa using hlines), List.map_map]
  · exact List.map_id' lines
  · intro codes hcodes
    obtain ⟨line, hline, rfl⟩ := List.mem_map.mp hcodes
    exact h line hline

/-- What a line ends with may be white space that is taken away. -/
theorem exists_trimEnd (t : Text) :
    ∃ removed, t.codes = (trimEnd t).codes ++ removed
      ∧ ∀ c ∈ removed, Blank.isBlankCode c.val = true := by
  refine ⟨(t.codes.reverse.takeWhile fun c => Blank.isBlankCode c.val).reverse, ?_, fun c hc => ?_⟩
  · unfold trimEnd
    simp only
    rw [← List.reverse_append, List.takeWhile_append_dropWhile, List.reverse_reverse]
  · have hblank := List.all_takeWhile (p := fun c : CodePoint => Blank.isBlankCode c.val)
      (l := t.codes.reverse)
    exact List.all_eq_true.mp hblank c (List.mem_reverse.mp hc)

/-! ## Tables -/

/-- The line of a row. -/
def rowLine (headers : List Text) (rows : List (List Text)) (row : List Text) : Text :=
  trimEnd (rowText (List.zipWith pad (columnWidths headers rows) row))

/-- The rows that a table shows. -/
def visible (budget : Int) (rows : List (List Text)) : List (List Text) :=
  if IsCut budget rows then rows.take budget.toNat else rows

/-- The last line of a table that leaves rows out. -/
def lastLines (budget : Int) (rows : List (List Text)) : List Text :=
  if IsCut budget rows then [countLine (rows.length - (visible budget rows).length)] else []

section

variable {headers : List Text} {rows : List (List Text)} {budget : Int}

theorem exceeds_eq (hbudget : 0 ≤ budget) :
    exceeds budget rows.length = decide (IsCut budget rows) := by
  unfold exceeds
  rw [Bool.eq_iff_iff, Bool.and_eq_true, bne_iff_ne, decide_eq_true_eq, decide_eq_true_eq]
  unfold IsCut
  omega

theorem visible_eq (hbudget : 0 ≤ budget) :
    (if exceeds budget rows.length then shown budget rows else rows) = visible budget rows := by
  unfold visible shown
  rw [exceeds_eq hbudget, if_pos hbudget]
  simp only [decide_eq_true_eq]

theorem length_visible : (visible budget rows).length
    = if IsCut budget rows then budget.toNat else rows.length := by
  unfold visible
  split
  next hcut =>
    have hless := hcut.2
    rw [List.length_take]
    omega
  next => rfl

theorem take_visible : rows.take (visible budget rows).length = visible budget rows := by
  rw [length_visible]
  unfold visible
  split
  · rfl
  · exact List.take_length

theorem lastLines_eq (hbudget : 0 ≤ budget) :
    (if exceeds budget rows.length then [Text.ofString (more budget rows.length)] else [])
      = lastLines budget rows := by
  unfold lastLines
  rw [exceeds_eq hbudget]
  simp only [decide_eq_true_eq]
  split
  next hcut =>
    have hcount : ((rows.length - (visible budget rows).length : Nat) : Int)
        = rows.length - budget := by
      have hless := hcut.2
      rw [length_visible, if_pos hcut]
      omega
    unfold more countLine
    rw [hcount]
  next => rfl

theorem mem_visible {row : List Text} (h : row ∈ visible budget rows) : row ∈ rows := by
  unfold visible at h
  split at h
  · exact List.mem_of_mem_take h
  · exact h

theorem mapM_rowLine (shown : List (List Text))
    (h : ∀ row ∈ shown, row.length ≤ (columnWidths headers rows).length) :
    (shown.mapM fun row => do
        return trimEnd (rowText (← padded (columnWidths headers rows) row)))
      = .ok (shown.map (rowLine headers rows)) := by
  induction shown with
  | nil => rfl
  | cons row shown ih =>
    obtain ⟨hrow, hshown⟩ := List.forall_mem_cons.mp h
    rw [List.mapM_cons, padded_eq hrow, ih hshown]
    rfl

/-- The lines of a table. -/
theorem table_eq (hrows : rows ≠ []) (hlength : ∀ row ∈ rows, row.length ≤ headers.length)
    (hbudget : 0 ≤ budget) :
    table headers rows budget = .ok (joinLines
      (rowText (List.zipWith pad (columnWidths headers rows) headers)
        :: rowText ((columnWidths headers rows).map (fill '-'))
        :: ((visible budget rows).map (rowLine headers rows) ++ lastLines budget rows))) := by
  have hwidths : (columnWidths headers rows).length = headers.length := by
    rw [columnWidths_eq, List.length_map, List.length_range]
  have hlines := mapM_rowLine (visible budget rows) fun row hrow =>
    hwidths ▸ hlength row (mem_visible hrow)
  unfold table
  rw [if_neg (by simpa using hrows)]
  simp only
  rw [visible_eq hbudget, lastLines_eq hbudget, hlines, padded_eq (Nat.le_of_eq hwidths.symm)]
  rfl

/-- No line of a table breaks in the middle. -/
theorem lineFeed_not_mem_lines (budget : Int)
    (hbreaks : ∀ row ∈ headers :: rows, ∀ cell ∈ row, lineFeed ∉ cell.codes) :
    ∀ line ∈ rowText (List.zipWith pad (columnWidths headers rows) headers)
        :: rowText ((columnWidths headers rows).map (fill '-'))
        :: ((visible budget rows).map (rowLine headers rows) ++ lastLines budget rows),
      lineFeed ∉ line.codes := by
  refine List.forall_mem_cons.mpr ⟨?_, List.forall_mem_cons.mpr ⟨?_, fun line hline => ?_⟩⟩
  · exact lineFeed_not_mem_padded _ (hbreaks headers (List.mem_cons_self ..))
  · apply lineFeed_not_mem_rowText
    intro t ht
    obtain ⟨w, -, rfl⟩ := List.mem_map.mp ht
    exact lineFeed_not_mem_fill (by decide) w
  · rcases List.mem_append.mp hline with hline | hline
    · obtain ⟨row, hrow, rfl⟩ := List.mem_map.mp hline
      have hcells := hbreaks row (List.mem_cons_of_mem _ (mem_visible hrow))
      obtain ⟨removed, hcodes, -⟩ := exists_trimEnd
        (rowText (List.zipWith pad (columnWidths headers rows) row))
      intro hmem
      refine lineFeed_not_mem_padded (columnWidths headers rows) hcells ?_
      rw [hcodes]
      exact List.mem_append_left _ hmem
    · unfold lastLines at hline
      split at hline
      · rw [List.mem_singleton.mp hline]
        exact lineFeed_not_mem_countLine _
      · cases hline

theorem shows_rowLine (hlength : ∀ row ∈ headers :: rows, row.length ≤ headers.length)
    {row : List Text} (hrow : row ∈ rows) :
    Shows headers rows row (rowLine headers rows row) := by
  obtain ⟨removed, hcodes, hblank⟩ := exists_trimEnd
    (rowText (List.zipWith pad (columnWidths headers rows) row))
  refine ⟨removed, hblank, ?_⟩
  unfold rowLine
  rw [← hcodes]
  exact aligned_row hlength (List.mem_cons_of_mem _ hrow)

/-- A table is made, if no row is longer than the headers. If nothing in it breaks a line, its
lines are one of headers, one of dashes, one for each row that the budget shows, and one that
counts the others if it leaves any out; and in all of them each text stands where its column
begins. -/
theorem table_aligned (headers : List Text) (rows : List (List Text)) (budget : Int)
    (hrows : rows ≠ []) (hlength : ∀ row ∈ rows, row.length ≤ headers.length)
    (hbreaks : ∀ row ∈ headers :: rows, ∀ cell ∈ row, lineFeed ∉ cell.codes)
    (hbudget : 0 ≤ budget) :
    ∃ (text head rule : Text) (lines : List Text) (rest : Nat),
      table headers rows budget = .ok text
        ∧ linesOf text
          = head :: rule :: (lines ++ if IsCut budget rows then [countLine rest] else [])
        ∧ lines.length + rest = rows.length
        ∧ (lines.length : Int) = (if IsCut budget rows then budget else rows.length)
        ∧ Aligned headers rows headers head.codes
        ∧ Aligned headers rows (dashes headers rows) rule.codes
        ∧ List.Forall₂ (Shows headers rows) (rows.take lines.length) lines := by
  have hall : ∀ row ∈ headers :: rows, row.length ≤ headers.length :=
    List.forall_mem_cons.mpr ⟨Nat.le_refl _, hlength⟩
  have hlines := linesOf_joinLines (List.cons_ne_nil _ _)
    (lineFeed_not_mem_lines budget hbreaks)
  refine ⟨_, _, _, _, rows.length - (visible budget rows).length,
    table_eq hrows hlength hbudget, hlines, ?_, ?_, aligned_row hall (List.mem_cons_self ..),
    aligned_dashes, ?_⟩
  · have hle : (visible budget rows).length ≤ rows.length :=
      take_visible ▸ List.length_take_le' ..
    rw [List.length_map]
    omega
  · rw [List.length_map, length_visible]
    split
    · exact Int.toNat_of_nonneg hbudget
    · rfl
  · rw [List.length_map, take_visible, List.forall₂_map_right_iff, List.forall₂_same]
    exact fun row hrow => shows_rowLine hall (mem_visible hrow)

/-- Two rows, the first without a cell in the second column. -/
def unevenRows : List (List Text) :=
  [[Text.ofString "x"], [Text.ofString "yyy", Text.ofString "z"]]

/-- A table that shows the first of these rows, and counts the second. -/
theorem table_aligned_uneven :
    unevenRows ≠ [] ∧ (∀ row ∈ unevenRows, row.length ≤ 2)
      ∧ ∃ text head rule line : Text,
        table [Text.ofString "a", Text.ofString "bb"] unevenRows 1 = .ok text
          ∧ linesOf text = [head, rule, line, countLine 1]
          ∧ Shows [Text.ofString "a", Text.ofString "bb"] unevenRows [Text.ofString "x"] line := by
  have hlength : ∀ row ∈ unevenRows, row.length ≤ 2 := by decide
  obtain ⟨text, head, rule, lines, rest, htable, hlines, hrest, hshown, -, -, hshows⟩ :=
    table_aligned [Text.ofString "a", Text.ofString "bb"] unevenRows 1 (by decide) hlength
      (by decide) (by decide)
  have hcut : IsCut 1 unevenRows := by decide
  have hrows : unevenRows.length = 2 := rfl
  rw [if_pos hcut] at hlines hshown
  obtain ⟨line, rfl⟩ := List.length_eq_one_iff.mp (by omega : lines.length = 1)
  obtain rfl : rest = 1 := by rw [List.length_singleton] at hrest; omega
  cases hshows with
  | cons hline _ => exact ⟨by decide, hlength, text, head, rule, line, htable, hlines, hline⟩

end

end StaticReflection.Report
