import StaticReflection.Grammar.Number
import StaticReflection.Grammar.Quotation
import StaticReflection.Proofs.Text.Utf8

/-!
# What scans read

A scan at a cursor either declines or reads some characters. For each way to put scans
together, here is what it comes to when its parts decline and when they read, so that no
other proof opens the scans themselves. A cursor that is in a text (`Cursor.In`) stays in it,
and a node over characters from a cursor on has their text (`Cursor.In.text`).
-/

namespace StaticReflection.Grammar

namespace Cursor

/-- A cursor in a text: what follows it is the rest of the text, and its offset is that of
what is before. -/
structure In (whole : List Char) (c : Cursor) : Prop where
  place : ∃ past, whole = past ++ c.rest ∧ c.offset = byteLength past
  left : c.left = c.rest.length

variable {whole : List Char} {c : Cursor}

theorem In.advance (h : c.In whole) (n : Nat) : (c.advance n).In whole := by
  obtain ⟨⟨past, hwhole, hoffset⟩, hleft⟩ := h
  refine ⟨⟨past ++ c.rest.take n, ?_, ?_⟩, ?_⟩
  · rw [List.append_assoc]
    show whole = past ++ (c.rest.take n ++ c.rest.drop n)
    rw [List.take_append_drop, hwhole]
  · rw [byteLength_append, ← hoffset]
    rfl
  · show c.left - n = (c.rest.drop n).length
    rw [List.length_drop, hleft]

theorem In.token (h : c.In whole) (n : Nat) : (c.token n).In whole :=
  ⟨(h.advance n).place, (h.advance n).left⟩

theorem In.skip (h : c.In whole) (throughTags : Bool) : (c.skip throughTags).In whole := by
  induction hn : c.left using Nat.strongRecOn generalizing c with
  | _ n ih =>
    rw [Cursor.skip]
    split
    · exact h
    · split
      · exact h
      next length kind? hextra =>
        have hnext := h.advance length
        cases kind? with
        | none =>
          simp only
          split
          next hleft => exact ih _ (hn ▸ hleft) hnext rfl
          next => exact h
        | some kind =>
          -- what is kept of a comment does not move the cursor
          simp only
          split
          next hleft => exact ih _ (hn ▸ hleft) ⟨hnext.place, hnext.left⟩ rfl
          next => exact h

/-- The text of a node over the next characters. -/
theorem In.text (h : c.In whole) {n : Node} {k : Nat} (hstart : n.start = c.offset)
    (hstop : n.stop = (c.token k).offset) :
    (Source.ofString (String.ofList whole)).text n = String.ofList (c.rest.take k) := by
  obtain ⟨⟨past, hwhole, hoffset⟩, -⟩ := h
  have hsplit : whole = past ++ c.rest.take k ++ c.rest.drop k := by
    rw [List.append_assoc, List.take_append_drop, hwhole]
  have hend : n.stop = byteLength past + byteLength (c.rest.take k) := by
    rw [hstop, ← hoffset]
    rfl
  rw [Source.text, hstart, hend, hoffset, hsplit, Source.slice_ofString]

theorem advance_token (c : Cursor) (m n : Nat) : (c.advance m).token n = c.token (m + n) := by
  unfold token advance
  simp only [List.drop_drop, Nat.sub_sub, Nat.add_assoc, List.take_add, byteLength_append]

theorem token_token (c : Cursor) (m n : Nat) : (c.token m).token n = c.token (m + n) :=
  advance_token c m n

theorem rest_token (c : Cursor) (n : Nat) : (c.token n).rest = c.rest.drop n := rfl

/-- What follows characters that are read. -/
theorem rest_token_append {cs after : List Char} (h : c.rest = cs ++ after) :
    (c.token cs.length).rest = after := by
  rw [rest_token, h, List.drop_left]

/-- A token moves a cursor on. -/
theorem left_token_lt (h : c.In whole) {n : Nat} (hn : 0 < n) (hrest : c.rest ≠ []) :
    (c.token n).left < c.left := by
  have hpos : 0 < c.rest.length := List.length_pos_iff.mpr hrest
  have hleft := h.left
  show c.left - n < c.left
  omega

/-! ## Passing what stands between tokens -/

theorem skip_of_extra?_eq_none (h : extra? c.rest = none) (throughTags : Bool) :
    c.skip throughTags = c := by
  rw [skip]
  split
  · rfl
  · rw [h]

/-- A blank before something else is passed alone. -/
theorem skip_blank (h : c.In whole) {after : List Char} (hrest : c.rest = ' ' :: after)
    (hafter : extra? after = none) : c.skip true = c.advance 1 := by
  have hextra : extra? c.rest = some (1, none) := by
    rw [hrest]
    rfl
  have hnext : (c.advance 1).rest = after := by
    show c.rest.drop 1 = after
    rw [hrest]
    rfl
  have hleft : (c.advance 1).left < c.left := by
    have := h.left
    rw [hrest, List.length_cons] at this
    show c.left - 1 < c.left
    omega
  rw [skip, hextra]
  simp only [Bool.not_true, Bool.false_and, Bool.false_eq_true, if_false]
  rw [if_pos hleft]
  exact skip_of_extra?_eq_none (hnext ▸ hafter) true

end Cursor

namespace Scan

variable {α β : Type} {c d e : Cursor}

/-! ## One scan after the other -/

theorem bind_none {p : Scan α} {g : α → Scan β} (h : p c = none) : (p >>= g) c = none := by
  show (p c).bind _ = none
  rw [h]
  rfl

theorem bind_some {p : Scan α} {g : α → Scan β} {a : α} (h : p c = some (a, d)) :
    (p >>= g) c = g a d := by
  show (p c).bind _ = g a d
  rw [h]
  rfl

theorem orElse_none {p q : Scan α} (h : p c = none) : (p <|> q) c = q c := by
  show (p c <|> q c) = q c
  rw [h]
  rfl

theorem orElse_some {p q : Scan α} {r : α × Cursor} (h : p c = some r) :
    (p <|> q) c = some r := by
  show (p c <|> q c) = some r
  rw [h]
  rfl

/-- Two scans that decline. -/
theorem orElse_both {p q : Scan α} (hp : p c = none) (hq : q c = none) : (p <|> q) c = none :=
  (orElse_none hp).trans hq

theorem skip_run (c : Cursor) : Scan.skip c = some ((), c.skip true) := rfl

theorem rest_run (c : Cursor) : Scan.rest c = some (c.rest, c) := rfl

theorem require_false {g : Unit → Scan β} : (require false >>= g) c = none := bind_none rfl

theorem require_true {g : Unit → Scan β} : (require true >>= g) c = g () c := rfl

theorem maybe_none {p : Scan α} (h : p c = none) : maybe p c = some (none, c) := by
  unfold maybe
  rw [h]

theorem one_none {p : Scan α} (h : p c = none) : one p c = none := bind_none h

theorem one_some {p : Scan α} {a : α} (h : p c = some (a, d)) : one p c = some ([a], d) :=
  bind_some h

theorem orNone_none {p : Scan (List α)} (h : p c = none) : orNone p c = some ([], c) :=
  bind_some (maybe_none h)

theorem orNone_some {p : Scan (List α)} {as : List α} (h : p c = some (as, d)) :
    orNone p c = some (as, d) := by
  have hmaybe : maybe p c = some (some as, d) := by
    unfold maybe
    rw [h]
  exact bind_some hmaybe

theorem place_run (c : Cursor) : place c = some ((c.skip true).offset, c.skip true) := rfl

theorem node_none {kind : String} {p : Scan (List Node)} (h : p (c.skip true) = none) :
    node kind p c = none := (bind_some (place_run c)).trans (bind_none h)

theorem node_some {kind : String} {p : Scan (List Node)} {children : List Node}
    (h : p (c.skip true) = some (children, e)) :
    node kind p c
      = some (⟨kind, (c.skip true).offset, e.last, none, true, false, children⟩, e) :=
  (bind_some (place_run c)).trans (bind_some h)

/-! ## Loops -/

theorem iterate_none {step : α → Scan α} {a : α} (h : step a c = none) :
    iterate step a c = some (a, c) := by
  unfold iterate
  rw [iterateFrom, h]

theorem iterate_some {step : α → Scan α} {a b : α} (h : step a c = some (b, d))
    (hleft : d.left < c.left) : iterate step a c = iterate step b d := by
  unfold iterate
  rw [iterateFrom, h]
  simp only [if_pos hleft]

theorem many_none {p : Scan (List α)} (h : p c = none) : many p c = some ([], c) := by
  unfold many
  rw [bind_some (iterate_none (bind_none h))]
  rfl

/-- What a loop has found before does not matter for what it finds. -/
theorem iterate_found (p : Scan (List α)) (acc : List α) (c : Cursor) :
    ∃ found d, iterate (fun acc => do return (← p).reverse ++ acc) [] c = some (found, d)
      ∧ iterate (fun acc => do return (← p).reverse ++ acc) acc c = some (found ++ acc, d) := by
  induction hn : c.left using Nat.strongRecOn generalizing c acc with
  | _ n ih =>
    cases hp : p c with
    | none =>
      exact ⟨[], c, iterate_none (bind_none hp), iterate_none (bind_none hp)⟩
    | some r =>
      obtain ⟨xs, d⟩ := r
      have hstep (acc : List α) : (do return (← p).reverse ++ acc : Scan (List α)) c
          = some (xs.reverse ++ acc, d) := bind_some hp
      by_cases hleft : d.left < c.left
      · obtain ⟨found, e, hempty, hacc⟩ := ih d.left (hn ▸ hleft) (xs.reverse ++ acc) d rfl
        obtain ⟨found', e', hempty', hacc'⟩ := ih d.left (hn ▸ hleft) (xs.reverse ++ []) d rfl
        rw [hempty] at hempty'
        cases hempty'
        refine ⟨found ++ xs.reverse, e, ?_, ?_⟩
        · rw [iterate_some (hstep []) hleft, hacc', List.append_nil]
        · rw [iterate_some (hstep acc) hleft, hacc, List.append_assoc]
      · have hstop (acc : List α) :
            iterate (fun acc => do return (← p).reverse ++ acc) acc c = some (acc, c) := by
          unfold iterate
          rw [iterateFrom, hstep acc]
          simp only [if_neg hleft]
        exact ⟨[], c, hstop [], hstop acc⟩

theorem many_some {p : Scan (List α)} {xs ys : List α} (h : p c = some (xs, d))
    (hleft : d.left < c.left) (hmany : many p d = some (ys, e)) :
    many p c = some (xs ++ ys, e) := by
  have hstep : (do return (← p).reverse ++ [] : Scan (List α)) c = some (xs.reverse ++ [], d) :=
    bind_some h
  obtain ⟨found, end', hempty, hacc⟩ := iterate_found p (xs.reverse ++ []) d
  unfold many at hmany ⊢
  rw [bind_some hempty] at hmany
  cases hmany
  rw [bind_some ((iterate_some hstep hleft).trans hacc)]
  show some ((found ++ (xs.reverse ++ [])).reverse, e) = _
  rw [List.append_nil, List.reverse_append, List.reverse_reverse]

/-! ## Marks and words -/

theorem mark_none {spelling : String}
    (h : spelling.toList.isPrefixOf (c.skip true).rest = false) : mark spelling c = none := by
  show (require (spelling.toList.isPrefixOf (c.skip true).rest) >>= fun _ => _) (c.skip true)
    = none
  rw [h]
  exact require_false

theorem mark_some {spelling : String} {after : List Char}
    (h : (c.skip true).rest = spelling.toList ++ after) :
    mark spelling c = some (⟨spelling, (c.skip true).offset,
      ((c.skip true).token spelling.toList.length).offset, none, false, false, []⟩,
      (c.skip true).token spelling.toList.length) := by
  have hstarts : spelling.toList.isPrefixOf (c.skip true).rest = true := by
    rw [h, List.isPrefixOf_iff_prefix]
    exact List.prefix_append _ _
  show (require (spelling.toList.isPrefixOf (c.skip true).rest) >>= fun _ => _) (c.skip true) = _
  rw [hstarts]
  rfl

/-- A mark right here. -/
theorem mark_here {spelling : String} {after : List Char} (hskip : c.skip true = c)
    (h : c.rest = spelling.toList ++ after) :
    mark spelling c = some (⟨spelling, c.offset, (c.token spelling.toList.length).offset, none,
      false, false, []⟩, c.token spelling.toList.length) := by
  have hmark := mark_some (c := c) (hskip.symm ▸ h)
  rwa [hskip] at hmark

/-- A mark right here is a node of its kind. -/
theorem mark_sign {spelling : String} {after : List Char} (hskip : c.skip true = c)
    (h : c.rest = spelling.toList ++ after) :
    ∃ sign : Node, mark spelling c = some (sign, c.token spelling.toList.length)
      ∧ sign.kind = spelling ∧ sign.isNamed = false :=
  ⟨_, mark_here hskip h, rfl, rfl⟩

/-- A mark after a blank is a node of its kind. -/
theorem mark_after_blank {whole after : List Char} (hin : c.In whole) {spelling : String}
    (h : c.rest = ' ' :: (spelling.toList ++ after))
    (hextra : extra? (spelling.toList ++ after) = none) :
    ∃ sign : Node, mark spelling c = some (sign, c.token (1 + spelling.toList.length))
      ∧ sign.kind = spelling ∧ sign.isNamed = false := by
  have hskip := Cursor.skip_blank hin h hextra
  have hhere : (c.skip true).rest = spelling.toList ++ after := by
    rw [hskip]
    show c.rest.drop 1 = _
    rw [h]
    rfl
  have hmark := mark_some hhere
  rw [hskip, Cursor.advance_token] at hmark
  exact ⟨_, hmark, rfl, rfl⟩

/-- The word at the start of some characters; empty if none is there. -/
def wordOf : List Char → String
  | [] => ""
  | c :: rest => if isNameStart c then String.ofList (c :: rest.takeWhile isNamePart) else ""

theorem word?_run (c : Cursor) : ∃ w, word? c = some (w, c) ∧ w.getD "" = wordOf c.rest := by
  unfold word?
  rw [bind_some (rest_run c)]
  cases c.rest with
  | nil => exact ⟨none, rfl, rfl⟩
  | cons x more =>
    simp only [wordOf]
    cases isNameStart x with
    | true => exact ⟨_, rfl, rfl⟩
    | false => exact ⟨_, rfl, rfl⟩

theorem nextWord_run (c : Cursor) :
    nextWord c = some ((wordOf (c.skip true).rest).toLower, c.skip true) := by
  obtain ⟨w, hw, hword⟩ := word?_run (c.skip true)
  unfold nextWord
  rw [bind_some (skip_run c), bind_some hw, hword]
  rfl

theorem keyword_none {spelling : String} (h : (wordOf (c.skip true).rest).toLower ≠ spelling) :
    keyword spelling c = none := by
  unfold keyword
  rw [bind_some (nextWord_run c), beq_eq_false_iff_ne.mpr h]
  exact require_false

end Scan

end StaticReflection.Grammar
