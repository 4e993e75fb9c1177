import StaticReflection.CommandLine.Run
import StaticReflection.Proofs.Folding.Outcome
import StaticReflection.Proofs.Value.Export

/-!
# Lines of tables and members of reports

Text mode prints a table with a line for each property, JSON mode a report with a member for
each. A table can be printed exactly if all its cells can (`Report.table_ok`). A line of a class's
table depends on the facts of its property alone (`CommandLine.rowOf`), as its member does.
-/

namespace StaticReflection

open Folding Outcome

/-! ## Tables of encodable texts -/

namespace Report

theorem isEncodable_fill (c : Char) (n : Nat) : (fill c n).isEncodable = true := by
  unfold fill Text.isEncodable
  rw [List.all_eq_true]
  intro d hd
  rw [List.eq_of_mem_replicate hd, CodePoint.toChar?_ofChar]
  rfl

@[simp] theorem isEncodable_pad (w : Nat) (t : Text) : (pad w t).isEncodable = t.isEncodable := by
  rw [pad, Text.isEncodable_append, isEncodable_fill, Bool.and_true]

/-- A blank code point is a character. -/
theorem isSome_toChar?_of_blank {c : CodePoint} (h : Blank.isBlankCode c.val = true) :
    c.toChar?.isSome = true := by
  have hvalid : c.val.isValidChar := by
    have hsmall : c.val ≤ 0x3000 := by
      unfold Blank.isBlankCode at h
      simp only [Bool.or_eq_true, Bool.and_eq_true, decide_eq_true_eq, beq_iff_eq] at h
      omega
    exact .inl (by omega)
  unfold CodePoint.toChar?
  rw [dif_pos hvalid]
  rfl

@[simp] theorem isEncodable_trimEnd (t : Text) : (trimEnd t).isEncodable = t.isEncodable := by
  have hdrop (cs : List CodePoint) :
      (cs.dropWhile fun c => Blank.isBlankCode c.val).all (fun c => c.toChar?.isSome)
        = cs.all fun c => c.toChar?.isSome := by
    induction cs with
    | nil => rfl
    | cons c rest ih =>
      rw [List.dropWhile_cons]
      split
      next h => rw [ih, List.all_cons, isSome_toChar?_of_blank h, Bool.true_and]
      next => rfl
  unfold trimEnd Text.isEncodable
  rw [List.all_reverse, hdrop, List.all_reverse]

theorem isEncodable_rowText (cells : List Text) :
    (rowText cells).isEncodable = cells.all Text.isEncodable :=
  Text.isEncodable_join (Text.isEncodable_ofString _) cells

theorem isEncodable_joinLines (lines : List Text) :
    (joinLines lines).isEncodable = lines.all Text.isEncodable :=
  Text.isEncodable_join (Text.isEncodable_ofString _) lines

/-- Cells for which there are columns are padded, and stay encodable or not. -/
theorem padded_ok (widths : List Nat) (cells : List Text) (h : cells.length ≤ widths.length) :
    ∃ out, padded widths cells = .ok out
      ∧ out.all Text.isEncodable = cells.all Text.isEncodable := by
  induction cells generalizing widths with
  | nil => cases widths <;> exact ⟨[], rfl, rfl⟩
  | cons cell cells ih =>
    cases widths with
    | nil => cases h
    | cons w ws =>
      obtain ⟨out, hout, hsame⟩ := ih ws (Nat.le_of_succ_le_succ h)
      refine ⟨pad w cell :: out, ?_, ?_⟩
      · rw [padded, hout]
        rfl
      · rw [List.all_cons, List.all_cons, isEncodable_pad, hsame]

theorem length_widen (ws : List Nat) (cells : List Text) : (widen ws cells).length = ws.length := by
  induction ws generalizing cells with
  | nil => cases cells <;> rfl
  | cons w ws ih =>
    cases cells with
    | nil => rfl
    | cons cell cells => rw [widen, List.length_cons, List.length_cons, ih]

theorem length_columnWidths (headers : List Text) (rows : List (List Text)) :
    (columnWidths headers rows).length = headers.length := by
  have hfold (ws : List Nat) : (rows.foldl widen ws).length = ws.length := by
    induction rows generalizing ws with
    | nil => rfl
    | cons row rows ih => rw [List.foldl_cons, ih, length_widen]
  rw [columnWidths, hfold, List.length_map]

/-- The lines of rows that have no more cells than there are columns. -/
theorem lines_ok (widths : List Nat) (rows : List (List Text))
    (h : ∀ row ∈ rows, row.length ≤ widths.length) :
    ∃ lines, (rows.mapM fun row => do return trimEnd (rowText (← padded widths row))) = .ok lines
      ∧ lines.all Text.isEncodable = rows.all fun row => row.all Text.isEncodable := by
  induction rows with
  | nil => exact ⟨[], rfl, rfl⟩
  | cons row rows ih =>
    obtain ⟨hrow, hrows⟩ := List.forall_mem_cons.mp h
    obtain ⟨out, hout, hsame⟩ := padded_ok widths row hrow
    obtain ⟨lines, hlines, hall⟩ := ih hrows
    refine ⟨trimEnd (rowText out) :: lines, ?_, ?_⟩
    · rw [List.mapM_cons, hout, hlines]
      rfl
    · rw [List.all_cons, List.all_cons, isEncodable_trimEnd, isEncodable_rowText, hsame, hall]

/-- A table whose rows have no more cells than there are headers can be made, and can be
printed exactly if all cells can. -/
theorem table_ok (headers : List Text) (rows : List (List Text))
    (hheaders : headers.all Text.isEncodable = true)
    (h : ∀ row ∈ rows, row.length ≤ headers.length) :
    ∃ t, table headers rows 0 = .ok t
      ∧ t.isEncodable = rows.all fun row => row.all Text.isEncodable := by
  cases hempty : rows.isEmpty with
  | true =>
    refine ⟨Text.ofString "(none)", ?_, ?_⟩
    · unfold table
      rw [if_pos hempty]
    · rw [List.isEmpty_iff.mp hempty]
      exact Text.isEncodable_ofString _
  | false =>
    have hlength := length_columnWidths headers rows
    obtain ⟨head, hhead, hsame⟩ := padded_ok (columnWidths headers rows) headers
      (Nat.le_of_eq hlength.symm)
    obtain ⟨lines, hlines, hall⟩ := lines_ok (columnWidths headers rows) rows
      fun row hrow => hlength.symm ▸ h row hrow
    have hrule : ((columnWidths headers rows).map (fill '-')).all Text.isEncodable = true := by
      rw [List.all_map, List.all_eq_true]
      exact fun n _ => isEncodable_fill '-' n
    refine ⟨joinLines (rowText head :: rowText ((columnWidths headers rows).map (fill '-')) :: lines),
      ?_, ?_⟩
    · unfold table
      rw [hempty, if_neg Bool.false_ne_true]
      simp only [hhead, ok_bind]
      have hcut : exceeds 0 rows.length = false := rfl
      simp only [hcut, Bool.false_eq_true, if_false, hlines]
      rw [ok_bind, List.append_nil]
      rfl
    · rw [isEncodable_joinLines, List.all_cons, List.all_cons, isEncodable_rowText,
        isEncodable_rowText, hsame, hheaders, hrule, hall, Bool.true_and, Bool.true_and]

end Report

namespace CommandLine

open Printing

/-! ## Steps of printing -/

section

variable {α : Type} {s : Store} {out : String}

theorem ask_run (q : Query α) (s : Store) (out : String) :
    outcome (ask q) (s, out) = outcome q s ∧ after (ask q) (s, out) = (after q s, out) := ⟨rfl, rfl⟩

theorem lift_run (o : Outcome α) (st : Store × String) :
    outcome (Printing.lift o) st = o ∧ after (Printing.lift o) st = st := ⟨rfl, rfl⟩

/-- Printing a text fails exactly if it has a surrogate. -/
theorem outcome_echoText (t : Text) (st : Store × String) :
    outcome (echoText t) st = if t.isEncodable then .ok () else fault .unencodableOutput := by
  rw [← Text.toString?_isSome]
  unfold echoText
  cases t.toString? <;> rfl

theorem outcome_echo (line : String) (st : Store × String) : outcome (echo line) st = .ok () := by
  unfold echo
  rw [outcome_echoText, Text.isEncodable_ofString, if_pos rfl]

/-- A line that is printed leaves the store as it is. -/
theorem exists_after_echo (line : String) (s : Store) (out : String) :
    ∃ printed, after (echo line) (s, out) = (s, printed) := by
  unfold echo echoText
  rw [Text.toString?_ofString]
  exact ⟨_, rfl⟩

/-- What follows a line that is printed. -/
theorem outcome_echo_bind {g : Unit → Printing α} {o : Outcome α} {line : String}
    (h : ∀ st, outcome (g ()) st = o) (st : Store × String) :
    outcome (echo line >>= g) st = o := by
  rw [outcome_bind_ok (outcome_echo line st)]
  exact h _

/-- Lines that are printed one after the other. -/
theorem outcome_echo_forM {γ : Type} (f : γ → String) (xs : List γ) (st : Store × String) :
    outcome (xs.forM fun x => echo (f x)) st = .ok () := by
  induction xs generalizing st with
  | nil => rfl
  | cons x xs ih =>
    exact outcome_echo_bind ih st

/-- The report of a command is printed, as long as no member has a reserved name. -/
theorem outcome_echoReport (command : String) (summary : List (String × Json))
    {members : List (String × Json)}
    (h : (members.any fun m => Report.reservedNames.contains m.1) = false) (st : Store × String) :
    outcome (echoReport command summary members) st = .ok () := by
  have hinj (a b : String) : Text.ofString a = Text.ofString b ↔ a = b := by
    refine ⟨fun he => ?_, congrArg _⟩
    have := congrArg Text.toString? he
    rwa [Text.toString?_ofString, Text.toString?_ofString, Option.some.injEq] at this
  have hfree : ((payload members).any fun m => Report.reservedNames.any fun r =>
      Text.ofString r = m.1) = false := by
    rw [List.any_eq_false] at h ⊢
    intro named hnamed hreserved
    obtain ⟨m, hm, rfl⟩ := List.mem_map.mp hnamed
    obtain ⟨r, hr, he⟩ := List.any_eq_true.mp hreserved
    have hname := (hinj r m.1).mp (of_decide_eq_true he)
    exact h m hm (List.contains_iff_mem.mpr (hname ▸ hr))
  unfold echoReport Report.envelope
  simp only
  rw [if_neg (Bool.eq_false_iff.mp hfree)]
  exact outcome_echo _ _

end

/-! ## Lines of a table and members of a report -/

/-- The default in a table, by the facts of a property. -/
def cellOf (f : PropertyFacts) : Outcome Text :=
  if !f.hasDefault then .ok Text.empty
  else match f.default with
    | .ok v => v.exported
    | .error _ => .ok (Text.ofString "<unfoldable>")

/-- A property in the table of a class, by its facts. -/
def rowOf (c : ReflectedClass) (f : PropertyFacts) : Outcome (List Text) := do
  let default ← cellOf f
  return [Text.ofString ("$" ++ f.name),
    Text.ofString (String.intercalate " " (Modifier.names f.modifiers)), default,
    Text.ofString (String.intercalate "|" f.docTypes), Text.ofString (lineRange f.span),
    Text.ofString (if f.className == c.name then "" else f.className)]

/-- Facts of a property without a default have null for it. -/
def Complete (f : PropertyFacts) : Prop := f.hasDefault = false → f.default = .ok .null

theorem defaultOf_none {p : Property} (h : p.hasDefault = false) (s : Store) :
    outcome (PropertyFacts.defaultOf p) s = .ok (.ok .null)
      ∧ after (PropertyFacts.defaultOf p) s = s := by
  have hnone : p.declaration.default = none :=
    Option.isNone_iff_eq_none.mp (Option.isSome_eq_false_iff.mp h)
  have hvalue : Reflector.defaultValue p = pure .null := by
    unfold Reflector.defaultValue
    rw [hnone]
  unfold PropertyFacts.defaultOf
  rw [hvalue]
  exact ⟨rfl, rfl⟩

/-- The default in a table, by what is found of it. -/
theorem defaultCell_run (p : Property) (s : Store) :
    outcome (defaultCell p) s
        = (outcome (PropertyFacts.defaultOf p) s >>= fun d =>
          if !p.hasDefault then .ok Text.empty
          else match d with
            | .ok v => v.exported
            | .error _ => .ok (Text.ofString "<unfoldable>"))
      ∧ after (defaultCell p) s = after (PropertyFacts.defaultOf p) s := by
  unfold defaultCell
  cases hd : p.hasDefault with
  | false =>
    rw [(defaultOf_none hd s).1, (defaultOf_none hd s).2]
    exact ⟨rfl, rfl⟩
  | true =>
    rw [if_neg (by decide), outcome_bind, after_bind]
    generalize outcome (PropertyFacts.defaultOf p) s = o, after (PropertyFacts.defaultOf p) s = t
    cases o with
    | error f => exact ⟨rfl, rfl⟩
    | ok d => cases d <;> exact ⟨rfl, rfl⟩

theorem facts_complete (p : Property) (s : Store) :
    (outcome (PropertyFacts.of p) s).Yields Complete := by
  intro f hf hnone
  unfold PropertyFacts.of at hf
  obtain ⟨_, -, hf⟩ := exists_of_bind_ok hf
  obtain ⟨_, -, hf⟩ := exists_of_bind_ok hf
  obtain ⟨_, -, hf⟩ := exists_of_bind_ok hf
  obtain ⟨d, hdefault, hf⟩ := exists_of_bind_ok hf
  cases hf
  rw [(defaultOf_none hnone _).1] at hdefault
  cases hdefault
  rfl

/-- A line of a class's table comes from the facts of the property. -/
theorem propertyRow_run (c : ReflectedClass) (p : Property) (s : Store) :
    outcome (propertyRow c p) s = (outcome (PropertyFacts.of p) s >>= rowOf c)
      ∧ after (propertyRow c p) s = after (PropertyFacts.of p) s := by
  unfold propertyRow PropertyFacts.of
  rw [outcome_bind, outcome_bind, after_bind, after_bind]
  generalize outcome p.declaringClass s = o, after p.declaringClass s = t
  cases o with
  | error f => exact ⟨rfl, rfl⟩
  | ok d =>
    obtain ⟨m, hm, hmodifiers⟩ : ∃ m, outcome p.modifiers t = .ok m ∧ after p.modifiers t = t :=
      ⟨_, rfl, rfl⟩
    obtain ⟨display, hdisplay, hshown⟩ :
        ∃ display, outcome p.display t = .ok display ∧ after p.display t = t := ⟨_, rfl, rfl⟩
    obtain ⟨hcell, hafter⟩ := defaultCell_run p t
    simp only
    rw [outcome_bind_ok hm, outcome_bind_ok hm, after_bind_ok hm, after_bind_ok hm, hmodifiers,
      outcome_bind_ok hdisplay, after_bind_ok hdisplay, hshown, outcome_bind, outcome_bind,
      after_bind, after_bind, hcell, hafter]
    cases outcome (PropertyFacts.defaultOf p) t with
    | error f => exact ⟨rfl, rfl⟩
    | ok v =>
      constructor
      · simp only [ok_bind, rowOf, cellOf, outcome_pure]
        cases (if (!p.hasDefault) = true then Except.ok Text.empty else _ : Outcome Text) <;> rfl
      · rw [ok_bind]
        cases (if (!p.hasDefault) = true then Except.ok Text.empty else _ : Outcome Text) <;> rfl

/-- The facts of properties, as far as they can be found one after the other. -/
def factsUntil (s : Store) : List Property → List PropertyFacts
  | [] => []
  | p :: rest =>
    match outcome (PropertyFacts.of p) s with
    | .ok f => f :: factsUntil (after (PropertyFacts.of p) s) rest
    | .error _ => []

/-- Asking for the facts of all properties comes to those that can be found. -/
theorem factsUntil_of_ok {ps : List Property} {s : Store} {fs : List PropertyFacts}
    (h : outcome (ps.mapM PropertyFacts.of) s = .ok fs) : fs = factsUntil s ps := by
  induction ps generalizing s fs with
  | nil =>
    cases h
    rfl
  | cons p rest ih =>
    rw [List.mapM_cons] at h
    obtain ⟨f, hf, h⟩ := exists_of_bind_ok h
    obtain ⟨more, hmore, h⟩ := exists_of_bind_ok h
    cases h
    rw [factsUntil, hf, ih hmore]

theorem factsUntil_complete (ps : List Property) (s : Store) : ∀ f ∈ factsUntil s ps, Complete f := by
  induction ps generalizing s with
  | nil => exact fun _ h => by cases h
  | cons p rest ih =>
    have hcomplete := facts_complete p s
    rw [factsUntil]
    cases hf : outcome (PropertyFacts.of p) s with
    | error _ => exact fun _ h => by cases h
    | ok f =>
      rw [hf] at hcomplete
      exact List.forall_mem_cons.mpr ⟨hcomplete f rfl, ih _⟩

/-- The lines of a table are made of the facts of the properties, unless a default that comes
before a failure is too long to write. -/
theorem outcome_rows {c : ReflectedClass} {ps : List Property} {s : Store}
    (h : ∀ f ∈ factsUntil s ps, ∃ t, cellOf f = .ok t) :
    outcome (ps.mapM (propertyRow c)) s
      = (outcome (ps.mapM PropertyFacts.of) s >>= fun fs => fs.mapM (rowOf c)) := by
  induction ps generalizing s with
  | nil => rfl
  | cons p rest ih =>
    obtain ⟨hrow, hafter⟩ := propertyRow_run c p s
    rw [List.mapM_cons, List.mapM_cons, outcome_bind, outcome_bind, hrow, hafter]
    rw [factsUntil] at h
    cases hf : outcome (PropertyFacts.of p) s with
    | error f => rfl
    | ok f =>
      rw [hf] at h
      obtain ⟨⟨t, ht⟩, hothers⟩ := List.forall_mem_cons.mp h
      obtain ⟨row, hr⟩ : ∃ row, rowOf c f = .ok row := by
        unfold rowOf
        rw [ht]
        exact ⟨_, rfl⟩
      simp only [ok_bind, hr]
      rw [outcome_bind, outcome_bind, ih hothers]
      cases outcome (rest.mapM PropertyFacts.of) (after (PropertyFacts.of p) s) with
      | error g => rfl
      | ok more =>
        simp only [ok_bind, outcome_pure]
        rw [List.mapM_cons, hr, ok_bind]
        cases more.mapM (rowOf c) <;> rfl

/-- Lines that were made are those of the facts of all properties. -/
theorem rows_of_ok {c : ReflectedClass} {ps : List Property} {s : Store} {rows : List (List Text)}
    (h : outcome (ps.mapM (propertyRow c)) s = .ok rows) :
    outcome (ps.mapM PropertyFacts.of) s = .ok (factsUntil s ps)
      ∧ (factsUntil s ps).mapM (rowOf c) = .ok rows := by
  induction ps generalizing s rows with
  | nil =>
    cases h
    exact ⟨rfl, rfl⟩
  | cons p rest ih =>
    obtain ⟨hrow, hafter⟩ := propertyRow_run c p s
    rw [List.mapM_cons] at h ⊢
    obtain ⟨row, hr, h⟩ := exists_of_bind_ok h
    obtain ⟨more, hmore, h⟩ := exists_of_bind_ok h
    cases h
    rw [hrow] at hr
    rw [hafter] at hmore
    obtain ⟨f, hf, hr⟩ := bind_eq_ok_iff.mp hr
    obtain ⟨hfound, hlines⟩ := ih hmore
    rw [factsUntil, hf, outcome_bind_ok hf, outcome_bind_ok hfound]
    refine ⟨rfl, ?_⟩
    simp only
    rw [List.mapM_cons, hr, ok_bind, hlines]
    rfl

end CommandLine

end StaticReflection
