import StaticReflection.Proofs.Report.Rows

/-!
# Commands as text and as JSON

A command asks the same of its sources whether it prints text or a JSON report. The two
differ in what they can write of the default values that it shows: JSON puts the keys of
maps in order, text prints texts as characters.

> `Invocation.modes_agree`: where text mode succeeds, JSON mode does so exactly if all shown
> values are sortable; where JSON mode succeeds, text mode does so exactly if all of them are
> encodable; and if all are sortable, encodable and short, both end with the same exit code.

A map with both integers and texts among its keys has a literal and no JSON form: there the
JSON report of a command fails that ends well as text.

Both begin with the facts of the properties that are asked for.
-/

namespace StaticReflection

open Folding Outcome

namespace CommandLine

open Printing

/-! ## What both modes come to -/

/-- The default values that some facts show. -/
def shownIn (fs : List PropertyFacts) : List Value := fs.filterMap fun f => f.default.toOption

/-- How the outcomes of a command as text and as JSON go together, where it shows some values. -/
structure Agreeing (text json : Outcome Unit) (shown : List Value) : Prop where
  json_iff : text = .ok () → (json = .ok () ↔ ∀ v ∈ shown, v.isSortable = true)
  text_iff : json = .ok () → (text = .ok () ↔ ∀ v ∈ shown, v.isEncodable = true)
  /-- What is plain is written the same way. -/
  plain : (∀ v ∈ shown, v.isSortable = true ∧ v.isEncodable = true ∧ v.isShort = true) → text = json

/-- Text mode writes lines and prints them, JSON mode writes entries: how the two go together
follows from which values can be written, and printed. -/
theorem Agreeing.of_written {α β : Type} {lines : Outcome α} {entries : Outcome β}
    {printable : α → Bool} {shown : List Value}
    (hlines : (∃ a, lines = .ok a) ↔ ∀ v ∈ shown, v.isShort = true)
    (hprintable : ∀ a, lines = .ok a → (printable a = true ↔ ∀ v ∈ shown, v.isEncodable = true))
    (hentries : (∃ b, entries = .ok b) ↔ ∀ v ∈ shown, v.isSortable = true ∧ v.isShort = true) :
    Agreeing (lines >>= fun a => if printable a then .ok () else fault .unencodableOutput)
      (entries >>= fun _ => .ok ()) shown := by
  have htext (a : α) (h : lines = .ok a) :
      (lines >>= fun a => if printable a then .ok () else fault .unencodableOutput) = .ok ()
        ↔ ∀ v ∈ shown, v.isEncodable = true := by
    rw [← hprintable a h, h, ok_bind]
    cases printable a with
    | true => exact ⟨fun _ => rfl, fun _ => rfl⟩
    | false => exact ⟨fun h => (by cases h), fun h => (by cases h)⟩
  have hjson : (entries >>= fun _ => .ok ()) = .ok () ↔ ∃ b, entries = .ok b := by
    cases entries with
    | ok b => exact ⟨fun _ => ⟨b, rfl⟩, fun _ => rfl⟩
    | error f => exact ⟨fun h => (by cases h), fun ⟨_, h⟩ => (by cases h)⟩
  refine ⟨?_, ?_, ?_⟩
  · intro h
    have hwritten : ∃ a, lines = .ok a := by
      cases lines with
      | ok a => exact ⟨a, rfl⟩
      | error f => cases h
    have hshorts := hlines.mp hwritten
    rw [hjson, hentries]
    exact ⟨fun hall v hv => (hall v hv).1, fun hall v hv => ⟨hall v hv, hshorts v hv⟩⟩
  · intro h
    have hshorts := fun v hv => (hentries.mp (hjson.mp h) v hv).2
    obtain ⟨a, ha⟩ := hlines.mpr hshorts
    exact htext a ha
  · intro h
    obtain ⟨a, ha⟩ := hlines.mpr fun v hv => (h v hv).2.2
    rw [(htext a ha).mpr fun v hv => (h v hv).2.1]
    exact (hjson.mpr (hentries.mpr fun v hv => ⟨(h v hv).1, (h v hv).2.2⟩)).symm

theorem mem_shownIn {fs : List PropertyFacts} {v : Value} :
    v ∈ shownIn fs ↔ ∃ f ∈ fs, f.default = .ok v := by
  unfold shownIn
  rw [List.mem_filterMap]
  refine exists_congr fun f => and_congr_right fun _ => ?_
  cases f.default with
  | ok u => exact ⟨fun h => by rw [Option.some.inj h], fun h => by rw [Except.ok.inj h]; rfl⟩
  | error message => exact ⟨fun h => (by cases h), fun h => (by cases h)⟩

/-- The facts of a property can be a member of a report exactly if its default has a JSON
form. -/
theorem members_ok_iff (f : PropertyFacts) :
    (∃ members, f.members Value.toJson = .ok members)
      ↔ ∀ v, f.default = .ok v → v.isSortable = true ∧ v.isShort = true := by
  unfold PropertyFacts.members
  cases f.default with
  | error message => exact ⟨fun _ _ h => (by cases h), fun _ => ⟨_, rfl⟩⟩
  | ok v =>
    simp only [Except.ok.injEq, forall_eq', ← Value.toJson_ok_iff]
    cases v.toJson with
    | error g => exact ⟨fun ⟨_, h⟩ => (by cases h), fun ⟨_, h⟩ => (by cases h)⟩
    | ok j => exact ⟨fun _ => ⟨j, rfl⟩, fun _ => ⟨_, rfl⟩⟩

theorem members_free {f : PropertyFacts} {members : List (String × Json)}
    (h : f.members Value.toJson = .ok members) :
    (members.any fun m => Report.reservedNames.contains m.1) = false := by
  unfold PropertyFacts.members at h
  cases hd : f.default with
  | error message =>
    rw [hd] at h
    cases h
    rfl
  | ok v =>
    rw [hd] at h
    simp only at h
    cases hj : v.toJson with
    | error g => rw [hj] at h; cases h
    | ok j =>
      rw [hj] at h
      cases h
      rfl

/-- The default of a property can be in a table exactly if it is short, and be printed exactly
if it is encodable. -/
theorem cellOf_ok_iff {f : PropertyFacts} (hf : Complete f) :
    ((∃ t, cellOf f = .ok t) ↔ ∀ v, f.default = .ok v → v.isShort = true)
      ∧ ∀ t, cellOf f = .ok t →
        (t.isEncodable = true ↔ ∀ v, f.default = .ok v → v.isEncodable = true) := by
  unfold cellOf
  cases hd : f.hasDefault with
  | false =>
    rw [hf hd]
    refine ⟨⟨fun _ v h => ?_, fun _ => ⟨_, rfl⟩⟩, fun t ht => ⟨fun _ v h => ?_, fun _ => ?_⟩⟩
    · cases h
      rfl
    · cases h
      rfl
    · cases ht
      rfl
  | true =>
    cases f.default with
    | error message =>
      refine ⟨⟨fun _ _ h => (by cases h), fun _ => ⟨_, rfl⟩⟩, fun t ht => ⟨fun _ _ h => (by cases h),
        fun _ => ?_⟩⟩
      cases ht
      exact Text.isEncodable_ofString _
    | ok v =>
      simp only [Except.ok.injEq, forall_eq']
      refine ⟨v.exported_ok_iff, fun t ht => ?_⟩
      rw [← Value.literal_isEncodable, Value.literal_of_exported ht]

/-- A line of a class's table can be made exactly if its default is short; it has no more
cells than the table has columns, and can be printed exactly if the default is encodable. -/
theorem rowOf_ok_iff (c : ReflectedClass) {f : PropertyFacts} (hf : Complete f) :
    ((∃ row, rowOf c f = .ok row) ↔ ∀ v, f.default = .ok v → v.isShort = true)
      ∧ ∀ row, rowOf c f = .ok row → row.length ≤ propertyHeaders.length
        ∧ (row.all Text.isEncodable = true ↔ ∀ v, f.default = .ok v → v.isEncodable = true) := by
  obtain ⟨hshort, hencodable⟩ := cellOf_ok_iff hf
  rw [← hshort]
  unfold rowOf
  cases hcell : cellOf f with
  | error g => exact ⟨⟨fun ⟨_, h⟩ => (by cases h), fun ⟨_, h⟩ => (by cases h)⟩, fun _ h => (by cases h)⟩
  | ok t =>
    refine ⟨⟨fun _ => ⟨t, rfl⟩, fun _ => ⟨_, rfl⟩⟩, fun row h => ?_⟩
    cases h
    refine ⟨Nat.le_refl 6, ?_⟩
    rw [← hencodable t hcell]
    simp only [List.all_cons, List.all_nil, Text.isEncodable_ofString, Bool.true_and, Bool.and_true]

/-- The lines of a class's table, by the facts of the properties. -/
theorem rowsOf_ok_iff (c : ReflectedClass) {fs : List PropertyFacts} (hfs : ∀ f ∈ fs, Complete f) :
    ((∃ rows, fs.mapM (rowOf c) = .ok rows) ↔ ∀ v ∈ shownIn fs, v.isShort = true)
      ∧ ∀ rows, fs.mapM (rowOf c) = .ok rows →
        (∀ row ∈ rows, row.length ≤ propertyHeaders.length)
          ∧ ((rows.all fun row => row.all Text.isEncodable) = true
            ↔ ∀ v ∈ shownIn fs, v.isEncodable = true) := by
  constructor
  · rw [mapM_ok_iff]
    simp only [mem_shownIn]
    constructor
    · rintro h v ⟨f, hf, hv⟩
      exact (rowOf_ok_iff c (hfs f hf)).1.mp (h f hf) v hv
    · intro h f hf
      exact (rowOf_ok_iff c (hfs f hf)).1.mpr fun v hv => h v ⟨f, hf, hv⟩
  · induction fs with
    | nil =>
      intro rows h
      cases h
      exact ⟨fun _ h => (by cases h), fun _ _ h => (by cases h), fun _ => rfl⟩
    | cons f fs ih =>
      obtain ⟨hf, hothers⟩ := List.forall_mem_cons.mp hfs
      intro rows h
      rw [List.mapM_cons] at h
      cases hrow : rowOf c f with
      | error g => rw [hrow] at h; cases h
      | ok row =>
        rw [hrow, ok_bind] at h
        cases hmore : fs.mapM (rowOf c) with
        | error g => rw [hmore] at h; cases h
        | ok more =>
          rw [hmore] at h
          cases h
          obtain ⟨hlength, hencodable⟩ := (rowOf_ok_iff c hf).2 row hrow
          obtain ⟨hlengths, hall⟩ := ih hothers more hmore
          refine ⟨List.forall_mem_cons.mpr ⟨hlength, hlengths⟩, ?_⟩
          rw [List.all_cons, Bool.and_eq_true, hencodable, hall]
          simp only [mem_shownIn, List.mem_cons]
          constructor
          · rintro ⟨hhere, hthere⟩ v ⟨g, rfl | hg, hv⟩
            · exact hhere v hv
            · exact hthere v ⟨g, hg, hv⟩
          · exact fun h => ⟨fun v hv => h v ⟨f, .inl rfl, hv⟩,
              fun v ⟨g, hg, hv⟩ => h v ⟨g, .inr hg, hv⟩⟩

/-- The entries of a class's report, by the facts of the properties. -/
theorem entriesOf_ok_iff (fs : List PropertyFacts) :
    (∃ entries, fs.mapM factsJson = .ok entries)
      ↔ ∀ v ∈ shownIn fs, v.isSortable = true ∧ v.isShort = true := by
  have hentry (f : PropertyFacts) : (∃ entry, factsJson f = .ok entry)
      ↔ ∃ members, f.members Value.toJson = .ok members := by
    unfold factsJson
    cases f.members Value.toJson with
    | ok members => exact ⟨fun _ => ⟨members, rfl⟩, fun _ => ⟨_, rfl⟩⟩
    | error g => exact ⟨fun ⟨_, h⟩ => (by cases h), fun ⟨_, h⟩ => (by cases h)⟩
  rw [mapM_ok_iff]
  simp only [hentry, members_ok_iff, mem_shownIn]
  exact ⟨fun h v ⟨f, hf, hv⟩ => h f hf v hv, fun h f hf v hv => h v ⟨f, hf, hv⟩⟩

/-- Printing a class as text, by the lines of its table. -/
theorem outcome_tabulateClass {c : ReflectedClass} {ps : List Property} {s : Store}
    (h : ∀ rows, outcome (ps.mapM (propertyRow c)) s = .ok rows →
      ∀ row ∈ rows, row.length ≤ propertyHeaders.length) (out : String) :
    outcome (tabulateClass c ps) (s, out)
      = (outcome (ps.mapM (propertyRow c)) s >>= fun rows =>
        if rows.all fun row => row.all Text.isEncodable then .ok ()
        else fault .unencodableOutput) := by
  obtain ⟨first, hfirst⟩ := exists_after_echo (classHeader c) s out
  obtain ⟨second, hsecond⟩ := exists_after_echo ("  " ++ placeOf c) s first
  unfold tabulateClass
  rw [outcome_bind_ok (outcome_echo _ _), hfirst, outcome_bind_ok (outcome_echo _ _), hsecond,
    outcome_bind, (ask_run _ s second).1]
  cases hrows : outcome (ps.mapM (propertyRow c)) s with
  | error f => rfl
  | ok rows =>
    obtain ⟨t, htable, hencodable⟩ := Report.table_ok propertyHeaders rows rfl (h rows hrows)
    simp only [ok_bind]
    rw [outcome_bind_ok (outcome_echo _ _), htable, outcome_bind_ok (lift_run _ _).1,
      outcome_echoText, ← hencodable]
    have htitled (title : Text) (htitle : title.isEncodable = true) :
        (Report.titled title [t] 0).isEncodable = t.isEncodable := by
      show (Report.joinLines [title, t]).isEncodable = _
      rw [Report.isEncodable_joinLines, List.all_cons, htitle, List.all_cons, List.all_nil,
        Bool.true_and, Bool.and_true]
    rw [htitled _ (Text.isEncodable_ofString _)]

/-- Printing a class as a report, by the facts of its properties. -/
theorem outcome_reportClass (c : ReflectedClass) (ps : List Property) (s : Store) (out : String) :
    outcome (reportClass c ps) (s, out)
      = (outcome (ps.mapM PropertyFacts.of) s >>= fun fs =>
        fs.mapM factsJson >>= fun _ => .ok ()) := by
  unfold reportClass
  rw [outcome_bind, (ask_run _ s out).1]
  cases outcome (ps.mapM PropertyFacts.of) s with
  | error f => rfl
  | ok fs =>
    simp only [ok_bind]
    rw [outcome_bind, (lift_run _ _).1]
    cases fs.mapM factsJson with
    | error f => rfl
    | ok entries => exact outcome_echoReport _ _ rfl _

/-- A class as text and as JSON. -/
theorem class_agrees (c : ReflectedClass) (ps : List Property) (s : Store) (out : String) :
    Agreeing (outcome (tabulateClass c ps) (s, out)) (outcome (reportClass c ps) (s, out))
      (shownIn (factsUntil s ps)) := by
  have hcomplete := factsUntil_complete ps s
  obtain ⟨hshort, hrows⟩ := rowsOf_ok_iff c hcomplete
  have hcells : (∀ v ∈ shownIn (factsUntil s ps), v.isShort = true)
      → ∀ f ∈ factsUntil s ps, ∃ t, cellOf f = .ok t := fun h f hf =>
    (cellOf_ok_iff (hcomplete f hf)).1.mpr fun v hv => h v (mem_shownIn.mpr ⟨f, hf, hv⟩)
  rw [outcome_tabulateClass fun rows h => (hrows rows (rows_of_ok h).2).1, outcome_reportClass]
  cases hall : outcome (ps.mapM PropertyFacts.of) s with
  | error f =>
    refine ⟨fun htext => ?_, fun hjson => (by cases hjson), fun hplain => ?_⟩
    · cases hlines : outcome (ps.mapM (propertyRow c)) s with
      | error g => rw [hlines] at htext; cases htext
      | ok rows =>
        have hnone := (rows_of_ok hlines).1
        rw [hall] at hnone
        cases hnone
    · rw [outcome_rows (hcells fun v hv => (hplain v hv).2.2), hall]
      rfl
  | ok fs =>
    obtain rfl := factsUntil_of_ok hall
    refine Agreeing.of_written ?_ (fun rows h => (hrows rows (rows_of_ok h).2).2)
      (entriesOf_ok_iff (factsUntil s ps))
    rw [← hshort]
    constructor
    · rintro ⟨rows, h⟩
      exact ⟨rows, (rows_of_ok h).2⟩
    · rintro ⟨rows, h⟩
      rw [outcome_rows (hcells (hshort.mp ⟨rows, h⟩)), hall]
      exact ⟨rows, h⟩

/-! ## A property -/

/-- The lines of a property from that of its default value on. -/
def tabulateDefault (f : PropertyFacts) : Printing Unit := do
  match f.default with
  | .error message => echo ("  default      <unfoldable: " ++ message ++ ">")
  | .ok v =>
    if f.hasDefault then
      echoText (Text.ofString "  default      " ++ (← Printing.lift v.exported))
  if !f.docTypes.isEmpty then echo ("  @var         " ++ String.intercalate " | " f.docTypes)
  echo ("  lines        " ++ lineRange f.span)
  (Lines.split f.docComment).forM fun line => echo ("  | " ++ Blank.strip line)

theorem outcome_tabulateDefault (f : PropertyFacts) (st : Store × String) :
    outcome (tabulateDefault f) st
      = (cellOf f >>= fun t => if t.isEncodable then .ok () else fault .unencodableOutput) := by
  have hend (st : Store × String) : outcome (do
      if !f.docTypes.isEmpty then echo ("  @var         " ++ String.intercalate " | " f.docTypes)
      echo ("  lines        " ++ lineRange f.span)
      (Lines.split f.docComment).forM fun line => echo ("  | " ++ Blank.strip line)) st
        = .ok () := by
    cases f.docTypes.isEmpty with
    | true => exact outcome_echo_bind (outcome_echo_forM _ _) st
    | false => exact outcome_echo_bind (outcome_echo_bind (outcome_echo_forM _ _)) st
  unfold tabulateDefault cellOf
  cases hhas : f.hasDefault with
  | false =>
    cases f.default with
    | error message => exact outcome_echo_bind hend st
    | ok v => exact hend st
  | true =>
    cases f.default with
    | error message =>
      have hwritten : (Text.ofString "<unfoldable>").isEncodable = true :=
        Text.isEncodable_ofString _
      show _ = if (Text.ofString "<unfoldable>").isEncodable = true then Except.ok ()
        else fault .unencodableOutput
      rw [if_pos hwritten]
      exact outcome_echo_bind hend st
    | ok v =>
      show outcome (Printing.lift v.exported >>= fun t => echoText _ >>= fun _ => _) st
        = (v.exported >>= _)
      rw [outcome_bind, (lift_run _ st).1, (lift_run v.exported st).2]
      cases v.exported with
      | error g => rfl
      | ok t =>
        simp only [ok_bind]
        rw [outcome_bind, outcome_echoText, Text.isEncodable_append, Text.isEncodable_ofString,
          Bool.true_and]
        cases t.isEncodable with
        | false => rfl
        | true => exact hend _

/-- Printing a property as text, by its facts. -/
theorem outcome_tabulateProperty (f : PropertyFacts) (st : Store × String) :
    outcome (tabulateProperty f) st
      = (cellOf f >>= fun t => if t.isEncodable then .ok () else fault .unencodableOutput) := by
  unfold tabulateProperty
  refine outcome_echo_bind (outcome_echo_bind (outcome_echo_bind fun st => ?_)) st
  -- the default comes after a line for the type, which there may or may not be
  cases f.typeText.filter (!·.isEmpty) with
  | none => exact outcome_tabulateDefault f st
  | some type => exact outcome_echo_bind (outcome_tabulateDefault f) st

/-- Printing a property as a report, by its facts. -/
theorem outcome_reportProperty (f : PropertyFacts) (st : Store × String) :
    outcome (do
        let members ← Printing.lift (f.members Value.toJson)
        echoReport "property" [("name", .ofString f.name)] members) st
      = (f.members Value.toJson >>= fun _ => .ok ()) := by
  rw [outcome_bind, (lift_run _ st).1]
  cases hmembers : f.members Value.toJson with
  | error g => rfl
  | ok members => exact outcome_echoReport _ _ (members_free hmembers) _

/-- A property as text and as JSON. -/
theorem property_agrees (p : Property) (s : Store) (out : String) :
    Agreeing (outcome (ask (PropertyFacts.of p) >>= tabulateProperty) (s, out))
      (outcome (ask (PropertyFacts.of p) >>= fun facts => do
        let members ← Printing.lift (facts.members Value.toJson)
        echoReport "property" [("name", .ofString facts.name)] members) (s, out))
      (shownIn (factsUntil s [p])) := by
  have hcomplete := facts_complete p s
  rw [outcome_bind, outcome_bind, (ask_run _ s out).1, factsUntil]
  cases hfacts : outcome (PropertyFacts.of p) s with
  | error f => exact ⟨fun h => (by cases h), fun h => (by cases h), fun _ => rfl⟩
  | ok f =>
    obtain ⟨hshort, hencodable⟩ := cellOf_ok_iff (hcomplete f hfacts)
    have hmembers := members_ok_iff f
    have hone (P : Value → Prop) : (∀ v ∈ shownIn [f], P v) ↔ ∀ v, f.default = .ok v → P v := by
      simp only [mem_shownIn, List.mem_singleton, exists_eq_left]
    simp only
    rw [outcome_tabulateProperty, outcome_reportProperty]
    refine Agreeing.of_written ?_ (fun t ht => ?_) ?_
    · rw [hshort]
      exact (hone _).symm
    · rw [hencodable t ht]
      exact (hone _).symm
    · rw [hmembers]
      exact (hone _).symm

/-! ## All classes -/

/-- The entry and the line of a class fail together, and the line fits the table. -/
theorem classRow_run (c : ReflectedClass) (s : Store) :
    after (classRow c) s = after (classEntry c) s
      ∧ ((∃ f, outcome (classEntry c) s = .error f ∧ outcome (classRow c) s = .error f)
        ∨ ∃ entry row, outcome (classEntry c) s = .ok entry ∧ outcome (classRow c) s = .ok row
          ∧ row.length ≤ 4 ∧ row.all Text.isEncodable = true) := by
  unfold classRow classEntry
  rw [outcome_bind, outcome_bind, after_bind, after_bind]
  cases outcome (Reflector.immediateProperties c) s with
  | error f => exact ⟨rfl, .inl ⟨f, rfl, rfl⟩⟩
  | ok ps =>
    refine ⟨rfl, .inr ⟨_, _, rfl, rfl, Nat.le_refl 4, ?_⟩⟩
    rw [List.all_map, List.all_eq_true]
    exact fun text _ => Text.isEncodable_ofString text

theorem classRows_run (cs : List ReflectedClass) (s : Store) :
    (∃ f, outcome (cs.mapM classEntry) s = .error f ∧ outcome (cs.mapM classRow) s = .error f)
      ∨ ∃ entries rows, outcome (cs.mapM classEntry) s = .ok entries
        ∧ outcome (cs.mapM classRow) s = .ok rows
        ∧ ∀ row ∈ rows, row.length ≤ 4 ∧ row.all Text.isEncodable = true := by
  induction cs generalizing s with
  | nil => exact .inr ⟨[], [], rfl, rfl, fun _ h => (by cases h)⟩
  | cons c cs ih =>
    obtain ⟨hafter, ⟨f, hentry, hrow⟩ | ⟨entry, row, hentry, hrow, hfits⟩⟩ := classRow_run c s
    · rw [List.mapM_cons, List.mapM_cons, outcome_bind_error hentry, outcome_bind_error hrow]
      exact .inl ⟨f, rfl, rfl⟩
    · rw [List.mapM_cons, List.mapM_cons, outcome_bind_ok hentry, outcome_bind_ok hrow, hafter]
      obtain ⟨f, hentries, hrows⟩ | ⟨entries, rows, hentries, hrows, hall⟩ :=
        ih (after (classEntry c) s)
      · rw [outcome_bind_error hentries, outcome_bind_error hrows]
        exact .inl ⟨f, rfl, rfl⟩
      · rw [outcome_bind_ok hentries, outcome_bind_ok hrows]
        exact .inr ⟨_, _, rfl, rfl, List.forall_mem_cons.mpr ⟨hfits, hall⟩⟩

/-- All classes as text and as JSON: there is no default in either. -/
theorem classes_agree (st : Store × String) :
    outcome (printClasses false) st = outcome (printClasses true) st := by
  obtain ⟨s, out⟩ := st
  unfold printClasses
  rw [outcome_bind, outcome_bind, (ask_run _ s out).1, (ask_run _ s out).2]
  cases outcome Reflector.allClasses s with
  | error f => rfl
  | ok found =>
    generalize after Reflector.allClasses s = t
    simp only [Bool.false_eq_true, if_false, if_true]
    rw [outcome_bind, outcome_bind, (ask_run _ t out).1, (ask_run _ t out).1]
    obtain ⟨f, hentries, hrows⟩ | ⟨entries, rows, hentries, hrows, hfits⟩ := classRows_run found t
    · rw [hentries, hrows]
    · obtain ⟨table, htable, hencodable⟩ := Report.table_ok
        (["kind", "name", "props", "location"].map Text.ofString) rows rfl
        fun row hrow => (hfits row hrow).1
      have hprintable : table.isEncodable = true := by
        rw [hencodable, List.all_eq_true]
        exact fun row hrow => (hfits row hrow).2
      rw [hentries, hrows]
      simp only
      rw [htable, outcome_bind_ok (lift_run _ _).1, outcome_echoText, if_pos hprintable]
      exact (outcome_echoReport _ _ rfl _).symm

/-! ## Commands -/

/-- The default values that a command shows: those it finds before it fails. -/
def Command.shown (s : Store) : Command → List Value
  | .classes => []
  | .showClass identifier inherited =>
    match outcome (Reflector.reflect identifier) s with
    | .error _ => []
    | .ok c =>
      let found := after (Reflector.reflect identifier) s
      let listing := if inherited then Reflector.properties c else Reflector.immediateProperties c
      match outcome listing found with
      | .error _ => []
      | .ok ps => shownIn (factsUntil (after listing found) ps)
  | .showProperty identifier name =>
    match outcome (Reflector.propertyOf identifier name) s with
    | .error _ => []
    | .ok p => shownIn (factsUntil (after (Reflector.propertyOf identifier name) s) [p])

theorem Agreeing.of_eq {text json : Outcome Unit} (h : text = json) : Agreeing text json [] := by
  subst h
  have hnone {P : Value → Prop} : ∀ v ∈ [], P v := fun _ hv => by cases hv
  exact ⟨fun htext => ⟨fun _ => hnone, fun _ => htext⟩, fun htext => ⟨fun _ => hnone, fun _ => htext⟩,
    fun _ => rfl⟩

/-- A command as text and as JSON. -/
theorem print_agrees (command : Command) (s : Store) (out : String) :
    Agreeing (outcome (print false command) (s, out)) (outcome (print true command) (s, out))
      (command.shown s) := by
  cases command with
  | classes => exact Agreeing.of_eq (classes_agree (s, out))
  | showClass identifier inherited =>
    unfold print printClass Command.shown
    simp only [outcome_bind, ask_run]
    cases outcome (Reflector.reflect identifier) s with
    | error f => exact Agreeing.of_eq rfl
    | ok c =>
      simp only
      generalize after (Reflector.reflect identifier) s = t
      generalize (if inherited = true then Reflector.properties c
        else Reflector.immediateProperties c) = listing
      cases outcome listing t with
      | error f => exact Agreeing.of_eq rfl
      | ok ps => exact class_agrees c ps (after listing t) out
  | showProperty identifier name =>
    unfold print printProperty Command.shown
    simp only [Bool.false_eq_true, if_false, if_true]
    rw [outcome_bind, outcome_bind, (ask_run _ s out).1, (ask_run _ s out).2]
    generalize after (Reflector.propertyOf identifier name) s = t
    cases outcome (Reflector.propertyOf identifier name) s with
    | error f => exact Agreeing.of_eq rfl
    | ok p => exact property_agrees p t out

/-! ## Exit codes -/

theorem ofFailure_ne_zero (f : Failure) : ExitCode.ofFailure f ≠ 0 := by
  have hkind (kind : ErrorKind) : kind.exitCode ≠ 0 := by
    cases kind <;> decide
  unfold ExitCode.ofFailure
  cases f.kind? with
  | none => decide
  | some kind => exact hkind kind

/-- A failure ends with its exit code, whatever was printed before it. -/
theorem exitCode_ofFailure (output : String) (f : Failure) :
    (Answer.ofFailure output f).exitCode = ExitCode.ofFailure f := by
  cases f <;> rfl

/-- An outcome of printing as an exit code. -/
def exitCodeOf : Outcome Unit → Nat
  | .ok () => 0
  | .error f => ExitCode.ofFailure f

theorem exitCodeOf_eq_zero_iff (o : Outcome Unit) : exitCodeOf o = 0 ↔ o = .ok () := by
  cases o with
  | ok u => exact ⟨fun _ => rfl, fun _ => rfl⟩
  | error f => exact ⟨fun h => absurd h (ofFailure_ne_zero f), fun h => (by cases h)⟩

/-- The store that a command begins with; none if it is used wrongly, or the project of its
sources cannot be read. -/
def Invocation.store? (i : Invocation) (t : FileTree) (devRequest : Option String) :
    Except Nat Store :=
  let given := givenLocators i.sources
  let root := projectRoot? i.sources t
  if !i.sources.areThere t || (given.isEmpty && root.isNone) then .error Answer.wrongUse.exitCode
  else
    match root with
    | none => .ok (Store.ofWorld ⟨t, [], given, []⟩)
    | some path =>
      match Locator.ofProject t path (ProjectConfig.asksForDev devRequest) with
      | .error f => .error (ExitCode.ofFailure f)
      | .ok locator => .ok (Store.ofWorld ⟨t, [], given ++ [locator], []⟩)

/-- The answer after printing, with what was printed. -/
def Answer.ofPrinting (r : Except Failure Unit × Store × String) : Answer :=
  let (outcome, _, output) := r
  match outcome with
  | .ok () => ⟨0, output, "", none⟩
  | .error f => Answer.ofFailure output f

theorem Answer.exitCode_ofPrinting (r : Except Failure Unit × Store × String) :
    (Answer.ofPrinting r).exitCode = exitCodeOf r.1 := by
  obtain ⟨o, st, output⟩ := r
  cases o with
  | ok u => rfl
  | error f => exact exitCode_ofFailure output f

/-- The exit code of a command, by the store that it begins with. -/
theorem exitCode_answer (i : Invocation) (t : FileTree) (devRequest : Option String) :
    (i.answer t devRequest).exitCode = match i.store? t devRequest with
      | .error code => code
      | .ok s => exitCodeOf (outcome (print i.json i.command) (s, "")) := by
  have hrun (s : Store) : (Answer.ofPrinting ((print i.json i.command).run (s, ""))).exitCode
      = exitCodeOf (outcome (print i.json i.command) (s, "")) :=
    Answer.exitCode_ofPrinting _
  unfold Invocation.answer Invocation.store?
  simp only
  cases !i.sources.areThere t || ((givenLocators i.sources).isEmpty
    && (projectRoot? i.sources t).isNone) with
  | true => rfl
  | false =>
    simp only [Bool.false_eq_true, if_false]
    cases projectRoot? i.sources t with
    | none =>
      simp only [List.append_nil]
      exact hrun _
    | some path =>
      simp only
      cases Locator.ofProject t path (ProjectConfig.asksForDev devRequest) with
      | error f => exact exitCode_ofFailure "" f
      | ok locator => exact hrun _

/-- The default values that a command shows over its sources. -/
def Invocation.shown (i : Invocation) (t : FileTree) (devRequest : Option String) : List Value :=
  match i.store? t devRequest with
  | .error _ => []
  | .ok s => i.command.shown s

/-- Values have a JSON form exactly if the keys of each map in them have an order and no integer
is too long to write. Where a command succeeds in one of its modes, it succeeds in the other one
exactly if that can write all values shown; if they are plain, both end with the same exit code. -/
theorem Invocation.modes_agree (i : Invocation) (t : FileTree) (devRequest : Option String) :
    let text := ({ i with json := false }.answer t devRequest).exitCode
    let json := ({ i with json := true }.answer t devRequest).exitCode
    let shown := i.shown t devRequest
    (∀ v : Value, (∃ written, v.toJson = .ok written) ↔ v.isSortable = true ∧ v.isShort = true)
      ∧ (text = 0 → (json = 0 ↔ ∀ v ∈ shown, v.isSortable = true))
      ∧ (json = 0 → (text = 0 ↔ ∀ v ∈ shown, v.isEncodable = true))
      ∧ ((∀ v ∈ shown, v.isSortable = true ∧ v.isEncodable = true ∧ v.isShort = true) →
        text = json) := by
  intro text json shown
  refine ⟨Value.toJson_ok_iff, ?_⟩
  have hmode (j : Bool) : ({ i with json := j }.answer t devRequest).exitCode
      = match i.store? t devRequest with
        | .error code => code
        | .ok s => exitCodeOf (outcome (print j i.command) (s, "")) :=
    exitCode_answer { i with json := j } t devRequest
  have htext : text = _ := hmode false
  have hjson : json = _ := hmode true
  have hshown : shown = match i.store? t devRequest with
      | .error _ => []
      | .ok s => i.command.shown s := rfl
  cases hstore : i.store? t devRequest with
  | error code =>
    rw [hstore] at htext hjson hshown
    simp only at htext hjson hshown
    rw [htext, hjson, hshown]
    have hnone {P : Value → Prop} : ∀ v ∈ [], P v := fun _ hv => by cases hv
    exact ⟨fun h => ⟨fun _ => hnone, fun _ => h⟩, fun h => ⟨fun _ => hnone, fun _ => h⟩, fun _ => rfl⟩
  | ok s =>
    rw [hstore] at htext hjson hshown
    simp only at htext hjson hshown
    rw [htext, hjson, hshown]
    obtain ⟨hsortable, hencodable, hplain⟩ := print_agrees i.command s ""
    simp only [exitCodeOf_eq_zero_iff]
    exact ⟨hsortable, hencodable, fun h => congrArg exitCodeOf (hplain h)⟩

/-- A property whose default has an integer and a text among its keys. -/
def mixedKeys : Invocation :=
  ⟨false, .showProperty "A" "x",
    ⟨[], some "<?php class A \x7b public $x = [1 => 'a', 'x' => 'b']; \x7d", none⟩⟩

/-- Text mode shows keys that have no order, and JSON mode fails on them. -/
theorem modes_agree_mixedKeys :
    ∃ v ∈ mixedKeys.shown (FileTree.empty []) none, v.isSortable = false := by
  have htext : ({ mixedKeys with json := false }.answer (FileTree.empty []) none).exitCode = 0 := by
    decide +kernel
  have hjson : ({ mixedKeys with json := true }.answer (FileTree.empty []) none).exitCode = 1 := by
    decide +kernel
  have hiff := (Invocation.modes_agree mixedKeys (FileTree.empty []) none).2.1 htext
  refine Classical.byContradiction fun hnone => ?_
  simp only [not_exists, not_and, Bool.not_eq_false] at hnone
  have hfine := hiff.mpr hnone
  rw [hjson] at hfine
  cases hfine

end CommandLine

end StaticReflection
