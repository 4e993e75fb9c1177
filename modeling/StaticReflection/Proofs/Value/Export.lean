import StaticReflection.Proofs.Value.Outcome
import StaticReflection.Value.Export

/-!
# Which values can be written

A value is written as a PHP literal and as JSON. Three things can stand in the way: an
integer that is too long for any text (`Value.isShort`), a map with integer and text keys,
which JSON puts in order (`Value.isSortable`), and a text with a surrogate, which has a
literal and JSON but no output as characters (`Value.isEncodable`).

> `Value.toJson_ok_iff`: a value has a JSON form exactly if it is short and sortable.

> `Value.literal_isEncodable`: a literal can be printed exactly if the value is encodable.
-/

namespace StaticReflection

open Outcome

/-! ## Texts without surrogates -/

namespace Text

/-- Whether all code points of a text are characters. -/
def isEncodable (t : Text) : Bool := t.codes.all fun c => c.toChar?.isSome

@[simp] theorem isEncodable_append (s t : Text) :
    (s ++ t).isEncodable = (s.isEncodable && t.isEncodable) := List.all_append

@[simp] theorem isEncodable_ofString (s : String) : (ofString s).isEncodable = true := by
  unfold isEncodable ofString
  rw [List.all_map, List.all_eq_true]
  intro c _
  show (CodePoint.ofChar c).toChar?.isSome = true
  rw [CodePoint.toChar?_ofChar]
  rfl

/-- Texts that are joined by characters are all encodable if the whole is. -/
theorem isEncodable_join {sep : Text} (hsep : sep.isEncodable = true) (ts : List Text) :
    (join sep ts).isEncodable = ts.all isEncodable := by
  induction ts with
  | nil => rfl
  | cons t rest ih =>
    cases rest with
    | nil => rw [join, List.all_cons, List.all_nil, Bool.and_true]
    | cons u more =>
      rw [join, isEncodable_append, isEncodable_append, hsep, Bool.and_true, ih]
      rfl

/-- A text is a string exactly if all its code points are characters. -/
theorem toString?_isSome (t : Text) : t.toString?.isSome = t.isEncodable := by
  unfold toString? isEncodable
  rw [Option.isSome_map]
  induction t.codes with
  | nil => rfl
  | cons c rest ih =>
    rw [List.mapM_cons, List.all_cons, ← ih]
    cases c.toChar? with
    | none => rfl
    | some ch => cases rest.mapM CodePoint.toChar? <;> rfl

theorem escapeQuoted_encodable (c : CodePoint) :
    (escapeQuoted c).all (fun d => d.toChar?.isSome) = c.toChar?.isSome := by
  unfold escapeQuoted
  split
  · rw [List.all_cons, List.all_cons, List.all_nil, Bool.and_true]
    rfl
  · rw [List.all_cons, List.all_nil, Bool.and_true]

@[simp] theorem singleQuoted_isEncodable (t : Text) : t.singleQuoted.isEncodable = t.isEncodable := by
  unfold singleQuoted isEncodable
  rw [List.cons_append, List.all_cons, List.all_append, List.all_flatMap]
  simp only [escapeQuoted_encodable]
  rw [Bool.and_comm, Bool.and_assoc]
  exact Bool.and_true _

end Text

namespace Value

mutual

/-- Whether no map in a value has both integer and text keys. -/
def isSortable : Value → Bool
  | .list items => itemsAreSortable items
  | .map entries =>
    !(entries.any (isIntKey ·.1) && entries.any (!isIntKey ·.1)) && entriesAreSortable entries
  | _ => true

/-- Whether no map in some items has both integer and text keys. -/
def itemsAreSortable : List Value → Bool
  | [] => true
  | v :: rest => isSortable v && itemsAreSortable rest

/-- Whether no map in the values of some entries has both integer and text keys. -/
def entriesAreSortable : List (Key × Value) → Bool
  | [] => true
  | (_, v) :: rest => isSortable v && entriesAreSortable rest

end

mutual

/-- Whether no text in a value, among its keys neither, has a surrogate. -/
def isEncodable : Value → Bool
  | .text t => t.isEncodable
  | .list items => itemsAreEncodable items
  | .map entries => entriesAreEncodable entries
  | _ => true

/-- Whether no text in some items has a surrogate. -/
def itemsAreEncodable : List Value → Bool
  | [] => true
  | v :: rest => isEncodable v && itemsAreEncodable rest

/-- Whether no text in some entries has a surrogate. -/
def entriesAreEncodable : List (Key × Value) → Bool
  | [] => true
  | (k, v) :: rest => k.toValue.toText.isEncodable && isEncodable v && entriesAreEncodable rest

end

end Value

theorem Key.literal_isEncodable (k : Key) :
    k.literal.isEncodable = k.toValue.toText.isEncodable := by
  cases k with
  | int n => rfl
  | text t => exact t.singleQuoted_isEncodable

namespace Value

mutual

/-- The literal of a value has surrogates exactly if the value has. -/
theorem literal_isEncodable : (v : Value) → v.literal.isEncodable = v.isEncodable
  | .null | .bool _ | .int _ | .float _ | .constantNaN _ => Text.isEncodable_ofString _
  | .text t => t.singleQuoted_isEncodable
  | .list items => by
    rw [literal, isEncodable, Text.isEncodable_append, Text.isEncodable_append,
      Text.isEncodable_join (Text.isEncodable_ofString _), literalItems_isEncodable items]
    simp only [Text.isEncodable_ofString, Bool.true_and, Bool.and_true]
  | .map entries => by
    rw [literal, isEncodable, Text.isEncodable_append, Text.isEncodable_append,
      Text.isEncodable_join (Text.isEncodable_ofString _), literalEntries_isEncodable entries]
    simp only [Text.isEncodable_ofString, Bool.true_and, Bool.and_true]

theorem literalItems_isEncodable : (items : List Value) →
    (literalItems items).all Text.isEncodable = itemsAreEncodable items
  | [] => rfl
  | v :: rest => by
    rw [literalItems, itemsAreEncodable, List.all_cons, literal_isEncodable v,
      literalItems_isEncodable rest]

theorem literalEntries_isEncodable : (entries : List (Key × Value)) →
    (literalEntries entries).all Text.isEncodable = entriesAreEncodable entries
  | [] => rfl
  | (k, v) :: rest => by
    rw [literalEntries, entriesAreEncodable, List.all_cons, Text.isEncodable_append,
      Text.isEncodable_append, k.literal_isEncodable, literal_isEncodable v,
      literalEntries_isEncodable rest, Text.isEncodable_ofString, Bool.and_true]

end

/-! ## JSON forms -/

theorem any_entriesToJson (p : Key → Bool) (entries : List (Key × Value)) :
    (entriesToJson entries).any (fun e => p e.1) = entries.any fun e => p e.1 := by
  induction entries with
  | nil => rfl
  | cons e rest ih =>
    rw [entriesToJson, List.any_cons, List.any_cons, ih]

/-- A member of an object, as an entry of a map is written. -/
def member (e : Key × Outcome Json) : Outcome (Text × Json) := do return (← keyName e.1, ← e.2)

/-- A member can be written exactly if its key and its value can. -/
theorem member_ok_iff {e : Key × Outcome Json} :
    (∃ m, member e = .ok m) ↔ e.1.toValue.isWritable = true ∧ ∃ j, e.2 = .ok j := by
  obtain ⟨k, o⟩ := e
  unfold member keyName
  cases k.toValue.isWritable with
  | false => exact ⟨fun ⟨_, h⟩ => (by cases h), fun ⟨h, _⟩ => (by cases h)⟩
  | true =>
    cases o with
    | error f => exact ⟨fun ⟨_, h⟩ => (by cases h), fun ⟨_, _, h⟩ => (by cases h)⟩
    | ok j => exact ⟨fun _ => ⟨rfl, j, rfl⟩, fun _ => ⟨_, rfl⟩⟩

/-- A map has a JSON form exactly if its keys have an order and each entry can be written. -/
theorem toJson_map_ok_iff (entries : List (Key × Value)) :
    (∃ j, (Value.map entries).toJson = .ok j)
      ↔ (entries.any (isIntKey ·.1) && entries.any (!isIntKey ·.1)) = false
        ∧ ∀ e ∈ entriesToJson entries, ∃ m, member e = .ok m := by
  have hform : (Value.map entries).toJson
      = (sortEntries (entriesToJson entries) >>= fun sorted =>
        sorted.mapM member >>= fun members => .ok (.object members)) := by
    rw [toJson]
    rfl
  rw [hform, sortEntries, any_entriesToJson isIntKey, any_entriesToJson fun k => !isIntKey k]
  cases entries.any (isIntKey ·.1) && entries.any (!isIntKey ·.1) with
  | true => exact ⟨fun ⟨_, h⟩ => (by cases h), fun ⟨h, _⟩ => (by cases h)⟩
  | false =>
    have hmem (e : Key × Outcome Json) :
        e ∈ (entriesToJson entries).mergeSort (fun a b => keyLE a.1 b.1)
          ↔ e ∈ entriesToJson entries := List.mem_mergeSort
    have hall : (∃ members, ((entriesToJson entries).mergeSort fun a b => keyLE a.1 b.1).mapM member
        = .ok members) ↔ _ := mapM_ok_iff
    simp only [hmem] at hall
    rw [← hall]
    rw [if_neg Bool.false_ne_true, ok_bind]
    cases ((entriesToJson entries).mergeSort fun a b => keyLE a.1 b.1).mapM member with
    | ok members => exact ⟨fun _ => ⟨rfl, members, rfl⟩, fun _ => ⟨_, rfl⟩⟩
    | error f => exact ⟨fun ⟨_, h⟩ => (by cases h), fun ⟨_, _, h⟩ => (by cases h)⟩

mutual

/-- A value has a JSON form exactly if it is short enough and its maps can be put in order. -/
theorem toJson_ok_iff : (v : Value) →
    ((∃ j, v.toJson = .ok j) ↔ v.isSortable = true ∧ v.isShort = true)
  | .null | .bool _ | .float _ | .constantNaN _ | .text _ =>
    ⟨fun _ => ⟨rfl, rfl⟩, fun _ => ⟨_, rfl⟩⟩
  | .int n => by
    have hshort : (Value.int n).isShort = (Value.int n).isWritable := rfl
    rw [toJson, hshort]
    cases (Value.int n).isWritable with
    | true => exact ⟨fun _ => ⟨rfl, rfl⟩, fun _ => ⟨_, rfl⟩⟩
    | false => exact ⟨fun ⟨_, h⟩ => (by cases h), fun ⟨_, h⟩ => (by cases h)⟩
  | .list items => by
    rw [toJson, isShort, isSortable, ← itemsToJson_ok_iff items]
    cases itemsToJson items with
    | ok js => exact ⟨fun _ => ⟨js, rfl⟩, fun _ => ⟨_, rfl⟩⟩
    | error f => exact ⟨fun ⟨_, h⟩ => (by cases h), fun ⟨_, h⟩ => (by cases h)⟩
  | .map entries => by
    rw [toJson_map_ok_iff, isShort, isSortable, entriesToJson_ok_iff entries, Bool.and_eq_true,
      Bool.not_eq_true', and_assoc]

theorem itemsToJson_ok_iff : (items : List Value) →
    ((∃ js, itemsToJson items = .ok js)
      ↔ itemsAreSortable items = true ∧ itemsAreShort items = true)
  | [] => ⟨fun _ => ⟨rfl, rfl⟩, fun _ => ⟨_, rfl⟩⟩
  | v :: rest => by
    have hv := toJson_ok_iff v
    have hrest := itemsToJson_ok_iff rest
    rw [itemsToJson, itemsAreSortable, itemsAreShort, Bool.and_eq_true, Bool.and_eq_true,
      and_and_and_comm, ← hv, ← hrest]
    cases toJson v with
    | error f => exact ⟨fun ⟨_, h⟩ => (by cases h), fun ⟨⟨_, h⟩, _⟩ => (by cases h)⟩
    | ok j =>
      cases itemsToJson rest with
      | error f => exact ⟨fun ⟨_, h⟩ => (by cases h), fun ⟨_, _, h⟩ => (by cases h)⟩
      | ok js => exact ⟨fun _ => ⟨⟨j, rfl⟩, js, rfl⟩, fun _ => ⟨_, rfl⟩⟩

theorem entriesToJson_ok_iff : (entries : List (Key × Value)) →
    ((∀ e ∈ entriesToJson entries, ∃ m, member e = .ok m)
      ↔ entriesAreSortable entries = true ∧ entriesAreShort entries = true)
  | [] => ⟨fun _ => ⟨rfl, rfl⟩, fun _ _ h => (by cases h)⟩
  | (k, v) :: rest => by
    have hv := toJson_ok_iff v
    have hrest := entriesToJson_ok_iff rest
    rw [entriesToJson, List.forall_mem_cons, member_ok_iff, hrest, hv, entriesAreSortable,
      entriesAreShort, Bool.and_eq_true, Bool.and_eq_true, Bool.and_eq_true]
    constructor
    · rintro ⟨⟨hk, hs, hl⟩, hsorts, hlengths⟩
      exact ⟨⟨hs, hsorts⟩, ⟨hk, hl⟩, hlengths⟩
    · rintro ⟨⟨hs, hsorts⟩, ⟨hk, hl⟩, hlengths⟩
      exact ⟨⟨hk, hs, hl⟩, hsorts, hlengths⟩

end

theorem literal_of_exported {v : Value} {t : Text} (h : v.exported = .ok t) : v.literal = t := by
  unfold exported at h
  split at h
  · exact Except.ok.inj h
  · cases h

theorem exported_ok_iff (v : Value) : (∃ t, v.exported = .ok t) ↔ v.isShort = true := by
  unfold exported
  cases v.isShort with
  | true => exact ⟨fun _ => rfl, fun _ => ⟨_, rfl⟩⟩
  | false => exact ⟨fun ⟨_, h⟩ => (by cases h), fun h => (by cases h)⟩

end Value

end StaticReflection
