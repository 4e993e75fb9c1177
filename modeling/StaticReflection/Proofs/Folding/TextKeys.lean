import Mathlib.Data.List.Nodup
import StaticReflection.Proofs.Folding.Reach
import StaticReflection.Proofs.Value.Building
import StaticReflection.Proofs.Value.TextKey

/-!
# Array expressions with texts as keys

The elements of an array expression whose keys are texts (`Folder.FoldsTo`) are set one after the
other at the keys of these texts (`Folder.foldElements_texts`). Different texts are different keys,
apart from `0` and `-0`, so an element is lost only where both of these are keys:

> `Folder.fold_textKeys`: what a text is as a key, and that an array expression with different
> texts as keys has each of its elements in place exactly if not both `0` and `-0` are among them.
-/

namespace StaticReflection

namespace Accumulator

/-- An element with a text as its key, at the key of that text. -/
def keyed (e : Text × Value) : Outcome (Key × Value) := do return (← Key.ofText e.1, e.2)

/-- The array with elements set in it whose keys are texts. -/
def setTexts (a : Accumulator) (elements : List (Text × Value)) : Outcome Accumulator :=
  elements.foldlM (fun a e => a.set (.text e.1) e.2) a

theorem keyed_eq_ok_iff {e : Text × Value} {d : Key × Value} :
    keyed e = .ok d ↔ Key.ofText e.1 = .ok d.1 ∧ d.2 = e.2 := by
  unfold keyed
  rw [Outcome.bind_eq_ok_iff]
  constructor
  · rintro ⟨k, hk, hd⟩
    cases hd
    exact ⟨hk, rfl⟩
  · rintro ⟨hk, hv⟩
    refine ⟨d.1, hk, ?_⟩
    rw [← hv]
    rfl

theorem exists_keyed_iff {e : Text × Value} :
    (∃ d, keyed e = .ok d) ↔ ∃ k, Key.ofText e.1 = .ok k :=
  ⟨fun ⟨d, hd⟩ => ⟨d.1, (keyed_eq_ok_iff.mp hd).1⟩,
    fun ⟨k, hk⟩ => ⟨(k, e.2), keyed_eq_ok_iff.mpr ⟨hk, rfl⟩⟩⟩

/-- Setting elements inserts them at the keys of their texts, if all of these are keys. -/
theorem setTexts_eq (a : Accumulator) (elements : List (Text × Value)) :
    a.setTexts elements = (elements.mapM keyed).map a.insertAll := by
  induction elements generalizing a with
  | nil => rfl
  | cons e rest ih =>
    unfold setTexts
    rw [List.foldlM_cons, List.mapM_cons]
    show (a.set (.text e.1) e.2 >>= fun b => b.setTexts rest) = _
    unfold set keyed
    show ((Key.ofText e.1 >>= fun k => .ok (a.insert k e.2)) >>= _) = _
    cases Key.ofText e.1 with
    | error f => rfl
    | ok k =>
      show (a.insert k e.2).setTexts rest = _
      rw [ih]
      show _ = Except.map a.insertAll ((rest.mapM keyed) >>= fun ds => .ok ((k, e.2) :: ds))
      cases rest.mapM keyed <;> rfl

/-- The key that a text is, if it is one. -/
def keyOf (t : Text) : Key := (Key.ofText t).toOption.getD (.text t)

theorem keyOf_eq {t : Text} {k : Key} (h : Key.ofText t = .ok k) : keyOf t = k := by
  unfold keyOf
  rw [h]
  rfl

/-- If all texts are keys, the keys of the elements are those of their texts. -/
theorem keys_of_mapM_keyed {elements : List (Text × Value)} {entries : List (Key × Value)}
    (h : elements.mapM keyed = .ok entries) :
    entries.map (·.1) = (elements.map (·.1)).map keyOf
      ∧ ∀ t ∈ elements.map (·.1), Key.ofText t = .ok (keyOf t) := by
  induction elements generalizing entries with
  | nil =>
    cases h
    exact ⟨rfl, fun t ht => by cases ht⟩
  | cons e rest ih =>
    rw [List.mapM_cons, Outcome.bind_eq_ok_iff] at h
    obtain ⟨d, hd, h⟩ := h
    obtain ⟨ds, hds, h⟩ := Outcome.bind_eq_ok_iff.mp h
    cases h
    obtain ⟨hkey, -⟩ := keyed_eq_ok_iff.mp hd
    obtain ⟨hrest, hok⟩ := ih hds
    rw [List.map_cons, List.map_cons, List.map_cons, hrest, keyOf_eq hkey]
    refine ⟨rfl, List.forall_mem_cons.mpr ⟨?_, hok⟩⟩
    rw [keyOf_eq hkey]
    exact hkey

/-- Different texts are different keys, unless `0` and `-0` are among them. -/
theorem keys_nodup_iff {elements : List (Text × Value)} {entries : List (Key × Value)}
    (h : elements.mapM keyed = .ok entries) (hnodup : (elements.map (·.1)).Nodup) :
    (entries.map (·.1)).Nodup
      ↔ ¬(Text.ofInt 0 ∈ elements.map (·.1) ∧ Text.minusZero ∈ elements.map (·.1)) := by
  obtain ⟨hkeys, hall⟩ := keys_of_mapM_keyed h
  rw [hkeys, List.nodup_map_iff_inj_on hnodup]
  constructor
  · rintro hinj ⟨hzero, hminus⟩
    have hkey : keyOf (Text.ofInt 0) = keyOf Text.minusZero := rfl
    exact Key.minusZero_ne_ofInt 0 (hinj _ hzero _ hminus hkey).symm
  · intro hboth t ht u hu hsame
    rcases Key.ofText_inj (hall t ht) (hsame ▸ hall u hu) with rfl | ⟨rfl, rfl⟩ | ⟨rfl, rfl⟩
    · rfl
    · exact (hboth ⟨ht, hu⟩).elim
    · exact (hboth ⟨hu, ht⟩).elim

/-- Elements with different texts as keys are all in place, in their order, exactly if not both
`0` and `-0` are among the texts. -/
theorem setTexts_entries {elements : List (Text × Value)} {b : Accumulator}
    (h : empty.setTexts elements = .ok b) (hnodup : (elements.map (·.1)).Nodup) :
    (elements.mapM keyed = .ok b.entries
        ↔ ¬(Text.ofInt 0 ∈ elements.map (·.1) ∧ Text.minusZero ∈ elements.map (·.1)))
      ∧ (b.entries.length = elements.length
        ↔ ¬(Text.ofInt 0 ∈ elements.map (·.1) ∧ Text.minusZero ∈ elements.map (·.1))) := by
  rw [setTexts_eq] at h
  cases hentries : elements.mapM keyed with
  | error f => rw [hentries] at h; cases h
  | ok entries =>
    rw [hentries] at h
    obtain rfl : empty.insertAll entries = b := Except.ok.inj h
    have hlength : entries.length = elements.length := Outcome.length_of_mapM hentries
    have hiff := keys_nodup_iff hentries hnodup
    have hkeys : ((empty.insertAll entries).entries.map (·.1)).Nodup :=
      nodup_insertAll (a := empty) List.nodup_nil entries
    have hplaced (hnew : (entries.map Prod.fst).Nodup) :
        (empty.insertAll entries).entries = entries := entries_insertAll (a := empty) hnew
    constructor
    · constructor
      · intro hsame
        rw [← Except.ok.inj hsame] at hkeys
        exact hiff.mp hkeys
      · intro hboth
        rw [hplaced (hiff.mpr hboth)]
    · constructor
      · intro hsame
        have hall : (empty.insertAll entries).entries = entries :=
          entries_insertAll_of_length (by rw [hsame, hlength]; exact (Nat.zero_add _).symm)
        rw [hall] at hkeys
        exact hiff.mp hkeys
      · intro hboth
        rw [hplaced (hiff.mpr hboth), hlength]

end Accumulator

namespace Folder

open Folding

variable {σ : Type} (F : Folder σ)

/-- Elements of an array expression fold one after the other, from a state on, to these texts as
their keys and to these values. -/
inductive FoldsTo : List Node → σ → List (Text × Value) → Prop
  | nil {s : σ} : FoldsTo [] s []
  | cons {e key item : Node} {rest : List Node} {s : σ} {t : Text} {v : Value}
    {elements : List (Text × Value)} (hplan : e.elementPlan = .keyed key item)
    (hkey : (F.fold key).outcome s = .ok (.text t))
    (hitem : (F.fold item).outcome ((F.fold key).after s) = .ok v)
    (hrest : FoldsTo rest ((F.fold item).after ((F.fold key).after s)) elements) :
    FoldsTo (e :: rest) s ((t, v) :: elements)

variable {F}

/-- Elements with texts as keys are set one after the other. -/
theorem foldElements_texts {es : List Node} {s : σ} {elements : List (Text × Value)}
    (h : F.FoldsTo es s elements) (a : Accumulator) :
    (F.foldElements es a).outcome s = a.setTexts elements := by
  induction h generalizing a with
  | nil => rw [foldElements_nil]; rfl
  | @cons e key item rest s t v elements hplan hkey hitem hrest ih =>
    have houtcome : (F.foldElement a e).outcome s = a.set (.text t) v := by
      rw [foldElement, hplan]
      simp only
      rw [outcome_bind_ok hkey, outcome_bind_ok hitem]
      rfl
    have hafter : (F.foldElement a e).after s = (F.fold item).after ((F.fold key).after s) := by
      rw [foldElement, hplan]
      simp only
      rw [after_bind_ok hkey, after_bind_ok hitem]
      rfl
    rw [foldElements_cons]
    show _ = (a.set (.text t) v >>= fun b => b.setTexts elements)
    cases hset : a.set (.text t) v with
    | error f => exact outcome_bind_error (houtcome.trans hset)
    | ok b =>
      rw [outcome_bind_ok (houtcome.trans hset), hafter]
      exact ih b

/-- A text is the key of an integer of 64 bits exactly if it is the decimal text of it, or `-0`,
which is the key zero; every other text is itself, but one of an integer with too many digits is no
key. An array expression with different texts as keys has a value exactly if none of them is such a
text, and each of its elements is there, in their order, exactly if not both `0` and `-0` are among
the texts; otherwise an element is lost. -/
theorem fold_textKeys :
    (∀ (t : Text) (n : Int), Key.ofText t = .ok (.int n)
        ↔ fitsInt n = true ∧ t = Text.ofInt n ∨ n = 0 ∧ t = Text.minusZero)
      ∧ (∀ t u : Text, Key.ofText t = .ok (.text u)
        ↔ u = t ∧ t ≠ Text.minusZero ∧ ¬t.IsTooLong ∧ ∀ n, t = Text.ofInt n → fitsInt n = false)
      ∧ ∀ (F : Folder σ) (n : Node) (s : σ) (elements : List (Text × Value)),
        n.kind = "array_creation_expression" → F.FoldsTo n.arrayElements s elements →
        (elements.map (·.1)).Nodup →
        ((∃ v, (F.fold n).outcome s = .ok v) ↔ ∀ e ∈ elements, ¬e.1.IsTooLong)
          ∧ ∀ v, (F.fold n).outcome s = .ok v →
            (elements.mapM Accumulator.keyed = .ok v.entries
              ↔ ¬(Text.ofInt 0 ∈ elements.map (·.1) ∧ Text.minusZero ∈ elements.map (·.1)))
            ∧ (v.entries.length = elements.length
              ↔ ¬(Text.ofInt 0 ∈ elements.map (·.1) ∧ Text.minusZero ∈ elements.map (·.1))) := by
  refine ⟨fun t n => Key.ofText_eq_int_iff, fun t u => Key.ofText_eq_text_iff, ?_⟩
  intro F n s elements hkind helements hnodup
  have hplan : F.plan n = .array n.arrayElements := by
    rw [plan, hkind]
    rfl
  have hfold : (F.fold n).outcome s
      = (Accumulator.empty.setTexts elements).map Accumulator.value := by
    rw [F.fold_eq, hplan, carryOut, ← foldElements_texts helements Accumulator.empty, outcome_bind]
    cases (F.foldElements n.arrayElements Accumulator.empty).outcome s <;> rfl
  rw [hfold]
  refine ⟨?_, fun v hv => ?_⟩
  · have hkeys : (∃ entries, elements.mapM Accumulator.keyed = .ok entries)
        ↔ ∀ e ∈ elements, ¬e.1.IsTooLong := by
      rw [Outcome.mapM_ok_iff]
      exact forall₂_congr fun e _ => Accumulator.exists_keyed_iff.trans Key.ofText_ok_iff
    rw [Accumulator.setTexts_eq, ← hkeys]
    cases elements.mapM Accumulator.keyed with
    | error f => exact ⟨fun ⟨_, hv⟩ => (by cases hv), fun ⟨_, hv⟩ => (by cases hv)⟩
    | ok entries => exact ⟨fun _ => ⟨_, rfl⟩, fun _ => ⟨_, rfl⟩⟩
  · cases hset : Accumulator.empty.setTexts elements with
    | error f => rw [hset] at hv; cases hv
    | ok b =>
      rw [hset] at hv
      obtain rfl : b.value = v := Except.ok.inj hv
      rw [Accumulator.entries_value]
      exact Accumulator.setTexts_entries hset hnodup

/-- An array expression with a zero and a zero with a minus sign as keys. -/
def zerosSource : String := "['0' => 1, '-0' => 2]"

/-- Its tree. -/
def zerosNode : Node :=
  ⟨"array_creation_expression", 0, 21, none, true, false,
    [⟨"[", 0, 1, none, false, false, []⟩,
      ⟨"array_element_initializer", 1, 9, none, true, false,
        [⟨"string", 1, 4, none, true, false, []⟩, ⟨"=>", 5, 7, none, false, false, []⟩,
          ⟨"integer", 8, 9, none, true, false, []⟩]⟩,
      ⟨",", 9, 10, none, false, false, []⟩,
      ⟨"array_element_initializer", 11, 20, none, true, false,
        [⟨"string", 11, 15, none, true, false, []⟩, ⟨"=>", 16, 18, none, false, false, []⟩,
          ⟨"integer", 19, 20, none, true, false, []⟩]⟩,
      ⟨"]", 20, 21, none, false, false, []⟩]⟩

/-- A folder of expressions in that text. -/
def zerosFolder : Folder Unit := ⟨(Source.ofString zerosSource).text, none, []⟩

/-- Both elements are at the key zero, so one of them is lost. -/
theorem fold_textKeys_zeros :
    zerosFolder.FoldsTo zerosNode.arrayElements ()
        [(Text.ofInt 0, .int 1), (Text.minusZero, .int 2)]
      ∧ ∃ v, (zerosFolder.fold zerosNode).outcome () = .ok v ∧ v.entries.length ≠ 2 := by
  have helements : zerosFolder.FoldsTo zerosNode.arrayElements ()
      [(Text.ofInt 0, .int 1), (Text.minusZero, .int 2)] :=
    .cons rfl (fold_done rfl) (fold_done rfl) (.cons rfl (fold_done rfl) (fold_done rfl) .nil)
  have hnodup : [Text.ofInt 0, Text.minusZero].Nodup := by decide
  obtain ⟨-, -, hall⟩ := fold_textKeys (σ := Unit)
  obtain ⟨hvalue, hlost⟩ := hall zerosFolder zerosNode () _ rfl helements hnodup
  have hshort : ∀ e ∈ [(Text.ofInt 0, Value.int 1), (Text.minusZero, Value.int 2)],
      ¬e.1.IsTooLong := by
    rw [List.forall_mem_cons, List.forall_mem_singleton]
    exact ⟨Key.ofText_ok_iff.mp ⟨_, rfl⟩, Key.ofText_ok_iff.mp ⟨_, rfl⟩⟩
  obtain ⟨v, hv⟩ := hvalue.mpr hshort
  refine ⟨helements, v, hv, fun hlength => (hlost v hv).2.mp hlength ⟨?_, ?_⟩⟩
  · exact List.mem_cons_self ..
  · exact List.mem_cons_of_mem _ (List.mem_cons_self ..)

end Folder

end StaticReflection
