import Mathlib.Data.List.Forall2
import StaticReflection.Grammar.Program
import StaticReflection.Proofs.Grammar.Quoted
import StaticReflection.Proofs.Value.Built

/-!
# Reading the literals of values

Parts in brackets, with commas between them, are read one after the other
(`Grammar.reads_array`), whether they have keys or not; so the literals of lists and maps are
read if those of their items, keys and values are.

> `Grammar.reads_literal`: where an expression may stand, the rules read the literal of a built
> value and nothing else, and give its tree.

The fuel that this takes is bounded by the length of the literal.
-/

namespace StaticReflection

namespace Grammar

open Scan

/-- What follows an element of an array: a comma or the closing bracket. -/
def Separates (cs : List Char) : Prop := ∃ x more, cs = x :: more ∧ (x = ',' ∨ x = ']')

theorem Separates.ends {cs : List Char} (h : Separates cs) : Ends cs := by
  obtain ⟨x, more, rfl, rfl | rfl⟩ := h <;> exact .sign (by decide)

/-- A part after a blank is read. -/
theorem reads_after_blank {whole cs : List Char} {Tail : List Char → Prop} {p : Scan Node}
    {Good : Node → Prop} (hreads : Reads whole Tail p cs Good) (hopens : Opens cs) {c : Cursor}
    (hin : c.In whole) {after : List Char} (hrest : c.rest = ' ' :: (cs ++ after))
    (hafter : Tail after) :
    ∃ n, p c = some (n, c.token (1 + cs.length)) ∧ n.isNamed = true ∧ Good n := by
  have hskip := Cursor.skip_blank hin hrest (hopens.extra?_eq_none after)
  have hnext : (c.skip true).rest = cs ++ after := by
    rw [hskip]
    show c.rest.drop 1 = _
    rw [hrest]
    rfl
  obtain ⟨n, hn, hgood⟩ := hreads c after hin ⟨hnext, hopens.extra?_eq_none after⟩ hafter
  rw [hskip, Cursor.advance_token] at hn
  exact ⟨n, hn, hgood⟩

section

variable {whole : List Char} {d : Cursor} {p : Scan Node} {ι : Type} {t : ι → Text}
  {Good : ι → Node → Prop}

/-- Parts after the first, each with a comma before it. -/
def followers (t : ι → Text) (is : List ι) : List Char :=
  is.flatMap fun i => ',' :: ' ' :: (t i).chars

theorem separates_followers (is : List ι) (after : List Char) :
    Separates (followers t is ++ ']' :: after) := by
  cases is with
  | nil => exact ⟨']', after, rfl, .inr rfl⟩
  | cons i is => exact ⟨',', _, rfl, .inl rfl⟩

/-- A comma, and a part after it if there is one. -/
def follower (p : Scan Node) : Scan (List Node) := do
  let comma ← mark ","
  return comma :: (← orNone (one p))

theorem listed_eq (p : Scan Node) : listed p = do
    let first ← orNone (one p)
    let more ← many (follower p)
    return first ++ more := rfl

/-- A comma is read with the part after it. -/
theorem follower_run {i : ι} (hreads : Reads whole Separates p (t i).chars (Good i))
    (hopens : Opens (t i).chars) {c : Cursor} (hin : c.In whole) {after : List Char}
    (hrest : c.rest = (',' :: ' ' :: (t i).chars) ++ after) (hafter : Separates after) :
    ∃ comma n, follower p c = some ([comma, n], c.token (',' :: ' ' :: (t i).chars).length)
      ∧ comma.isNamed = false ∧ n.isNamed = true ∧ Good i n := by
  have hcomma : c.rest = ",".toList ++ ' ' :: ((t i).chars ++ after) := hrest
  have hskip : c.skip true = c := Cursor.skip_of_extra?_eq_none (by rw [hcomma]; rfl) true
  obtain ⟨comma, hmark, -, hunnamed⟩ := mark_sign hskip hcomma
  have hblank := Cursor.rest_token_append hcomma
  obtain ⟨n, hn, hnamed, hgood⟩ := reads_after_blank hreads hopens (hin.token _) hblank hafter
  have hlength : ",".toList.length + (1 + (t i).chars.length)
      = (',' :: ' ' :: (t i).chars).length := by
    rw [List.length_cons, List.length_cons]
    show 1 + _ = _
    omega
  rw [Cursor.token_token, hlength] at hn
  refine ⟨comma, n, ?_, hunnamed, hnamed, hgood⟩
  unfold follower
  rw [bind_some hmark, bind_some (orNone_some (one_some hn))]
  rfl

/-- The parts after the first are read, one after the other. -/
theorem many_followers (hin : d.In whole) (is : List ι)
    (hreads : ∀ i ∈ is, Reads whole Separates p (t i).chars (Good i))
    (hopens : ∀ i ∈ is, Opens (t i).chars) {k : Nat} {after : List Char}
    (hrest : (d.token k).rest = followers t is ++ ']' :: after) :
    ∃ nodes, many (follower p) (d.token k) = some (nodes, d.token (k + (followers t is).length))
      ∧ List.Forall₂ Good is (nodes.filter (·.isNamed)) := by
  induction is generalizing k with
  | nil =>
    have hfaces : (d.token k).Faces (']' :: after) := .of_rest hrest rfl
    exact ⟨[], many_none (bind_none (hfaces.mark_none rfl (by decide))), .nil⟩
  | cons i is ih =>
    obtain ⟨hreads, hothers⟩ := List.forall_mem_cons.mp hreads
    obtain ⟨hopens, hopens'⟩ := List.forall_mem_cons.mp hopens
    have hall : followers t (i :: is) = (',' :: ' ' :: (t i).chars) ++ followers t is :=
      List.flatMap_cons
    rw [hall, List.append_assoc] at hrest
    obtain ⟨comma, n, hstep, hunnamed, hnamed, hgood⟩ :=
      follower_run hreads hopens (hin.token k) hrest (separates_followers is after)
    have hnext := Cursor.rest_token_append hrest
    have hleft : ((d.token k).token (',' :: ' ' :: (t i).chars).length).left < (d.token k).left := by
      refine Cursor.left_token_lt (hin.token k) (Nat.zero_lt_succ _) ?_
      rw [hrest]
      exact List.cons_ne_nil _ _
    rw [Cursor.token_token] at hstep hnext hleft
    obtain ⟨nodes, hmany, hgoods⟩ := ih hothers hopens' hnext
    refine ⟨[comma, n] ++ nodes, ?_, ?_⟩
    · rw [many_some hstep hleft hmany, hall, List.length_append, Nat.add_assoc]
    · rw [List.cons_append, List.filter_cons_of_neg (Bool.eq_false_iff.mp hunnamed),
        List.cons_append, List.filter_cons_of_pos hnamed]
      exact .cons hgood hgoods

/-- Parts with commas between them. -/
def parts (t : ι → Text) : List ι → List Char
  | [] => []
  | i :: is => (t i).chars ++ followers t is

theorem bracketed_map (is : List ι) :
    Value.bracketed (is.map t) = '[' :: (parts t is ++ [']']) := by
  cases is with
  | nil => rfl
  | cons i is =>
    rw [List.map_cons, Value.bracketed, List.flatMap_map]
    rfl

/-- Parts before a closing bracket are read as a list. -/
theorem listed_parts (hin : d.In whole) (is : List ι)
    (hreads : ∀ i ∈ is, Reads whole Separates p (t i).chars (Good i))
    (hopens : ∀ i ∈ is, Opens (t i).chars)
    (hnone : ∀ {c : Cursor} {more : List Char}, c.Faces (']' :: more) → p c = none) {k : Nat}
    {after : List Char} (hrest : (d.token k).rest = parts t is ++ ']' :: after) :
    ∃ nodes, listed p (d.token k) = some (nodes, d.token (k + (parts t is).length))
      ∧ List.Forall₂ Good is (nodes.filter (·.isNamed)) := by
  rw [listed_eq]
  cases is with
  | nil =>
    have hfaces : (d.token k).Faces (']' :: after) := .of_rest hrest rfl
    obtain ⟨nodes, hmany, hall⟩ := many_followers hin [] hreads hopens hrest
    refine ⟨nodes, ?_, hall⟩
    rw [bind_some (orNone_none (one_none (hnone hfaces))), bind_some hmany]
    rfl
  | cons i is =>
    obtain ⟨hfirst, hothers⟩ := List.forall_mem_cons.mp hreads
    obtain ⟨hopens, hopens'⟩ := List.forall_mem_cons.mp hopens
    have hhere : (d.token k).rest = (t i).chars ++ (followers t is ++ ']' :: after) := by
      rw [hrest, parts, List.append_assoc]
    have hextra := hopens.extra?_eq_none (followers t is ++ ']' :: after)
    have hskip : (d.token k).skip true = d.token k :=
      Cursor.skip_of_extra?_eq_none (hhere.symm ▸ hextra) true
    obtain ⟨n, hn, hnamed, hgood⟩ := hfirst _ _ (hin.token k) (.of_rest hhere hextra)
      (separates_followers is after)
    rw [hskip, Cursor.token_token] at hn
    have hnext := Cursor.rest_token_append hhere
    rw [Cursor.token_token] at hnext
    obtain ⟨nodes, hmany, hall⟩ := many_followers hin is hothers hopens' hnext
    refine ⟨[n] ++ nodes, ?_, ?_⟩
    · rw [bind_some (orNone_some (one_some hn)), bind_some hmany, parts, List.length_append,
        Nat.add_assoc]
      rfl
    · rw [List.cons_append, List.filter_cons_of_pos hnamed]
      exact .cons hgood hall

end

section

variable {whole : List Char} (R : Rules) {cs : List Char} {Good : Node → Prop}

/-- What an element of an array holds is a value if it begins as one. -/
theorem reads_elementValue (hreads : Reads whole Closes R.anyExpression cs Good)
    (hopens : Opens cs) : Reads whole Closes R.elementValue cs Good := by
  intro c after hin hfaces hafter
  obtain ⟨n, hn, hgood⟩ := hreads c after hin hfaces hafter
  obtain ⟨x, more, rfl, hx⟩ := hopens
  have hreference : '&' ≠ x := by
    rintro rfl
    revert hx
    decide
  have hdeclines : R.byReference c = none :=
    node_none (bind_none (hfaces.skip.mark_none rfl hreference))
  exact ⟨n, (orElse_none hdeclines).trans hn, hgood⟩

theorem spread_none {c : Cursor} {after : List Char} (hfaces : c.Faces (cs ++ after))
    (hopens : Opens cs) :
    one (node "variadic_unpacking" do return [← mark "...", ← R.anyExpression]) c = none := by
  obtain ⟨x, more, rfl, hx⟩ := hopens
  have hdots : '.' ≠ x := by
    rintro rfl
    revert hx
    decide
  exact one_none (node_none (bind_none (hfaces.skip.mark_none rfl hdots)))

/-- An element without a key is read. -/
theorem reads_item (hreads : Reads whole Closes R.anyExpression cs Good) (hopens : Opens cs) :
    Reads whole Separates R.arrayElement cs (IsItem Good) := by
  intro c after hin hfaces hafter
  have hskip := hfaces.skip_skip
  have hcloses : Closes after := .inl hafter.ends
  obtain ⟨n, hn, hnamed, hgood⟩ := reads_elementValue R hreads hopens _ after (hin.skip true)
    hfaces.skip hcloses
  rw [hskip] at hn
  let stop := (c.skip true).token cs.length
  have hstop : stop.rest = after := rest_token_skip hfaces
  have harrow : mark "=>" stop = none := by
    have hextra := hafter.ends.extra?_eq_none
    obtain ⟨x, more, rfl, hx⟩ := hafter
    have hfaces' : stop.Faces (x :: more) := .of_rest hstop hextra
    refine hfaces'.mark_none rfl ?_
    rcases hx with rfl | rfl <;> decide
  have hinner : (one (node "variadic_unpacking" do return [← mark "...", ← R.anyExpression])
      <|> do
        let first ← R.elementValue
        let second ← orNone (do return [← mark "=>", ← R.elementValue])
        return first :: second : Scan (List Node)) (c.skip true) = some ([n], stop) := by
    refine (orElse_none (spread_none R hfaces.skip hopens)).trans ?_
    rw [bind_some hn, bind_some (orNone_none (bind_none harrow))]
    rfl
  exact ⟨_, node_some hinner, rfl, rfl, n, rfl, hnamed, hgood⟩

/-- An element with a key is read. -/
theorem reads_entry {ks : List Char} {GoodKey : Node → Prop}
    (hkey : Reads whole Closes R.anyExpression ks GoodKey) (hopensKey : Opens ks)
    (hreads : Reads whole Closes R.anyExpression cs Good) (hopens : Opens cs) :
    Reads whole Separates R.arrayElement (ks ++ " => ".toList ++ cs) (IsEntry GoodKey Good) := by
  intro c after hin hfaces hafter
  have hsplit : ks ++ " => ".toList ++ cs ++ after
      = ks ++ ' ' :: ("=>".toList ++ ' ' :: (cs ++ after)) := by
    rw [List.append_assoc, List.append_assoc]
    rfl
  rw [hsplit] at hfaces
  generalize hd : c.skip true = d
  have hdin : d.In whole := hd ▸ hin.skip true
  have hskip : d.skip true = d := hd ▸ hfaces.skip_skip
  have hdfaces : d.Faces (ks ++ ' ' :: ("=>".toList ++ ' ' :: (cs ++ after))) := hd ▸ hfaces.skip
  obtain ⟨key, hk, hkeyNamed, hkeyGood⟩ := reads_elementValue R hkey hopensKey d _ hdin hdfaces
    (.inr ⟨_, rfl, .arrow⟩)
  rw [hskip] at hk
  have hblank : (d.token ks.length).rest = ' ' :: ("=>".toList ++ ' ' :: (cs ++ after)) := by
    rw [← hskip]
    exact rest_token_skip hdfaces
  obtain ⟨arrow, harrow, harrowKind, harrowNamed⟩ := mark_after_blank (hdin.token _) hblank rfl
  have hvalueHere : ((d.token ks.length).token (1 + "=>".toList.length)).rest
      = ' ' :: (cs ++ after) := by
    rw [Cursor.rest_token, hblank]
    rfl
  obtain ⟨item, hitem, hnamed, hgood⟩ := reads_after_blank (reads_elementValue R hreads hopens)
    hopens ((hdin.token _).token _) hvalueHere (.inl hafter.ends)
  let stop := d.token (ks ++ " => ".toList ++ cs).length
  have hstop : ((d.token ks.length).token (1 + "=>".toList.length)).token (1 + cs.length)
      = stop := by
    have hlength : (ks ++ " => ".toList ++ cs).length = ks.length + (3 + (1 + cs.length)) := by
      rw [List.length_append, List.length_append]
      show ks.length + 4 + _ = _
      omega
    show _ = d.token _
    rw [Cursor.token_token, Cursor.token_token, hlength]
    rfl
  rw [hstop] at hitem
  have hinner : (one (node "variadic_unpacking" do return [← mark "...", ← R.anyExpression])
      <|> do
        let first ← R.elementValue
        let second ← orNone (do return [← mark "=>", ← R.elementValue])
        return first :: second : Scan (List Node)) (c.skip true)
          = some ([key, arrow, item], stop) := by
    rw [hd]
    refine (orElse_none (spread_none R hdfaces hopensKey)).trans ?_
    have hsecond : (do return [← mark "=>", ← R.elementValue] : Scan (List Node))
        (d.token ks.length) = some ([arrow, item], stop) := by
      rw [bind_some harrow, bind_some hitem]
      rfl
    rw [bind_some hk, bind_some (orNone_some hsecond)]
    rfl
  exact ⟨_, node_some hinner, rfl, rfl, key, arrow, item, rfl, hkeyNamed, harrowKind, harrowNamed,
    hnamed, hkeyGood, hgood⟩

/-- Nodes that are all elements of an array are its elements. -/
theorem elements_of_forall₂ {ι : Type} {Good : ι → Node → Prop} {is : List ι} {es : List Node}
    (hkind : ∀ i e, Good i e → e.kind = "array_element_initializer")
    (h : List.Forall₂ Good is es) : es.filter (·.kind == "array_element_initializer") = es := by
  induction h with
  | nil => rfl
  | @cons i e _ _ hgood _ ih =>
    have helement : (e.kind == "array_element_initializer") = true :=
      beq_iff_eq.mpr (hkind i e hgood)
    rw [List.filter_cons, if_pos helement, ih]

theorem arrayElement_none
    (hnone : ∀ {c : Cursor} {more : List Char}, c.Faces (']' :: more) → R.anyExpression c = none)
    {c : Cursor} {more : List Char} (hc : c.Faces (']' :: more)) : R.arrayElement c = none := by
  have hspread : one (node "variadic_unpacking" do return [← mark "...", ← R.anyExpression])
      (c.skip true) = none :=
    one_none (node_none (bind_none (hc.skip.skip.mark_none rfl (by decide))))
  have hreference : R.byReference (c.skip true) = none :=
    node_none (bind_none (hc.skip.skip.mark_none rfl (by decide)))
  exact node_none (orElse_both hspread (bind_none (orElse_both hreference (hnone hc.skip))))

section

variable {ι : Type} {t : ι → Text} {Good : ι → Node → Prop} (is : List ι)
  (hreads : ∀ i ∈ is, Reads whole Separates R.arrayElement (t i).chars (Good i))
  (hopens : ∀ i ∈ is, Opens (t i).chars)
  (hkind : ∀ i e, Good i e → e.kind = "array_element_initializer")
  (hnone : ∀ {c : Cursor} {more : List Char}, c.Faces (']' :: more) → R.anyExpression c = none)

include hreads hopens hkind hnone

/-- Brackets are read with an element for each part between them. -/
theorem array_run {c : Cursor} {after : List Char} (hin : c.In whole)
    (hfaces : c.Faces ('[' :: (parts t is ++ ']' :: after))) :
    ∃ n, R.array c = some (n, (c.skip true).token (1 + (parts t is).length + 1))
      ∧ n.isNamed = true ∧ n.kind = "array_creation_expression"
      ∧ List.Forall₂ Good is n.arrayElements := by
  generalize hd : c.skip true = d
  have hdin : d.In whole := hd ▸ hin.skip true
  have hskip : d.skip true = d := hd ▸ hfaces.skip_skip
  have hrest : d.rest = "[".toList ++ (parts t is ++ ']' :: after) := hd ▸ hfaces.rest
  obtain ⟨before, hbefore, -, hbeforeNamed⟩ := mark_sign hskip hrest
  rw [show "[".toList.length = 1 from rfl] at hbefore
  have hinside : (d.token 1).rest = parts t is ++ ']' :: after := Cursor.rest_token_append hrest
  obtain ⟨nodes, hnodes, hall⟩ :=
    listed_parts hdin is hreads hopens (arrayElement_none R hnone) hinside
  have hclose : (d.token (1 + (parts t is).length)).rest = "]".toList ++ after := by
    rw [← Cursor.token_token]
    exact Cursor.rest_token_append hinside
  obtain ⟨close, hcloses, -, hcloseNamed⟩ :=
    mark_sign (Cursor.skip_of_extra?_eq_none (by rw [hclose]; rfl) true) hclose
  rw [Cursor.token_token] at hcloses
  have hbrackets : (do return (← mark "[") :: (← listed R.arrayElement) ++ [← mark "]"]
      : Scan (List Node)) (c.skip true)
        = some (before :: nodes ++ [close], d.token (1 + (parts t is).length + 1)) := by
    rw [hd, bind_some hbefore, bind_some hnodes, bind_some hcloses]
    rfl
  refine ⟨_, node_some (orElse_some hbrackets), rfl, rfl, ?_⟩
  unfold Node.arrayElements Node.namedChildren
  show List.Forall₂ Good is (((before :: nodes ++ [close]).filter _).filter _)
  rw [List.cons_append, List.filter_cons_of_neg (Bool.eq_false_iff.mp hbeforeNamed),
    List.filter_append, List.filter_cons_of_neg (Bool.eq_false_iff.mp hcloseNamed),
    List.filter_nil, List.append_nil, elements_of_forall₂ hkind hall]
  exact hall

/-- Parts in brackets are read as an array with an element for each. -/
theorem reads_array (level : Nat) :
    Reads whole Closes (R.expressionStep level) (Value.bracketed (is.map t)) fun n =>
      n.kind = "array_creation_expression" ∧ List.Forall₂ Good is n.arrayElements := by
  rw [bracketed_map]
  intro c after hin hfaces hafter
  have hlength : ('[' :: (parts t is ++ [']'])).length = 1 + (parts t is).length + 1 := by
    rw [List.length_cons, List.length_append, List.length_singleton]
    omega
  have hends := hafter.ends ((hin.skip true).token _) (rest_token_skip hfaces)
  rw [hlength] at hends ⊢
  rw [List.cons_append, List.append_assoc] at hfaces
  obtain ⟨n, harray, hgood⟩ := array_run R is hreads hopens hkind hnone hin hfaces
  have hclosed : R.closedOperand c = none :=
    closedOperand_none R hfaces (not_mem_closedWords (by decide))
      (number?_none rfl (by decide) (by decide) (by decide) (by decide)) (by decide)
  have hopen : R.openOperand c = some (n, (c.skip true).token (1 + (parts t is).length + 1)) :=
    (orElse_none (quotation_none _ hfaces (by decide) (by decide))).trans (orElse_some harray)
  exact ⟨n, expression_of_open hclosed hopen hends level, hgood⟩

end

end

/-! ## Literals of values -/

theorem length_lt_bracketed {ts : List Text} {t : Text} (h : t ∈ ts) :
    t.chars.length < (Value.bracketed ts).length := by
  cases ts with
  | nil => cases h
  | cons u us =>
    rw [Value.bracketed, List.length_cons, List.length_append, List.length_append]
    rcases List.mem_cons.mp h with rfl | h
    · omega
    · have hpart : (',' :: ' ' :: t.chars).Sublist (us.flatMap fun u => ',' :: ' ' :: u.chars) :=
        List.sublist_flatten_of_mem (List.mem_map_of_mem h)
      have hlength := hpart.length_le
      rw [List.length_cons, List.length_cons] at hlength
      omega

theorem opens_int (m : Int) : Opens (Value.int m).literal.chars := by
  rw [Value.chars_int]
  obtain ⟨x, xs, hcons⟩ :=
    List.exists_cons_of_ne_nil (Nat.toDigits_ne_nil (n := m.natAbs) (b := 10))
  have hx : x.isDigit = true :=
    Nat.isDigit_of_mem_toDigits (by decide) (by decide) (hcons ▸ List.mem_cons_self ..)
  split
  · exact ⟨'-', _, rfl, by decide⟩
  · exact ⟨x, xs, hcons, mem_openings_of_isDigit hx⟩

theorem opens_text {t : Text} (h : t.isEncodable = true) : Opens t.singleQuoted.chars := by
  obtain ⟨s, rfl⟩ := Text.exists_ofString h
  rw [Text.chars_singleQuoted]
  exact ⟨'\'', _, rfl, by decide⟩

theorem opens_key {k : Key} (h : k.toValue.toText.isEncodable = true) : Opens k.literal.chars := by
  cases k with
  | int m => exact opens_int m
  | text t => exact opens_text h

/-- The literal of a built value begins as literals do. -/
theorem opens_literal {v : Value} (h : v.Built) : Opens v.literal.chars := by
  cases h with
  | null => exact ⟨'n', _, rfl, by decide⟩
  | bool b => cases b <;> exact ⟨_, _, rfl, by decide⟩
  | int => exact opens_int _
  | text h => exact opens_text h
  | @array a =>
    have hbrackets (ts : List Text) : Opens (Value.bracketed ts) := by
      cases ts <;> exact ⟨'[', _, rfl, by decide⟩
    unfold Accumulator.value Accumulator.valueOf
    split
    · rw [Value.chars_list]
      exact hbrackets _
    · rw [Value.chars_map]
      exact hbrackets _

theorem chars_entry (e : Key × Value) :
    (Value.entryLiteral e).chars = e.1.literal.chars ++ " => ".toList ++ e.2.literal.chars := by
  rw [Value.entryLiteral, Text.chars_append, Text.chars_append, Text.chars_ofString]

theorem length_lt_list {items : List Value} {v : Value} (h : v ∈ items) :
    v.literal.chars.length < (Value.list items).literal.chars.length := by
  rw [Value.chars_list]
  exact length_lt_bracketed (List.mem_map_of_mem h)

theorem length_lt_map {entries : List (Key × Value)} {e : Key × Value} (h : e ∈ entries) :
    e.1.literal.chars.length + e.2.literal.chars.length
      < (Value.map entries).literal.chars.length := by
  rw [Value.chars_map]
  have hlength := length_lt_bracketed (List.mem_map_of_mem (f := Value.entryLiteral) h)
  rw [chars_entry, List.length_append, List.length_append] at hlength
  omega

section

variable {whole : List Char} {fuel : Nat}

/-- With any fuel at all, the rules for expressions are there. -/
theorem reads_of_step {cs : List Char} {Good : Node → Prop} (hopens : Opens cs)
    (hfuel : cs.length ≤ fuel) {level : Nat}
    (h : ∀ k, fuel = k + 1 → Reads whole Closes ((rules k).expressionStep level) cs Good) :
    Reads whole Closes ((rules fuel).expression level) cs Good := by
  cases fuel with
  | zero =>
    obtain ⟨x, more, rfl, -⟩ := hopens
    exact absurd hfuel (Nat.not_succ_le_zero _)
  | succ k => exact h k rfl

/-- The digits of an integer are read, with its sign. -/
theorem reads_int (m : Int) (hfuel : (Value.int m).literal.chars.length ≤ fuel) (level : Nat) :
    Reads whole Closes ((rules fuel).expression level) (Value.int m).literal.chars
      (SpellsInt (textIn whole) m) := by
  refine reads_of_step (opens_int m) hfuel fun k hk => ?_
  rw [Value.chars_int] at hfuel ⊢
  unfold SpellsInt
  by_cases hm : m < 0
  · simp only [if_pos hm] at hfuel ⊢
    -- the digits take a rule of their own, and one unit of fuel less
    have hdigits : (Nat.toDigits 10 m.natAbs).length ≤ k := by
      rw [hk, List.length_append, List.length_singleton] at hfuel
      omega
    refine reads_negative (rules k) level m.natAbs ?_
    cases k with
    | zero => exact absurd (Nat.length_toDigits_pos (n := m.natAbs) (b := 10)) (by omega)
    | succ k => exact reads_digits (rules k) unaryLevel m.natAbs
  · simp only [if_neg hm]
    exact reads_digits (rules k) level m.natAbs

theorem reads_text {t : Text} (h : t.isEncodable = true)
    (hfuel : t.singleQuoted.chars.length ≤ fuel) (level : Nat) :
    Reads whole Closes ((rules fuel).expression level) t.singleQuoted.chars
      (SpellsText (textIn whole) t) := by
  refine reads_of_step (opens_text h) hfuel fun k _ => ?_
  obtain ⟨s, rfl⟩ := Text.exists_ofString h
  exact reads_quoted (rules k) level s

theorem reads_key {k : Key} (h : k.toValue.toText.isEncodable = true)
    (hfuel : k.literal.chars.length ≤ fuel) (level : Nat) :
    Reads whole Closes ((rules fuel).expression level) k.literal.chars
      (SpellsKey (textIn whole) k) := by
  cases k with
  | int m => exact reads_int m hfuel level
  | text t => exact reads_text h hfuel level

theorem spellsItems_of_forall₂ {text : Node → String} {items : List Value} {es : List Node}
    (h : List.Forall₂ (fun v => IsItem (Spells text v)) items es) : SpellsItems text items es := by
  induction h with
  | nil => exact rfl
  | cons he _ ih => exact ⟨_, _, rfl, he, ih⟩

theorem spellsEntries_of_forall₂ {text : Node → String} {entries : List (Key × Value)}
    {es : List Node}
    (h : List.Forall₂ (fun e => IsEntry (SpellsKey text e.1) (Spells text e.2)) entries es) :
    SpellsEntries text entries es := by
  induction h with
  | nil => exact rfl
  | cons he _ ih => exact ⟨_, _, rfl, he, ih⟩

theorem anyExpression_none {k : Nat} {c : Cursor} {more : List Char} (h : c.Faces (']' :: more)) :
    (rules k).anyExpression c = none := by
  cases k with
  | zero => rfl
  | succ k => exact expression_none (rules k) h 0

/-- A list is read if its items are. -/
theorem reads_list (R : Rules) (hnone : ∀ {c : Cursor} {more : List Char},
      c.Faces (']' :: more) → R.anyExpression c = none) (level : Nat) {items : List Value}
    (h : ∀ v ∈ items, Opens v.literal.chars
      ∧ Reads whole Closes R.anyExpression v.literal.chars (Spells (textIn whole) v)) :
    Reads whole Closes (R.expressionStep level) (Value.list items).literal.chars
      (Spells (textIn whole) (.list items)) := by
  rw [Value.chars_list]
  have hitems (v : Value) (hv : v ∈ items) : Reads whole Separates R.arrayElement v.literal.chars
      (IsItem (Spells (textIn whole) v)) := reads_item R (h v hv).2 (h v hv).1
  intro c after hin hfaces hafter
  obtain ⟨n, hn, hnamed, hkind, hall⟩ := reads_array R items hitems (fun v hv => (h v hv).1)
    (fun _ _ h => h.1) hnone level c after hin hfaces hafter
  exact ⟨n, hn, hnamed, hkind, spellsItems_of_forall₂ hall⟩

/-- A map is read if its keys and values are. -/
theorem reads_map (R : Rules) (hnone : ∀ {c : Cursor} {more : List Char},
      c.Faces (']' :: more) → R.anyExpression c = none) (level : Nat)
    {entries : List (Key × Value)}
    (h : ∀ e ∈ entries, Opens e.1.literal.chars
      ∧ Reads whole Closes R.anyExpression e.1.literal.chars (SpellsKey (textIn whole) e.1)
      ∧ Opens e.2.literal.chars
      ∧ Reads whole Closes R.anyExpression e.2.literal.chars (Spells (textIn whole) e.2)) :
    Reads whole Closes (R.expressionStep level) (Value.map entries).literal.chars
      (Spells (textIn whole) (.map entries)) := by
  rw [Value.chars_map]
  have hentries (e : Key × Value) (he : e ∈ entries) :
      Reads whole Separates R.arrayElement (Value.entryLiteral e).chars
        (IsEntry (SpellsKey (textIn whole) e.1) (Spells (textIn whole) e.2)) := by
    obtain ⟨hopensKey, hkey, hopens, hvalue⟩ := h e he
    rw [chars_entry]
    exact reads_entry R hkey hopensKey hvalue hopens
  have hopens (e : Key × Value) (he : e ∈ entries) : Opens (Value.entryLiteral e).chars := by
    rw [chars_entry]
    exact ((h e he).1.append _).append _
  intro c after hin hfaces hafter
  obtain ⟨n, hn, hnamed, hkind, hall⟩ := reads_array R entries hentries hopens
    (fun _ _ h => h.1) hnone level c after hin hfaces hafter
  exact ⟨n, hn, hnamed, hkind, spellsEntries_of_forall₂ hall⟩

/-- The literal of a built value is read as a whole, and its tree is that of the value. -/
theorem reads_literal {v : Value} (h : v.Built) (hfuel : v.literal.chars.length ≤ fuel)
    (level : Nat) :
    Reads whole Closes ((rules fuel).expression level) v.literal.chars
      (Spells (textIn whole) v) := by
  induction h generalizing fuel level with
  | null =>
    refine reads_of_step ⟨'n', _, rfl, by decide⟩ hfuel fun k _ => ?_
    intro c after hin hfaces hafter
    obtain ⟨n, hn, hnamed, hkind, -⟩ := reads_word (rules k) level (by decide) (by decide)
      (.inr ⟨by decide +kernel, rfl⟩) c after hin hfaces hafter
    exact ⟨n, hn, hnamed, hkind⟩
  | bool b =>
    refine reads_of_step (opens_literal (.bool b)) hfuel fun k _ => ?_
    cases b with
    | true =>
      exact reads_word (x := 't') (rules k) level (by decide) (by decide)
        (.inl ⟨.inl (by decide +kernel), rfl⟩)
    | false =>
      exact reads_word (x := 'f') (rules k) level (by decide) (by decide)
        (.inl ⟨.inr (by decide +kernel), rfl⟩)
  | int => exact reads_int _ hfuel level
  | text h => exact reads_text h hfuel level
  | @array a hproducible hkeys hvalues ih =>
    refine reads_of_step (opens_literal (.array hproducible hkeys hvalues)) hfuel fun k hk => ?_
    unfold Accumulator.value Accumulator.valueOf at hfuel ⊢
    split
    next hlist =>
      rw [if_pos hlist] at hfuel
      refine reads_list (rules k) anyExpression_none level fun v hv => ?_
      obtain ⟨e, he, rfl⟩ := List.mem_map.mp hv
      have hlength := length_lt_list hv
      exact ⟨opens_literal (hvalues e he), ih e he (by omega) 0⟩
    next hmap =>
      rw [if_neg hmap] at hfuel
      refine reads_map (rules k) anyExpression_none level fun e he => ?_
      have hlength := length_lt_map he
      exact ⟨opens_key (hkeys e he), reads_key (hkeys e he) (by omega) 0,
        opens_literal (hvalues e he), ih e he (by omega) 0⟩

end

end Grammar

end StaticReflection
