import StaticReflection.Folding.Fold
import StaticReflection.Proofs.Decimal.Notation
import StaticReflection.Proofs.Grammar.Operand
import StaticReflection.Proofs.Value.Spelling

/-!
# Trees of literals

The tree of a value's literal (`Grammar.Spells`) is a word, digits, a sign before them, a quoted
text, or an array with an element for each of its parts. Where an expression may stand, literals
without parts are read as a whole, whatever ends the expression after them (`Grammar.Reads`):
words (`reads_word`), integers in any notation (`reads_numeral`) and digits after a sign
(`reads_negative`).
-/

namespace StaticReflection.Grammar

open Scan

/-! ## Trees of literals -/

section

variable (text : Node → String)

/-- A node of the digits of a number. -/
def SpellsDigits (m : Nat) (n : Node) : Prop :=
  n.kind = "integer" ∧ text n = String.ofList (Nat.toDigits 10 m)

/-- A node of an integer: its digits, after a sign if it is negative. -/
def SpellsInt (m : Int) (n : Node) : Prop :=
  if m < 0 then
    n.kind = "unary_op_expression" ∧ ∃ sign operand, n.children = [sign, operand]
      ∧ sign.field = some "operator" ∧ sign.isNamed = false ∧ text sign = "-"
      ∧ operand.isNamed = true ∧ SpellsDigits text m.natAbs operand
  else SpellsDigits text m.natAbs n

/-- A node of a quoted text. -/
def SpellsText (t : Text) (n : Node) : Prop :=
  n.kind = "string" ∧ text n = String.ofList t.singleQuoted.chars

/-- A node of a key. -/
def SpellsKey : Key → Node → Prop
  | .int m, n => SpellsInt text m n
  | .text t, n => SpellsText text t n

/-- An element of an array that has no key. -/
def IsItem (Good : Node → Prop) (e : Node) : Prop :=
  e.kind = "array_element_initializer" ∧ ∃ item, e.children = [item] ∧ item.isNamed = true
    ∧ Good item

/-- An element of an array that has a key. -/
def IsEntry (GoodKey Good : Node → Prop) (e : Node) : Prop :=
  e.kind = "array_element_initializer" ∧ ∃ key arrow item, e.children = [key, arrow, item]
    ∧ key.isNamed = true ∧ arrow.kind = "=>" ∧ arrow.isNamed = false ∧ item.isNamed = true
    ∧ GoodKey key ∧ Good item

mutual

/-- A node is the tree of a value's literal. -/
def Spells : Value → Node → Prop
  | .null, n => n.kind = "null"
  | .bool b, n => n.kind = "boolean" ∧ text n = if b then "true" else "false"
  | .int m, n => SpellsInt text m n
  | .float _, _ => False
  | .constantNaN _, _ => False
  | .text t, n => SpellsText text t n
  | .list items, n =>
    n.kind = "array_creation_expression" ∧ SpellsItems items n.arrayElements
  | .map entries, n =>
    n.kind = "array_creation_expression" ∧ SpellsEntries entries n.arrayElements

/-- Nodes are the elements of a list. -/
def SpellsItems : List Value → List Node → Prop
  | [], es => es = []
  | v :: vs, es => ∃ e rest, es = e :: rest ∧ IsItem (Spells v) e ∧ SpellsItems vs rest

/-- Nodes are the elements of a map. -/
def SpellsEntries : List (Key × Value) → List Node → Prop
  | [], es => es = []
  | (k, v) :: entries, es =>
    ∃ e rest, es = e :: rest ∧ IsEntry (SpellsKey text k) (Spells v) e
      ∧ SpellsEntries entries rest

end

end

/-! ## Reading whole literals -/

/-- What may follow a literal: the end of an expression, at once or after a blank. -/
def Closes (cs : List Char) : Prop := Ends cs ∨ ∃ more, cs = ' ' :: more ∧ Ends more

/-- The characters that literals begin with. -/
def openings : List Char :=
  ['n', 't', 'f', '-', '\'', '[', '0', '1', '2', '3', '4', '5', '6', '7', '8', '9']

/-- Characters begin as a literal does. -/
def Opens (cs : List Char) : Prop := ∃ x more, cs = x :: more ∧ x ∈ openings

/-- A scan reads some characters of a text, whatever follows of which `Tail` holds, and gives a
named node that is `Good`. -/
def Reads (whole : List Char) (Tail : List Char → Prop) (p : Scan Node) (cs : List Char)
    (Good : Node → Prop) : Prop :=
  ∀ c after, c.In whole → c.Faces (cs ++ after) → Tail after →
    ∃ n, p c = some (n, (c.skip true).token cs.length) ∧ n.isNamed = true ∧ Good n

theorem extra?_of_mem_openings {x : Char} (hx : x ∈ openings) (more : List Char) :
    extra? (x :: more) = none := by
  simp only [openings, List.mem_cons, List.not_mem_nil, or_false] at hx
  rcases hx with rfl | rfl | rfl | rfl | rfl | rfl | rfl | rfl | rfl | rfl | rfl | rfl | rfl | rfl
    | rfl | rfl <;> rfl

theorem Opens.append {cs : List Char} (h : Opens cs) (after : List Char) : Opens (cs ++ after) := by
  obtain ⟨x, more, rfl, hx⟩ := h
  exact ⟨x, more ++ after, rfl, hx⟩

theorem Opens.extra?_eq_none {cs : List Char} (h : Opens cs) (after : List Char) :
    extra? (cs ++ after) = none := by
  obtain ⟨x, more, rfl, hx⟩ := h
  exact extra?_of_mem_openings hx (more ++ after)

theorem mem_openings_of_isDigit {x : Char} (h : x.isDigit = true) : x ∈ openings := by
  obtain ⟨hlow, hhigh⟩ := Numeral.toNat_of_isDigit h
  have hall : ∀ v < 58, 48 ≤ v → Char.ofNat v ∈ openings := by decide
  have hx := hall x.toNat (by omega) hlow
  rwa [Char.ofNat_toNat] at hx

/-- The characters that what may follow a literal begins with. -/
def closings : List Char := [',', ']', ';', ')', '=', ' ']

theorem Closes.head {after : List Char} (h : Closes after) :
    after = [] ∨ ∃ x more, after = x :: more ∧ x ∈ closings := by
  rcases h with h | ⟨more, rfl, -⟩
  · cases h with
    | nil => exact .inl rfl
    | sign hx => exact .inr ⟨_, _, rfl, List.mem_append_left ['=', ' '] hx⟩
    | arrow => exact .inr ⟨_, _, rfl, by decide⟩
  · exact .inr ⟨_, _, rfl, by decide⟩

/-- What may follow a literal goes on with neither a name nor a number. -/
theorem plain_of_mem_closings {x : Char} (h : x ∈ closings) :
    isNamePart x = false ∧ x.isDigit = false ∧ (x == '_') = false ∧ (x.toLower == 'e') = false
      ∧ x ≠ '.' := by
  simp only [closings, List.mem_cons, List.not_mem_nil, or_false] at h
  rcases h with rfl | rfl | rfl | rfl | rfl | rfl <;> decide

/-- After a literal there is what ends an expression. -/
theorem Closes.ends {whole after : List Char} (h : Closes after) {c : Cursor} (hin : c.In whole)
    (hrest : c.rest = after) : Ends (c.skip true).rest := by
  rcases h with h | ⟨more, rfl, h⟩
  · rw [Cursor.skip_of_extra?_eq_none (hrest ▸ h.extra?_eq_none), hrest]
    exact h
  · have hnext : (c.skip true).rest = more := by
      rw [Cursor.skip_blank hin hrest h.extra?_eq_none]
      show c.rest.drop 1 = more
      rw [hrest]
      rfl
    rw [hnext]
    exact h

theorem rest_token_skip {c : Cursor} {cs after : List Char} (h : c.Faces (cs ++ after)) :
    ((c.skip true).token cs.length).rest = after := Cursor.rest_token_append h.rest

section

variable {whole after : List Char} {c e : Cursor} {R : Rules} {n : Node}

/-- An operand that nothing may follow is an expression where one ends. -/
theorem expression_of_closed (hclosed : R.closedOperand c = some (n, e))
    (hends : Ends (e.skip true).rest) (level : Nat) :
    R.expressionStep level c = some (n, e) := by
  unfold Rules.expressionStep
  rw [bind_some (show R.operand c = some (n, e) from orElse_some hclosed)]
  exact iterate_none (operators_none R hends level n)

/-- An operand that something may follow is an expression where one ends. -/
theorem expression_of_open (hclosed : R.closedOperand c = none)
    (hopen : R.openOperand c = some (n, e)) (hends : Ends (e.skip true).rest) (level : Nat) :
    R.expressionStep level c = some (n, e) := by
  have hoperand : R.operand c = some (n, e) := by
    refine (orElse_none hclosed).trans ?_
    rw [bind_some hopen, bind_some (iterate_none (following_none R hends n)),
      bind_some (maybe_none (assignment_none R hends n))]
    rfl
  unfold Rules.expressionStep
  rw [bind_some hoperand]
  exact iterate_none (operators_none R hends level n)

end

/-! ## Words -/

/-- A word is read up to where it ends. -/
theorem wordOf_append {x : Char} {xs after : List Char} (hx : isNameStart x = true)
    (hxs : ∀ y ∈ xs, isNamePart y = true) (hafter : Closes after) :
    wordOf (x :: xs ++ after) = String.ofList (x :: xs) := by
  have hstop : after.takeWhile isNamePart = [] := by
    rcases hafter.head with rfl | ⟨y, more, rfl, hy⟩
    · rfl
    · rw [List.takeWhile_cons_of_neg (Bool.eq_false_iff.mp (plain_of_mem_closings hy).1)]
  rw [List.cons_append, wordOf, if_pos hx, List.takeWhile_append_of_pos hxs, hstop, List.append_nil]

theorem leaf_run (kind : String) (isNamed : Bool) (n : Nat) (c : Cursor) :
    leaf kind isNamed n c
      = some (⟨kind, c.offset, (c.token n).offset, none, isNamed, false, []⟩, c.token n) := rfl

theorem wordAs_some {c : Cursor} {w : String} (h : wordOf (c.skip true).rest = w) (hw : w ≠ "")
    (kind : String) :
    wordAs kind c = leaf kind true w.length (c.skip true) := by
  obtain ⟨found, hfound, hgetD⟩ := word?_run (c.skip true)
  unfold wordAs
  rw [bind_some (skip_run c), bind_some hfound]
  cases found with
  | none => exact absurd (hgetD.trans h).symm hw
  | some v =>
    obtain rfl : v = w := hgetD.trans h
    rfl

section

variable {whole : List Char} (R : Rules) (level : Nat)

/-- The text of a node in a source. -/
abbrev textIn (whole : List Char) : Node → String :=
  (Source.ofString (String.ofList whole)).text

/-- A word for a truth value or for null is read as one. -/
theorem reads_word {x : Char} {xs : List Char} (hx : isNameStart x = true)
    (hxs : xs.all isNamePart = true) {kind : String}
    (hform : ((String.ofList (x :: xs)).toLower = "true"
        ∨ (String.ofList (x :: xs)).toLower = "false") ∧ kind = "boolean"
      ∨ (String.ofList (x :: xs)).toLower = "null" ∧ kind = "null") :
    Reads whole Closes (R.expressionStep level) (x :: xs)
      fun n => n.kind = kind ∧ textIn whole n = String.ofList (x :: xs) := by
  intro c after hin hfaces hafter
  have hword : wordOf (c.skip true).rest = String.ofList (x :: xs) := by
    rw [hfaces.rest]
    exact wordOf_append hx (List.all_eq_true.mp hxs) hafter
  have hempty : String.ofList (x :: xs) ≠ "" := fun h => by
    have := congrArg String.toList h
    rw [String.toList_ofList] at this
    cases this
  have hliteral : Rules.literalWord c = wordAs kind (c.skip true) := by
    unfold Rules.literalWord
    rw [bind_some (nextWord_run c), hword]
    rcases hform with ⟨htrue | hfalse, rfl⟩ | ⟨hnull, rfl⟩
    · rw [htrue]
      rfl
    · rw [hfalse]
      rfl
    · rw [hnull]
      rfl
  have hskip := hfaces.skip_skip
  have hleaf : wordAs kind (c.skip true) = leaf kind true (x :: xs).length (c.skip true) := by
    rw [wordAs_some (hskip.symm ▸ hword) hempty, hskip, String.length_ofList]
  have hclosed : R.closedOperand c = some _ := orElse_some (hliteral.trans hleaf)
  have hends := hafter.ends ((hin.skip true).token (x :: xs).length) (rest_token_skip hfaces)
  refine ⟨_, expression_of_closed hclosed hends level, rfl, rfl, ?_⟩
  rw [textIn, (hin.skip true).text rfl rfl, hfaces.rest, List.take_left]

end

/-! ## Numbers -/

theorem isNameStart_of_isDigit {x : Char} (h : x.isDigit = true) : isNameStart x = false := by
  obtain ⟨hlow, hhigh⟩ := Numeral.toNat_of_isDigit h
  have hall : ∀ v < 58, 48 ≤ v → isNameStart (Char.ofNat v) = false := by decide
  have hx := hall x.toNat (by omega) hlow
  rwa [Char.ofNat_toNat] at hx

/-- What follows goes on with neither digits nor an underscore. -/
def Stops (isDigit : Char → Bool) (after : List Char) : Prop :=
  ∀ y more, after = y :: more → isDigit y = false ∧ y ≠ '_'

theorem Closes.stops {isDigit : Char → Bool} {after : List Char} (h : Closes after)
    (hclosings : closings.any isDigit = false) : Stops isDigit after := by
  rintro y more rfl
  rcases h.head with hnil | ⟨z, rest, hcons, hz⟩
  · cases hnil
  · obtain rfl := (List.cons.inj hcons).1
    refine ⟨Bool.eq_false_iff.mpr (List.any_eq_false.mp hclosings y hz), ?_⟩
    rintro rfl
    exact absurd hz (by decide)

section

variable {isDigit : Char → Bool} {ds cs after : List Char}

theorem digitsLength_of_stops (h : Stops isDigit after) : digitsLength isDigit after = 0 := by
  match after with
  | [] => rfl
  | [y] =>
    obtain ⟨hy, -⟩ := h y [] rfl
    rw [digitsLength, hy, if_neg Bool.false_ne_true]
  | y :: z :: more =>
    obtain ⟨hy, hunder⟩ := h y (z :: more) rfl
    rw [digitsLength, hy, beq_eq_false_iff_ne.mpr hunder]
    rfl

theorem digitsLength_cons {c : Char} (hc : isDigit c = true) (cs : List Char) :
    digitsLength isDigit (c :: cs) = digitsLength isDigit cs + 1 := by
  cases cs with
  | nil =>
    show (if isDigit c = true then 1 else 0) = 1
    rw [if_pos hc]
  | cons d cs => rw [digitsLength, hc, Bool.true_or, if_pos rfl]

/-- Digits with underscores between them are counted up to their end. -/
theorem digitsLength_append (h : Numeral.Spaced ds cs) (hds : ∀ c ∈ ds, isDigit c = true)
    (hafter : Stops isDigit after) : digitsLength isDigit (cs ++ after) = cs.length := by
  induction h with
  | last d =>
    obtain ⟨hd, -⟩ := List.forall_mem_cons.mp hds
    rw [List.cons_append, digitsLength_cons hd, List.nil_append, digitsLength_of_stops hafter]
    rfl
  | next d _ ih =>
    obtain ⟨hd, hrest⟩ := List.forall_mem_cons.mp hds
    rw [List.cons_append, digitsLength_cons hd, ih hrest]
    rfl
  | apart d h ih =>
    obtain ⟨hd, hrest⟩ := List.forall_mem_cons.mp hds
    obtain ⟨e, _, more, rfl, rfl⟩ := h.exists_head
    have hnext := ih hrest
    rw [List.cons_append] at hnext
    rw [List.cons_append, digitsLength_cons hd, List.cons_append, List.cons_append, digitsLength,
      hrest e (List.mem_cons_self ..), beq_self_eq_true, Bool.and_true, Bool.or_true, if_pos rfl,
      hnext]
    rfl

theorem runLength_append (h : Numeral.Spaced ds cs) (hds : ∀ c ∈ ds, isDigit c = true)
    (hafter : Stops isDigit after) : runLength isDigit (cs ++ after) = cs.length := by
  have hlength := digitsLength_append h hds hafter
  obtain ⟨d, _, _, rfl, rfl⟩ := h.exists_head
  rw [List.cons_append] at hlength ⊢
  rw [runLength, if_pos (hds d (List.mem_cons_self ..)), hlength]

end

/-- After digits without a point and an exponent there is no float. -/
theorem floatLength_eq_zero {cs rest : List Char} (hrest : cs.drop (runLength Char.isDigit cs) = rest)
    (h : ∀ y more, rest = y :: more → y ≠ '.' ∧ (y.toLower == 'e') = false) :
    floatLength cs = 0 := by
  have hexponent : exponentLength rest = 0 := by
    cases rest with
    | nil => rfl
    | cons y more =>
      unfold exponentLength
      exact if_neg (Bool.eq_false_iff.mp (h y more rfl).2)
  unfold floatLength
  simp only [hrest]
  split
  next more => exact absurd rfl (h '.' more rfl).1
  next =>
    rw [Nat.add_zero, hrest, hexponent]
    rfl

theorem Closes.no_float {after : List Char} (h : Closes after) :
    ∀ y more, after = y :: more → y ≠ '.' ∧ (y.toLower == 'e') = false := by
  rintro y more rfl
  rcases h.head with hnil | ⟨z, rest, hcons, hz⟩
  · cases hnil
  · obtain rfl := (List.cons.inj hcons).1
    exact ⟨(plain_of_mem_closings hz).2.2.2.2, (plain_of_mem_closings hz).2.2.2.1⟩

theorem of_isDigit {p : Char → Bool} {base : Nat} (hbase : base ≤ 16)
    (hall : ∀ v < 103, Numeral.isDigit base (Char.ofNat v) = true → p (Char.ofNat v) = true)
    {c : Char} (h : Numeral.isDigit base c = true) : p c = true := by
  have hrange := Numeral.range_of_isDigit hbase h
  have hc := hall c.toNat (by omega)
  rw [Char.ofNat_toNat] at hc
  exact hc h

/-- Whether a character is an octal digit. -/
abbrev isOctal (c : Char) : Bool := '0' ≤ c && c ≤ '7'

/-- A mark is no figure and begins no exponent, and the digits of its base follow it. -/
theorem mark_of_mem_markedBases {base : Nat} {mark : Char}
    (h : (base, mark) ∈ Numeral.markedBases) :
    isOctal mark = false ∧ mark.isDigit = false ∧ mark ≠ '.' ∧ (mark.toLower == 'e') = false
      ∧ ∃ isDigit : Char → Bool,
        (∀ rest, integerLength ('0' :: mark :: rest)
          = max (runLength isOctal ('0' :: mark :: rest)) (markedLength isDigit rest))
        ∧ closings.any isDigit = false
        ∧ ∀ v < 103, Numeral.isDigit base (Char.ofNat v) = true → isDigit (Char.ofNat v) = true := by
  simp only [Numeral.markedBases, List.mem_cons, List.not_mem_nil, or_false, Prod.mk.injEq] at h
  rcases h with ⟨rfl, rfl⟩ | ⟨rfl, rfl⟩ | ⟨rfl, rfl⟩ | ⟨rfl, rfl⟩ | ⟨rfl, rfl⟩ | ⟨rfl, rfl⟩ <;>
    exact ⟨by decide, by decide, by decide, by decide, _, fun _ => rfl, by decide, by decide⟩

/-- A zero alone is all that stands before what stops digits. -/
theorem runLength_zero {isDigit : Char → Bool} (hzero : isDigit '0' = true) {after : List Char}
    (h : Stops isDigit after) : runLength isDigit ('0' :: after) = 1 := by
  rw [runLength, if_pos hzero, digitsLength_cons hzero, digitsLength_of_stops h]

/-- The digits after a mark of their base are an integer up to their end. -/
theorem lengths_marked {base : Nat} {mark : Char} {ds cs after : List Char}
    (hmark : (base, mark) ∈ Numeral.markedBases)
    (hds : ∀ c ∈ ds, Numeral.isDigit base c = true) (h : Numeral.Spaced ds cs)
    (hafter : Closes after) :
    integerLength ('0' :: mark :: cs ++ after) = ('0' :: mark :: cs).length
      ∧ floatLength ('0' :: mark :: cs ++ after) = 0 := by
  obtain ⟨-, hbase, -, hunder, -⟩ := Numeral.base_of_mem_markedBases hmark
  obtain ⟨hoctal, hfigure, hpoint, hexponent, isDigit, hlength, hclosings, hall⟩ :=
    mark_of_mem_markedBases hmark
  have hstops {isDigit : Char → Bool} (hm : isDigit mark = false) :
      Stops isDigit (mark :: cs ++ after) := by
    intro y more hcons
    obtain rfl := (List.cons.inj hcons).1
    exact ⟨hm, hunder⟩
  constructor
  · have hrun := runLength_append h (fun c hc => of_isDigit hbase hall (hds c hc))
      (hafter.stops hclosings)
    obtain ⟨d, _, more, _, rfl⟩ := h.exists_head
    show integerLength ('0' :: mark :: (d :: more ++ after)) = _
    have hzero : runLength isOctal ('0' :: mark :: (d :: more ++ after)) = 1 :=
      runLength_zero (by decide) (hstops hoctal)
    rw [hlength, hzero, markedLength, hrun]
    show max 1 (more.length + 1 + 2) = more.length + 1 + 2
    omega
  · have hrun : runLength Char.isDigit ('0' :: mark :: cs ++ after) = 1 :=
      runLength_zero (by decide) (hstops hfigure)
    have hrest : ('0' :: mark :: cs ++ after).drop
        (runLength Char.isDigit ('0' :: mark :: cs ++ after)) = mark :: cs ++ after := by
      rw [hrun]
      rfl
    refine floatLength_eq_zero hrest ?_
    intro y more hcons
    obtain rfl := (List.cons.inj hcons).1
    exact ⟨hpoint, hexponent⟩

/-- After a zero that no mark follows the digits are octal. -/
theorem integerLength_unmarked {c : Char} (hc : c.toLower ∉ ['x', 'b', 'o']) (rest : List Char) :
    integerLength ('0' :: c :: rest) = runLength isOctal ('0' :: c :: rest) := by
  unfold integerLength
  simp only
  split
  next h => exact (hc (by rw [h]; decide)).elim
  next h => exact (hc (by rw [h]; decide)).elim
  next h => exact (hc (by rw [h]; decide)).elim
  next => exact Nat.max_zero _

/-- Octal digits after a zero are an integer up to their end. -/
theorem integerLength_octal {ds cs after : List Char}
    (hds : ∀ c ∈ ds, Numeral.isDigit 8 c = true) (hne : ds ≠ [])
    (h : Numeral.Spaced ('0' :: ds) cs) (hafter : Closes after) :
    integerLength (cs ++ after) = cs.length := by
  have hoctal (c : Char) (hc : c ∈ ds) : isOctal c = true :=
    of_isDigit (by decide) (by decide) (hds c hc)
  have hrun := runLength_append h (List.forall_mem_cons.mpr ⟨by decide, hoctal⟩)
    (hafter.stops (by decide))
  obtain ⟨c, rest, rfl, hc⟩ : ∃ c rest, cs = '0' :: c :: rest ∧ c.toLower ∉ ['x', 'b', 'o'] := by
    cases h with
    | last => exact absurd rfl hne
    | next _ h =>
      obtain ⟨d, _, more, rfl, rfl⟩ := h.exists_head
      have hd : decide (d.toLower ∉ ['x', 'b', 'o']) = true :=
        of_isDigit (p := fun d => decide (d.toLower ∉ ['x', 'b', 'o'])) (by decide)
          (by decide) (hds d (List.mem_cons_self ..))
      exact ⟨d, more, rfl, of_decide_eq_true hd⟩
    | apart => exact ⟨'_', _, rfl, by decide⟩
  exact (integerLength_unmarked hc _).trans hrun

/-- Figures that do not begin with a zero, or are only that, are an integer up to their end. -/
theorem integerLength_toDigits {m : Nat} {cs after : List Char}
    (h : Numeral.Spaced (Nat.toDigits 10 m) cs) (hafter : Closes after) :
    integerLength (cs ++ after) = cs.length := by
  cases Nat.eq_zero_or_pos m with
  | inl hm =>
    obtain rfl : cs = ['0'] := by
      subst hm
      rw [Nat.toDigits_zero] at h
      cases h with
      | last => rfl
      | next _ h => cases h
      | apart _ h => cases h
    rcases hafter.head with rfl | ⟨y, more, rfl, hy⟩
    · rfl
    · have hmark : ∀ y ∈ closings, y.toLower ∉ ['x', 'b', 'o'] :=
        Numeral.forall_mem_of_all (by decide)
      exact (integerLength_unmarked (hmark y hy) more).trans
        (runLength_zero (by decide) (hafter.stops (by decide)))
  | inr hm =>
    have hstops : Stops Char.isDigit after := hafter.stops (by decide)
    have hrun := runLength_append h
      (fun c => Nat.isDigit_of_mem_toDigits (by decide) (by decide)) hstops
    obtain ⟨c, rest, hcons, hc⟩ := Numeral.toDigits_head hm
    obtain ⟨d, _, more, hds, rfl⟩ := h.exists_head
    have hd : d ≠ '0' := (List.cons.inj (hcons.symm.trans hds)).1 ▸ hc
    rw [List.cons_append] at hrun ⊢
    unfold integerLength
    split
    next heq => exact absurd (List.cons.inj heq).1 hd
    next => exact hrun

/-- The literal of a number is an integer up to its end. -/
theorem number?_writes {m base : Nat} {cs after : List Char} (h : Numeral.Writes m base cs)
    (hafter : Closes after) : number? (cs ++ after) = some ("integer", cs.length) := by
  have hplain {ds cs : List Char} (h : Numeral.Spaced ds cs) (hds : ∀ c ∈ ds, c.isDigit = true) :
      floatLength (cs ++ after) = 0 :=
    floatLength_eq_zero (by rw [runLength_append h hds (hafter.stops (by decide)), List.drop_left])
      hafter.no_float
  have hlengths : integerLength (cs ++ after) = cs.length ∧ floatLength (cs ++ after) = 0 := by
    cases h with
    | decimal h =>
      exact ⟨integerLength_toDigits h hafter,
        hplain h fun c => Nat.isDigit_of_mem_toDigits (by decide) (by decide)⟩
    | marked hmark hds h =>
      obtain ⟨hone, hbase, -⟩ := Numeral.base_of_mem_markedBases hmark
      exact lengths_marked hmark (hds.isDigit hone hbase) h hafter
    | octal hds h =>
      have hdigits := hds.isDigit (by decide) (by decide)
      have hfigures : ∀ c ∈ '0' :: _, c.isDigit = true := List.forall_mem_cons.mpr
        ⟨rfl, fun c hc => of_isDigit (by decide) (by decide) (hdigits c hc)⟩
      exact ⟨integerLength_octal hdigits hds.ne_nil h hafter, hplain h hfigures⟩
  have hpos : 0 < cs.length := by
    obtain ⟨x, xs, rfl, -⟩ := h.exists_head
    exact Nat.succ_pos _
  unfold number?
  rw [hlengths.1, hlengths.2, if_neg (Nat.not_lt_zero _), if_pos hpos]

section

variable {whole : List Char} (R : Rules) (level : Nat)

/-- The literal of a number is read as an integer literal. -/
theorem reads_numeral {m base : Nat} {cs : List Char} (h : Numeral.Writes m base cs) :
    Reads whole Closes (R.expressionStep level) cs
      fun n => n.kind = "integer" ∧ textIn whole n = String.ofList cs := by
  intro c after hin hfaces hafter
  have hword : Rules.literalWord c = none := by
    obtain ⟨x, xs, rfl, hx⟩ := h.exists_head
    exact literalWord_none hfaces (not_mem_closedWords (isNameStart_of_isDigit hx))
  have hnumber : Scan.number c = leaf "integer" true cs.length (c.skip true) := by
    unfold Scan.number
    rw [bind_some (skip_run c), bind_some (rest_run (c.skip true)), hfaces.rest,
      number?_writes h hafter]
  have hclosed : R.closedOperand c = some _ :=
    (orElse_none hword).trans (orElse_some (hnumber.trans (leaf_run ..)))
  have hends := hafter.ends ((hin.skip true).token cs.length) (rest_token_skip hfaces)
  refine ⟨_, expression_of_closed hclosed hends level, rfl, rfl, ?_⟩
  rw [textIn, (hin.skip true).text rfl rfl, hfaces.rest, List.take_left]

/-- The digits of a number are read as an integer literal. -/
theorem reads_digits (m : Nat) :
    Reads whole Closes (R.expressionStep level) (Nat.toDigits 10 m)
      (SpellsDigits (textIn whole) m) :=
  reads_numeral R level (.decimal (.refl Nat.toDigits_ne_nil))

theorem updateBefore_none {c : Cursor} {x : Char} {more : List Char}
    (h : c.Faces ('-' :: x :: more)) (hx : '-' ≠ x) : R.updateBefore c = none := by
  have hincrement : mark "++" (c.skip true) = none := h.skip.mark_none rfl (by decide)
  have hdecrement : mark "--" (c.skip true) = none := by
    refine Scan.mark_none ?_
    rw [h.skip_skip, h.rest]
    show (true && (('-' == x) && true)) = false
    rw [beq_eq_false_iff_ne.mpr hx]
    rfl
  exact node_none (bind_none (orElse_both hincrement hdecrement))

/-- A minus sign before digits is read as an operator on them. -/
theorem reads_negative (m : Nat)
    (hoperand : Reads whole Closes (R.expression unaryLevel) (Nat.toDigits 10 m)
      (SpellsDigits (textIn whole) m)) :
    Reads whole Closes (R.expressionStep level) ('-' :: Nat.toDigits 10 m) fun n =>
      n.kind = "unary_op_expression" ∧ ∃ sign operand, n.children = [sign, operand]
        ∧ sign.field = some "operator" ∧ sign.isNamed = false ∧ textIn whole sign = "-"
        ∧ operand.isNamed = true ∧ SpellsDigits (textIn whole) m operand := by
  obtain ⟨x, xs, hcons⟩ := List.exists_cons_of_ne_nil (Nat.toDigits_ne_nil (n := m) (b := 10))
  have hx : x.isDigit = true :=
    Nat.isDigit_of_mem_toDigits (by decide) (by decide) (hcons ▸ List.mem_cons_self ..)
  have hminus : '-' ≠ x := by
    rintro rfl
    cases hx
  intro c after hin hfaces hafter
  -- the sign
  have hrest : (c.skip true).rest = "-".toList ++ (Nat.toDigits 10 m ++ after) := hfaces.rest
  let sign : Node :=
    ⟨"-", (c.skip true).offset, ((c.skip true).token 1).offset, none, false, false, []⟩
  have hsign : mark "-" (c.skip true) = some (sign, (c.skip true).token 1) :=
    mark_here hfaces.skip_skip hrest
  have htext : textIn whole (sign.inField "operator") = "-" := by
    have hone : textIn whole sign = String.ofList ((c.skip true).rest.take 1) :=
      (hin.skip true).text rfl rfl
    rw [hrest] at hone
    exact hone
  -- what it stands before
  have hnext : ((c.skip true).token 1).rest = Nat.toDigits 10 m ++ after := by
    rw [Cursor.rest_token, hrest]
    rfl
  have hextra : extra? (Nat.toDigits 10 m ++ after) = none := by
    rw [hcons]
    exact extra?_of_mem_openings (mem_openings_of_isDigit hx) _
  obtain ⟨operand, hread, hnamed, hdigits⟩ :=
    hoperand _ after ((hin.skip true).token 1) (.of_rest hnext hextra) hafter
  have hsettled : ((c.skip true).token 1).skip true = (c.skip true).token 1 :=
    Cursor.skip_of_extra?_eq_none (hnext.symm ▸ hextra) true
  rw [hsettled, Cursor.token_token, Nat.add_comm] at hread
  -- both together
  let stop := (c.skip true).token ('-' :: Nat.toDigits 10 m).length
  have hunary : R.unary c = some (⟨"unary_op_expression", (c.skip true).offset, stop.last, none,
      true, false, [sign.inField "operator", operand.inField "argument"]⟩, stop) := by
    refine node_some ?_
    rw [bind_some (orElse_some hsign), bind_some hread]
    rfl
  have hupdate : R.updateBefore c = none := by
    rw [hcons] at hfaces
    exact updateBefore_none R hfaces hminus
  have hclosed : R.closedOperand c = some _ :=
    (orElse_none (literalWord_none hfaces (not_mem_closedWords (by decide)))).trans <|
      (orElse_none (number_none hfaces (number?_none rfl (by decide) (by decide) (by decide)
        (by decide)))).trans <|
      (orElse_none hupdate).trans (orElse_some hunary)
  have hends := hafter.ends ((hin.skip true).token _) (rest_token_skip hfaces)
  exact ⟨_, expression_of_closed hclosed hends level, rfl, rfl, sign.inField "operator",
    operand.inField "argument", rfl, rfl, rfl, htext, hnamed, hdigits⟩

end

end StaticReflection.Grammar
