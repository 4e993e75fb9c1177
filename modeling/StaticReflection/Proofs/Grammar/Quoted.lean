import StaticReflection.Proofs.Grammar.Literal

/-!
# Texts in quotes

A text between quotes has a backslash before each character that would not stand for itself there
(`Quotes.escape`). Such a text is read character by character, the backslash together with the
character after it, up to the closing quote and no further: a backslash never protects the closing
quote, and no backslash is left over to begin another escape sequence. Between double quotes
nothing is interpolated, because no dollar sign is without a backslash.

> `Grammar.reads_quotes`: a text in quotes is read as a whole, with or without a mark before it.
-/

namespace StaticReflection

/-- Quotes, and the characters that a backslash stands before between them. -/
structure Quotes where
  sign : Char
  special : List Char

namespace Quotes

/-- Single quotes. -/
def single : Quotes := ⟨'\'', ['\\', '\'']⟩

/-- Double quotes, between which a dollar sign would begin a variable. -/
def double : Quotes := ⟨'"', ['\\', '$', '"']⟩

variable (q : Quotes)

/-- A character between quotes. -/
def escape (c : Char) : List Char := if c ∈ q.special then ['\\', c] else [c]

/-- The characters of a text in quotes. -/
def quoted (s : String) : List Char := q.sign :: (s.toList.flatMap q.escape ++ [q.sign])

theorem escape_pos (c : Char) : 0 < (q.escape c).length := by
  unfold escape
  split <;> exact Nat.zero_lt_succ _

theorem escape_single : single.escape = Text.escapeChar := by
  funext c
  unfold escape Text.escapeChar single
  simp only [List.mem_cons, List.not_mem_nil, or_false]

theorem quoted_append (s : String) (after : List Char) :
    q.quoted s ++ after = q.sign :: (s.toList.flatMap q.escape ++ q.sign :: after) := by
  unfold quoted
  rw [List.cons_append, List.append_assoc, List.singleton_append]

theorem length_quoted (s : String) :
    (q.quoted s).length = 1 + (s.toList.flatMap q.escape).length + 1 := by
  unfold quoted
  rw [List.length_cons, List.length_append, List.length_singleton]
  omega

/-- Between double quotes no dollar sign is without a backslash, not even the first. -/
theorem head_inside_double (cs after : List Char) :
    (cs.flatMap double.escape ++ '"' :: after).head? ≠ some '$' := by
  cases cs with
  | nil => exact fun h => absurd (Option.some.inj h) (by decide)
  | cons c cs =>
    rw [List.flatMap_cons, escape]
    by_cases hc : c ∈ double.special
    · rw [if_pos hc]
      exact fun h => absurd (Option.some.inj h) (by decide)
    · rw [if_neg hc]
      intro h
      obtain rfl : c = '$' := Option.some.inj h
      exact hc (by decide)

end Quotes

/-- The literal of a text is the text in single quotes. -/
theorem Text.singleQuoted_ofString (s : String) :
    (ofString s).singleQuoted = ofString (String.ofList (Quotes.single.quoted s)) := by
  have hencodable : (ofString s).singleQuoted.isEncodable = true := by
    rw [singleQuoted_isEncodable, isEncodable_ofString]
  obtain ⟨t, ht⟩ := exists_ofString hencodable
  have hchars : t.toList = Quotes.single.quoted s := by
    rw [← chars_ofString, ← ht, chars_singleQuoted, Quotes.quoted, Quotes.escape_single]
    rfl
  rw [ht, ← hchars, String.ofList_toList]

/-! ## Parts of strings -/

namespace Node

/-- Nothing is interpolated by signs and the plain parts of a string. -/
theorem interpolatedParts_eq_nil {ns : List Node}
    (h : ∀ n ∈ ns, n.isNamed = false ∨ isStringPart n.kind = true) : interpolatedParts ns = [] := by
  refine interpolatedParts_eq_nil_iff.mpr fun n hn hnamed => interpolated_eq_nil_iff.mpr (.inl ?_)
  exact (h n hn).resolve_left (by rw [hnamed]; exact Bool.noConfusion)

end Node

namespace Grammar

open Scan

theorem joined_part {ns : List Node} (h : ∀ n ∈ ns, Node.isStringPart n.kind = true) :
    ∀ n ∈ joined ns, Node.isStringPart n.kind = true := by
  induction ns with
  | nil => exact h
  | cons n rest ih =>
    obtain ⟨hn, hrest⟩ := List.forall_mem_cons.mp h
    have hjoined := ih hrest
    show ∀ m ∈ joinNext n (joined rest), _
    cases hcons : joined rest with
    | nil => exact List.forall_mem_singleton.mpr hn
    | cons next more =>
      rw [hcons] at hjoined
      rw [joinNext]
      split
      · intro m hm
        rcases List.mem_cons.mp hm with rfl | hm
        · exact hn
        · exact hjoined m (List.mem_cons_of_mem _ hm)
      · exact List.forall_mem_cons.mpr ⟨hn, hjoined⟩

variable {c d : Cursor} {x : Char} {after : List Char}

theorem escaped_none (h : c.rest = x :: after) (hx : x ≠ '\\') (length : List Char → Nat)
    (p : Char → Bool) : escaped length p c = none := by
  unfold escaped
  rw [bind_some (rest_run c), h]
  generalize hcs : x :: after = cs
  split
  next => exact absurd (List.cons.inj hcs).1 hx
  next => rfl

theorem escaped_some (h : c.rest = '\\' :: x :: after) {length : List Char → Nat}
    (hlength : length (x :: after) = 1) :
    ∃ nodes, escaped length (fun _ => true) c = some (nodes, c.token 2)
      ∧ ∀ n ∈ nodes, Node.isStringPart n.kind = true := by
  unfold escaped
  rw [bind_some (rest_run c), h]
  simp only [hlength]
  exact ⟨_, rfl, List.forall_mem_singleton.mpr rfl⟩

theorem plain_none (h : c.rest = x :: after) {p : Char → Bool} (hx : p x = false) :
    plain p c = none := by
  unfold plain
  rw [bind_some (rest_run c), h]
  simp only [List.head?_cons, Option.map_some, Option.getD_some, hx]
  exact require_false

theorem plain_some (h : c.rest = x :: after) {p : Char → Bool} (hx : p x = true) :
    ∃ nodes, plain p c = some (nodes, c.token 1)
      ∧ ∀ n ∈ nodes, Node.isStringPart n.kind = true := by
  unfold plain
  rw [bind_some (rest_run c), h]
  simp only [List.head?_cons, Option.map_some, Option.getD_some, hx]
  exact ⟨_, rfl, List.forall_mem_singleton.mpr rfl⟩

/-- What begins with neither a dollar sign nor a brace before one is not interpolated. -/
theorem interpolation_none (expression : Scan Node) (h : c.rest = x :: after) (hx : x ≠ '$')
    (hafter : x = '{' → after.head? ≠ some '$') : interpolation expression c = none := by
  have hbraced : bracedExpression expression c = none := by
    have htake : ((x :: after).take 2 == ['{', '$']) = false := by
      rw [beq_eq_false_iff_ne]
      intro heq
      obtain ⟨hbrace, hdollar⟩ := List.cons.inj heq
      refine hafter hbrace ?_
      cases after with
      | nil => cases hdollar
      | cons y more => exact congrArg some (List.cons.inj hdollar).1
    unfold bracedExpression
    rw [bind_some (rest_run c), h, htake]
    exact require_false
  have hname : bracedName expression c = none := by
    have htake : ((x :: after).take 2 == ['$', '{']) = false :=
      beq_eq_false_iff_ne.mpr fun heq => hx (List.cons.inj heq).1
    unfold bracedName
    rw [bind_some (rest_run c), h, htake]
    exact require_false
  have hvariable : plainVariable c = none := by
    have hsign : signHere '$' c = none := by
      unfold signHere
      rw [bind_some (rest_run c), h, show ((x :: after).head? == some '$') = false from
        beq_eq_false_iff_ne.mpr fun he => hx (Option.some.inj he)]
      exact require_false
    unfold plainVariable variableHere
    exact bind_none (bind_none hsign)
  exact orElse_both hbraced (one_none (orElse_both hname hvariable))

/-! ## The characters between quotes -/

/-- A scan reads the characters between quotes one by one, as parts of a string that are not
interpolated, and nothing at the closing quote. -/
structure PartOf (q : Quotes) (part : Scan (List Node)) : Prop where
  char : ∀ {c : Cursor} {x : Char} {cs after : List Char},
    c.rest = q.escape x ++ (cs.flatMap q.escape ++ q.sign :: after) →
      ∃ nodes, part c = some (nodes, c.token (q.escape x).length)
        ∧ ∀ n ∈ nodes, Node.isStringPart n.kind = true
  closing : ∀ {c : Cursor} {after : List Char}, c.rest = q.sign :: after → part c = none

theorem partOf_single :
    PartOf .single (escaped singleEscape (fun _ => true) <|> plain (· != '\'')) := by
  constructor
  case char =>
    intro c x cs after h
    unfold Quotes.escape at h ⊢
    by_cases hx : x ∈ Quotes.single.special
    · rw [if_pos hx] at h ⊢
      have hlength (more : List Char) : singleEscape (x :: more) = 1 := by
        simp only [Quotes.single, List.mem_cons, List.not_mem_nil, or_false] at hx
        rcases hx with rfl | rfl <;> rfl
      obtain ⟨nodes, hnodes, hparts⟩ := escaped_some h (hlength _)
      exact ⟨nodes, orElse_some hnodes, hparts⟩
    · rw [if_neg hx] at h ⊢
      have hbackslash : x ≠ '\\' := by
        rintro rfl
        exact hx (by decide)
      have hquote : (x != '\'') = true := by
        refine bne_iff_ne.mpr ?_
        rintro rfl
        exact hx (by decide)
      obtain ⟨nodes, hnodes, hparts⟩ := plain_some (p := (· != '\'')) h hquote
      exact ⟨nodes, (orElse_none (escaped_none h hbackslash _ _)).trans hnodes, hparts⟩
  case closing =>
    intro c after h
    exact orElse_both (escaped_none h (by decide) _ _) (plain_none h (by decide))

theorem partOf_double (expression : Scan Node) :
    PartOf .double (interpolatingPart expression <|> plain (· != '"')) := by
  constructor
  case char =>
    intro c x cs after h
    unfold Quotes.escape at h ⊢
    by_cases hx : x ∈ Quotes.double.special
    · rw [if_pos hx] at h ⊢
      have hlength (more : List Char) : doubleEscape (x :: more) = 1 := by
        simp only [Quotes.double, List.mem_cons, List.not_mem_nil, or_false] at hx
        rcases hx with rfl | rfl | rfl <;> rfl
      obtain ⟨nodes, hnodes, hparts⟩ := escaped_some h (hlength _)
      exact ⟨nodes, orElse_some (orElse_some hnodes), hparts⟩
    · rw [if_neg hx] at h ⊢
      have hne {y : Char} (hy : y ∈ Quotes.double.special) : x ≠ y := fun he => hx (he ▸ hy)
      have hinterpolation : interpolation expression c = none :=
        interpolation_none expression h (hne (by decide)) fun _ =>
          Quotes.head_inside_double cs after
      obtain ⟨nodes, hnodes, hparts⟩ :=
        plain_some (p := (· != '"')) h (bne_iff_ne.mpr (hne (by decide)))
      have hinside : interpolatingPart expression c = none :=
        orElse_both (escaped_none h (hne (by decide)) _ _) hinterpolation
      exact ⟨nodes, (orElse_none hinside).trans hnodes, hparts⟩
  case closing =>
    intro c after h
    have hinterpolation : interpolation expression c = none :=
      interpolation_none expression h (by decide) fun hbrace => by cases hbrace
    exact orElse_both (orElse_both (escaped_none h (by decide) _ _) hinterpolation)
      (plain_none h (by decide))

/-- Characters between quotes are read one after the other. -/
theorem many_inside {whole : List Char} {q : Quotes} {part : Scan (List Node)}
    (hpart : PartOf q part) (hin : d.In whole) (cs : List Char) {k : Nat}
    (h : (d.token k).rest = cs.flatMap q.escape ++ q.sign :: after) :
    ∃ nodes, many part (d.token k) = some (nodes, d.token (k + (cs.flatMap q.escape).length))
      ∧ ∀ n ∈ nodes, Node.isStringPart n.kind = true := by
  induction cs generalizing k with
  | nil => exact ⟨[], many_none (hpart.closing h), fun n hn => by cases hn⟩
  | cons x cs ih =>
    rw [List.flatMap_cons, List.append_assoc] at h
    obtain ⟨nodes, hnodes, hkinds⟩ := hpart.char h
    have hrest := Cursor.rest_token_append h
    rw [Cursor.token_token] at hnodes hrest
    obtain ⟨more, hmore, hkinds'⟩ := ih hrest
    have hleft : (d.token (k + (q.escape x).length)).left < (d.token k).left := by
      rw [← Cursor.token_token]
      refine Cursor.left_token_lt (hin.token k) (q.escape_pos x) fun hnil => ?_
      rw [hnil] at h
      have := congrArg List.length h
      simp only [List.length_nil, List.length_append, List.length_cons] at this
      omega
    refine ⟨nodes ++ more, ?_, List.forall_mem_append.mpr ⟨hkinds, hkinds'⟩⟩
    rw [many_some hnodes hleft hmore, List.flatMap_cons, List.length_append, Nat.add_assoc]

/-! ## Whole quotations -/

theorem signHere_some {c : Cursor} {q : Char} {after : List Char} (h : c.rest = q :: after) :
    signHere q c = leaf (String.singleton q) false 1 c := by
  unfold signHere
  rw [bind_some (rest_run c), h, show ((q :: after).head? == some q) = true from
    beq_self_eq_true (some q)]
  rfl

theorem char_some {p : Char → Bool} (h : c.rest = x :: after) (hx : p x = true) :
    char p c = some ((), c.token 1) := by
  unfold char
  rw [bind_some (rest_run c), h]
  simp only [hx]
  rfl

theorem char_none {p : Char → Bool} (h : c.rest = x :: after) (hx : p x = false) :
    char p c = none := by
  unfold char
  rw [bind_some (rest_run c), h]
  simp only [hx]
  exact require_false

/-- What may stand before a quotation: nothing, or the mark of a binary string. -/
def marks : List (List Char) := [[], ['b'], ['B']]

variable {mark : List Char} {quote : Char}

/-- A mark is a letter that is read before the quote, if it is there. -/
theorem mark_cases (hmark : mark ∈ marks) :
    mark = [] ∨ ∃ x, mark = [x] ∧ (x == 'b' || x == 'B') = true ∧ (x = 'b' ∨ x = 'B') := by
  simp only [marks, List.mem_cons, List.not_mem_nil, or_false] at hmark
  rcases hmark with rfl | rfl | rfl
  · exact .inl rfl
  · exact .inr ⟨_, rfl, rfl, .inl rfl⟩
  · exact .inr ⟨_, rfl, rfl, .inr rfl⟩

theorem openingQuote_some (hmark : mark ∈ marks) (hquote : (quote == 'b' || quote == 'B') = false)
    (h : d.rest = mark ++ quote :: after) :
    ∃ nodes, openingQuote quote d = some (nodes, d.token (mark.length + 1))
      ∧ ∀ n ∈ nodes, n.isNamed = false := by
  rcases mark_cases hmark with rfl | ⟨x, rfl, hx, -⟩
  · have hbinary : char (fun c => c == 'b' || c == 'B') d = none := char_none h hquote
    exact ⟨_, (orElse_none (bind_none hbinary)).trans (one_some (signHere_some h)),
      List.forall_mem_singleton.mpr rfl⟩
  · have hbinary : char (fun c => c == 'b' || c == 'B') d = some ((), d.token 1) :=
      char_some h hx
    have hnext : (d.token 1).rest = quote :: after := by
      rw [Cursor.rest_token, h]
      rfl
    have hsign : char (· == quote) (d.token 1) = some ((), (d.token 1).token 1) :=
      char_some hnext (beq_self_eq_true quote)
    refine ⟨[], orElse_some ?_, fun n hn => by cases hn⟩
    rw [bind_some hbinary, bind_some hsign, Cursor.token_token]
    rfl

theorem openingQuote_ne (hmark : mark ∈ marks) (hquote : (quote == 'b' || quote == 'B') = false)
    (hx : (x == 'b' || x == 'B') = false) (hne : x ≠ quote) (h : d.rest = mark ++ x :: after) :
    openingQuote quote d = none := by
  have hsign {y : Char} {more : List Char} (hrest : d.rest = y :: more) (hy : y ≠ quote) :
      signHere quote d = none := by
    unfold signHere
    rw [bind_some (rest_run d), hrest, show ((y :: more).head? == some quote) = false from
      beq_eq_false_iff_ne.mpr fun he => hy (Option.some.inj he)]
    exact require_false
  rcases mark_cases hmark with rfl | ⟨y, rfl, hy, -⟩
  · exact orElse_both (bind_none (char_none h hx)) (one_none (hsign h hne))
  · have hbinary : char (fun c => c == 'b' || c == 'B') d = some ((), d.token 1) :=
      char_some h hy
    have hnext : (d.token 1).rest = x :: after := by
      rw [Cursor.rest_token, h]
      rfl
    have hletter : y ≠ quote := by
      rintro rfl
      rw [hy] at hquote
      cases hquote
    refine orElse_both ?_ (one_none (hsign h hletter))
    rw [bind_some hbinary]
    exact bind_none (char_none hnext (beq_eq_false_iff_ne.mpr hne))

/-- A text in quotes is read as a node over all of it, in which nothing is interpolated. -/
theorem quoted_run {whole : List Char} {q : Quotes} {inside : Scan (List Node)}
    (hpart : PartOf q (inside <|> plain (· != q.sign)))
    (hquote : (q.sign == 'b' || q.sign == 'B') = false) (hin : d.In whole)
    (hskip : d.skip true = d) (hmark : mark ∈ marks) (s : String)
    (hrest : d.rest = mark ++ q.quoted s ++ after) (kind : String) :
    ∃ children, node kind (do return (← openingQuote q.sign) ++ (← closedBy q.sign inside)) d
        = some (⟨kind, d.offset, (d.token (mark ++ q.quoted s).length).offset, none, true, false,
            children⟩, d.token (mark ++ q.quoted s).length)
      ∧ Node.interpolatedParts children = [] := by
  rw [List.append_assoc, q.quoted_append] at hrest
  have hlength : (mark ++ q.quoted s).length
      = mark.length + 1 + (s.toList.flatMap q.escape).length + 1 := by
    rw [List.length_append, q.length_quoted]
    omega
  obtain ⟨opening, hopening, hsigns⟩ := openingQuote_some hmark hquote hrest
  have hinside : (d.token (mark.length + 1)).rest
      = s.toList.flatMap q.escape ++ q.sign :: after := by
    rw [← Cursor.token_token]
    have hnext := Cursor.rest_token_append hrest
    rw [Cursor.rest_token, hnext]
    rfl
  obtain ⟨parts, hparts, hkinds⟩ := many_inside hpart hin _ hinside
  have hclose : (d.token (mark.length + 1 + (s.toList.flatMap q.escape).length)).rest
      = q.sign :: after := by
    rw [← Cursor.token_token]
    exact Cursor.rest_token_append hinside
  obtain ⟨closing, hclosing, hunnamed⟩ : ∃ closing,
      signHere q.sign (d.token (mark.length + 1 + (s.toList.flatMap q.escape).length))
        = some (closing, d.token (mark ++ q.quoted s).length) ∧ closing.isNamed = false := by
    rw [signHere_some hclose, leaf_run, Cursor.token_token, hlength]
    exact ⟨_, rfl, rfl⟩
  have hbody : closedBy q.sign inside (d.token (mark.length + 1))
      = some (joined parts ++ [closing], d.token (mark ++ q.quoted s).length) := by
    unfold closedBy
    rw [bind_some hparts, bind_some hclosing]
    rfl
  have hall : (do return (← openingQuote q.sign) ++ (← closedBy q.sign inside) : Scan (List Node))
      (d.skip true) = some (opening ++ (joined parts ++ [closing]),
        d.token (mark ++ q.quoted s).length) := by
    rw [hskip, bind_some hopening, bind_some hbody]
    rfl
  have hnode : node kind (do return (← openingQuote q.sign) ++ (← closedBy q.sign inside)) d
      = some _ := node_some hall
  rw [hskip] at hnode
  refine ⟨_, hnode, Node.interpolatedParts_eq_nil ?_⟩
  refine List.forall_mem_append.mpr ⟨fun n hn => .inl (hsigns n hn), ?_⟩
  exact List.forall_mem_append.mpr ⟨fun n hn => .inr (joined_part hkinds n hn),
    List.forall_mem_singleton.mpr (.inl hunnamed)⟩

section

variable {whole : List Char} (R : Rules) (level : Nat) (s : String)

/-- A quotation, with or without a mark, begins no operand that nothing may follow. -/
theorem closedOperand_quotation (hmark : mark ∈ marks) (hx : x ∈ ['\'', '"'])
    (h : c.Faces (mark ++ x :: after)) : R.closedOperand c = none := by
  have hname : isNameStart x = false ∧ isNamePart x = false := by
    simp only [List.mem_cons, List.not_mem_nil, or_false] at hx
    rcases hx with rfl | rfl <;> decide
  rcases mark_cases hmark with rfl | ⟨y, rfl, -, hy⟩
  · refine closedOperand_none R h (not_mem_closedWords hname.1) ?_ ?_
    · simp only [List.mem_cons, List.not_mem_nil, or_false] at hx
      rcases hx with rfl | rfl <;>
        exact number?_none rfl (by decide) (by decide) (by decide) (by decide)
    · simp only [List.mem_cons, List.not_mem_nil, or_false] at hx
      rcases hx with rfl | rfl <;> decide
  · have hword : wordOf (y :: x :: after) = String.ofList [y] := by
      have hletter : isNameStart y = true := by
        rcases hy with rfl | rfl <;> decide
      rw [wordOf, if_pos hletter, List.takeWhile_cons_of_neg (Bool.eq_false_iff.mp hname.2)]
    have hletters : c.Faces (y :: x :: after) := h
    refine closedOperand_none R hletters ?_ ?_ ?_
    · rw [hword]
      rcases hy with rfl | rfl <;> decide +kernel
    · rcases hy with rfl | rfl <;>
        exact number?_none rfl (by decide) (by decide) (by decide) (by decide)
    · rcases hy with rfl | rfl <;> decide

/-- A node of a kind over some characters, in which nothing is interpolated. -/
def IsQuotation (text : Node → String) (kind : String) (cs : List Char) (n : Node) : Prop :=
  n.kind = kind ∧ text n = String.ofList cs ∧ Node.interpolatedParts n.children = []

/-- A text in quotes, with or without a mark, is read as a whole if its form of quotations is the
one that begins there. -/
theorem reads_quotes {q : Quotes} {inside : Scan (List Node)} {kind : String}
    (hpart : PartOf q (inside <|> plain (· != q.sign))) (hsign : q.sign ∈ ['\'', '"'])
    (hmark : mark ∈ marks)
    (hform : ∀ {c : Cursor} {after : List Char}, c.Faces (mark ++ q.sign :: after) → ∀ {r},
      node kind (do return (← openingQuote q.sign) ++ (← closedBy q.sign inside)) (c.skip true)
        = some r → quotation R.anyExpression c = some r) :
    Reads whole Closes (R.expressionStep level) (mark ++ q.quoted s)
      (IsQuotation (textIn whole) kind (mark ++ q.quoted s)) := by
  intro c after hin hfaces hafter
  have hfaces' : c.Faces (mark ++ q.sign :: (s.toList.flatMap q.escape ++ q.sign :: after)) := by
    rw [List.append_assoc, q.quoted_append] at hfaces
    exact hfaces
  have hquote : (q.sign == 'b' || q.sign == 'B') = false := by
    simp only [List.mem_cons, List.not_mem_nil, or_false] at hsign
    rcases hsign with h | h <;> rw [h] <;> rfl
  obtain ⟨children, hnode, hplain⟩ :=
    quoted_run hpart hquote (hin.skip true) hfaces.skip_skip hmark s hfaces.rest kind
  have hopen : R.openOperand c = some _ := orElse_some (hform hfaces' hnode)
  have hclosed := closedOperand_quotation R hmark hsign hfaces'
  have hends := hafter.ends ((hin.skip true).token _) (rest_token_skip hfaces)
  refine ⟨_, expression_of_open hclosed hopen hends level, rfl, rfl, ?_, hplain⟩
  rw [textIn, (hin.skip true).text rfl rfl, hfaces.rest, List.take_left]

/-- A text in single quotes, with or without a mark, is read as a string. -/
theorem reads_single (hmark : mark ∈ marks) :
    Reads whole Closes (R.expressionStep level) (mark ++ Quotes.single.quoted s)
      (IsQuotation (textIn whole) "string" (mark ++ Quotes.single.quoted s)) := by
  refine reads_quotes R level s partOf_single (by decide) hmark fun {c after} _ r hnode => ?_
  exact (bind_some (skip_run c)).trans (orElse_some hnode)

/-- A text in double quotes, with or without a mark, is read as a string. -/
theorem reads_double (hmark : mark ∈ marks) :
    Reads whole Closes (R.expressionStep level) (mark ++ Quotes.double.quoted s)
      (IsQuotation (textIn whole) "encapsed_string" (mark ++ Quotes.double.quoted s)) := by
  refine reads_quotes R level s (partOf_double R.anyExpression) (by decide) hmark
    fun {c after} hfaces r hnode => ?_
  have hother : singleQuoted (c.skip true) = none := by
    refine node_none (bind_none ?_)
    rw [hfaces.skip_skip]
    exact openingQuote_ne hmark rfl rfl (by decide) hfaces.rest
  exact (bind_some (skip_run c)).trans ((orElse_none hother).trans (orElse_some hnode))

/-- The literal of a text is read as a string. -/
theorem reads_quoted :
    Reads whole Closes (R.expressionStep level) (Text.ofString s).singleQuoted.chars
      (SpellsText (textIn whole) (Text.ofString s)) := by
  unfold SpellsText
  rw [Text.singleQuoted_ofString, Text.chars_ofString, String.toList_ofList]
  intro c after hin hfaces hafter
  obtain ⟨n, hn, hnamed, hkind, htext, -⟩ :=
    reads_single R level s (show [] ∈ marks by decide) c after hin hfaces hafter
  exact ⟨n, hn, hnamed, hkind, htext⟩

end

end Grammar

end StaticReflection
