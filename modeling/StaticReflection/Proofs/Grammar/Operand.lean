import StaticReflection.Grammar.Expression
import StaticReflection.Proofs.Grammar.Scan

/-!
# What begins and what ends an expression

A quote, an opening and a closing bracket begin no operand that nothing may follow
(`closedOperand_none`), and a closing bracket begins no expression at all (`operand_none`).
After an operand, what `Ends` an expression is neither a call, member or index, nor an
assignment, nor an operator.
-/

namespace StaticReflection.Grammar

open Scan

variable {c : Cursor}

/-! ## What comes next -/

/-- What comes next at a cursor, after what stands before it. -/
structure Cursor.Faces (c : Cursor) (cs : List Char) : Prop where
  rest : (c.skip true).rest = cs
  extra : extra? cs = none

namespace Cursor.Faces

variable {cs : List Char}

theorem skip_skip (h : c.Faces cs) : (c.skip true).skip true = c.skip true :=
  skip_of_extra?_eq_none (h.rest ▸ h.extra) true

/-- The same comes next after what stands before it. -/
theorem skip (h : c.Faces cs) : (c.skip true).Faces cs :=
  ⟨by rw [h.skip_skip, h.rest], h.extra⟩

/-- What is right here. -/
theorem of_rest (hrest : c.rest = cs) (hextra : extra? cs = none) : c.Faces cs :=
  ⟨by rw [skip_of_extra?_eq_none (hrest ▸ hextra), hrest], hextra⟩

variable {x : Char} {more : List Char}

theorem mark_none (h : c.Faces (x :: more)) {spelling : String} {y : Char} {ys : List Char}
    (hs : spelling.toList = y :: ys) (hy : y ≠ x) : mark spelling c = none := by
  refine Scan.mark_none ?_
  rw [h.rest, hs, List.isPrefixOf, beq_eq_false_iff_ne.mpr hy, Bool.false_and]

/-- Without a word next, there is an empty one. -/
theorem toLower_wordOf (hx : isNameStart x = false) : (wordOf (x :: more)).toLower = "" := by
  rw [wordOf, if_neg (Bool.eq_false_iff.mp hx)]
  decide +kernel

theorem nextWord_eq (h : c.Faces cs) : nextWord c = some ((wordOf cs).toLower, c.skip true) := by
  rw [nextWord_run, h.rest]

theorem keyword_ne (h : c.Faces cs) {spelling : String} (hs : (wordOf cs).toLower ≠ spelling) :
    keyword spelling c = none := Scan.keyword_none (h.rest.symm ▸ hs)

theorem keyword_none (h : c.Faces (x :: more)) (hx : isNameStart x = false) {spelling : String}
    (hs : "" ≠ spelling) : keyword spelling c = none :=
  h.keyword_ne ((toLower_wordOf hx).symm ▸ hs)

theorem wordAs_none (h : c.Faces (x :: more)) (hx : isNameStart x = false) (kind : String) :
    wordAs kind c = none := by
  have hword : word? (c.skip true) = some (none, c.skip true) := by
    unfold word?
    rw [bind_some (rest_run (c.skip true)),
      h.rest]
    simp only [hx]
    rfl
  unfold wordAs
  rw [bind_some (skip_run c), bind_some hword]
  rfl

theorem signHere_none (h : c.Faces (x :: more)) {y : Char} (hy : x ≠ y) :
    signHere y (c.skip true) = none := by
  unfold signHere
  rw [bind_some (rest_run (c.skip true)),
    h.rest, show ((x :: more).head? == some y) = false from
      beq_eq_false_iff_ne.mpr fun he => hy (Option.some.inj he)]
  exact require_false

end Cursor.Faces

/-! ## Operands that do not begin here -/

section

variable (R : Rules) {x : Char} {more : List Char}

/-- The words that begin operands which nothing may follow. -/
def closedWords : List String :=
  ["true", "false", "null", "clone", "yield", "static", "fn", "function"]
    ++ Rules.greedyForms.map (·.1)

theorem not_mem_closedWords (hx : isNameStart x = false) :
    (wordOf (x :: more)).toLower ∉ closedWords := by
  rw [Cursor.Faces.toLower_wordOf hx]
  decide

theorem literalWord_none {cs : List Char} (h : c.Faces cs)
    (hword : (wordOf cs).toLower ∉ closedWords) : Rules.literalWord c = none := by
  have hne {w : String} (hw : w ∈ closedWords) : ((wordOf cs).toLower == w) = false :=
    beq_eq_false_iff_ne.mpr fun he => hword (he ▸ hw)
  unfold Rules.literalWord
  rw [bind_some h.nextWord_eq, hne (w := "true") (by decide), hne (w := "false") (by decide),
    hne (w := "null") (by decide)]
  rfl

theorem number_none (h : c.Faces (x :: more)) (hx : number? (x :: more) = none) :
    Scan.number c = none := by
  unfold Scan.number
  rw [bind_some (skip_run c),
    bind_some (rest_run (c.skip true)),
    h.rest, hx]
  rfl

/-- Digits, a point or an exponent do not begin with something else. -/
theorem number?_none {cs : List Char} (hcs : cs = x :: more) (hdigit : x.isDigit = false)
    (hpoint : x ≠ '.') (hzero : x ≠ '0') (he : x.toLower ≠ 'e') : number? cs = none := by
  subst hcs
  have hrun : runLength Char.isDigit (x :: more) = 0 := by
    rw [runLength, hdigit]
    rfl
  have hinteger : integerLength (x :: more) = 0 := by
    unfold integerLength
    split
    next heq => exact absurd (List.cons.inj heq).1 hzero
    next => exact hrun
  have hfloat : floatLength (x :: more) = 0 := by
    unfold floatLength
    rw [hrun]
    simp only [List.drop_zero]
    have hexponent : exponentLength (x :: more) = 0 := by
      unfold exponentLength
      exact if_neg fun h => he (eq_of_beq h)
    split
    next heq => exact absurd (List.cons.inj heq).1 hpoint
    next => rw [Nat.add_zero, List.drop_zero, hexponent]; rfl
  unfold number?
  rw [hinteger, hfloat]
  rfl

theorem attributes_none (h : c.Faces (x :: more)) (hx : x ≠ '#') :
    R.attributes c = some ([], c) := by
  have hmark : mark "#[" (c.skip true) = none := h.skip.mark_none rfl hx.symm
  unfold Rules.attributes
  refine orNone_none (bind_none (node_none (bind_none ?_)))
  unfold Rules.attributeGroup
  have hmark' : mark "#[" ((c.skip true).skip true) = none := h.skip_skip.symm ▸ hmark
  exact orElse_both (node_none (bind_none hmark')) (node_none (bind_none hmark'))

theorem functionStart_none (h : c.Faces (x :: more)) (hx : x ≠ '#')
    (hstatic : (wordOf (x :: more)).toLower ≠ "static") {spelling : String}
    (hs : (wordOf (x :: more)).toLower ≠ spelling) : R.functionStart spelling c = none := by
  have hmodifier : orNone (one (Rules.wordModifier ["static"])) c = some ([], c) := by
    refine orNone_none (one_none ?_)
    have hother : ["static"].contains (wordOf (x :: more)).toLower = false := by
      rw [List.contains_cons, beq_eq_false_iff_ne.mpr hstatic]
      rfl
    unfold Rules.wordModifier
    rw [bind_some h.nextWord_eq, hother]
    exact require_false
  unfold Rules.functionStart
  rw [bind_some (attributes_none R h hx), bind_some hmodifier]
  exact bind_none (h.keyword_ne hs)

/-- The signs that begin operands which nothing may follow. -/
def closedSigns : List Char := ['+', '-', '~', '!', '@', '(', '#']

/-- What is no such word or sign, and no number, begins no operand that nothing may follow. -/
theorem closedOperand_none (h : c.Faces (x :: more))
    (hword : (wordOf (x :: more)).toLower ∉ closedWords)
    (hnumber : number? (x :: more) = none) (hsign : x ∉ closedSigns) :
    R.closedOperand c = none := by
  have hne (y : Char) (hy : y ∈ closedSigns) : y ≠ x := fun he => hsign (he ▸ hy)
  have hother {w : String} (hw : w ∈ closedWords) : (wordOf (x :: more)).toLower ≠ w :=
    fun he => hword (he ▸ hw)
  have hs := h.skip
  have hmark {spelling : String} {y : Char} {ys : List Char} (hspell : spelling.toList = y :: ys)
      (hy : y ∈ closedSigns) : mark spelling (c.skip true) = none :=
    hs.mark_none hspell (hne y hy)
  unfold Rules.closedOperand
  refine orElse_both (literalWord_none h hword) <| orElse_both (number_none h hnumber) <|
    orElse_both ?update <| orElse_both ?unary <| orElse_both ?suppression <| orElse_both ?cast <|
    orElse_both ?greedy <| orElse_both ?copy <| orElse_both ?yielding <| orElse_both ?arrow ?closure
  case update =>
    exact node_none (bind_none (orElse_both (hmark rfl (by decide)) (hmark rfl (by decide))))
  case unary =>
    exact node_none (bind_none (orElse_both (hmark rfl (by decide)) <|
      orElse_both (hmark rfl (by decide)) <|
      orElse_both (hmark rfl (by decide)) (hmark rfl (by decide))))
  case suppression => exact node_none (bind_none (hmark rfl (by decide)))
  case cast => exact node_none (bind_none (hmark rfl (by decide)))
  case greedy =>
    have hlookup : Rules.greedyForms.lookup (wordOf (x :: more)).toLower = none := by
      refine List.lookup_eq_none_iff.mpr fun form hform => bne_iff_ne.mpr ?_
      exact hother (List.mem_append_right _ (List.mem_map_of_mem hform))
    unfold Rules.greedyForm
    rw [bind_some h.nextWord_eq, hlookup]
    rfl
  case copy => exact node_none (bind_none (hs.keyword_ne (hother (by decide))))
  case yielding => exact node_none (bind_none (hs.keyword_ne (hother (by decide))))
  case arrow =>
    exact node_none (bind_none (functionStart_none R hs (hne '#' (by decide)).symm
      (hother (by decide)) (hother (by decide))))
  case closure =>
    exact node_none (bind_none (functionStart_none R hs (hne '#' (by decide)).symm
      (hother (by decide)) (hother (by decide))))

/-! ## Operands that something may follow -/

theorem openingQuote_none (h : c.Faces (x :: more)) {quote : Char} (hx : x ≠ quote)
    (hbinary : (x == 'b' || x == 'B') = false) : openingQuote quote (c.skip true) = none := by
  have hchar : char (fun c => c == 'b' || c == 'B') (c.skip true) = none := by
    unfold char
    rw [bind_some (rest_run (c.skip true)),
      h.rest]
    simp only [hbinary]
    exact require_false
  exact orElse_both (bind_none hchar) (one_none (h.signHere_none hx))

theorem heredocForm_none (h : c.Faces (x :: more)) (hx : x ≠ '<')
    (hbinary : (x == 'b' || x == 'B') = false) (form : HeredocForm) : form.scan c = none := by
  have hchar : char (fun c => c == 'b' || c == 'B') (c.skip true) = none := by
    unfold char
    rw [bind_some (rest_run (c.skip true)),
      h.rest]
    simp only [hbinary]
    exact require_false
  refine node_none ?_
  rw [bind_some (maybe_none hchar)]
  exact bind_none (h.skip.mark_none rfl hx.symm)

/-- The signs that begin operands which something may follow. -/
def openSigns : List Char := ['\'', '"', '<', graveAccent, '[', '(', '$', '\\']

theorem quotation_none (expression : Scan Node) (h : c.Faces (x :: more))
    (hbinary : (x == 'b' || x == 'B') = false)
    (hsign : x ∉ ['\'', '"', '<', graveAccent]) : quotation expression c = none := by
  have hne (y : Char) (hy : y ∈ ['\'', '"', '<', graveAccent]) : x ≠ y := fun he => hsign (he ▸ hy)
  have hheredoc (form : HeredocForm) : form.scan (c.skip true) = none :=
    heredocForm_none h.skip (hne '<' (by decide)) hbinary form
  unfold quotation
  rw [bind_some (skip_run c)]
  refine orElse_both ?single <| orElse_both ?double <| orElse_both ?heredoc ?shell
  case single =>
    exact node_none (bind_none (openingQuote_none h.skip (hne '\'' (by decide)) hbinary))
  case double =>
    exact node_none (bind_none (openingQuote_none h.skip (hne '"' (by decide)) hbinary))
  case heredoc => exact orElse_both (hheredoc _) (orElse_both (hheredoc _) (hheredoc _))
  case shell => exact node_none (bind_none (h.skip.signHere_none (hne graveAccent (by decide))))

theorem variableName_none (expression : Scan Node) (h : c.Faces (x :: more)) (hx : x ≠ '$') :
    variableName expression c = none := by
  have hdollars : ((x :: more).takeWhile (· == '$')).isEmpty = true := by
    rw [List.takeWhile_cons, beq_eq_false_iff_ne.mpr hx]
    rfl
  unfold variableName
  rw [bind_some (skip_run c)]
  refine orElse_both (bind_none (h.signHere_none hx)) (node_none ?_)
  rw [bind_some (rest_run _), h.skip.rest, hdollars]
  exact require_false

theorem className_none (h : c.Faces (x :: more)) (hname : isNameStart x = false) (hx : x ≠ '\\') :
    className c = none := by
  refine orElse_both (node_none (bind_none (h.skip.keyword_none hname (by decide)))) ?_
  unfold anyName
  rw [bind_some (place_run c),
    bind_some (orNone_none (one_none (h.skip.mark_none rfl hx.symm)))]
  exact bind_none (h.skip.wordAs_none hname "name")

/-- What is no word or sign begins no operand that something may follow. -/
theorem openOperand_none (h : c.Faces (x :: more)) (hname : isNameStart x = false)
    (hsign : x ∉ openSigns) : R.openOperand c = none := by
  have hne (y : Char) (hy : y ∈ openSigns) : x ≠ y := fun he => hsign (he ▸ hy)
  have hbinary : (x == 'b' || x == 'B') = false := by
    rw [Bool.or_eq_false_iff, beq_eq_false_iff_ne, beq_eq_false_iff_ne]
    constructor <;> rintro rfl <;> cases hname
  have hquote : x ∉ ['\'', '"', '<', graveAccent] := fun hx =>
    hsign (List.mem_of_mem_take (i := 4) hx)
  have hparen : mark "(" (c.skip true) = none :=
    h.skip.mark_none rfl (hne '(' (by decide)).symm
  have hword {spelling : String} (hs : "" ≠ spelling) : keyword spelling (c.skip true) = none :=
    h.skip.keyword_none hname hs
  unfold Rules.openOperand
  refine orElse_both (quotation_none _ h hbinary hquote) <| orElse_both ?array <|
    orElse_both ?parenthesized <| orElse_both (variableName_none _ h (hne '$' (by decide))) <|
    orElse_both ?creation <| orElse_both ?list <| orElse_both ?choice <| orElse_both ?scope
    (className_none h hname (hne '\\' (by decide)))
  case array =>
    exact node_none (orElse_both (bind_none (h.skip.mark_none rfl (hne '[' (by decide)).symm))
      (bind_none (hword (by decide))))
  case parenthesized => exact node_none (bind_none hparen)
  case creation => exact node_none (bind_none (hword (by decide)))
  case list => exact node_none (bind_none (hword (by decide)))
  case choice => exact node_none (bind_none (hword (by decide)))
  case scope =>
    exact bind_none (orElse_both (h.keyword_none hname (by decide))
      (orElse_both (h.keyword_none hname (by decide)) (h.keyword_none hname (by decide))))

/-- A closing bracket begins no expression. -/
theorem expression_none (h : c.Faces (']' :: more)) (level : Nat) :
    R.expressionStep level c = none := by
  have hnumber : number? (']' :: more) = none :=
    number?_none rfl (by decide) (by decide) (by decide) (by decide)
  unfold Rules.expressionStep Rules.operand
  exact bind_none (orElse_both (closedOperand_none R h (not_mem_closedWords (by decide)) hnumber
    (by decide))
    (bind_none (openOperand_none R h (by decide) (by decide))))

end

/-! ## What ends an expression -/

/-- What follows ends an expression: the end of the text, a comma, a semicolon or a closing
bracket, or an arrow. -/
inductive Ends : List Char → Prop
  | nil : Ends []
  | sign {x : Char} {more : List Char} (hx : x ∈ [',', ']', ';', ')']) : Ends (x :: more)
  | arrow {more : List Char} : Ends ('=' :: '>' :: more)

namespace Ends

variable {cs : List Char}

theorem extra?_eq_none (h : Ends cs) : extra? cs = none := by
  cases h with
  | nil => rfl
  | arrow => rfl
  | @sign x more hx =>
    simp only [List.mem_cons, List.not_mem_nil, or_false] at hx
    rcases hx with rfl | rfl | rfl | rfl <;> rfl

theorem skip_skip (h : Ends (c.skip true).rest) : (c.skip true).skip true = c.skip true :=
  Cursor.skip_of_extra?_eq_none h.extra?_eq_none true

theorem skip (h : Ends (c.skip true).rest) : Ends ((c.skip true).skip true).rest := by
  rw [h.skip_skip]
  exact h

theorem mark_none (h : Ends (c.skip true).rest) {spelling : String} {y : Char} {ys : List Char}
    (hs : spelling.toList = y :: ys) (hy : y ∉ [',', ']', ';', ')', '=']) :
    mark spelling c = none := by
  refine Scan.mark_none ?_
  rw [hs]
  generalize (c.skip true).rest = cs at h
  have hne {x : Char} (hx : x ∈ [',', ']', ';', ')', '=']) (more : List Char) :
      (y :: ys).isPrefixOf (x :: more) = false := by
    rw [List.isPrefixOf, beq_eq_false_iff_ne.mpr (fun he : y = x => hy (he ▸ hx)),
      Bool.false_and]
  cases h with
  | nil => rfl
  | sign hx => exact hne (List.mem_append_left ['='] hx) _
  | arrow => exact hne (by decide) _

theorem binaryRule_none (h : Ends (c.skip true).rest) : binaryRule c = none := by
  have hword : (wordOf (c.skip true).rest).toLower = "" ∧ signRule? (c.skip true).rest = none := by
    generalize (c.skip true).rest = cs at h
    cases h with
    | nil => exact ⟨by decide +kernel, rfl⟩
    | arrow => exact ⟨Cursor.Faces.toLower_wordOf rfl, rfl⟩
    | @sign x more hx =>
      simp only [List.mem_cons, List.not_mem_nil, or_false] at hx
      rcases hx with rfl | rfl | rfl | rfl <;> exact ⟨Cursor.Faces.toLower_wordOf rfl, rfl⟩
  unfold binaryRule
  rw [bind_some (nextWord_run c), hword.1, bind_some (rest_run (c.skip true))]
  simp only [hword.2]
  rfl

end Ends

section

variable (R : Rules) (h : Ends (c.skip true).rest)

include h

/-- After an expression that ends there is no operator. -/
theorem operators_none (level : Nat) (n : Node) :
    (R.binary level n <|> R.conditional level n) c = none := by
  refine orElse_both (bind_none h.binaryRule_none) ?_
  unfold Rules.conditional
  cases decide (level ≤ conditionalLevel) with
  | false => exact require_false
  | true => exact require_true.trans (bind_none (h.mark_none rfl (by decide)))

/-- What ends an expression is no call, member or index. -/
theorem following_none (n : Node) : R.following n c = none := by
  have hopen : mark "(" (c.skip true) = none := h.skip.mark_none rfl (by decide)
  have hbracket : mark "[" (c.skip true) = none := h.skip.mark_none rfl (by decide)
  unfold Rules.following
  refine orElse_both ?call <| orElse_both ?index <| orElse_both ?member <|
    orElse_both (bind_none (h.mark_none rfl (by decide))) ?update
  case call =>
    exact bind_none (orElse_both (node_none (bind_none hopen)) (node_none (bind_none hopen)))
  case index =>
    exact bind_none (orElse_both (bind_none (h.mark_none rfl (by decide)))
      (one_none (node_none (bind_none hbracket))))
  case member =>
    exact orElse_both (bind_none (h.mark_none rfl (by decide)))
      (bind_none (h.mark_none rfl (by decide)))
  case update =>
    unfold Rules.updateAfter
    cases Rules.assignable.contains n.kind with
    | false => exact require_false
    | true =>
      exact require_true.trans (bind_none (orElse_both (h.mark_none rfl (by decide))
        (h.mark_none rfl (by decide))))

theorem assignmentSign_none : Rules.assignmentSign c = none := by
  unfold Rules.assignmentSign
  rw [bind_some (skip_run c),
    bind_some (rest_run (c.skip true))]
  have hmark (hplain : ∀ more, (c.skip true).rest ≠ '=' :: '>' :: more) :
      mark "=" (c.skip true) = none := by
    refine Scan.mark_none ?_
    rw [h.skip_skip]
    generalize (c.skip true).rest = cs at h hplain
    cases h with
    | nil => rfl
    | @sign x more hx =>
      simp only [List.mem_cons, List.not_mem_nil, or_false] at hx
      rcases hx with rfl | rfl | rfl | rfl <;> rfl
    | arrow => exact absurd rfl (hplain _)
  cases hnext : ((c.skip true).rest.drop 1).head? != some '='
      && ((c.skip true).rest.drop 1).head? != some '>' with
  | false => exact require_false
  | true =>
    refine require_true.trans (hmark fun more hrest => ?_)
    rw [hrest] at hnext
    cases hnext

/-- What ends an expression is no assignment. -/
theorem assignment_none (n : Node) : R.assignment n c = none := by
  unfold Rules.assignment
  cases Rules.assignable.contains n.kind with
  | false => exact require_false
  | true =>
    refine require_true.trans (orElse_both (bind_none (assignmentSign_none h)) ?_)
    rw [bind_some (skip_run c),
      bind_some (rest_run (c.skip true))]
    have hspelling : augmentedSpellings.find? (startsWith (c.skip true).rest) = none := by
      generalize (c.skip true).rest = cs at h
      cases h with
      | nil => rfl
      | arrow => rfl
      | @sign x more hx =>
        simp only [List.mem_cons, List.not_mem_nil, or_false] at hx
        rcases hx with rfl | rfl | rfl | rfl <;> rfl
    rw [hspelling]
    rfl

end

end StaticReflection.Grammar
