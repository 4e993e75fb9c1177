import StaticReflection.DocBlock.Type
import StaticReflection.Proofs.Text.Blank

/-!
# Types of doc comments, written and read again

A type that a doc comment gives is a word in some number of arrays: a scalar word, or the
name of a class, which is what a token has left when blanks, question marks, pairs of square
brackets, parentheses and what follows `<` or `\x7b` are taken off. `DocType.innermost` is
that word as a type, and `DocType.IsSettled` says what always holds of it.

> `DocType.resolve_toText_iff`: the text of such a type reads as the type again exactly if
> the name of the class is plain: it is not empty, begins with no question mark, ends with no
> square brackets, and is not in parentheses.

Scalars are plain, and so are the names in a value without brackets. A name is not plain if
the token had question marks or square brackets inside parentheses, or square brackets or
parentheses or nothing in front of `<` or `\x7b`.
-/

namespace StaticReflection

namespace DocType

open Blank

/-! ## Types as words in arrays -/

/-- What a type is an array of in the end; itself if it is no array. -/
def innermost : DocType → DocType
  | .arrayOf element => element.innermost
  | t => t

/-- A type is what it is an array of in the end, in as many arrays as it has brackets. -/
theorem nested_depth (t : DocType) : nested t.depth t.innermost = t := by
  induction t with
  | arrayOf element ih => exact congrArg DocType.arrayOf ih
  | scalar name => rfl
  | classReference name => rfl

theorem depth_nested (n : Nat) (t : DocType) : (nested n t).depth = n + t.depth := by
  induction n with
  | zero => exact (Nat.zero_add _).symm
  | succ n ih => rw [nested, depth, ih, Nat.succ_add]

theorem innermost_nested (n : Nat) (t : DocType) : (nested n t).innermost = t.innermost := by
  induction n with
  | zero => rfl
  | succ n ih => exact ih

/-- Pairs of square brackets, in reverse. -/
def closedPairs : Nat → List Char
  | 0 => []
  | n + 1 => ']' :: '[' :: closedPairs n

theorem toList_toText_nested (n : Nat) (t : DocType) :
    (nested n t).toText.toList = t.toText.toList ++ (closedPairs n).reverse := by
  induction n with
  | zero => exact (List.append_nil _).symm
  | succ n ih =>
    rw [nested, toText, String.toList_append, ih, closedPairs, List.append_assoc]
    congr 1
    rw [List.reverse_cons, List.reverse_cons, List.append_assoc]
    rfl

/-! ## Tokens without their square brackets -/

theorem dropBrackets_suffix (fuel : Nat) (cs : List Char) : (dropBrackets fuel cs).1 <:+ cs := by
  fun_induction dropBrackets fuel cs with
  | case1 fuel rest bare n h ih =>
    rw [h] at ih
    exact (ih.trans (suffix_dropStart rest)).trans ⟨[']', '['], rfl⟩
  | case2 => exact List.suffix_rfl

/-- What is left begins with no blank if nothing else did. -/
theorem dropBrackets_head {fuel : Nat} {cs : List Char}
    (h : ∀ c, cs.head? = some c → isBlank c = false) :
    ∀ c, (dropBrackets fuel cs).1.head? = some c → isBlank c = false := by
  fun_induction dropBrackets fuel cs with
  | case1 fuel rest bare n hbare ih =>
    rw [hbare] at ih
    exact ih fun c hc => dropStart_head hc
  | case2 => exact h

/-- All pairs of square brackets are taken off if there is fuel for them. -/
theorem dropBrackets_bare {fuel : Nat} {cs : List Char} (h : cs.length ≤ fuel) :
    ¬[']', '['] <+: (dropBrackets fuel cs).1 := by
  fun_induction dropBrackets fuel cs with
  | case1 fuel rest bare n hbare ih =>
    rw [hbare] at ih
    refine ih (Nat.le_trans (suffix_dropStart rest).length_le ?_)
    simp only [List.length_cons] at h
    omega
  | case2 fuel cs hstop =>
    rintro ⟨rest, rfl⟩
    cases fuel with
    | zero => simp at h
    | succ fuel => exact hstop fuel rest rfl rfl

theorem dropBrackets_zero {fuel : Nat} {cs : List Char} (h : (dropBrackets fuel cs).2 = 0) :
    (dropBrackets fuel cs).1 = cs := by
  fun_induction dropBrackets fuel cs with
  | case1 fuel rest bare n hbare ih => cases h
  | case2 => rfl

/-- Pairs of square brackets in front are taken off and counted. -/
theorem dropBrackets_closedPairs (n fuel : Nat) {cs : List Char}
    (h : ∀ c, cs.head? = some c → isBlank c = false) :
    dropBrackets (n + fuel) (closedPairs n ++ cs)
      = ((dropBrackets fuel cs).1, (dropBrackets fuel cs).2 + n) := by
  induction n with
  | zero =>
    rw [Nat.zero_add]
    rfl
  | succ n ih =>
    have hhead : dropStart (closedPairs n ++ cs) = closedPairs n ++ cs := by
      cases n with
      | zero => exact dropStart_of_head h
      | succ n => exact dropStart_of_head fun c hc => by cases hc; rfl
    rw [Nat.succ_add, closedPairs, List.cons_append, List.cons_append, dropBrackets, hhead, ih]
    rfl

/-! ## Words -/

/-- What always holds of the name of a class in a doc comment: it has no blanks around it and
nothing in angle brackets or braces, and is no keyword in any letter case. -/
structure IsClassWord (name : String) : Prop where
  trimmed : IsTrimmed name.toList
  bare : ∀ c ∈ name.toList, c ≠ '<' ∧ c ≠ '\x7b'
  notScalar : LetterCase.lower name ∉ scalarWords
  notAlias : canonicalWords.lookup (LetterCase.lower name) = none

/-- What always holds of the word that a type is in the end. -/
inductive IsSettled : DocType → Prop
  | scalar {name : String} (h : name ∈ scalarWords) : IsSettled (.scalar name)
  | classReference {name : String} (h : IsClassWord name) : IsSettled (.classReference name)

/-- A name that stands for a class when it is read by itself. -/
structure IsPlainName (name : String) : Prop where
  nonempty : name ≠ ""
  noMark : name.toList.head? ≠ some '?'
  noBrackets : ¬['[', ']'] <:+ name.toList
  noParentheses : ¬(name.toList.head? = some '(' ∧ name.toList.getLast? = some ')')

/-- A scalar, or a class whose name is plain. -/
inductive IsPlain : DocType → Prop
  | scalar (name : String) : IsPlain (.scalar name)
  | classReference {name : String} (h : IsPlainName name) : IsPlain (.classReference name)

theorem IsSettled.depth_eq {t : DocType} (h : t.IsSettled) : t.depth = 0 := by
  cases h <;> rfl

theorem IsSettled.innermost_eq {t : DocType} (h : t.IsSettled) : t.innermost = t := by
  cases h <;> rfl

/-- The other words for scalars stand for scalars. -/
theorem canonical_mem {word canonical : String} (h : canonicalWords.lookup word = some canonical) :
    canonical ∈ scalarWords := by
  have hall : ∀ p ∈ canonicalWords, p.2 ∈ scalarWords := by decide
  obtain ⟨before, after, hsplit, _⟩ := List.lookup_eq_some_iff.mp h
  have hmem : (word, canonical) ∈ canonicalWords := by
    rw [hsplit]
    exact List.mem_append_right _ (List.mem_cons_self ..)
  exact hall _ hmem

theorem ofWord_isSettled {word : String} (htrimmed : IsTrimmed word.toList)
    (hbare : ∀ c ∈ word.toList, c ≠ '<' ∧ c ≠ '\x7b') : (ofWord word).IsSettled := by
  unfold ofWord
  simp only
  split
  next hscalar => exact .scalar (List.contains_iff_mem.mp hscalar)
  next hscalar =>
    rw [List.contains_iff_mem] at hscalar
    cases halias : canonicalWords.lookup (LetterCase.lower word) with
    | some canonical =>
      rw [halias] at hscalar
      exact absurd (canonical_mem halias) hscalar
    | none =>
      rw [halias] at hscalar
      exact .classReference ⟨htrimmed, hbare, hscalar, halias⟩

/-- The name of a class is read as it is written. -/
theorem ofWord_of_isClassWord {name : String} (h : IsClassWord name) :
    ofWord name = .classReference name := by
  unfold ofWord
  simp only
  rw [h.notAlias, Option.getD_none, if_neg]
  rw [List.contains_iff_mem]
  exact h.notScalar

theorem baseWord_trimmed (cs : List Char) : IsTrimmed (baseWord cs).toList := isTrimmed_strip _

theorem baseWord_bare (cs : List Char) : ∀ c ∈ (baseWord cs).toList, c ≠ '<' ∧ c ≠ '\x7b' := by
  intro c hc
  have hmem := mem_of_mem_strip hc
  rw [String.toList_ofList] at hmem
  have hall := List.all_eq_true.mp List.all_takeWhile c hmem
  rw [Bool.and_eq_true, bne_iff_ne, bne_iff_ne] at hall
  exact hall

theorem baseWord_of_bare {name : String} (htrimmed : IsTrimmed name.toList)
    (hbare : ∀ c ∈ name.toList, c ≠ '<' ∧ c ≠ '\x7b') : baseWord name.toList = name := by
  have hall : name.toList.takeWhile (fun c => c != '<' && c != '\x7b') = name.toList := by
    have hpass : (name.toList ++ []).takeWhile (fun c => c != '<' && c != '\x7b')
        = name.toList ++ [].takeWhile (fun c => c != '<' && c != '\x7b') :=
      List.takeWhile_append_of_pos fun c hc => by
        rw [Bool.and_eq_true, bne_iff_ne, bne_iff_ne]
        exact hbare c hc
    rw [List.append_nil, List.takeWhile_nil, List.append_nil] at hpass
    exact hpass
  unfold baseWord
  rw [hall, String.ofList_toList, strip_of_isTrimmed htrimmed]

theorem length_baseWord_le (cs : List Char) : (baseWord cs).toList.length ≤ cs.length := by
  unfold baseWord
  refine Nat.le_trans (length_strip_le _) ?_
  rw [String.toList_ofList]
  exact List.IsPrefix.length_le <| List.takeWhile_prefix _

/-! ## Elements -/

theorem length_piece_le {depth : Nat} {piece cs p : List Char} (h : p ∈ piecesFrom depth piece cs) :
    p.length ≤ piece.length + cs.length := by
  induction cs generalizing depth piece with
  | nil =>
    rw [piecesFrom, List.mem_singleton] at h
    rw [h, List.length_reverse]
    exact Nat.le_add_right _ _
  | cons c rest ih =>
    rw [piecesFrom] at h
    split at h
    · rcases List.mem_cons.mp h with rfl | h
      · rw [List.length_reverse]
        exact Nat.le_add_right _ _
      · have := ih h
        simp only [List.length_nil, List.length_cons] at this ⊢
        omega
    · have := ih h
      simp only [List.length_cons] at this ⊢
      omega

theorem length_splitUnion_le {cs : List Char} {s : String} (h : s ∈ splitUnion cs) :
    s.toList.length ≤ cs.length := by
  obtain ⟨p, hp, rfl⟩ := List.mem_map.mp (List.mem_filter.mp h).1
  refine Nat.le_trans (length_strip_le _) ?_
  rw [String.toList_ofList]
  simpa using length_piece_le hp

theorem ofElement_isSettled (fuel : Nat) (cs : List Char) : (ofElement fuel cs).IsSettled := by
  have hword (cs : List Char) : (ofWord (baseWord cs)).IsSettled :=
    ofWord_isSettled (baseWord_trimmed cs) (baseWord_bare cs)
  have hmixed : (DocType.scalar "mixed").IsSettled := .scalar (by decide)
  fun_induction ofElement fuel cs with
  | case1 => exact hmixed
  | case2 fuel cs _ _ one _ ih => exact ih
  | case3 => exact hmixed
  | case4 fuel cs => exact hword cs
  | case5 cs => exact hword cs

theorem eq_of_ofWord {word name : String} (h : ofWord word = .classReference name) :
    name = word := by
  unfold ofWord at h
  simp only at h
  split at h
  · cases h
  · exact (DocType.classReference.inj h).symm

/-- The name of a class is no longer than the token it comes from. -/
theorem length_of_ofElement {fuel : Nat} {cs : List Char} {name : String}
    (h : ofElement fuel cs = .classReference name) : name.toList.length ≤ cs.length := by
  fun_induction ofElement fuel cs with
  | case1 => cases h
  | case2 fuel cs _ _ one hone ih =>
    have hmem : one ∈ splitUnion (cs.drop 1).dropLast := by rw [hone]; exact List.mem_cons_self ..
    have hlength := length_splitUnion_le hmem
    have := ih h
    simp only [List.length_dropLast, List.length_drop] at hlength
    omega
  | case3 => cases h
  | case4 fuel cs => rw [eq_of_ofWord h]; exact length_baseWord_le cs
  | case5 cs => rw [eq_of_ofWord h]; exact length_baseWord_le cs

/-- A name in parentheses is taken out of them. -/
theorem ofElement_parentheses {fuel : Nat} {cs : List Char} (hopen : cs.head? = some '(')
    (hclose : cs.getLast? = some ')') {name : String}
    (h : ofElement (fuel + 1) cs = .classReference name) : name.toList.length < cs.length := by
  have hne : cs ≠ [] := fun he => by rw [he] at hopen; cases hopen
  have hlength : 0 < cs.length := List.length_pos_iff.mpr hne
  rw [ofElement, if_neg (by simpa using hne), if_pos (by simp [hopen, hclose])] at h
  split at h
  next one hone =>
    have hmem : one ∈ splitUnion (cs.drop 1).dropLast := by rw [hone]; exact List.mem_cons_self ..
    have hinner := length_splitUnion_le hmem
    have := length_of_ofElement h
    simp only [List.length_dropLast, List.length_drop] at hinner
    omega
  next => cases h

/-- A word that stands by itself is the type of that word. -/
theorem ofElement_word {fuel : Nat} {name : String} (hplain : IsPlainName name)
    (htrimmed : IsTrimmed name.toList) (hbare : ∀ c ∈ name.toList, c ≠ '<' ∧ c ≠ '\x7b') :
    ofElement (fuel + 1) name.toList = ofWord name := by
  have hne : ¬name.toList.isEmpty = true := by
    simpa using hplain.nonempty
  have hparentheses :
      ¬(name.toList.head? == some '(' && name.toList.getLast? == some ')') = true := by
    rw [Bool.and_eq_true, beq_iff_eq, beq_iff_eq]
    exact hplain.noParentheses
  rw [ofElement, if_neg hne, if_neg hparentheses, baseWord_of_bare htrimmed hbare]

/-- A word that could be the plain name of a class is a plain type. -/
theorem ofElement_isPlain {fuel : Nat} {name : String} (htrimmed : IsTrimmed name.toList)
    (hbare : ∀ c ∈ name.toList, c ≠ '<' ∧ c ≠ '\x7b') (hplain : IsPlainName name) :
    (ofElement (fuel + 1) name.toList).IsPlain := by
  have hsettled := ofElement_isSettled (fuel + 1) name.toList
  rw [ofElement_word hplain htrimmed hbare] at hsettled ⊢
  cases hread : ofWord name with
  | scalar name => exact .scalar name
  | classReference word => exact .classReference (eq_of_ofWord hread ▸ hplain)
  | arrayOf element =>
    rw [hread] at hsettled
    cases hsettled

/-! ## Tokens -/

/-- The type of a token with no blanks around it and no question mark in front. -/
def ofBare (token : List Char) : DocType :=
  let bare := dropBrackets token.length token.reverse
  nested bare.2 (ofElement (bare.1.length + 1) bare.1.reverse)

theorem ofToken_marked {fuel : Nat} {cs rest : List Char}
    (h : (strip (String.ofList cs)).toList = '?' :: rest) :
    ofToken (fuel + 1) cs = ofToken fuel rest ++ [.scalar "null"] := by
  rw [ofToken, h]
  rfl

theorem ofToken_unmarked {fuel : Nat} {cs token : List Char}
    (h : (strip (String.ofList cs)).toList = token) (hmark : token.head? ≠ some '?') :
    ofToken (fuel + 1) cs = [ofBare token] := by
  rw [ofToken, h]
  split
  next rest => exact absurd rfl hmark
  next => rfl

theorem ofToken_ne_nil (fuel : Nat) (cs : List Char) : ofToken (fuel + 1) cs ≠ [] := by
  cases hcs : (strip (String.ofList cs)).toList with
  | nil =>
    rw [ofToken_unmarked hcs (by simp)]
    exact List.cons_ne_nil _ _
  | cons c rest =>
    by_cases hmark : c = '?'
    · subst hmark
      rw [ofToken_marked hcs]
      simp
    · rw [ofToken_unmarked hcs (by simpa using hmark)]
      exact List.cons_ne_nil _ _

theorem ofToken_isSettled {fuel : Nat} {cs : List Char} {t : DocType} (h : t ∈ ofToken fuel cs) :
    t.innermost.IsSettled := by
  induction fuel generalizing cs with
  | zero => rw [ofToken] at h; cases h
  | succ fuel ih =>
    rw [ofToken] at h
    split at h
    next rest =>
      rcases List.mem_append.mp h with h | h
      · exact ih h
      · rw [List.mem_singleton.mp h]
        exact .scalar (by decide)
    next token =>
      rw [List.mem_singleton.mp h, innermost_nested, (ofElement_isSettled _ _).innermost_eq]
      exact ofElement_isSettled _ _

/-! ## Written types as tokens -/

section

variable {word : List Char}

theorem isTrimmed_brackets (h : IsTrimmed word) (n : Nat) :
    IsTrimmed (word ++ (closedPairs n).reverse) := by
  cases n with
  | zero =>
    rw [closedPairs, List.reverse_nil, List.append_nil]
    exact h
  | succ n =>
    constructor
    · intro c hc
      cases word with
      | cons d rest => exact h.head c hc
      | nil =>
        -- the first of the brackets
        have hpairs (m : Nat) : (closedPairs (m + 1)).getLast? = some '[' := by
          induction m with
          | zero => rfl
          | succ m ih => rw [closedPairs, List.getLast?_cons_cons, List.getLast?_cons, ih]; rfl
        rw [List.nil_append, List.head?_reverse, hpairs] at hc
        cases hc
        rfl
    · intro c hc
      rw [closedPairs, List.reverse_cons, ← List.append_assoc, List.getLast?_concat] at hc
      cases hc
      rfl

theorem head_brackets (h : word.head? ≠ some '?') (n : Nat) :
    (word ++ (closedPairs n).reverse).head? ≠ some '?' := by
  cases word with
  | cons c rest => exact h
  | nil =>
    intro hhead
    have hmem : '?' ∈ closedPairs n := by
      rw [← List.mem_reverse]
      exact List.mem_of_mem_head? hhead
    have hall (m : Nat) : ∀ c ∈ closedPairs m, c = ']' ∨ c = '[' := by
      induction m with
      | zero => intro c hc; cases hc
      | succ m ih => simpa [closedPairs] using ih
    rcases hall n _ hmem with hc | hc <;> cases hc

/-- Square brackets behind a token are arrays around its type. -/
theorem ofBare_brackets (h : IsTrimmed word) (n : Nat) :
    ∃ fuel, word.length ≤ fuel ∧ ofBare (word ++ (closedPairs n).reverse)
      = nested ((dropBrackets fuel word.reverse).2 + n)
        (ofElement ((dropBrackets fuel word.reverse).1.length + 1)
          (dropBrackets fuel word.reverse).1.reverse) := by
  refine ⟨n + word.length, Nat.le_add_left _ _, ?_⟩
  have hpairs (m : Nat) : (closedPairs m).length = m + m := by
    induction m with
    | zero => rfl
    | succ m ih => simp only [closedPairs, List.length_cons, ih]; omega
  have hlength : (word ++ (closedPairs n).reverse).length = n + (n + word.length) := by
    rw [List.length_append, List.length_reverse, hpairs]
    omega
  have hhead : ∀ c, word.reverse.head? = some c → isBlank c = false := fun c hc => by
    rw [List.head?_reverse] at hc
    exact h.last c hc
  unfold ofBare
  rw [hlength, List.reverse_append, List.reverse_reverse, dropBrackets_closedPairs _ _ hhead]

end

/-- A written type reads as the type of its word in as many arrays. -/
theorem resolve_nested {t : DocType} (n : Nat) (htrimmed : IsTrimmed t.toText.toList)
    (hmark : t.toText.toList.head? ≠ some '?') :
    resolve (nested n t).toText = [ofBare (t.toText.toList ++ (closedPairs n).reverse)] := by
  have htext := toList_toText_nested n t
  have hstrip : strip (nested n t).toText = (nested n t).toText := by
    refine strip_of_isTrimmed ?_
    rw [htext]
    exact isTrimmed_brackets htrimmed n
  unfold resolve
  refine ofToken_unmarked ?_ (head_brackets hmark n)
  rw [String.ofList_toList, hstrip, htext]

/-- A plain word in some arrays is read as it is written. -/
theorem resolve_plain {t : DocType} (n : Nat) (htrimmed : IsTrimmed t.toText.toList)
    (hbare : ∀ c ∈ t.toText.toList, c ≠ '<' ∧ c ≠ '\x7b') (hplain : IsPlainName t.toText)
    (hword : ofWord t.toText = t) : resolve (nested n t).toText = [nested n t] := by
  rw [resolve_nested n htrimmed hplain.noMark]
  obtain ⟨fuel, hfuel, hread⟩ := ofBare_brackets htrimmed n
  -- a plain word has no brackets to lose
  have hstop : ¬[']', '['] <+: t.toText.toList.reverse := fun h => by
    refine hplain.noBrackets ?_
    rw [← List.reverse_prefix]
    exact h
  have hkeep : dropBrackets fuel t.toText.toList.reverse = (t.toText.toList.reverse, 0) := by
    cases fuel with
    | zero => rw [dropBrackets]; intro fuel rest h; cases h
    | succ fuel =>
      rw [dropBrackets]
      intro fuel' rest _ h
      exact hstop ⟨rest, h.symm⟩
  rw [hread, hkeep, Nat.zero_add, List.reverse_reverse, ofElement_word hplain htrimmed hbare, hword]

/-- Scalar words are plain, and read as they are written. -/
theorem isPlainName_of_scalar {name : String} (h : name ∈ scalarWords) :
    IsTrimmed name.toList ∧ (∀ c ∈ name.toList, c ≠ '<' ∧ c ≠ '\x7b') ∧ IsPlainName name
      ∧ ofWord name = .scalar name := by
  have hstrip : ∀ w ∈ scalarWords, strip w = w := by decide +kernel
  have hall : ∀ w ∈ scalarWords, (w.toList.all fun c => c != '<' && c != '\x7b') = true := by
    decide +kernel
  have hends : ∀ w ∈ scalarWords, w ≠ "" ∧ w.toList.head? ≠ some '?'
      ∧ w.toList.head? ≠ some '(' ∧ w.toList.getLast? ≠ some ']' := by decide +kernel
  have hword : ∀ w ∈ scalarWords, ofWord w = .scalar w := by decide +kernel
  obtain ⟨hnonempty, hmark, hopen, hlast⟩ := hends name h
  have hbare : ∀ c ∈ name.toList, c ≠ '<' ∧ c ≠ '\x7b' := fun c hc => by
    have hc := List.all_eq_true.mp (hall name h) c hc
    rw [Bool.and_eq_true, bne_iff_ne, bne_iff_ne] at hc
    exact hc
  refine ⟨hstrip name h ▸ isTrimmed_strip name, hbare, ⟨hnonempty, hmark, ?_, ?_⟩, hword name h⟩
  · rintro ⟨start, hstart⟩
    rw [← hstart] at hlast
    simp at hlast
  · exact fun hparentheses => hopen hparentheses.1

/-- A word with a question mark in front is read as two types at least. -/
theorem resolve_marked {t : DocType} (n : Nat) (htrimmed : IsTrimmed t.toText.toList)
    (hmark : t.toText.toList.head? = some '?') (u : DocType) :
    resolve (nested n t).toText ≠ [u] := by
  have htext := toList_toText_nested n t
  obtain ⟨rest, hrest⟩ := List.head?_eq_some_iff.mp hmark
  have hstrip : (strip (String.ofList (nested n t).toText.toList)).toList
      = '?' :: (rest ++ (closedPairs n).reverse) := by
    rw [String.ofList_toList, strip_of_isTrimmed (htext ▸ isTrimmed_brackets htrimmed n), htext,
      hrest, List.cons_append]
  have hlength : (nested n t).toText.length = rest.length + (closedPairs n).length + 1 := by
    rw [← String.length_toList, htext, hrest]
    simp
  unfold resolve
  rw [hlength, ofToken_marked hstrip]
  intro h
  have hnil := ofToken_ne_nil (rest.length + (closedPairs n).length)
    (rest ++ (closedPairs n).reverse)
  have hcount := congrArg List.length h
  simp only [List.length_append, List.length_singleton] at hcount
  exact hnil (List.length_eq_zero_iff.mp (by omega))

/-- The name of a class is plain if its text in some arrays reads as that type. -/
theorem isPlainName_of_resolve {name : String} (h : IsClassWord name) {n : Nat}
    (hread : resolve (nested n (.classReference name)).toText = [nested n (.classReference name)]) :
    IsPlainName name := by
  have htrimmed : IsTrimmed (DocType.classReference name).toText.toList := h.trimmed
  have hmark : name.toList.head? ≠ some '?' := fun hmark =>
    resolve_marked n htrimmed hmark _ hread
  obtain ⟨fuel, hfuel, hbare⟩ := ofBare_brackets h.trimmed n
  have htoken : resolve (nested n (.classReference name)).toText
      = [ofBare (name.toList ++ (closedPairs n).reverse)] := resolve_nested n htrimmed hmark
  rw [htoken, hbare] at hread
  have hsame := (List.cons.inj hread).1
  have hsettled := ofElement_isSettled ((dropBrackets fuel name.toList.reverse).1.length + 1)
    (dropBrackets fuel name.toList.reverse).1.reverse
  -- there are as many arrays, so no brackets were taken off the word
  have hdepth := congrArg depth hsame
  rw [depth_nested, depth_nested, hsettled.depth_eq] at hdepth
  have hzero : (dropBrackets fuel name.toList.reverse).2 = 0 := by
    simp only [depth] at hdepth
    omega
  have hkeep := dropBrackets_zero hzero
  have hstop := dropBrackets_bare (Nat.le_trans (Nat.le_of_eq List.length_reverse) hfuel)
  have hword := congrArg innermost hsame
  rw [innermost_nested, innermost_nested, hsettled.innermost_eq, hkeep, List.reverse_reverse]
    at hword
  rw [hkeep] at hstop
  refine ⟨?_, hmark, fun hsuffix => hstop ?_, ?_⟩
  · rintro rfl
    cases hword
  · exact List.reverse_prefix.mpr hsuffix
  · rintro ⟨hopen, hclose⟩
    exact Nat.lt_irrefl _ (ofElement_parentheses hopen hclose hword)

/-- The text of a word in some arrays reads as that type exactly if the word is plain. -/
theorem resolve_settled_iff {t : DocType} (h : t.IsSettled) (n : Nat) :
    resolve (nested n t).toText = [nested n t] ↔ t.IsPlain := by
  cases h with
  | @scalar name h =>
    obtain ⟨htrimmed, hbare, hplain, hword⟩ := isPlainName_of_scalar h
    exact ⟨fun _ => .scalar name, fun _ => resolve_plain n htrimmed hbare hplain hword⟩
  | @classReference name h =>
    refine ⟨fun hread => .classReference (isPlainName_of_resolve h hread), ?_⟩
    rintro (_ | hplain)
    exact resolve_plain n h.trimmed h.bare hplain (ofWord_of_isClassWord h)

/-! ## Values without brackets -/

theorem mem_of_mem_wordFrom {depth : Nat} {afterBar : Bool} {cs : List Char} {c : Char}
    (h : c ∈ wordFrom depth afterBar cs) : c ∈ cs := by
  induction cs generalizing depth afterBar with
  | nil => exact h
  | cons d rest ih =>
    rw [wordFrom] at h
    split at h
    · dsimp only at h
      split at h
      · exact List.mem_cons_of_mem _ (ih h)
      · cases h
    · rcases List.mem_cons.mp h with rfl | h
      · exact List.mem_cons_self ..
      · exact List.mem_cons_of_mem _ (ih h)

theorem mem_of_mem_piece {depth : Nat} {piece cs p : List Char} {c : Char}
    (hp : p ∈ piecesFrom depth piece cs) (hc : c ∈ p) : c ∈ piece ∨ c ∈ cs := by
  induction cs generalizing depth piece with
  | nil =>
    rw [piecesFrom, List.mem_singleton] at hp
    rw [hp, List.mem_reverse] at hc
    exact .inl hc
  | cons d rest ih =>
    rw [piecesFrom] at hp
    split at hp
    · rcases List.mem_cons.mp hp with rfl | hp
      · exact .inl (List.mem_reverse.mp hc)
      · rcases ih hp with h | h
        · cases h
        · exact .inr (List.mem_cons_of_mem _ h)
    · rcases ih hp with h | h
      · rcases List.mem_cons.mp h with rfl | h
        · exact .inr (List.mem_cons_self ..)
        · exact .inl h
      · exact .inr (List.mem_cons_of_mem _ h)

/-- The members of a union are made of its characters. -/
theorem mem_of_mem_splitUnion {cs : List Char} {s : String} {c : Char} (hs : s ∈ splitUnion cs)
    (hc : c ∈ s.toList) : c ∈ cs := by
  obtain ⟨p, hp, rfl⟩ := List.mem_map.mp (List.mem_filter.mp hs).1
  have hmem := mem_of_mem_strip hc
  rw [String.toList_ofList] at hmem
  exact (mem_of_mem_piece hp hmem).resolve_left (List.not_mem_nil)

/-- The type of a token without brackets that open is plain. -/
theorem ofBare_isPlain {token : List Char} (htrimmed : IsTrimmed token)
    (hmark : token.head? ≠ some '?') (hfree : ∀ c ∈ token, opens c = false) :
    (ofBare token).innermost.IsPlain := by
  unfold ofBare
  simp only
  rw [innermost_nested, (ofElement_isSettled _ _).innermost_eq]
  have hprefix : (dropBrackets token.length token.reverse).1.reverse <+: token := by
    have h := dropBrackets_suffix token.length token.reverse
    rw [← List.reverse_prefix, List.reverse_reverse] at h
    exact h
  have hlength : token.reverse.length ≤ token.length := Nat.le_of_eq List.length_reverse
  have hstop := dropBrackets_bare hlength
  have hlast : ∀ c, (dropBrackets token.length token.reverse).1.head? = some c
      → isBlank c = false := dropBrackets_head fun c hc => by
    rw [List.head?_reverse] at hc
    exact htrimmed.last c hc
  generalize (dropBrackets token.length token.reverse).1 = bare at hprefix hstop hlast
  cases hbare : bare.reverse with
  | nil => exact .scalar "mixed"
  | cons first rest =>
    -- what is left begins as the token does, and has no brackets that open either
    obtain ⟨more, hmore⟩ := hprefix
    rw [hbare] at hmore
    have hfirst : token.head? = some first := by rw [← hmore]; rfl
    have hnotOpen {d : Char} (hd : opens d = true) : ∀ c ∈ first :: rest, c ≠ d := by
      rintro c hc rfl
      rw [hfree c (hmore ▸ List.mem_append_left _ hc)] at hd
      cases hd
    have hword : (String.ofList (first :: rest)).toList = first :: rest := String.toList_ofList
    refine hword ▸ ofElement_isPlain ?_ ?_ ?_
    · rw [hword]
      refine ⟨fun c hc => htrimmed.head c (hfirst.trans hc), fun c hc => hlast c ?_⟩
      rw [← hbare, List.getLast?_reverse] at hc
      exact hc
    · rw [hword]
      exact fun c hc => ⟨hnotOpen rfl c hc, hnotOpen rfl c hc⟩
    · constructor
      · intro hempty
        rw [hempty] at hword
        cases hword
      · rw [hword]
        exact fun hc => hmark (hfirst.trans hc)
      · rw [hword, ← hbare, ← List.reverse_prefix, List.reverse_reverse]
        exact hstop
      · rw [hword]
        rintro ⟨hopen, _⟩
        exact hnotOpen rfl first (List.mem_cons_self ..) (Option.some.inj hopen)

/-- The types of a token without brackets that open are plain. -/
theorem ofToken_isPlain {fuel : Nat} {cs : List Char} {t : DocType}
    (hfree : ∀ c ∈ cs, opens c = false) (h : t ∈ ofToken fuel cs) : t.innermost.IsPlain := by
  induction fuel generalizing cs with
  | zero => rw [ofToken] at h; cases h
  | succ fuel ih =>
    have htoken : ∀ c ∈ (strip (String.ofList cs)).toList, opens c = false := fun c hc => by
      have := mem_of_mem_strip hc
      rw [String.toList_ofList] at this
      exact hfree c this
    by_cases hmark : (strip (String.ofList cs)).toList.head? = some '?'
    · obtain ⟨rest, hrest⟩ := List.head?_eq_some_iff.mp hmark
      rw [ofToken_marked hrest] at h
      rcases List.mem_append.mp h with h | h
      · exact ih (fun c hc => htoken c (hrest ▸ List.mem_cons_of_mem _ hc)) h
      · rw [List.mem_singleton.mp h]
        exact .scalar "null"
    · rw [ofToken_unmarked rfl hmark] at h
      rw [List.mem_singleton.mp h]
      exact ofBare_isPlain (isTrimmed_strip _) hmark htoken

/-! ## The types of a value -/

/-- The word that a type of a tag's value is in the end is a scalar word, or a name of a
class that is no keyword. The text of the type reads as the type alone exactly if that word
is plain, which it is in a value without brackets that open. -/
theorem resolve_toText_iff (value : Option String) (t : DocType) (h : t ∈ resolveAll value) :
    t.innermost.IsSettled
      ∧ (resolve t.toText = [t] ↔ t.innermost.IsPlain)
      ∧ ((∀ v, value = some v → ∀ c ∈ v.toList, opens c = false) → t.innermost.IsPlain) := by
  obtain ⟨token, htoken, ht⟩ := List.mem_flatMap.mp h
  have hsettled := ofToken_isSettled ht
  have hread := resolve_settled_iff hsettled t.depth
  rw [nested_depth] at hread
  refine ⟨hsettled, hread, fun hfree => ?_⟩
  cases value with
  | none => cases htoken
  | some v =>
    refine ofToken_isPlain (fun c hc => hfree v rfl c ?_) ht
    rw [split] at htoken
    have hword : c ∈ expression v := mem_of_mem_splitUnion htoken hc
    rw [expression] at hword
    exact mem_of_mem_strip (mem_of_mem_wordFrom hword)

theorem resolveAll_parentheses :
    resolveAll (some "(a[])|?b[]")
      = [classReference "a[]", arrayOf (classReference "b"), scalar "null"] := by
  decide +kernel

/-- Square brackets inside parentheses are not taken off, and the text of such a type reads
otherwise; outside they are. -/
theorem resolve_toText_parentheses :
    classReference "a[]" ∈ resolveAll (some "(a[])|?b[]") ∧ resolve "a[]" ≠ [classReference "a[]"]
      ∧ arrayOf (classReference "b") ∈ resolveAll (some "(a[])|?b[]")
      ∧ resolve "b[]" = [arrayOf (classReference "b")] := by
  have hinside : classReference "a[]" ∈ resolveAll (some "(a[])|?b[]") := by
    rw [resolveAll_parentheses]
    exact List.mem_cons_self ..
  have houtside : arrayOf (classReference "b") ∈ resolveAll (some "(a[])|?b[]") := by
    rw [resolveAll_parentheses]
    exact List.mem_cons_of_mem _ (List.mem_cons_self ..)
  refine ⟨hinside, fun hread => ?_, houtside, ?_⟩
  · rcases (resolve_toText_iff _ _ hinside).2.1.mp hread with _ | hplain
    exact hplain.noBrackets ⟨['a'], rfl⟩
  · exact (resolve_toText_iff _ _ houtside).2.1.mpr
      (.classReference ⟨by decide, by decide, by decide, by decide⟩)

end DocType

end StaticReflection
