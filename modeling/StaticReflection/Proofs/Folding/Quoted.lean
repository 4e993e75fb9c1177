import StaticReflection.Grammar.Program
import StaticReflection.Proofs.Folding.Plan
import StaticReflection.Proofs.Grammar.Quoted

/-!
# Folding texts in quotes

What a quotation stands for is found from the left, each escape sequence as long as it can be. The
escape sequences in the text that `Quotes.quoted` writes are exactly the backslashes that it put
there, with the characters after them; so folding gives the text back.

> `Folder.fold_quoted`: the literal of a text ends at its closing quote and nowhere before, and
> wherever it stands as an expression, it folds to the text; so does the text in double quotes, with
> and without a mark of binary strings before either.
-/

namespace StaticReflection

open Grammar

/-! ## Unescaping -/

namespace Literal

/-- Unescaping undoes the escaping of characters between single quotes. -/
theorem unescapeSingle_inside (cs : List Char) :
    unescapeSingle (cs.flatMap Quotes.single.escape) = cs := by
  induction cs with
  | nil => rfl
  | cons c cs ih =>
    rw [List.flatMap_cons, Quotes.escape]
    by_cases hc : c ∈ Quotes.single.special
    · rw [if_pos hc]
      simp only [Quotes.single, List.mem_cons, List.not_mem_nil, or_false] at hc
      rcases hc with rfl | rfl
      · show '\\' :: unescapeSingle (cs.flatMap Quotes.single.escape) = _
        rw [ih]
      · show '\'' :: unescapeSingle (cs.flatMap Quotes.single.escape) = _
        rw [ih]
    · rw [if_neg hc]
      have hplain : c ≠ '\\' := by
        rintro rfl
        exact hc (by decide)
      show unescapeSingle (c :: cs.flatMap Quotes.single.escape) = _
      rw [unescapeSingle, ih]
      · rintro rest rfl
        exact fun _ => hplain rfl
      · rintro rest rfl
        exact fun _ => hplain rfl

/-- Unescaping undoes the escaping of characters between double quotes. -/
theorem unescapeFrom_inside (cs : List Char) :
    unescapeFrom 0 (cs.flatMap Quotes.double.escape) = .ok (cs.map CodePoint.ofChar) := by
  induction cs with
  | nil => rfl
  | cons c cs ih =>
    rw [List.flatMap_cons, Quotes.escape]
    by_cases hc : c ∈ Quotes.double.special
    · rw [if_pos hc]
      have hescape (rest : List Char) : escape? (c :: rest) = some (.ok (CodePoint.ofChar c), 1) := by
        simp only [Quotes.double, List.mem_cons, List.not_mem_nil, or_false] at hc
        rcases hc with rfl | rfl | rfl <;> rfl
      have hskip : unescapeFrom 1 (c :: cs.flatMap Quotes.double.escape)
          = .ok (cs.map CodePoint.ofChar) := ih
      show unescapeFrom 0 ('\\' :: c :: cs.flatMap Quotes.double.escape) = _
      rw [unescapeFrom, if_pos rfl, hescape]
      show (do return CodePoint.ofChar c :: (← unescapeFrom 1 _) : Outcome _) = _
      rw [hskip]
      rfl
    · rw [if_neg hc]
      have hplain : c ≠ '\\' := by
        rintro rfl
        exact hc (by decide)
      show unescapeFrom 0 (c :: cs.flatMap Quotes.double.escape) = _
      rw [unescapeFrom, if_neg hplain, ih]
      rfl

theorem unescapeDouble_inside (s : String) :
    unescapeDouble (s.toList.flatMap Quotes.double.escape) = .ok (Text.ofString s) := by
  rw [unescapeDouble, unescapeFrom_inside]
  rfl

theorem inner_quoted (q : Quotes) (s : String) :
    inner (q.quoted s) = s.toList.flatMap q.escape := List.dropLast_concat

/-- The mark before a quotation is left out. -/
theorem dropBinaryMark_append {mark : List Char} (hmark : mark ∈ marks) {x : Char}
    (hx : x ∈ ['\'', '"']) (rest : List Char) : dropBinaryMark (mark ++ x :: rest) = x :: rest := by
  rcases mark_cases hmark with rfl | ⟨y, rfl, -, hy⟩
  · refine if_neg ?_
    simp only [List.mem_cons, List.not_mem_nil, or_false] at hx
    rcases hx with rfl | rfl <;> decide
  · exact if_pos hy

end Literal

/-! ## Folding -/

namespace Folder

variable {σ : Type} (F : Folder σ) {n : Node} {mark : List Char} {s : String}

theorem fold_single (hmark : mark ∈ marks) (hkind : n.kind = "string")
    (htext : F.text n = String.ofList (mark ++ Quotes.single.quoted s)) :
    F.fold n = Folding.lift (.ok (.ofString s)) := by
  have hstring : F.string n = .ok (.ofString s) := by
    have hdrop : Literal.dropBinaryMark (F.text n).toList = Quotes.single.quoted s := by
      rw [htext, String.toList_ofList]
      exact Literal.dropBinaryMark_append hmark (by decide) _
    unfold string
    rw [hdrop]
    show Except.ok (Value.ofString (String.ofList (Literal.unescapeSingle
      (Literal.inner (Quotes.single.quoted s))))) = _
    rw [Literal.inner_quoted, Literal.unescapeSingle_inside, String.ofList_toList]
  rw [fold_eq, plan, hkind]
  exact congrArg Folding.lift hstring

theorem fold_double (hmark : mark ∈ marks)
    (h : IsQuotation F.text "encapsed_string" (mark ++ Quotes.double.quoted s) n) :
    F.fold n = Folding.lift (.ok (.ofString s)) := by
  obtain ⟨hkind, htext, hparts⟩ := h
  have hencapsed : F.encapsed n = .ok (.ofString s) := by
    have hdrop : Literal.dropBinaryMark (F.text n).toList = Quotes.double.quoted s := by
      rw [htext, String.toList_ofList]
      exact Literal.dropBinaryMark_append hmark (by decide) _
    have hplain : F.plainString n = .ok () := by
      unfold plainString
      rw [hparts]
      rfl
    unfold encapsed
    rw [hplain, hdrop, Literal.inner_quoted, Literal.unescapeDouble_inside]
    rfl
  rw [fold_eq, plan, hkind]
  exact congrArg Folding.lift hencapsed

end Folder

/-! ## Where a quotation ends -/

/-- What follows the closing quote, where a backslash protects the character after it. -/
def afterClosing? (quote : Char) : List Char → Option (List Char)
  | [] => none
  | '\\' :: _ :: rest => afterClosing? quote rest
  | c :: rest => if c = quote then some rest else afterClosing? quote rest

theorem afterClosing?_cons {quote c : Char} (hc : c ≠ '\\') (rest : List Char) :
    afterClosing? quote (c :: rest)
      = if c = quote then some rest else afterClosing? quote rest := by
  rw [afterClosing?]
  rintro d more rfl
  exact fun _ => hc rfl

/-- The closing quote is found behind the characters between quotes. -/
theorem afterClosing?_inside {q : Quotes} (hbackslash : '\\' ∈ q.special) (hquote : q.sign ∈ q.special)
    (hsign : q.sign ≠ '\\') (cs rest : List Char) :
    afterClosing? q.sign (cs.flatMap q.escape ++ q.sign :: rest) = some rest := by
  induction cs with
  | nil =>
    show afterClosing? q.sign (q.sign :: rest) = _
    rw [afterClosing?_cons hsign, if_pos rfl]
  | cons c cs ih =>
    rw [List.flatMap_cons, List.append_assoc, Quotes.escape]
    by_cases hc : c ∈ q.special
    · rw [if_pos hc]
      exact ih
    · rw [if_neg hc]
      show afterClosing? q.sign (c :: (cs.flatMap q.escape ++ q.sign :: rest)) = _
      have hplain : c ≠ '\\' := fun he => hc (he ▸ hbackslash)
      have hother : c ≠ q.sign := fun he => hc (he ▸ hquote)
      rw [afterClosing?_cons hplain, if_neg hother, ih]

/-! ## Texts and their literals -/

/-- Texts in quotes. The literal of a text is exported, and its closing quote, where a backslash
protects the character after it, is its last character. Wherever this literal, or the text in double
quotes with a backslash before each backslash, dollar sign and double quote, stands as an expression
with the end of an expression after it, the grammar reads it as a whole, and its tree folds to the
text in every state and without changing it; so do both after a mark of binary strings. -/
theorem Folder.fold_quoted (s : String) :
    ∃ literal : List Char,
      (Value.ofString s).exported = .ok (Text.ofString (String.ofList literal))
      ∧ (∃ body, literal = '\'' :: body ∧ afterClosing? '\'' body = some [])
      ∧ ∀ written ∈ [literal, Quotes.double.quoted s], ∀ mark ∈ [[], ['b'], ['B']],
        ∀ {source : String} {after : List Char} {c : Cursor} (fuel level : Nat),
          c.In source.toList → c.Faces (mark ++ written ++ after) → Closes after →
          ∃ n, (rules (fuel + 1)).expression level c
              = some (n, (c.skip true).token (mark ++ written).length)
            ∧ ∀ {σ : Type} (F : Folder σ), F.text = (Source.ofString source).text → ∀ st : σ,
              (F.fold n).outcome st = .ok (.ofString s) ∧ (F.fold n).after st = st := by
  refine ⟨Quotes.single.quoted s, congrArg Except.ok (Text.singleQuoted_ofString s), ?_, ?_⟩
  · exact ⟨_, rfl, afterClosing?_inside (q := .single) (by decide) (by decide) (by decide) s.toList []⟩
  · intro written hwritten mark hmark source after c fuel level hin hfaces hafter
    rw [List.mem_cons, List.mem_singleton] at hwritten
    have htext {F : Node → String} (h : F = (Source.ofString source).text) :
        F = textIn source.toList := by
      rw [h, textIn, String.ofList_toList]
    rcases hwritten with rfl | rfl
    · obtain ⟨n, hn, -, hkind, hcs, -⟩ :=
        reads_single (rules fuel) level s hmark c after hin hfaces hafter
      refine ⟨n, hn, fun F hF st => ?_⟩
      rw [F.fold_single hmark hkind (htext hF ▸ hcs)]
      exact ⟨rfl, rfl⟩
    · obtain ⟨n, hn, -, hquotation⟩ :=
        reads_double (rules fuel) level s hmark c after hin hfaces hafter
      refine ⟨n, hn, fun F hF st => ?_⟩
      rw [F.fold_double hmark (htext hF ▸ hquotation)]
      exact ⟨rfl, rfl⟩

/-- A backslash and all that it stands before, in double quotes after a mark, at the end of a
statement. -/
def Folder.binarySource : String := "B\"\\\\'\\$\\\"\";"

theorem Folder.fold_quoted_binary : ∃ n,
    (rules 1).expression 0 (Cursor.start binarySource.toList)
      = some (n, (Cursor.start binarySource.toList).token 10)
      ∧ ∀ {σ : Type} (F : Folder σ), F.text = (Source.ofString binarySource).text →
        ∀ st : σ, (F.fold n).outcome st = .ok (.ofString "\\'$\"") := by
  obtain ⟨literal, -, -, hall⟩ := fold_quoted "\\'$\""
  have hskip : (Cursor.start binarySource.toList).skip true = Cursor.start binarySource.toList :=
    Cursor.skip_of_extra?_eq_none rfl true
  have hin : (Cursor.start binarySource.toList).In binarySource.toList := ⟨⟨[], rfl, rfl⟩, rfl⟩
  have hfaces : (Cursor.start binarySource.toList).Faces
      (['B'] ++ Quotes.double.quoted "\\'$\"" ++ [';']) := .of_rest rfl rfl
  obtain ⟨n, hn, hfold⟩ := hall _ (List.mem_cons_of_mem _ (List.mem_singleton_self _)) ['B']
    (by decide) 0 0 hin hfaces (.inl (.sign (by decide)))
  rw [hskip] at hn
  exact ⟨n, hn, fun F htext st => (hfold F htext st).1⟩

end StaticReflection
