import StaticReflection.Proofs.Folding.Comments

/-!
# Where comments matter to a fold

Comments are no expressions, yet a fold looks for some operands among the named children of a
node, where comments are. A node is disturbed (`Node.IsDisturbed`) if a comment follows its
opening parenthesis, or if one stands inside of the scope or the name of a class constant,
whose texts are what is resolved.

> `fold_commented`: unless a fold comes to a disturbed node, comments do not matter to it. A
> parenthesis with a comment after it is refused because of the comment.

Plans of a node with and without comments have operands that are related again
(`Folder.plan_related`), so the induction follows the operands that are folded.
-/

namespace StaticReflection

/-! ## Steps that come to alike outcomes -/

/-- The same outcome, or two refusals of an expression. -/
def Outcome.Alike {α : Type} (o o' : Outcome α) : Prop :=
  o' = o ∨ ∃ r r', o = .error (.unfoldable r) ∧ o' = .error (.unfoldable r')

namespace Folding

variable {σ α β : Type}

/-- From a state two steps come to alike outcomes and to one state. -/
def AlikeAt (q q' : Folding σ α) (s : σ) : Prop :=
  (outcome q s).Alike (outcome q' s) ∧ after q' s = after q s

variable {q q' : Folding σ α} {g g' : α → Folding σ β} {s : σ}

theorem AlikeAt.rfl : AlikeAt q q s := ⟨.inl (Eq.refl _), Eq.refl _⟩

theorem AlikeAt.lift {o o' : Outcome α} (h : o.Alike o') :
    AlikeAt (lift o : Folding σ α) (lift o') s := ⟨h, Eq.refl _⟩

theorem AlikeAt.bind (h : AlikeAt q q' s)
    (hok : ∀ a, outcome q' s = .ok a → AlikeAt (g a) (g' a) (after q' s)) :
    AlikeAt (q >>= g) (q' >>= g') s := by
  unfold AlikeAt
  rw [outcome_bind, after_bind, outcome_bind, after_bind, ← h.2]
  rcases h.1 with hsame | ⟨r, r', hr, hr'⟩
  · rw [← hsame]
    cases hq : outcome q' s with
    | ok a => exact hok a hq
    | error f => exact ⟨.inl (Eq.refl _), Eq.refl _⟩
  · rw [hr, hr']
    exact ⟨.inr ⟨r, r', Eq.refl _, Eq.refl _⟩, Eq.refl _⟩

end Folding

open Folding

/-! ## Plans with related operands -/

/-- Plans of elements with the same parts, one for the other. -/
inductive ElementPlan.Related (R : Node → Node → Prop) : ElementPlan → ElementPlan → Prop
  | spread {c c' : Node} (h : R c c') : Related R (.spread c) (.spread c')
  | keyed {k k' i i' : Node} (hk : R k k') (hi : R i i') : Related R (.keyed k i) (.keyed k' i')
  | byReference : Related R .byReference .byReference
  | plain {i i' : Node} (h : R i i') : Related R (.plain i) (.plain i')

/-- Plans with the same operands, one for the other, and alike outcomes where there are none. -/
inductive FoldPlan.Related (R : Node → Node → Prop) : FoldPlan → FoldPlan → Prop
  | done {o o' : Outcome Value} (h : o.Alike o') : Related R (.done o) (.done o')
  | lacking : Related R .lacking .lacking
  | constant (scope name : String) : Related R (.constant scope name) (.constant scope name)
  | inner {c c' : Node} (h : R c c') : Related R (.inner c) (.inner c')
  | unary (operator : String) {c c' : Node} (h : R c c') :
      Related R (.unary operator c) (.unary operator c')
  | coalesce {l l' r r' : Node} (hl : R l l') (hr : R r r') :
      Related R (.coalesce l r) (.coalesce l' r')
  | binary (spelling : String) (operator : BinaryOperator) {l l' r r' : Node} (hl : R l l')
      (hr : R r r') : Related R (.binary spelling operator l r) (.binary spelling operator l' r')
  | conditional {c c' a a' : Node} {b b' : Option Node} (hc : R c c') (hb : Option.Rel R b b')
      (ha : R a a') : Related R (.conditional c b a) (.conditional c' b' a')
  | array {es es' : List Node}
      (h : List.Forall₂ (fun e e' => (e.elementPlan).Related R e'.elementPlan) es es') :
      Related R (.array es) (.array es')

/-! ## Elements of arrays with comments -/

namespace Commented

variable {text text' : Node → String} {e e' : Node}

theorem isSpread_eq_false (h : Commented text text' e e') (hno : e.isSpread = false) :
    e'.isSpread = false := by
  unfold Node.isSpread at hno ⊢
  rw [h.any_kind (by decide)]
  rw [Bool.or_eq_false_iff] at hno ⊢
  refine ⟨hno.1, ?_⟩
  rcases h.namedChildren.head? with ⟨m, hm, hadded⟩ | hrel
  · rw [hm, Option.map_some, Option.getD_some, hadded.kind]
    rfl
  · have hfirst := hno.2
    generalize e.namedChildren.head? = o, e'.namedChildren.head? = o' at hrel hfirst ⊢
    cases hrel with
    | none => rfl
    | some hc =>
      rw [Option.map_some, Option.getD_some] at hfirst ⊢
      rw [hc.kind_eq]
      exact hfirst

theorem isSpread_eq (h : Commented text text' e e')
    (hopens : e.children.any (·.kind == "...") = true ∨ e.OpensNamed) :
    e'.isSpread = e.isSpread := by
  cases hspread : e.isSpread with
  | false => exact h.isSpread_eq_false hspread
  | true =>
    rcases hopens with hdots | hopens
    · rw [Node.isSpread, h.any_kind (by decide), hdots, Bool.true_or]
    · obtain ⟨c, c', hc, hc', hrel⟩ := h.opensNamed hopens
      rw [Node.isSpread, hc] at hspread
      rw [Node.isSpread, h.any_kind (by decide), hc', Option.map_some, hrel.kind_eq]
      exact hspread

end Commented

namespace Node

theorem spreadTarget?_map_val (e : Node) : e.spreadTarget?.map (·.val)
    = e.namedChildren.getLast?.bind fun c =>
      if c.kind = "variadic_unpacking" then c.namedChildren.getLast? else some c := by
  unfold spreadTarget?
  rw [← namedSubnodes_getLast?]
  rcases e.namedSubnodes.getLast? with _ | ⟨c, hc⟩
  · rfl
  · simp only [Option.map_some, Option.bind_some]
    split
    · rw [← namedSubnodes_getLast?]
      rcases c.namedSubnodes.getLast? with _ | ⟨d, hd⟩ <;> rfl
    · rfl

theorem elementPlan_spread {e c : Node} (hspread : e.isSpread = true)
    (htarget : e.spreadTarget?.map (·.val) = some c) : e.elementPlan = .spread c := by
  rw [elementPlan, if_pos hspread]
  obtain ⟨target, ht, rfl⟩ := Option.map_eq_some_iff.mp htarget
  rw [ht]

/-- An element that is taken by reference is not spread and has no key. -/
theorem byReference_iff {e : Node} : e.elementPlan = .byReference ↔ e.isSpread = false
    ∧ e.children.any (·.kind == "=>") = false ∧ e.children.any (·.kind == "&") = true := by
  unfold elementPlan
  cases e.isSpread with
  | true =>
    refine iff_of_false ?_ fun h => Bool.noConfusion h.1
    rw [if_pos rfl]
    split <;> exact ElementPlan.noConfusion
  | false =>
    rw [if_neg Bool.false_ne_true]
    cases e.children.any (·.kind == "=>") with
    | true =>
      refine iff_of_false ?_ fun h => Bool.noConfusion h.2.1
      rw [if_pos rfl]
      split <;> exact ElementPlan.noConfusion
    | false =>
      rw [if_neg Bool.false_ne_true]
      cases e.children.any (·.kind == "&") with
      | true => exact iff_of_true rfl ⟨rfl, rfl, rfl⟩
      | false =>
        refine iff_of_false ?_ fun h => Bool.noConfusion h.2.2
        rw [if_neg Bool.false_ne_true]
        split <;> exact ElementPlan.noConfusion

end Node

namespace Commented

variable {text text' : Node → String} {e e' : Node}

/-- What an element spreads is spread by the element with comments. -/
theorem spreadTarget? (h : Commented text text' e e') (hcloses : e.ClosesNamed) :
    ∃ c c', e.spreadTarget?.map (·.val) = some c ∧ e'.spreadTarget?.map (·.val) = some c'
      ∧ Commented text text' c c' := by
  obtain ⟨c, c', hc, hc', hrel⟩ := h.closesNamed hcloses
  rw [Node.spreadTarget?_map_val, Node.spreadTarget?_map_val, hc, hc', Option.bind_some,
    Option.bind_some, hrel.kind_eq]
  split
  next hkind => exact hrel.closesNamed (hrel.isGrammatical.unpacking hkind)
  next => exact ⟨c, c', rfl, rfl, hrel⟩

theorem elementPlan (h : Commented text text' e e')
    (hkind : e.kind = "array_element_initializer") :
    e.elementPlan.Related (Commented text text') e'.elementPlan := by
  have hkey := h.any_kind (show "=>" ≠ "comment" by decide)
  have href := h.any_kind (show "&" ≠ "comment" by decide)
  rcases h.isGrammatical.element hkind with hby | ⟨hopens, hcloses⟩
  · have hby' : e'.elementPlan = .byReference := by
      rw [Node.byReference_iff] at hby ⊢
      exact ⟨h.isSpread_eq_false hby.1, hkey.trans hby.2.1, href.trans hby.2.2⟩
    rw [hby, hby']
    exact .byReference
  · have hspread := h.isSpread_eq hopens
    by_cases hs : e.isSpread = true
    · obtain ⟨c, c', hc, hc', hrel⟩ := h.spreadTarget? hcloses
      rw [Node.elementPlan_spread hs hc, Node.elementPlan_spread (hspread.trans hs) hc']
      exact .spread hrel
    · -- an element that is not spread begins with what is named first
      have hopens : e.OpensNamed := hopens.resolve_left fun hdots =>
        hs (by rw [Node.isSpread, hdots, Bool.true_or])
      obtain ⟨k, k', hk, hk', hkrel⟩ := h.opensNamed hopens
      obtain ⟨i, i', hi, hi', hirel⟩ := h.closesNamed hcloses
      rw [Node.elementPlan, if_neg hs, Node.elementPlan, hspread, if_neg hs, hkey, href, hk, hi,
        hk', hi']
      split
      · exact .keyed hkrel hirel
      · split
        · exact .byReference
        · exact .plain hkrel

end Commented

/-! ## Plans of expressions with comments -/

/-- A node at which a fold may take a comment for a part of the expression. -/
inductive Node.IsDisturbed (n : Node) : Prop
  /-- A comment follows the opening parenthesis. -/
  | parenthesis {c : Node} (hform : ExprForm.ofKind? n.kind = some .parenthesized)
      (h : n.namedChildren.head? = some c) (hc : c.isComment = true) : IsDisturbed n
  /-- A comment stands inside of the scope or the name of a class constant, or in its place. -/
  | reference {w : Node} (hform : ExprForm.ofKind? n.kind = some .classConstant)
      (h : n.namedChildren.head? = some w ∨ n.namedChildren.getLast? = some w)
      (hw : w.hasComment = true) : IsDisturbed n

namespace Folder

variable {σ : Type} {F H : Folder σ} {n n' : Node} {s : σ}

/-- A string in which something is interpolated is refused. -/
theorem plainString_refused (h : Node.interpolatedParts n.children ≠ []) :
    ∃ reason, F.plainString n = .error (.unfoldable reason) := by
  obtain ⟨c, hc⟩ := Option.ne_none_iff_exists'.mp (mt List.getLast?_eq_none_iff.mp h)
  exact ⟨_, by rw [plainString, hc]; rfl⟩

/-- Strings with the same text, or in both of which something is interpolated. -/
theorem plainString_bind_alike {o o' : Outcome Value} (h : Commented F.text H.text n n')
    (htoken : Node.interpolatedParts n.children = [] → n'.hasComment = false)
    (ho : n'.hasComment = false → o' = o) :
    Outcome.Alike (do F.plainString n; o) (do H.plainString n'; o') := by
  by_cases hnil : Node.interpolatedParts n.children = []
  · have hno := htoken hnil
    have hnil' := (h.interpolatedParts_eq_nil_iff hno).mpr hnil
    rw [ho hno, plainString, plainString, hnil, hnil']
    exact .inl rfl
  · obtain ⟨r, hr⟩ := plainString_refused (F := F) hnil
    obtain ⟨r', hr'⟩ := plainString_refused (F := H) (mt h.interpolatedParts_eq_nil hnil)
    rw [hr, hr']
    exact .inr ⟨r, r', rfl, rfl⟩

theorem encapsed_alike (h : Commented F.text H.text n n')
    (htoken : Node.interpolatedParts n.children = [] → n'.hasComment = false) :
    (F.encapsed n).Alike (H.encapsed n') :=
  plainString_bind_alike h htoken fun hno => by rw [h.text_eq hno]

theorem heredoc_alike (h : Commented F.text H.text n n')
    (htoken : Node.interpolatedParts n.children = [] → n'.hasComment = false) :
    (F.heredoc n).Alike (H.heredoc n') :=
  plainString_bind_alike h htoken fun hno => by rw [h.text_eq hno]

theorem string_alike (h : Commented F.text H.text n n') (hno : n'.hasComment = false) :
    (F.string n).Alike (H.string n') := by
  unfold string
  rw [h.text_eq hno]
  split
  · exact encapsed_alike h fun _ => hno
  · exact .inl rfl

/-- The plan of a class constant by its scope and by what follows it. -/
theorem plan_reference {scope : Node} {rest : List Node}
    (hform : ExprForm.ofKind? n.kind = some .classConstant)
    (hnamed : n.namedChildren = scope :: rest) : F.plan n = match rest.getLast? with
      | none => .done (Outcome.unfoldable (.malformedAccess n.kind))
      | some name => .constant (F.text scope) (F.text name) := by
  rw [plan, hform, hnamed]
  cases rest with
  | nil => rfl
  | cons d ds =>
    rw [List.getLast?_cons]
    rfl

theorem plan_reference_related (h : Commented F.text H.text n n')
    (hform : ExprForm.ofKind? n.kind = some .classConstant) (hcalm : ¬n'.IsDisturbed) :
    (F.plan n).Related (Commented F.text H.text) (H.plan n') := by
  have hform' := h.form_eq.trans hform
  have hword {w : Node}
      (hw : n'.namedChildren.head? = some w ∨ n'.namedChildren.getLast? = some w) :
      w.hasComment = false :=
    Bool.eq_false_iff.mpr fun hc => hcalm (.reference hform' hw hc)
  have hnamed := h.namedChildren
  generalize hds : n.namedChildren = ds, hds' : n'.namedChildren = ds' at hnamed
  cases hnamed with
  | nil =>
    rw [plan, hform, hds, plan, hform', hds']
    exact .done (.inr ⟨_, _, rfl, rfl⟩)
  | added hm _ =>
    have hno := hword (.inl (by rw [hds']; rfl))
    exact absurd hm.hasComment (by rw [hno]; exact Bool.false_ne_true)
  | @kept scope scope' rest rest' hscope hrest =>
    have hname {w : Node} (hw : rest'.getLast? = some w) : w.hasComment = false :=
      hword (.inr (by rw [hds', List.getLast?_cons, hw]; rfl))
    rw [plan_reference hform hds, plan_reference hform' hds',
      hscope.text_eq (hword (.inl (by rw [hds']; rfl)))]
    rcases hrest.getLast? with ⟨m, hm, hadded⟩ | hrel
    · exact absurd hadded.hasComment (by rw [hname hm]; exact Bool.false_ne_true)
    · generalize rest.getLast? = o, rest'.getLast? = o' at hrel hname
      cases hrel with
      | none => exact .done (.inr ⟨_, _, rfl, rfl⟩)
      | some hrel =>
        simp only
        rw [hrel.text_eq (hname rfl)]
        exact .constant _ _

theorem plan_unary_related (h : Commented F.text H.text n n')
    (hform : ExprForm.ofKind? n.kind = some .unary) :
    (F.plan n).Related (Commented F.text H.text) (H.plan n') := by
  have hform' := h.form_eq.trans hform
  obtain ⟨⟨o, ho, hsign⟩, hcloses⟩ := h.isGrammatical.unary hform
  obtain ⟨c, c', hc, hc', hrel⟩ := h.closesNamed hcloses
  obtain ⟨o', ho', hop⟩ :=
    exists_of_optionRel (optionRel_orElse (h.childInField? "operator") h.head?) ho
  rw [plan, plan, hform, hform', hc, hc', ho, ho']
  simp only
  rw [hop.text_eq (hop.isSign hsign).hasComment]
  exact .unary _ hrel

theorem plan_binary_related (h : Commented F.text H.text n n')
    (hform : ExprForm.ofKind? n.kind = some .binary) :
    (F.plan n).Related (Commented F.text H.text) (H.plan n') := by
  have hform' := h.form_eq.trans hform
  obtain ⟨o, ho, hsign⟩ := h.isGrammatical.binary hform
  have hleft := optionRel_orElse (h.childInField? "left") h.head?
  have hright := optionRel_orElse (h.childInField? "right") h.getLast?
  obtain ⟨o', ho', hop⟩ := exists_of_optionRel (h.childInField? "operator") ho
  rw [plan, plan, hform, hform', ho, ho']
  simp only
  generalize (n.childInField? "left" <|> n.children.head?) = l,
    (n'.childInField? "left" <|> n'.children.head?) = l' at hleft ⊢
  generalize (n.childInField? "right" <|> n.children.getLast?) = r,
    (n'.childInField? "right" <|> n'.children.getLast?) = r' at hright ⊢
  cases hleft with
  | none => exact .lacking
  | some hl =>
    cases hright with
    | none => exact .lacking
    | some hr =>
      show FoldPlan.Related _ (ite _ _ _) (ite _ _ _)
      rw [hop.text_eq (hop.isSign hsign).hasComment]
      split
      · exact .coalesce hl hr
      · split
        · exact .done (.inr ⟨_, _, rfl, rfl⟩)
        · exact .binary _ _ hl hr

theorem plan_conditional_related (h : Commented F.text H.text n n')
    (hform : ExprForm.ofKind? n.kind = some .conditional) :
    (F.plan n).Related (Commented F.text H.text) (H.plan n') := by
  have hform' := h.form_eq.trans hform
  obtain ⟨hcondition, halternative⟩ := h.isGrammatical.conditional hform
  obtain ⟨c, hc⟩ := Option.isSome_iff_exists.mp hcondition
  obtain ⟨a, ha⟩ := Option.isSome_iff_exists.mp halternative
  obtain ⟨c', hc', hcrel⟩ := exists_of_optionRel (h.childInField? "condition") hc
  obtain ⟨a', ha', harel⟩ := exists_of_optionRel (h.childInField? "alternative") ha
  rw [plan, plan, hform, hform', hc, hc', ha, ha']
  exact .conditional hcrel (h.childInField? "body") harel

theorem plan_parenthesized_related (h : Commented F.text H.text n n')
    (hform : ExprForm.ofKind? n.kind = some .parenthesized) (hcalm : ¬n'.IsDisturbed) :
    (F.plan n).Related (Commented F.text H.text) (H.plan n') := by
  have hform' := h.form_eq.trans hform
  rcases h.namedChildren.head? with ⟨m, hm, hadded⟩ | hrel
  · exact absurd (.parenthesis hform' hm hadded.isComment) hcalm
  · rw [plan, plan, hform, hform']
    simp only
    generalize n.namedChildren.head? = o, n'.namedChildren.head? = o' at hrel ⊢
    cases hrel with
    | none => exact .lacking
    | some hc => exact .inner hc

theorem plan_array_related (h : Commented F.text H.text n n')
    (hform : ExprForm.ofKind? n.kind = some .array) :
    (F.plan n).Related (Commented F.text H.text) (H.plan n') := by
  have hform' := h.form_eq.trans hform
  have hkind (e : Node) (he : e ∈ n.arrayElements) : e.kind = "array_element_initializer" :=
    eq_of_beq (List.mem_filter.mp he).2
  rw [plan, plan, hform, hform']
  exact .array (((List.forall₂_and_left _ _).mpr ⟨hkind, h.arrayElements⟩).imp
    fun _ _ h => h.2.elementPlan h.1)

/-- Plans of a node that is not disturbed, without the comments and with them. -/
theorem plan_related (hmagic : H.magic = F.magic) (h : Commented F.text H.text n n')
    (hcalm : ¬n'.IsDisturbed) : (F.plan n).Related (Commented F.text H.text) (H.plan n') := by
  have htext (htoken : n.isToken = true) : H.text n' = F.text n :=
    h.text_eq (h.hasComment_of_isToken htoken)
  cases hform : ExprForm.ofKind? n.kind with
  | none =>
    rw [plan, plan, h.form_eq, hform]
    exact .done (.inr ⟨_, _, rfl, rfl⟩)
  | some form =>
    have hform' := h.form_eq.trans hform
    cases form with
    | classConstant => exact plan_reference_related h hform hcalm
    | parenthesized => exact plan_parenthesized_related h hform hcalm
    | array => exact plan_array_related h hform
    | unary => exact plan_unary_related h hform
    | binary => exact plan_binary_related h hform
    | conditional => exact plan_conditional_related h hform
    | encapsed =>
      rw [plan, plan, hform, hform']
      refine .done (encapsed_alike h fun hnil => h.hasComment_of_isToken ?_)
      rw [Node.isToken, hform, hnil]
      rfl
    | heredoc =>
      rw [plan, plan, hform, hform']
      refine .done (heredoc_alike h fun hnil => h.hasComment_of_isToken ?_)
      rw [Node.isToken, hform, hnil]
      rfl
    | string =>
      rw [plan, plan, hform, hform']
      exact .done (string_alike h (h.hasComment_of_isToken (by rw [Node.isToken, hform])))
    | name =>
      have hvalue : H.namedConstant (F.text n) = F.namedConstant (F.text n) :=
        namedConstant_congr fun _ _ => by rw [hmagic]
      rw [plan, plan, hform, hform', htext (by rw [Node.isToken, hform])]
      exact .done (.inl hvalue)
    | nowdoc =>
      rw [plan, plan, hform, hform', nowdoc, nowdoc, htext (by rw [Node.isToken, hform])]
      exact .done (.inl rfl)
    | integer | float | truth =>
      rw [plan, plan, hform, hform', htext (by rw [Node.isToken, hform])]
      exact .done (.inl rfl)
    | null =>
      rw [plan, plan, hform, hform']
      exact .done (.inl rfl)

/-! ## Folds of expressions with comments -/

theorem foldElement_alike {R : Node → Node → Prop} {e e' : Node} {acc : Accumulator}
    (hplan : e.elementPlan.Related R e'.elementPlan)
    (h : ∀ c c' t, R c c' → H.ElementOperand e' s c' t → AlikeAt (F.fold c) (H.fold c') t) :
    AlikeAt (F.foldElement acc e) (H.foldElement acc e') s := by
  unfold foldElement
  generalize e.elementPlan = p, hp : e'.elementPlan = p' at hplan
  cases hplan with
  | byReference => exact ⟨.inr ⟨_, _, rfl, rfl⟩, rfl⟩
  | spread hc => exact (h _ _ s hc (.spread hp)).bind fun _ _ => .rfl
  | plain hi => exact (h _ _ s hi (.plain hp)).bind fun _ _ => .rfl
  | keyed hk hi =>
    refine (h _ _ s hk (.key hp)).bind fun k hkey => ?_
    exact (h _ _ _ hi (.item hp hkey)).bind fun _ _ => .rfl

/-- The elements of an array that follow those in place. -/
theorem foldElements_alike {R : Node → Node → Prop} {before es es' : List Node}
    (hes : List.Forall₂ (fun e e' => e.elementPlan.Related R e'.elementPlan) es es')
    (hplan : H.plan n' = .array (before ++ es')) {acc : Accumulator}
    (hb : outcome (H.foldElements before Accumulator.empty) s = .ok acc)
    (h : ∀ c c' t, R c c' → H.Operand n' s c' t → AlikeAt (F.fold c) (H.fold c') t) :
    AlikeAt (F.foldElements es acc) (H.foldElements es' acc)
      (after (H.foldElements before Accumulator.empty) s) := by
  induction hes generalizing before acc with
  | nil => rw [foldElements_nil, foldElements_nil]; exact .rfl
  | @cons e e' rest rest' he _ ih =>
    rw [foldElements_cons, foldElements_cons]
    refine (foldElement_alike he fun c c' t hc ho => h c c' t hc (.element hplan hb ho)).bind
      fun next hnext => ?_
    -- with the element in place the rest follows
    have hnow : outcome (H.foldElements (before ++ [e']) Accumulator.empty) s = .ok next := by
      rw [foldElements_concat, outcome_bind_ok hb, hnext]
    have hafter : after (H.foldElements (before ++ [e']) Accumulator.empty) s
        = after (H.foldElement acc e') (after (H.foldElements before Accumulator.empty) s) := by
      rw [foldElements_concat, after_bind_ok hb]
    rw [← hafter]
    exact ih (by rw [hplan, List.append_assoc, List.singleton_append]) hnow

/-- Related plans come to alike outcomes if the operands that are folded do. -/
theorem carryOut_alike {R : Node → Node → Prop} {p : FoldPlan} (hp : p.Related R (H.plan n'))
    (hkind : n'.kind = n.kind) (hresolver : H.classConstant = F.classConstant)
    (h : ∀ c c' t, R c c' → H.Operand n' s c' t → AlikeAt (F.fold c) (H.fold c') t) :
    AlikeAt (F.carryOut n p) (H.carryOut n' (H.plan n')) s := by
  generalize hplan : H.plan n' = p' at hp
  cases hp with
  | done ho => exact .lift ho
  | lacking => exact .rfl
  | constant scope name =>
    show AlikeAt (F.resolve n scope name) (H.resolve n' scope name) s
    rw [resolve, resolve, hresolver, hkind]
    exact .rfl
  | inner hc => exact h _ _ s hc (.inner hplan)
  | unary operator hc =>
    refine (h _ _ s hc (.unary hplan)).bind fun v _ => ?_
    rw [hkind]
    exact .rfl
  | coalesce hl hr =>
    refine (h _ _ s hl (.preferred hplan)).bind fun v hv => ?_
    split
    next hnull => exact h _ _ _ hr (.fallback hplan hv hnull)
    next => exact .rfl
  | binary spelling operator hl hr =>
    refine (h _ _ s hl (.left hplan)).bind fun a ha => ?_
    refine (h _ _ _ hr (.right hplan ha)).bind fun b _ => ?_
    rw [hkind]
    exact .rfl
  | conditional hc hb ha =>
    refine (h _ _ s hc (.condition hplan)).bind fun v hv => ?_
    split
    next htrue =>
      cases hb with
      | none => exact .rfl
      | some hb => exact h _ _ _ hb (.body hplan hv htrue)
    next hfalse => exact h _ _ _ ha (.alternative hplan hv hfalse)
  | array hes =>
    have hnone : H.foldElements [] Accumulator.empty = pure Accumulator.empty := foldElements_nil ..
    have helements := foldElements_alike hes (hplan.trans (congrArg _ (List.nil_append _).symm))
      (by rw [hnone]; rfl) h
    rw [hnone, after_pure] at helements
    exact helements.bind fun _ _ => .rfl

/-- Comments do not matter to a fold that comes to no disturbed node. A parenthesis that it
comes to and that has a comment after it is refused because of the comment. -/
theorem fold_commented (hresolver : H.classConstant = F.classConstant) (hmagic : H.magic = F.magic)
    (h : Commented F.text H.text n n') :
    ((∀ m t, H.Reaches n' s m t → ¬m.IsDisturbed) → AlikeAt (F.fold n) (H.fold n') s)
      ∧ ∀ m c t, H.Reaches n' s m t → ExprForm.ofKind? m.kind = some .parenthesized →
        m.namedChildren.head? = some c → c.isComment = true →
        outcome (H.fold n') s = .error (.unfoldable (.notConstant "comment" (H.text c))) := by
  constructor
  · intro hcalm
    -- on the size of the node with the comments, since it is its operands that are folded
    induction hsize : n'.size using Nat.strongRecOn generalizing n n' s with
    | ind size ih =>
      have hplan := plan_related hmagic h (hcalm n' s .refl)
      rw [fold_eq, fold_eq]
      refine carryOut_alike hplan h.kind_eq hresolver fun c c' t hrel ho => ?_
      exact ih c'.size (hsize ▸ ho.size_lt) hrel (fun m u hr => hcalm m u (.step ho hr)) rfl
  · intro m c t hr hform hc hcomment
    have hinner : H.plan m = .inner c := by
      rw [plan, hform]
      simp only
      rw [hc]
    have hrefused : H.plan c
        = .done (.error (.unfoldable (.notConstant "comment" (H.text c)))) := by
      rw [plan, eq_of_beq hcomment]
      rfl
    exact hr.error ((Operand.inner hinner).error (fold_done hrefused))

/-! ### A comment before and after an operand -/

/-- Folds expressions of a source without class constants and magic constants. -/
def reader (source : String) : Folder Unit := ⟨(Source.ofString source).text, none, []⟩

/-- A token of a source, or a comment in it. -/
def tokenAt (kind : String) (named : Bool) (start stop : Nat) : Node :=
  ⟨kind, start, stop, none, named, false, []⟩

theorem tokenAt_commented {text text' : Node → String} {kind : String} {named : Bool}
    {i j i' j' : Nat} (hkind : kind ∈ ["(", "integer", ")"])
    (htext : text' (tokenAt kind named i' j') = text (tokenAt kind named i j)) :
    Commented text text' (tokenAt kind named i j) (tokenAt kind named i' j') := by
  have hall : ∀ kind ∈ ["(", "integer", ")"],
      ExprForm.ofKind? kind ∉ [some .unary, some .binary, some .conditional]
        ∧ kind ∉ ["array_element_initializer", "variadic_unpacking"]
        ∧ (kind == "comment") = false := by decide
  obtain ⟨hform, hpart, hno⟩ := hall kind hkind
  exact .leaf rfl ⟨rfl, hno⟩ rfl rfl rfl htext (.of_kind hform hpart)

/-- A digit in parentheses, with comments before and after it. -/
def digitInParentheses (before : List Node) (place : Nat) (after : List Node) (stop : Nat) : Node :=
  ⟨"parenthesized_expression", 0, stop, none, true, false, tokenAt "(" false 0 1 :: before
    ++ tokenAt "integer" true place (place + 1) :: after ++ [tokenAt ")" false (stop - 1) stop]⟩

/-- The comment after `1` in `(1 /* c */)` does not matter, the one in `(/* c */ 1)` does. -/
theorem fold_commented_digit :
    Commented (reader "(1)").text (reader "(1 /* c */)").text (digitInParentheses [] 1 [] 3)
        (digitInParentheses [] 1 [tokenAt "comment" true 3 10] 11)
      ∧ Commented (reader "(1)").text (reader "(/* c */ 1)").text (digitInParentheses [] 1 [] 3)
        (digitInParentheses [tokenAt "comment" true 1 8] 9 [] 11)
      ∧ outcome ((reader "(1)").fold (digitInParentheses [] 1 [] 3)) () = .ok (.int 1)
      ∧ outcome ((reader "(1 /* c */)").fold
        (digitInParentheses [] 1 [tokenAt "comment" true 3 10] 11)) () = .ok (.int 1)
      ∧ outcome ((reader "(/* c */ 1)").fold
        (digitInParentheses [tokenAt "comment" true 1 8] 9 [] 11)) ()
          = .error (.unfoldable (.notConstant "comment" "/* c */")) := by
  have hcomment {start stop : Nat} : (tokenAt "comment" true start stop).IsAdded := ⟨rfl, rfl, rfl⟩
  have hafter : Commented (reader "(1)").text (reader "(1 /* c */)").text
      (digitInParentheses [] 1 [] 3)
      (digitInParentheses [] 1 [tokenAt "comment" true 3 10] 11) := by
    refine .mk rfl rfl rfl ?_ ?_ (fun h => absurd h (by decide)) (fun h => absurd h (by decide))
      (.of_kind (by decide) (by decide))
    · exact .kept (tokenAt_commented (by decide) rfl)
        (.kept (tokenAt_commented (by decide) rfl)
          (.added hcomment (.kept (tokenAt_commented (by decide) rfl) .nil)))
    · rintro c (hc | hc) <;> cases hc <;> rfl
  have hbefore : Commented (reader "(1)").text (reader "(/* c */ 1)").text
      (digitInParentheses [] 1 [] 3) (digitInParentheses [tokenAt "comment" true 1 8] 9 [] 11) := by
    refine .mk rfl rfl rfl ?_ ?_ (fun h => absurd h (by decide)) (fun h => absurd h (by decide))
      (.of_kind (by decide) (by decide))
    · exact .kept (tokenAt_commented (by decide) rfl)
        (.added hcomment (.kept (tokenAt_commented (by decide) rfl)
          (.kept (tokenAt_commented (by decide) rfl) .nil)))
    · rintro c (hc | hc) <;> cases hc <;> rfl
  have hplain : outcome ((reader "(1)").fold (digitInParentheses [] 1 [] 3)) () = .ok (.int 1) := by
    have hinner : (reader "(1)").plan (digitInParentheses [] 1 [] 3)
        = .inner (tokenAt "integer" true 1 2) := rfl
    rw [fold_eq, hinner]
    exact fold_done rfl
  -- nothing but the parentheses and the digit is reached
  have hcalm (m : Node) (t : Unit) (hr : (reader "(1 /* c */)").Reaches
      (digitInParentheses [] 1 [tokenAt "comment" true 3 10] 11) () m t) : ¬m.IsDisturbed := by
    cases hr with
    | refl =>
      rintro (⟨-, hfirst, hc⟩ | ⟨hform, -, -⟩)
      · cases hfirst
        cases hc
      · cases hform
    | step ho hr =>
      obtain rfl := List.mem_singleton.mp ho.mem_operands
      cases hr with
      | refl => rintro (⟨hform, -, -⟩ | ⟨hform, -, -⟩) <;> cases hform
      | step ho _ => exact absurd ho.mem_operands List.not_mem_nil
  have hsame := (fold_commented (F := reader "(1)") (H := reader "(1 /* c */)") rfl rfl hafter).1
    hcalm
  refine ⟨hafter, hbefore, hplain, ?_, ?_⟩
  · rcases hsame.1 with heq | ⟨_, _, hrefused, _⟩
    · exact heq.trans hplain
    · rw [hplain] at hrefused
      cases hrefused
  · exact (fold_commented (F := reader "(1)") (H := reader "(/* c */ 1)") rfl rfl hbefore).2
      _ _ _ .refl rfl rfl rfl

end Folder

end StaticReflection
