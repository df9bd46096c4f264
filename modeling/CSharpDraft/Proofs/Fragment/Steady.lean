import CSharpDraft.Proofs.Fragment.Alike

/-!
# The patterns of a block do not see gaps

The rules below a block cannot tell lists of tokens apart that are alike.

* `nest?_behind` : what a token does to the brackets behind an opening bracket;
* `Grammar.induction_brackets` : an induction over what stands in a bracket, by the number of brackets around a token;
* `Pattern.Blind` : the conditions of the grammar go from bracket to bracket, so they say the same of both lists;
* `steady_grammar`, `parse_alike` : so does the grammar, and its matches are the same but for the gaps.
-/

set_option autoImplicit false

namespace CSharpDraft.Fragment

/-! ## From bracket to bracket -/

/-- What a token does behind an opening bracket: it opens another one, it closes the innermost one, or it leaves their
number alone. -/
theorem nest?_behind {k : TokenKind} {x : Text} {w s m : List Opened}
    (h : nest? k x (w ++ .bracket :: s) = some m) :
    (k = .symbol ∧ x ∈ openingBrackets ∧ m = .bracket :: w ++ .bracket :: s) ∨
      (k = .symbol ∧ x ∉ openingBrackets ∧ x ∈ closingBrackets ∧
        ((w = [] ∧ m = s) ∨ ∃ w', w = .bracket :: w' ∧ m = w' ++ .bracket :: s)) ∨
      ((k = .symbol → x ∉ openingBrackets ∧ x ∉ closingBrackets) ∧
        ∃ w', w'.count .bracket = w.count .bracket ∧ m = w' ++ .bracket :: s) := by
  cases k with
  | symbol =>
    unfold nest? nestSymbol? at h
    dsimp only at h
    split at h
    · next hopens =>
      cases h
      exact Or.inl ⟨rfl, by simpa using hopens, rfl⟩
    · next hopens =>
      split at h
      · next hcloses =>
        refine Or.inr (Or.inl ⟨rfl, by simpa using hopens, by simpa using hcloses, ?_⟩)
        cases w with
        | nil =>
          cases h
          exact Or.inl ⟨rfl, rfl⟩
        | cons o w =>
          cases o with
          | bracket =>
            cases h
            exact Or.inr ⟨w, rfl, rfl⟩
          | string => cases h
      · next hcloses =>
        cases h
        exact Or.inr (Or.inr ⟨fun _ => ⟨by simpa using hopens, by simpa using hcloses⟩, w, rfl, rfl⟩)
  | interpolated part =>
    refine Or.inr (Or.inr ⟨nofun, ?_⟩)
    cases part with
    | whole =>
      cases h
      exact ⟨w, rfl, rfl⟩
    | opening =>
      cases h
      exact ⟨.string :: w, by simp, rfl⟩
    | middle | closing =>
      cases w with
      | nil => cases h
      | cons o w =>
        cases o with
        | bracket => cases h
        | string =>
          cases h
          first
          | exact ⟨w, by simp, rfl⟩
          | exact ⟨.string :: w, by simp, rfl⟩
  | word | escapedWord | number | character | string | comment | directive | conditional =>
    cases h
    exact Or.inr (Or.inr ⟨nofun, w, rfl, rfl⟩)

/-- Behind an opening bracket both lists are alike in the bracket. -/
theorem Alike.inside {s : List Opened} {u u' : Token} {us us' : List Token} (h : Alike s (u :: us) (u' :: us')) {x : Text}
    (hu : u.isSymbol x = true) (hx : x ∈ openingBrackets) : Alike (.bracket :: s) us us' := by
  simp only [Token.isSymbol, Bool.and_eq_true, beq_iff_eq] at hu
  obtain ⟨hkind, rfl⟩ := hu
  cases h with
  | close _ _ hclose _ =>
    simp only [Token.isSymbol, Bool.and_eq_true, beq_iff_eq] at hclose
    rw [hclose.2] at hx
    exact absurd hx (by decide)
  | cons _ _ hnest _ hrest =>
    unfold nest? nestSymbol? at hnest
    rw [hkind, if_pos (List.contains_iff_mem.mpr hx)] at hnest
    cases hnest
    exact hrest

namespace Grammar

theorem afterBrackets_cons (depth : Nat) (t : Token) (ts : List Token) : afterBrackets depth (t :: ts) =
    if t.kind != .symbol then afterBrackets depth ts
    else if openingBrackets.contains t.text then afterBrackets (depth + 1) ts
    else if closingBrackets.contains t.text then if depth ≤ 1 then ts else afterBrackets (depth - 1) ts
    else afterBrackets depth ts := by
  rw [afterBrackets]
  rfl

theorem holdsSemicolon_cons (depth : Nat) (t : Token) (ts : List Token) : holdsSemicolon depth (t :: ts) =
    if t.kind != .symbol then holdsSemicolon depth ts
    else if openingBrackets.contains t.text then holdsSemicolon (depth + 1) ts
    else if closingBrackets.contains t.text then !(depth ≤ 1) && holdsSemicolon (depth - 1) ts
    else (t.text == [';'] && depth == 1) || holdsSemicolon depth ts := by
  rw [holdsSemicolon]
  rfl

section Brackets

variable {s : List Opened} {P : Nat → List Token → List Token → Prop}

/-- An induction over the tokens behind an opening bracket that counts the brackets which are open around a token: a token
opens one more, it closes the innermost one or the last one, or it leaves them alone. -/
theorem induction_brackets
    (opens : ∀ {depth u u' us us'}, u.kind = .symbol → u.text ∈ openingBrackets → u'.kind = u.kind → u'.text = u.text →
      P (depth + 1) us us' → P depth (u :: us) (u' :: us'))
    (last : ∀ {u u' us us'}, u.kind = .symbol → u.text ∉ openingBrackets → u.text ∈ closingBrackets → u'.kind = u.kind →
      u'.text = u.text → Alike s us us' → P 1 (u :: us) (u' :: us'))
    (closes : ∀ {depth u u' us us'}, u.kind = .symbol → u.text ∉ openingBrackets → u.text ∈ closingBrackets →
      u'.kind = u.kind → u'.text = u.text → P (depth + 1) us us' → P (depth + 2) (u :: us) (u' :: us'))
    (other : ∀ {depth u u' us us'}, (u.kind = .symbol → u.text ∉ openingBrackets ∧ u.text ∉ closingBrackets) →
      u'.kind = u.kind → u'.text = u.text → P depth us us' → P depth (u :: us) (u' :: us'))
    {w : List Opened} {ts ts' : List Token} (h : Alike (w ++ .bracket :: s) ts ts') :
    P (w.count .bracket + 1) ts ts' := by
  generalize hm : w ++ .bracket :: s = m at h
  induction h generalizing w with
  | close us us' _ _ => simp at hm
  | @cons m n u u' us us' _ hbare hnest _ hrest ih =>
    subst hm
    obtain ⟨hkind, htext⟩ := Token.bare_eq_iff.mp hbare
    rcases nest?_behind hnest with ⟨hk, hopens, rfl⟩ | ⟨hk, hopens, hcloses, hw⟩ | ⟨hk, w', hcount, rfl⟩
    · have hinner := ih (w := .bracket :: w) rfl
      rw [List.count_cons_self] at hinner
      exact opens hk hopens hkind htext hinner
    · rcases hw with ⟨rfl, rfl⟩ | ⟨w', rfl, rfl⟩
      · exact last hk hopens hcloses hkind htext hrest
      · rw [List.count_cons_self]
        exact closes hk hopens hcloses hkind htext (ih (w := w') rfl)
    · rw [← hcount]
      exact other hk hkind htext (ih (w := w') rfl)

/-- The tokens behind a bracket are alike where those in the bracket are. -/
theorem alike_afterBrackets {w : List Opened} {ts ts' : List Token} (h : Alike (w ++ .bracket :: s) ts ts') :
    Alike s (afterBrackets (w.count .bracket + 1) ts) (afterBrackets (w.count .bracket + 1) ts') := by
  refine induction_brackets (P := fun depth ts ts' => Alike s (afterBrackets depth ts) (afterBrackets depth ts'))
    ?_ ?_ ?_ ?_ h
  · intro depth u u' us us' hk hopens hkind htext hinner
    simpa [afterBrackets_cons, hkind, htext, hk, hopens] using hinner
  · intro u u' us us' hk hopens hcloses hkind htext hrest
    simpa [afterBrackets_cons, hkind, htext, hk, hopens, hcloses] using hrest
  · intro depth u u' us us' hk hopens hcloses hkind htext hinner
    simpa [afterBrackets_cons, hkind, htext, hk, hopens, hcloses] using hinner
  · intro depth u u' us us' hk hkind htext hinner
    by_cases hsymbol : u.kind = .symbol
    · simpa [afterBrackets_cons, hkind, htext, hsymbol, hk hsymbol] using hinner
    · simpa [afterBrackets_cons, hkind, htext, hsymbol] using hinner

theorem holdsSemicolon_alike {w : List Opened} {ts ts' : List Token} (h : Alike (w ++ .bracket :: s) ts ts') :
    holdsSemicolon (w.count .bracket + 1) ts' = holdsSemicolon (w.count .bracket + 1) ts := by
  refine induction_brackets (P := fun depth ts ts' => holdsSemicolon depth ts' = holdsSemicolon depth ts) ?_ ?_ ?_ ?_ h
  · intro depth u u' us us' hk hopens hkind htext hinner
    simpa [holdsSemicolon_cons, hkind, htext, hk, hopens] using hinner
  · intro u u' us us' hk hopens hcloses hkind htext _
    simp [holdsSemicolon_cons, hkind, htext, hk, hopens, hcloses]
  · intro depth u u' us us' hk hopens hcloses hkind htext hinner
    simpa [holdsSemicolon_cons, hkind, htext, hk, hopens, hcloses] using hinner
  · intro depth u u' us us' hk hkind htext hinner
    by_cases hsymbol : u.kind = .symbol
    · simp [holdsSemicolon_cons, hkind, htext, hsymbol, hk hsymbol, hinner]
    · simpa [holdsSemicolon_cons, hkind, htext, hsymbol] using hinner

end Brackets

end Grammar

/-! ## Conditions on what follows -/

namespace Pattern

theorem Blind.not {condition : List Token → Bool} (h : Blind condition) : Blind (fun ts => !condition ts) :=
  fun s ts ts' halike => congrArg (!·) (h s ts ts' halike)

theorem blind_nextIs {accepts : Token → Bool} (h : Token.Blind accepts) : Blind (fun ts => ts.head?.any accepts) := by
  intro s ts ts' halike
  obtain ⟨u, us, u', us', rfl, rfl, -, hbare⟩ := halike.exists_cons
  exact h.congr hbare

theorem blind_closesTypeArguments : Blind Grammar.closesTypeArguments := by
  intro s ts ts' halike
  obtain ⟨u, us, u', us', rfl, rfl, -, hbare⟩ := halike.exists_cons
  obtain ⟨hkind, htext⟩ := Token.bare_eq_iff.mp hbare
  simp only [Grammar.closesTypeArguments, List.head?_cons, Token.isOneOf, hkind, htext]

theorem blind_parensThenArrow : Blind Grammar.parensThenArrow := by
  intro s ts ts' halike
  have harrow : Token.Blind (·.isSymbol ['=', '>']) := fun _ => rfl
  obtain ⟨u, us, u', us', rfl, rfl, -, hbare⟩ := halike.exists_cons
  obtain ⟨hkind, htext⟩ := Token.bare_eq_iff.mp hbare
  have hfirst : u'.isSymbol ['('] = u.isSymbol ['('] := by simp only [Token.isSymbol, hkind, htext]
  simp only [Grammar.parensThenArrow, Grammar.parensThen, hfirst]
  cases hopens : u.isSymbol ['('] with
  | false => rfl
  | true =>
    have hafter := Grammar.alike_afterBrackets (w := []) (halike.inside hopens (by decide))
    obtain ⟨hskip, hskip'⟩ := hafter.skipTrivia
    simp only [List.count_nil, Nat.zero_add] at hafter hskip hskip'
    rw [hskip, hskip']
    exact blind_nextIs harrow s _ _ hafter

/-- Whether elements in braces would have a semicolon among them, which is what a block has. -/
theorem blind_holdsSemicolon {condition : List Token → Bool}
    (hcons : ∀ t ts, condition (t :: ts) = (t.isSymbol ['\x7b'] && Grammar.holdsSemicolon 1 ts)) : Blind condition := by
  intro s ts ts' halike
  obtain ⟨u, us, u', us', rfl, rfl, -, hbare⟩ := halike.exists_cons
  obtain ⟨hkind, htext⟩ := Token.bare_eq_iff.mp hbare
  have hfirst : u'.isSymbol ['\x7b'] = u.isSymbol ['\x7b'] := by simp only [Token.isSymbol, hkind, htext]
  rw [hcons, hcons, hfirst]
  cases hopens : u.isSymbol ['\x7b'] with
  | false => rfl
  | true => exact Grammar.holdsSemicolon_alike (w := []) (halike.inside hopens (by decide))

/-- Whether a label of a `switch` statement follows: the end of a block is none. -/
theorem blind_isLabel {condition : List Token → Bool} (hsingle : ∀ t, condition [t] = false)
    (hcons : ∀ t u us, condition (t :: u :: us) =
      (t.isWord "case".toList || (t.isWord "default".toList && u.isSymbol [':']))) : Blind condition := by
  intro s ts ts' halike
  cases halike with
  | @close t t' us us' hclose hbare =>
    obtain ⟨hkind, htext⟩ := Token.bare_eq_iff.mp hbare
    rw [Token.isSymbol, Bool.and_eq_true, beq_iff_eq] at hclose
    have hfalse : ∀ {v : Token} (vs : List Token), v.kind = .symbol → condition (v :: vs) = false := by
      intro v vs hv
      cases vs with
      | nil => exact hsingle v
      | cons w vs => simp [hcons, Token.isWord, hv]
    rw [hfalse us hclose.1, hfalse us' (hkind.trans hclose.1)]
  | @cons _ _ t t' _ _ _ hbare _ _ hrest =>
    obtain ⟨u, us, u', us', rfl, rfl, -, hbare'⟩ := hrest.exists_cons
    obtain ⟨hkind, htext⟩ := Token.bare_eq_iff.mp hbare
    obtain ⟨hkind', htext'⟩ := Token.bare_eq_iff.mp hbare'
    simp only [hcons, Token.isWord, Token.isSymbol, hkind, htext, hkind', htext']

end Pattern

/-! ## Derived patterns -/

namespace Token

@[simp] theorem blind_isSymbol (x : Text) : Blind (·.isSymbol x) := fun _ => rfl

@[simp] theorem blind_isEither (x y : Text) : Blind (fun t => t.isSymbol x || t.isSymbol y) := fun _ => rfl

@[simp] theorem blind_isWord (w : Text) : Blind (·.isWord w) := fun _ => rfl

@[simp] theorem blind_isOneOf (ws : List Text) : Blind (·.isOneOf ws) := fun _ => rfl

@[simp] theorem blind_startsOperand : Blind Grammar.startsOperand := fun _ => rfl

end Token

namespace Pattern

@[simp] theorem isBlindToken_word (w : String) : (word w).IsBlindToken := fun _ => rfl

@[simp] theorem isBlindToken_wordOf (ws : List Text) : (wordOf ws).IsBlindToken := fun _ => rfl

@[simp] theorem isBlindToken_anyName : anyName.IsBlindToken := fun _ => rfl

@[simp] theorem gapless_symbol (s : String) : (symbol s).Gapless := fun _ => rfl

@[simp] theorem gapless_symbolOf (ss : List Text) : (symbolOf ss).Gapless := fun _ => rfl

@[simp] theorem gapless_word (w : String) : (word w).Gapless := fun _ => rfl

@[simp] theorem gapless_wordOf (ws : List Text) : (wordOf ws).Gapless := fun _ => rfl

@[simp] theorem gapless_anyName : anyName.Gapless := fun _ => rfl

@[simp] theorem gapless_nameExcept (ws : List Text) : (nameExcept ws).Gapless := fun _ => rfl

@[simp] theorem gapless_kindOf (ks : List TokenKind) : (kindOf ks).Gapless := fun _ => rfl

@[simp] theorem gapless_nextIs {accepts : Token → Bool} (h : Token.Blind accepts) :
    (nextIs accepts).Gapless := blind_nextIs h

@[simp] theorem gapless_nextIsNot {accepts : Token → Bool} (h : Token.Blind accepts) :
    (nextIsNot accepts).Gapless := (blind_nextIs h).not

@[simp] theorem gapless_row_singleton (p : Pattern Rule) : (row [p]).Gapless ↔ p.Gapless := Iff.rfl

@[simp] theorem gapless_row_cons (p q : Pattern Rule) (ps : List (Pattern Rule)) :
    (row (p :: q :: ps)).Gapless ↔ p.Gapless ∧ (row (q :: ps)).Gapless := Iff.rfl

@[simp] theorem gapless_oneOf_singleton (p : Pattern Rule) : (oneOf [p]).Gapless ↔ p.Gapless := Iff.rfl

@[simp] theorem gapless_oneOf_cons (p q : Pattern Rule) (ps : List (Pattern Rule)) :
    (oneOf (p :: q :: ps)).Gapless ↔ p.Gapless ∧ (oneOf (q :: ps)).Gapless := Iff.rfl

@[simp] theorem gapless_optional (p : Pattern Rule) : (optional p).Gapless ↔ p.Gapless := and_iff_left trivial

@[simp] theorem gapless_sepBy (separator p : Pattern Rule) :
    (sepBy separator p).Gapless ↔ p.Gapless ∧ separator.Gapless := by
  simp only [sepBy, Gapless, and_left_comm, and_self, and_comm]

@[simp] theorem gapless_listOf (p : Pattern Rule) : (listOf p).Gapless ↔ p.Gapless := by
  simp [listOf]

@[simp] theorem gapless_inParens (p : Pattern Rule) : (inParens p).Gapless ↔ p.Gapless := by
  simp [inParens]

@[simp] theorem gapless_inBrackets (p : Pattern Rule) : (inBrackets p).Gapless ↔ p.Gapless := by
  simp [inBrackets]

@[simp] theorem gapless_inBraces (p : Pattern Rule) : (inBraces p).Gapless ↔ p.Gapless := by
  simp [inBraces]

end Pattern

/-! ## The rules of the grammar -/

namespace Grammar

open Pattern

/-! ### Types -/

@[simp] theorem gapless_rank : rank.Gapless := by
  simp [rank]

@[simp] theorem gapless_plainType : plainType.Gapless := by
  simp [plainType, functionPointer, tupleType, qualifiedName, genericName, typeName]

@[simp] theorem gapless_operandMark : operandMark.Gapless := by
  simp [operandMark]

@[simp] theorem gapless_operandType : operandType.Gapless := by
  simp [operandType]

@[simp] theorem gapless_markedOperandType : markedOperandType.Gapless := by
  simp [markedOperandType]

theorem gapless_type : type.Gapless := by
  simp [type]

theorem gapless_typeArguments : typeArguments.Gapless := by
  simp [typeArguments]

theorem gapless_attributes : attributes.Gapless := by
  simp [attributes, qualifiedName, genericName, typeName]

@[simp] theorem gapless_parameter : parameter.Gapless := by
  simp [parameter, initializer]

theorem gapless_parameters : parameters.Gapless := by
  simp [parameters]

@[simp] theorem gapless_typeParameters : typeParameters.Gapless := by
  simp [typeParameters]

@[simp] theorem gapless_constraintClause : constraintClause.Gapless := by
  simp [constraintClause]

/-! ### Expressions -/

@[simp] theorem gapless_declaredArgument : declaredArgument.Gapless := by
  simp [declaredArgument]

@[simp] theorem gapless_markedArgument : markedArgument.Gapless := by
  simp [markedArgument, argumentValue]

theorem gapless_argument : argument.Gapless := by
  simp [argument]

theorem gapless_elements : elements.Gapless := by
  simp [elements]

@[simp] theorem gapless_arguments : arguments.Gapless := by
  simp [arguments]

@[simp] theorem gapless_sizes : sizes.Gapless := by
  simp [sizes]

@[simp] theorem gapless_creation (effect : Bool) : (creation effect).Gapless := by
  simp [creation]

theorem gapless_interpolatedString : interpolatedString.Gapless := by
  simp [interpolatedString]

theorem gapless_keywordCall : keywordCall.Gapless := by
  simp [keywordCall]

theorem gapless_stackArray : stackArray.Gapless := by
  simp [stackArray]

theorem gapless_anonymousMethod : anonymousMethod.Gapless := by
  simp [anonymousMethod]

@[simp] theorem gapless_fixedOperand : fixedOperand.Gapless := by
  simp [fixedOperand, gapless_interpolatedString, gapless_keywordCall, gapless_stackArray, gapless_anonymousMethod]

@[simp] theorem gapless_nameOperand : nameOperand.Gapless := by
  simp [nameOperand, blind_closesTypeArguments]

@[simp] theorem gapless_parenthesis (effect : Bool) : (parenthesis effect).Gapless := by
  simp [parenthesis]

@[simp] theorem gapless_collection (effect : Bool) : (collection effect).Gapless := by
  simp [collection]

theorem gapless_cast : cast.Gapless := by
  have hfollows : (nextIs (fun t => startsOperand t &&
    (t.kind != .symbol || [['('], ['!'], ['~']].contains t.text))).Gapless := blind_nextIs (fun _ => rfl)
  simpa [cast] using hfollows

theorem gapless_operand (effect : Bool) : (operand effect).Gapless := by
  cases effect <;> simp [operand, gapless_cast]

theorem gapless_lambda : lambda.Gapless := by
  have harrow : arrowBody.Gapless := by
    simp only [arrowBody, Gapless, gapless_symbol, closesItself, true_and, and_true]
    exact (blind_holdsSemicolon (fun _ _ => rfl)).not
  simp [lambda, harrow, blind_parensThenArrow]

theorem gapless_query : query.Gapless := by
  simp [query, querySource]

theorem gapless_binding : binding.Gapless := by
  simp [binding]

theorem gapless_shape : shape.Gapless := by
  simp [shape, simpleShape]

/-! ### Statements -/

theorem gapless_block : block.Gapless := by
  simp [block]

theorem gapless_tupleNames : tupleNames.Gapless := by
  simp [tupleNames]

theorem gapless_variableList : variableList.Gapless := by
  simp [variableList, value]

theorem gapless_functionBody : functionBody.Gapless := by
  simp [functionBody, value]

theorem gapless_condition : condition.Gapless := by
  simp [condition]

theorem gapless_switchBody : switchBody.Gapless := by
  have hstart : (either (either
      (row [word "case", rule .shape, optional (both (word "when") value), symbol ":"])
      (row [word "case", value, symbol ":"])) (both (word "default") (symbol ":"))).Gapless := by simp [value]
  exact (gapless_inBraces _).mpr ⟨hstart, (blind_isLabel (fun _ => rfl) (fun _ _ _ => rfl)).not, rfl⟩

theorem gapless_keywordStatements : ∀ p ∈ keywordStatements, p.Gapless := by
  simp [keywordStatements, value, ifWord, forHeader, foreachHeader, tryStatement, gapless_switchBody]

theorem gapless_plainStatements : ∀ p ∈ [labeled, localFunction, localVariables, effect], p.Gapless := by
  simp [labeled, localFunction, localVariables, effect, modifiers, plainStart]

/-! ### Patterns that ask for gaps -/

theorem startsBehind_greater : (symbol ">").StartsBehind ['>'] := by
  intro t ht
  change t.isSymbol ['>'] = true at ht
  simp [Token.sticksTo, ht]

theorem startsBehind_greaterEqual : (symbol ">=").StartsBehind ['>'] := by
  intro t ht
  change t.isSymbol ['>', '='] = true at ht
  simp [Token.sticksTo, ht]

theorem startsBehind_bracket (p : Pattern Rule) : (inBrackets p).StartsBehind ['?'] := by
  intro t ht
  change t.isSymbol ['['] = true at ht
  simp [Token.sticksTo, ht]

theorem endsIn_symbol (s : String) : (symbol s).EndsIn s.toList := fun _ ht => ht

variable {p q : Pattern Rule} {x : Option Text} {y : Text}

theorem steady_both (hp : p.Steady x) (hq : q.Steady none) : (both p q).Steady x := Or.inr (Or.inr ⟨hp, Or.inl hq⟩)

theorem steady_behind (hp : p.Steady x) (hends : p.EndsIn y) (hq : q.Steady (some y)) : (both p q).Steady x :=
  Or.inr (Or.inr ⟨hp, Or.inr ⟨y, hends, hq⟩⟩)

theorem steady_tight (hstarts : q.StartsBehind y) (hq : q.Steady none) :
    (both (nextIs Token.isTight) q).Steady (some y) := Or.inr (Or.inl ⟨rfl, ⟨y, rfl, hstarts⟩, hq⟩)

theorem steady_assignment : assignment.Steady none := by
  have hgreater : (symbol ">").Steady none := (gapless_symbol _).steady none
  have hequal : (both (nextIs Token.isTight) (symbol ">=")).Steady (some ['>']) :=
    steady_tight startsBehind_greaterEqual ((gapless_symbol _).steady none)
  refine ⟨(gapless_symbolOf _).steady none, steady_behind hgreater (endsIn_symbol ">") ⟨hequal, ?_⟩⟩
  exact steady_behind (steady_tight startsBehind_greater hgreater) (endsIn_symbol ">") hequal

theorem steady_binary : binary.Steady none := by
  have hgreater : (symbol ">").Steady none := (gapless_symbol _).steady none
  have hthird : (optional (both (nextIs Token.isTight) (symbol ">"))).Steady (some ['>']) :=
    ⟨steady_tight startsBehind_greater hgreater, trivial⟩
  refine ⟨steady_behind hgreater (endsIn_symbol ">") ?_, (gapless_symbolOf _).steady none⟩
  exact steady_tight startsBehind_greater (steady_behind hgreater (endsIn_symbol ">") hthird)

theorem steady_oneOf {ps : List (Pattern Rule)} (hne : ps ≠ []) (h : ∀ p ∈ ps, p.Steady x) : (oneOf ps).Steady x := by
  induction ps with
  | nil => exact absurd rfl hne
  | cons p ps ih =>
    rw [List.forall_mem_cons] at h
    cases ps with
    | nil => exact h.1
    | cons q ps => exact ⟨h.1, ih (List.cons_ne_nil q ps) h.2⟩

theorem steady_suffixes (effect assignable complete : Bool) : (suffixes effect assignable complete).Steady none := by
  have hmember : (both anyName (optional (both (rule .typeArguments) (when closesTypeArguments)))).Gapless := by
    simp [blind_closesTypeArguments]
  have hindices : (inBrackets (listOf (rule .argument))).Gapless := by simp
  have hnull : (row [symbol "?", either (both (symbol ".")
      (both anyName (optional (both (rule .typeArguments) (when closesTypeArguments)))))
      (both (nextIs Token.isTight) (inBrackets (listOf (rule .argument)))),
      rule (.suffixes effect false false)]).Steady none := by
    refine steady_behind ((gapless_symbol _).steady none) (endsIn_symbol "?") (steady_both ⟨?_, ?_⟩ rfl)
    · exact Gapless.steady (p := .both _ _) ⟨gapless_symbol _, hmember⟩ _
    · exact steady_tight (startsBehind_bracket _) (hindices.steady none)
  refine steady_oneOf (by simp) (fun p hp => ?_)
  simp only [List.mem_append, List.mem_cons, List.not_mem_nil, or_false] at hp
  rcases hp with ((rfl | rfl | rfl | rfl | rfl) | hp) | hp
  · exact Gapless.steady (by simp [blind_closesTypeArguments]) none
  · exact Gapless.steady (by simp) none
  · exact Gapless.steady (by simp) none
  · exact Gapless.steady (by simp) none
  · exact hnull
  · split at hp
    · cases List.mem_singleton.mp hp
      exact steady_both steady_assignment rfl
    · cases hp
  · split at hp
    · cases hp
    · cases List.mem_singleton.mp hp
      trivial

theorem steady_continuation (arrow : Bool) : (continuation arrow).Steady none := by
  refine ⟨steady_both steady_binary rfl, ?_⟩
  have hothers : (oneOf [
      row [symbol "?", rule (.expression arrow), symbol ":", rule (.expression arrow)],
      both (word "is") (rule .shape),
      both (word "as") operandType,
      both (symbol "..") (optional (rule (.operand false))),
      both (word "switch") (inBraces (optional (both (sepBy (symbol ",") switchArm) (optional (symbol ","))))),
      both (word "with") (rule .elements)]).Gapless := by simp [switchArm]
  exact hothers.steady none

theorem steady_expression (arrow : Bool) : (expression arrow).Steady none := by
  have hflat : (both (rule (.operand false)) (many (continuation arrow))).Steady none :=
    steady_both rfl (steady_continuation arrow)
  have hquery : (row [word "from", querySource, rule .query]).Gapless := by simp [querySource]
  refine steady_oneOf (by simp) (fun p hp => ?_)
  simp only [List.mem_append, List.mem_cons, List.not_mem_nil, or_false] at hp
  rcases hp with hp | rfl | rfl
  · split at hp
    · cases List.mem_singleton.mp hp
      exact gapless_lambda.steady none
    · cases hp
  · exact hquery.steady none
  · exact hflat

theorem refuses_directive (name : String) : (directive name).Refuses := by
  intro t ht
  rw [Bool.and_eq_true] at ht
  simp [Token.isPlain, eq_of_beq ht.1]

theorem steady_statementBranch : (branch (.rule .statement) (.rule .statementBranch)).Steady none :=
  ⟨Or.inl (refuses_directive "else"), Or.inl (refuses_directive "elif")⟩

theorem steady_statement : statement.Steady none := by
  have hall : (oneOf (keywordStatements ++ [labeled, localFunction, localVariables, effect])).Steady none := by
    refine steady_oneOf (by simp) (fun p hp => ?_)
    rcases List.mem_append.mp hp with hp | hp
    · exact (gapless_keywordStatements p hp).steady none
    · exact (gapless_plainStatements p hp).steady none
  exact ⟨rfl, Or.inl (refuses_directive "if"), hall⟩

end Grammar

theorem steady_grammar {name : Rule} (h : Pattern.closesItself name = true) : (grammar name).Steady none := by
  cases name with
  | type => exact Grammar.gapless_type.steady none
  | typeArguments => exact Grammar.gapless_typeArguments.steady none
  | attributes => exact Grammar.gapless_attributes.steady none
  | parameters => exact Grammar.gapless_parameters.steady none
  | argument => exact Grammar.gapless_argument.steady none
  | expression arrow => exact Grammar.steady_expression arrow
  | operand effect => exact (Grammar.gapless_operand effect).steady none
  | suffixes effect assignable complete => exact Grammar.steady_suffixes effect assignable complete
  | elements => exact Grammar.gapless_elements.steady none
  | shape => exact Grammar.gapless_shape.steady none
  | binding => exact Grammar.gapless_binding.steady none
  | query => exact Grammar.gapless_query.steady none
  | block => exact Grammar.gapless_block.steady none
  | statement => exact Grammar.steady_statement
  | tupleNames => exact Grammar.gapless_tupleNames.steady none
  | variableList => exact Grammar.gapless_variableList.steady none
  | functionBody => exact Grammar.gapless_functionBody.steady none
  | condition => exact Grammar.gapless_condition.steady none
  | statementBranch => exact Grammar.steady_statementBranch
  | member | memberBranch | declaration | topLevel => cases h

/-- A pattern matches the same in lists that are alike. -/
theorem parse_alike {p : Pattern Rule} {s s' z : List Opened} {ts ts' : List Token} (h : Alike (s ++ z) ts ts')
    (hmoves : p.moves = true) (hleads : p.Leads s s') (hsteady : p.Steady none) :
    SameResult p (s' ++ z) (p.parse ts) (p.parse ts') := by
  have hrun : SameResult p (s' ++ z) (Pattern.run grammar (max (p.bound ts) (p.bound ts')) p ts)
      (Pattern.run grammar (max (p.bound ts) (p.bound ts')) p ts') :=
    run_alike_of (fun _ => steady_grammar) h hleads hsteady sameGap_none
  rwa [Pattern.run_eq_parse hmoves (Nat.le_max_left _ _), Pattern.run_eq_parse hmoves (Nat.le_max_right _ _)] at hrun

end CSharpDraft.Fragment
