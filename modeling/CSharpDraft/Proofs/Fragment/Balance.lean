import CSharpDraft.Proofs.Fragment.Match
import CSharpDraft.Proofs.Fragment.Opened

/-!
# Brackets and strings in a block

The brackets and the interpolated strings that are opened in a block are closed in it, each in its own node.

* `Tree.Nests`, `Tree.RowNests` : what the tokens of a tree and of a row of trees do to what is open. Each node closes
  what it opens, the nodes that are laid out stand where no string is the innermost thing open, and a block has its parts
  in braces;
* `Pattern.Leads` : what a pattern does to what is open, read off the pattern;
* `Matches.rowNests` : the trees of a match do what the pattern says, for a grammar whose rules close what they open.
-/

set_option autoImplicit false

namespace CSharpDraft.Fragment

/-! ## Trees -/

namespace Tree

mutual

/-- The tokens of the tree fit behind the brackets and strings `s`, and `s'` are open behind them. -/
def Nests : Tree → List Opened → List Opened → Prop
  | leaf t, s, s' => nest? t.kind t.text s = some s'
  | node kind children, s, s' =>
    s' = s ∧ (kind ≠ .other → Firm s) ∧ (kind = .block → Braced children) ∧ RowNests children [] []

/-- The same for the trees of a row, from left to right. -/
def RowNests : List Tree → List Opened → List Opened → Prop
  | [], s, s' => s' = s
  | c :: cs, s, s' => ∃ between, Nests c s between ∧ RowNests cs between s'

end

theorem rowNests_append {cs ds : List Tree} {s s' : List Opened} :
    RowNests (cs ++ ds) s s' ↔ ∃ between, RowNests cs s between ∧ RowNests ds between s' := by
  induction cs generalizing s with
  | nil => simp [RowNests]
  | cons c cs ih =>
    simp only [List.cons_append, RowNests, ih]
    constructor
    · rintro ⟨m, hc, n, hcs, hds⟩
      exact ⟨n, ⟨m, hc, hcs⟩, hds⟩
    · rintro ⟨n, ⟨m, hc, hcs⟩, hds⟩
      exact ⟨m, hc, n, hcs, hds⟩

theorem rowNests_trivia {cs : List Tree} (h : ∀ c ∈ cs, c.isTrivia = true) {s s' : List Opened} :
    RowNests cs s s' ↔ s' = s := by
  induction cs with
  | nil => rfl
  | cons c cs ih =>
    have hcs := ih (fun d hd => h d (List.mem_cons_of_mem c hd))
    cases c with
    | node kind children => exact absurd (h _ List.mem_cons_self) (by simp [isTrivia])
    | leaf t => simp [RowNests, Nests, nest?_of_isTrivia (h (leaf t) List.mem_cons_self), hcs]

theorem rowNests_dropWhile {row : List Tree} {s s' : List Opened} :
    RowNests (row.dropWhile isTrivia) s s' ↔ RowNests row s s' := by
  conv => rhs; rw [← List.takeWhile_append_dropWhile (p := isTrivia) (l := row), rowNests_append]
  simp only [rowNests_trivia isTrivia_of_mem_takeWhile, exists_eq_left]

theorem rowNests_group {kind : NodeKind} {row : List Tree} {s s' : List Opened} :
    RowNests (group kind row) s s' ↔ Nests (node kind (row.dropWhile isTrivia)) s s' := by
  simp [group, rowNests_append, rowNests_trivia isTrivia_of_mem_takeWhile, RowNests]

/-- A row of trees does the same where more is open around it. -/
theorem RowNests.append {row : List Tree} {s s' z : List Opened} (h : RowNests row s s') (hz : Firm z) :
    RowNests row (s ++ z) (s' ++ z) := by
  induction row generalizing s with
  | nil =>
    cases h
    rfl
  | cons c cs ih =>
    obtain ⟨between, hc, hcs⟩ := h
    refine ⟨between ++ z, ?_, ih hcs⟩
    cases c with
    | leaf t => exact nest?_append hc z
    | node kind children =>
      obtain ⟨rfl, hfirm, hrest⟩ := hc
      exact ⟨rfl, fun hkind => (hfirm hkind).append hz, hrest⟩

end Tree

/-! ## Patterns -/

namespace Pattern

/-- What stands where no string is the innermost thing open, or an expression, whose node is not laid out. -/
def FitsBehind (s : List Opened) (name : Rule) : Prop := Firm s ∨ ∃ arrow, name = .expression arrow

@[simp] theorem fitsBehind_nil (name : Rule) : FitsBehind [] name := Or.inl firm_nil

@[simp] theorem fitsBehind_bracket (s : List Opened) (name : Rule) : FitsBehind (.bracket :: s) name :=
  Or.inl (firm_bracket s)

@[simp] theorem fitsBehind_expression (s : List Opened) (arrow : Bool) : FitsBehind s (.expression arrow) :=
  Or.inr ⟨arrow, rfl⟩

/-- The rules that close what they open: those below the members of a type. -/
@[simp] def closesItself : Rule → Bool
  | .member | .memberBranch | .declaration | .topLevel => false
  | _ => true

/-- Behind what the pattern takes, `s'` are open if `s` were open in front of it. -/
@[simp] def Leads : Pattern Rule → List Opened → List Opened → Prop
  | nothing, s, s' => s' = s
  | token accepts, s, s' => ∀ t, accepts t = true → nest? t.kind t.text s = some s'
  | rule name, s, s' => s' = s ∧ closesItself name = true ∧ FitsBehind s name
  | both p q, s, s' => ∃ between, p.Leads s between ∧ q.Leads between s'
  | either p q, s, s' => p.Leads s s' ∧ q.Leads s s'
  | many p, s, s' => s' = s ∧ p.Leads s s
  | when _, s, s' => s' = s
  | ahead _, s, s' => s' = s
  | node kind p, s, s' => s' = s ∧ (kind ≠ .other → Firm s) ∧ (kind = .block → p = blockBody) ∧ p.Leads [] []

variable {s s' : List Opened}

@[simp] theorem leads_symbol (x : String) : (symbol x).Leads s s' ↔ nestSymbol? x.toList s = some s' := by
  simp only [symbol, Leads, Token.isSymbol, Bool.and_eq_true, beq_iff_eq]
  constructor
  · intro h
    exact h ⟨.symbol, [], x.toList⟩ ⟨rfl, rfl⟩
  · rintro h t ⟨hkind, htext⟩
    rw [hkind, htext]
    exact h

@[simp] theorem leads_symbolOf (xs : List Text) :
    (symbolOf xs).Leads s s' ↔ ∀ x ∈ xs, nestSymbol? x s = some s' := by
  simp only [symbolOf, Leads, Bool.and_eq_true, beq_iff_eq, List.contains_iff_mem]
  constructor
  · intro h x hx
    exact h ⟨.symbol, [], x⟩ ⟨rfl, hx⟩
  · rintro h t ⟨hkind, htext⟩
    rw [hkind]
    exact h t.text htext

@[simp] theorem leads_word (w : String) : (word w).Leads s s' ↔ s' = s := by
  simp only [word, Leads, Token.isWord, Bool.and_eq_true, beq_iff_eq]
  constructor
  · intro h
    exact (Option.some.inj (h ⟨.word, [], w.toList⟩ ⟨rfl, rfl⟩)).symm
  · rintro rfl t ⟨hkind, -⟩
    rw [hkind]
    rfl

theorem leads_wordOf {ws : List Text} (hws : ws ≠ []) : (wordOf ws).Leads s s' ↔ s' = s := by
  simp only [wordOf, Leads, Token.isOneOf, Bool.and_eq_true, beq_iff_eq]
  constructor
  · intro h
    obtain ⟨w, hw⟩ := List.exists_mem_of_ne_nil ws hws
    exact (Option.some.inj (h ⟨.word, [], w⟩ ⟨rfl, List.contains_iff_mem.mpr hw⟩)).symm
  · rintro rfl t ⟨hkind, -⟩
    rw [hkind]
    rfl

@[simp] theorem leads_anyName : anyName.Leads s s' ↔ s' = s := by
  simp only [anyName, Leads, Bool.or_eq_true, beq_iff_eq]
  constructor
  · intro h
    exact (Option.some.inj (h ⟨.word, [], []⟩ (Or.inl rfl))).symm
  · rintro rfl t (hkind | hkind) <;> rw [hkind] <;> rfl

@[simp] theorem leads_nameExcept (ws : List Text) : (nameExcept ws).Leads s s' ↔ s' = s := by
  simp only [nameExcept, Leads, Bool.or_eq_true, Bool.and_eq_true, beq_iff_eq]
  constructor
  · intro h
    exact (Option.some.inj (h ⟨.escapedWord, [], []⟩ (Or.inl rfl))).symm
  · rintro rfl t (hkind | ⟨hkind, -⟩) <;> rw [hkind] <;> rfl

@[simp] theorem leads_kindOf (ks : List TokenKind) :
    (kindOf ks).Leads s s' ↔ ∀ k ∈ ks, ∀ x, nest? k x s = some s' := by
  simp only [kindOf, Leads, List.contains_iff_mem]
  constructor
  · intro h k hk x
    exact h ⟨k, [], x⟩ hk
  · intro h t ht
    exact h t.kind ht t.text

@[simp] theorem nestSymbol?_neutral {x : Text} (h : (openingBrackets ++ closingBrackets).contains x = false) :
    nestSymbol? x s = some s := by
  rw [List.contains_eq_any_beq, List.any_append, Bool.or_eq_false_iff, ← List.contains_eq_any_beq,
    ← List.contains_eq_any_beq] at h
  unfold nestSymbol?
  rw [h.1, h.2]
  rfl

@[simp] theorem nestSymbol?_opening {x : Text} (h : openingBrackets.contains x = true) :
    nestSymbol? x s = some (.bracket :: s) := by
  unfold nestSymbol?
  rw [if_pos h]

@[simp] theorem nestSymbol?_closing {x : Text} (h : closingBrackets.contains x = true)
    (hopens : openingBrackets.contains x = false) : nestSymbol? x s = some s' ↔ s = .bracket :: s' := by
  unfold nestSymbol?
  rw [hopens, if_neg Bool.false_ne_true, if_pos h]
  split
  · simp
  · next hs => simpa using fun h => hs s' h

@[simp] theorem leads_row_singleton (p : Pattern Rule) : (row [p]).Leads s s' ↔ p.Leads s s' := Iff.rfl

@[simp] theorem leads_row_cons (p q : Pattern Rule) (ps : List (Pattern Rule)) :
    (row (p :: q :: ps)).Leads s s' ↔ ∃ between, p.Leads s between ∧ (row (q :: ps)).Leads between s' := Iff.rfl

@[simp] theorem leads_oneOf_singleton (p : Pattern Rule) : (oneOf [p]).Leads s s' ↔ p.Leads s s' := Iff.rfl

@[simp] theorem leads_oneOf_cons (p q : Pattern Rule) (ps : List (Pattern Rule)) :
    (oneOf (p :: q :: ps)).Leads s s' ↔ p.Leads s s' ∧ (oneOf (q :: ps)).Leads s s' := Iff.rfl

theorem leads_oneOf {ps : List (Pattern Rule)} (h : ∀ p ∈ ps, p.Leads s s) : (oneOf ps).Leads s s := by
  induction ps with
  | nil => rfl
  | cons p ps ih =>
    have hps := ih (fun q hq => h q (List.mem_cons_of_mem p hq))
    cases ps with
    | nil => exact h p List.mem_cons_self
    | cons q ps => exact ⟨h p List.mem_cons_self, hps⟩

@[simp] theorem leads_optional (p : Pattern Rule) : (optional p).Leads s s' ↔ s' = s ∧ p.Leads s s := by
  simp only [optional, Leads]
  constructor
  · rintro ⟨hp, rfl⟩
    exact ⟨rfl, hp⟩
  · rintro ⟨rfl, hp⟩
    exact ⟨hp, rfl⟩

@[simp] theorem leads_sepBy (separator p : Pattern Rule) :
    (sepBy separator p).Leads s s' ↔ p.Leads s s' ∧ ∃ between, separator.Leads s' between ∧ p.Leads between s' := by
  simp only [sepBy, Leads]
  constructor
  · rintro ⟨m, hp, rfl, hmany⟩
    exact ⟨hp, hmany⟩
  · rintro ⟨hp, hmany⟩
    exact ⟨s', hp, rfl, hmany⟩

@[simp] theorem leads_listOf (p : Pattern Rule) : (listOf p).Leads s s' ↔ s' = s ∧ p.Leads s s := by
  simp +contextual (disch := decide) [listOf]

@[simp] theorem leads_inParens (p : Pattern Rule) :
    (inParens p).Leads s s' ↔ p.Leads (.bracket :: s) (.bracket :: s') := by
  simp (disch := decide) [inParens]

@[simp] theorem leads_inBrackets (p : Pattern Rule) :
    (inBrackets p).Leads s s' ↔ p.Leads (.bracket :: s) (.bracket :: s') := by
  simp (disch := decide) [inBrackets]

@[simp] theorem leads_inBraces (p : Pattern Rule) :
    (inBraces p).Leads s s' ↔ p.Leads (.bracket :: s) (.bracket :: s') := by
  simp (disch := decide) [inBraces]

@[simp] theorem leads_nextIs (accepts : Token → Bool) : (nextIs accepts).Leads s s' ↔ s' = s := Iff.rfl

@[simp] theorem leads_nextIsNot (accepts : Token → Bool) : (nextIsNot accepts).Leads s s' ↔ s' = s := Iff.rfl

end Pattern

/-! ## The rules of the grammar -/

namespace Grammar

open Pattern

theorem leads_directive {name : String} (h : name.toList.filter (fun c => c.isAlpha) = name.toList)
    {s s' : List Opened} : (directive name).Leads s s' ↔ s' = s := by
  simp only [directive, Leads, Bool.and_eq_true, beq_iff_eq]
  constructor
  · intro hall
    exact (Option.some.inj (hall ⟨.conditional, [], name.toList⟩ ⟨rfl, h⟩)).symm
  · rintro rfl t ⟨hkind, -⟩
    rw [hkind]
    rfl

/-! ### Types -/

theorem leads_rank {s s' : List Opened} : rank.Leads s s' ↔ s' = s := by
  simp (disch := decide) [rank, eq_comm]

theorem leads_plainType {s' : List Opened} : plainType.Leads [] s' ↔ s' = [] := by
  simp +contextual (disch := decide) [plainType, functionPointer, tupleType, qualifiedName, genericName, typeName,
    leads_wordOf]

theorem leads_operandType {s' : List Opened} : operandType.Leads [] s' ↔ s' = [] := by
  simp (disch := decide) [operandType, operandMark, leads_plainType, leads_rank]

theorem leads_markedOperandType : markedOperandType.Leads [] [] := by
  simp (disch := decide) [markedOperandType, operandMark, leads_plainType, leads_rank]

theorem leads_type : type.Leads [] [] := by
  simp (disch := decide) [type, leads_plainType, leads_rank]

theorem leads_typeArguments : typeArguments.Leads [] [] := by
  simp (disch := decide) [typeArguments]

theorem leads_attributes : attributes.Leads [] [] := by
  simp (disch := decide) [attributes, qualifiedName, genericName, typeName]

theorem leads_parameters : parameters.Leads [] [] := by
  simp (disch := decide) [parameters, parameter, initializer, leads_wordOf]

/-! ### Expressions -/

theorem leads_argument : argument.Leads [] [] := by
  simp (disch := decide) [argument, markedArgument, argumentValue, declaredArgument, leads_wordOf]

theorem leads_elements : elements.Leads [] [] := by
  simp (disch := decide) [elements]

theorem leads_arguments {s' : List Opened} : arguments.Leads [] s' ↔ s' = [] := by
  simp [arguments]

theorem leads_sizes {s' : List Opened} : sizes.Leads [] s' ↔ s' = [] := by
  simp (disch := decide) [sizes, eq_comm]

theorem leads_creation (effect : Bool) : (creation effect).Leads [] [] := by
  simp (disch := decide) [creation, leads_plainType, leads_rank, leads_arguments, leads_sizes]

theorem leads_interpolatedString {s' : List Opened} : interpolatedString.Leads [] s' ↔ s' = [] := by
  simp (disch := decide) [interpolatedString, nest?]

theorem leads_keywordCall {s' : List Opened} : keywordCall.Leads [] s' ↔ s' = [] := by
  simp (disch := decide) [keywordCall, leads_wordOf]

theorem leads_stackArray {s' : List Opened} : stackArray.Leads [] s' ↔ s' = [] := by
  simp +contextual (disch := decide) [stackArray, leads_plainType, leads_sizes]

theorem leads_anonymousMethod {s' : List Opened} : anonymousMethod.Leads [] s' ↔ s' = [] := by
  simp (disch := decide) [anonymousMethod, leads_wordOf]

theorem leads_fixedOperand {s' : List Opened} : fixedOperand.Leads [] s' ↔ s' = [] := by
  simp (disch := decide) [fixedOperand, leads_interpolatedString, leads_keywordCall, leads_stackArray,
    leads_anonymousMethod, leads_wordOf, nest?]

theorem leads_parenthesis (effect : Bool) : (parenthesis effect).Leads [] [] := by
  simp (disch := decide) [parenthesis, and_assoc, markedArgument, argumentValue, declaredArgument, leads_wordOf]

theorem leads_collection (effect : Bool) : (collection effect).Leads [] [] := by
  simp (disch := decide) [collection]

theorem leads_cast : cast.Leads [] [] := by
  simp (disch := decide) [cast, leads_rank, leads_wordOf]

theorem leads_operand (effect : Bool) : (operand effect).Leads [] [] := by
  cases effect <;>
  simp (disch := decide) [operand, unarySymbols, leads_creation, nameOperand, leads_parenthesis, leads_collection,
    leads_fixedOperand, leads_cast]

theorem leads_suffixes (effect assignable complete : Bool) : (suffixes effect assignable complete).Leads [] [] := by
  cases effect <;> cases assignable <;> cases complete <;>
  simp (disch := decide) [suffixes, leads_arguments, assignment]

theorem leads_query : query.Leads [] [] := by
  simp (disch := decide) [query, querySource, leads_wordOf]

theorem leads_binding : binding.Leads [] [] := by
  simp (disch := decide) [binding]

theorem leads_shape : shape.Leads [] [] := by
  simp (disch := decide) [shape, and_assoc, simpleShape, leads_operandType, leads_markedOperandType, leads_wordOf]

theorem leads_lambda : lambda.Leads [] [] := by
  simp (disch := decide) [lambda, arrowBody, leads_wordOf]

theorem leads_continuation (arrow : Bool) : (continuation arrow).Leads [] [] := by
  simp (disch := decide) [continuation, binary, switchArm, leads_operandType]

theorem leads_expression (arrow : Bool) (s : List Opened) : (expression arrow).Leads s s := by
  cases arrow <;> simp [expression, leads_lambda, querySource, leads_continuation]

/-! ### Statements -/

theorem leads_block : block.Leads [] [] := by
  simp [block, blockBody]

theorem leads_tupleNames : tupleNames.Leads [] [] := by
  simp (disch := decide) [tupleNames]

theorem leads_variableList : variableList.Leads [] [] := by
  simp (disch := decide) [variableList, value]

theorem leads_functionBody : functionBody.Leads [] [] := by
  simp (disch := decide) [functionBody, value]

theorem leads_condition : condition.Leads [] [] := by
  simp (disch := decide) [condition, nest?]

theorem leads_statementBranch : (branch (.rule .statement) (.rule .statementBranch)).Leads [] [] := by
  simp (disch := decide) [branch, leads_directive, startsLine]

theorem leads_tryStatement : tryStatement.Leads [] [] := by
  simp [tryStatement, value, ifWord]

theorem leads_switchBody {s' : List Opened} : switchBody.Leads [] s' ↔ s' = [] := by
  simp (disch := decide) [switchBody, value, and_assoc]

theorem leads_forHeader {s' : List Opened} : forHeader.Leads [] s' ↔ s' = [] := by
  simp (disch := decide) [forHeader, value, eq_comm]

theorem leads_foreachHeader {s' : List Opened} : foreachHeader.Leads [] s' ↔ s' = [] := by
  simp +contextual (disch := decide) [foreachHeader, value]

theorem leads_keywordStatements : ∀ p ∈ keywordStatements, p.Leads [] [] := by
  simp (disch := decide) [keywordStatements, value, ifWord, leads_forHeader, leads_foreachHeader, leads_tryStatement,
    leads_switchBody, leads_wordOf]

theorem leads_modifiers {s s' : List Opened} : modifiers.Leads s s' ↔ s' = s := by
  have hwords : Rule.modifierWords ≠ [] := by decide +kernel
  simp [modifiers, leads_wordOf hwords]

theorem leads_localFunction : localFunction.Leads [] [] := by
  simp (disch := decide) [localFunction, leads_modifiers, plainStart, typeParameters, constraintClause, leads_wordOf]

theorem leads_plainStatements : ∀ p ∈ [labeled, localFunction, localVariables, effect], p.Leads [] [] := by
  simp (disch := decide) [labeled, leads_localFunction, localVariables, effect, leads_modifiers, plainStart]

theorem leads_statement : statement.Leads [] [] := by
  have hall : (oneOf (keywordStatements ++ [labeled, localFunction, localVariables, effect])).Leads [] [] := by
    refine leads_oneOf (fun p hp => ?_)
    rcases List.mem_append.mp hp with hp | hp
    · exact leads_keywordStatements p hp
    · exact leads_plainStatements p hp
  simp (disch := decide) [statement, conditional, leads_directive, startsLine, hall]

end Grammar

theorem leads_grammar {name : Rule} (h : Pattern.closesItself name = true) : (grammar name).Leads [] [] := by
  cases name with
  | type => exact Grammar.leads_type
  | typeArguments => exact Grammar.leads_typeArguments
  | attributes => exact Grammar.leads_attributes
  | parameters => exact Grammar.leads_parameters
  | argument => exact Grammar.leads_argument
  | expression arrow => exact Grammar.leads_expression arrow []
  | operand effect => exact Grammar.leads_operand effect
  | suffixes effect assignable complete => exact Grammar.leads_suffixes effect assignable complete
  | elements => exact Grammar.leads_elements
  | shape => exact Grammar.leads_shape
  | binding => exact Grammar.leads_binding
  | query => exact Grammar.leads_query
  | block => exact Grammar.leads_block
  | statement => exact Grammar.leads_statement
  | tupleNames => exact Grammar.leads_tupleNames
  | variableList => exact Grammar.leads_variableList
  | functionBody => exact Grammar.leads_functionBody
  | condition => exact Grammar.leads_condition
  | statementBranch => exact Grammar.leads_statementBranch
  | member | memberBranch | declaration | topLevel => cases h

/-! ## The parts of a block -/

/-- The pattern takes whole nodes only, with the comments in front of them. -/
def Pattern.givesParts : Pattern Rule → Bool
  | token _ => false
  | rule name => name == .block || name == .statement
  | both p q => p.givesParts && q.givesParts
  | either p q => p.givesParts && q.givesParts
  | many p => p.givesParts
  | _ => true

theorem givesParts_grammar {name : Rule} (h : (name == .block || name == .statement) = true) :
    (grammar name).givesParts = true := by
  rcases Bool.or_eq_true _ _ ▸ h with h | h <;> rw [eq_of_beq h] <;> rfl

theorem Tree.isPart_of_isTrivia {c : Tree} (h : c.isTrivia = true) : c.isPart = true := by
  cases c with
  | leaf t => exact h
  | node kind children => rfl

theorem Matches.isPart {p : Pattern Rule} {ts rest : List Token} {row : List Tree} (h : Matches grammar p ts row rest)
    (hp : p.givesParts = true) : ∀ c ∈ row, c.isPart = true := by
  induction h with
  | nothing ts => simp
  | token rest htrivia hsolid haccepts => cases hp
  | rule name _ ih => exact ih (givesParts_grammar hp)
  | both _ _ ihp ihq =>
    rw [Pattern.givesParts, Bool.and_eq_true] at hp
    intro c hc
    rcases List.mem_append.mp hc with hc | hc
    · exact ihp hp.1 c hc
    · exact ihq hp.2 c hc
  | first q _ ih =>
    rw [Pattern.givesParts, Bool.and_eq_true] at hp
    exact ih hp.1
  | second p _ ih =>
    rw [Pattern.givesParts, Bool.and_eq_true] at hp
    exact ih hp.2
  | done p ts => simp
  | more _ _ ihp ihmany =>
    intro c hc
    rcases List.mem_append.mp hc with hc | hc
    · exact ihp hp c hc
    · exact ihmany hp c hc
  | when condition ts => simp
  | ahead p ts => simp
  | node kind _ ih =>
    intro c hc
    rcases List.mem_append.mp hc with hc | hc
    · exact Tree.isPart_of_isTrivia (Tree.isTrivia_of_mem_takeWhile c hc)
    · rw [List.mem_singleton.mp hc]
      rfl

theorem Tree.dropWhile_isTrivia_leaves {trivia : List Token} (h : ∀ u ∈ trivia, u.isTrivia = true) (row : List Tree) :
    (trivia.map leaf ++ row).dropWhile isTrivia = row.dropWhile isTrivia := by
  refine List.dropWhile_append_of_pos (fun c hc => ?_)
  obtain ⟨u, hu, rfl⟩ := List.mem_map.mp hc
  exact h u hu

theorem Matches.braced {ts rest : List Token} {row : List Tree} (h : Matches grammar blockBody ts row rest) :
    Tree.Braced (row.dropWhile Tree.isTrivia) := by
  cases h with
  | both hopening h =>
    cases h with
    | @both _ _ _ _ _ parts _ hparts hclosing =>
      cases hopening with
      | @token _ before opening _ hbefore _ hopens =>
        cases hclosing with
        | @token _ after closing _ hafter _ hcloses =>
          refine ⟨opening, closing, parts ++ after.map .leaf, ?_, hopens, hcloses, fun c hc => ?_⟩
          · rw [List.map_append, List.append_assoc, Tree.dropWhile_isTrivia_leaves hbefore, List.map_singleton,
              List.singleton_append, List.dropWhile_cons_of_neg (by simp [Tree.isTrivia, Token.isTrivia_of_isSymbol hopens])]
            simp
          · rcases List.mem_append.mp hc with hc | hc
            · exact hparts.isPart rfl c hc
            · obtain ⟨u, hu, rfl⟩ := List.mem_map.mp hc
              exact hafter u hu

/-! ## Matches -/

theorem Matches.rowNests {p : Pattern Rule} {ts rest : List Token} {row : List Tree} (h : Matches grammar p ts row rest)
    {s s' : List Opened} (hp : p.Leads s s') : Tree.RowNests row s s' := by
  induction h generalizing s s' with
  | nothing ts => exact hp
  | @token accepts trivia t rest htrivia hsolid haccepts =>
    rw [List.map_append, Tree.rowNests_append]
    refine ⟨s, ?_, s', hp t haccepts, rfl⟩
    refine (Tree.rowNests_trivia (fun c hc => ?_)).mpr rfl
    obtain ⟨u, hu, rfl⟩ := List.mem_map.mp hc
    exact htrivia u hu
  | rule name _ ih =>
    obtain ⟨rfl, hcloses, hfits⟩ := hp
    rcases hfits with hfirm | ⟨arrow, rfl⟩
    · exact (ih (leads_grammar hcloses)).append hfirm
    · exact ih (Grammar.leads_expression arrow s')
  | both _ _ ihp ihq =>
    obtain ⟨between, hp, hq⟩ := hp
    exact Tree.rowNests_append.mpr ⟨between, ihp hp, ihq hq⟩
  | first q _ ih => exact ih hp.1
  | second p _ ih => exact ih hp.2
  | done p ts => exact hp.1
  | more _ _ ihp ihmany =>
    obtain ⟨rfl, hp⟩ := hp
    exact Tree.rowNests_append.mpr ⟨_, ihp hp, ihmany ⟨rfl, hp⟩⟩
  | when condition ts => exact hp
  | ahead p ts => exact hp
  | node kind hmatch ih =>
    obtain ⟨rfl, hfirm, hblock, hp⟩ := hp
    refine Tree.rowNests_group.mpr ⟨rfl, hfirm, fun hkind => ?_, Tree.rowNests_dropWhile.mpr (ih hp)⟩
    rw [hblock hkind] at hmatch
    exact hmatch.braced

/-- The block that is laid out closes what it opens. -/
theorem ReadAsBlock.nests {b : Tree} (h : ReadAsBlock b) : b.Nests [] [] := by
  obtain ⟨ts, row, rest, hmatch, rfl⟩ := h
  have hbody : blockBody.Leads [] [] := by simp [blockBody]
  exact ⟨rfl, fun _ => firm_nil, fun _ => hmatch.braced, Tree.rowNests_dropWhile.mpr (hmatch.rowNests hbody)⟩

end CSharpDraft.Fragment
