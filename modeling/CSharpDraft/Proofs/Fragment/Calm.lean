import CSharpDraft.Proofs.Fragment.Nodes

/-!
# Tokens behind which no gap matters

A gap matters behind two symbols only. No statement stands behind one of them, and no part of a block ends with one.

* `Token.isCalm` : the other tokens;
* `Pattern.CalmAfter`, `Pattern.CalmInside` : patterns that end with a calm token, and patterns whose statements stand
  behind calm tokens;
* `Tree.Calm` : what this says about trees (`Matches.rowCalm`);
* `ReadAsBlock.calm` : so it is with the block of a body.
-/

set_option autoImplicit false

namespace CSharpDraft.Fragment

/-! ## Calm tokens -/

/-- A gap behind the token does not matter, whatever follows. -/
def Token.isCalm (t : Token) : Bool := !(t.isSymbol ['>'] || t.isSymbol ['?'])

/-- The last token, if there is one, is calm. -/
def EndsCalm (us : List Token) : Prop := ∀ u ∈ us.getLast?, u.isCalm = true

@[simp] theorem endsCalm_nil : EndsCalm [] := nofun

theorem endsCalm_append_singleton {us : List Token} {u : Token} : EndsCalm (us ++ [u]) ↔ u.isCalm = true := by
  simp [EndsCalm]

theorem EndsCalm.append {us vs : List Token} (hus : EndsCalm us) (hvs : EndsCalm vs) : EndsCalm (us ++ vs) := by
  intro u hu
  rw [List.getLast?_append] at hu
  cases hlast : vs.getLast? with
  | none =>
    rw [hlast] at hu
    exact hus u hu
  | some v =>
    rw [hlast] at hu
    exact hvs u (hlast ▸ hu)

theorem EndsCalm.of_append {us vs : List Token} (h : EndsCalm (us ++ vs)) : EndsCalm vs := by
  intro u hu
  refine h u ?_
  rw [List.getLast?_append, hu]
  rfl

/-- There is a last token, and it is calm. -/
def LastCalm (us : List Token) : Prop := ∃ front t, us = front ++ [t] ∧ t.isCalm = true

theorem LastCalm.endsCalm {us : List Token} (h : LastCalm us) (vs : List Token) : EndsCalm (vs ++ us) := by
  obtain ⟨front, t, rfl, ht⟩ := h
  rw [← List.append_assoc]
  exact endsCalm_append_singleton.mpr ht

theorem lastCalm_singleton {t : Token} (h : t.isCalm = true) : LastCalm [t] := ⟨[], t, rfl, h⟩

theorem isCalm_of_isTrivia {t : Token} (h : t.isTrivia = true) : t.isCalm = true := by
  rcases Bool.or_eq_true _ _ ▸ h with h | h <;> simp [Token.isCalm, Token.isSymbol, eq_of_beq h]

theorem endsCalm_of_isTrivia {us : List Token} (h : ∀ u ∈ us, u.isTrivia = true) : EndsCalm us :=
  fun u hu => isCalm_of_isTrivia (h u (List.mem_of_mem_getLast? hu))

/-! ## Trees -/

namespace Tree

mutual

/-- Each node that is laid out ends with a calm token, as does each part of a block, and each statement and clause stands
behind a calm one. -/
def Calm : Tree → Prop
  | leaf _ => True
  | node kind children => (kind ≠ .other → LastCalm (tokensOf children)) ∧
      (kind = .block → ∀ c ∈ children, LastCalm (tokens c)) ∧ RowCalm children []

/-- The same for the trees of a row behind the tokens `us`. -/
def RowCalm : List Tree → List Token → Prop
  | [], _ => True
  | c :: cs, us => (c.isStatement = true → EndsCalm us) ∧ Calm c ∧ RowCalm cs (us ++ tokens c)

end

theorem rowCalm_append {cs ds : List Tree} {us : List Token} :
    RowCalm (cs ++ ds) us ↔ RowCalm cs us ∧ RowCalm ds (us ++ tokensOf cs) := by
  induction cs generalizing us with
  | nil => simp [RowCalm, tokensOf]
  | cons c cs ih => simp only [List.cons_append, RowCalm, ih, tokensOf, List.append_assoc, and_assoc]

theorem rowCalm_trivia {cs : List Tree} (h : ∀ c ∈ cs, c.isTrivia = true) (us : List Token) : RowCalm cs us := by
  induction cs generalizing us with
  | nil => trivial
  | cons c cs ih =>
    rw [List.forall_mem_cons] at h
    cases c with
    | leaf t => exact ⟨nofun, trivial, ih h.2 _⟩
    | node kind children => cases h.1

theorem rowCalm_leaves (ts us : List Token) : RowCalm (ts.map leaf) us := by
  induction ts generalizing us with
  | nil => trivial
  | cons t ts ih => exact ⟨nofun, trivial, ih _⟩

theorem isTrivia_of_mem_tokensOf {cs : List Tree} (h : ∀ c ∈ cs, c.isTrivia = true) :
    ∀ u ∈ tokensOf cs, u.isTrivia = true := by
  intro u hu
  obtain ⟨c, hc, hu⟩ := mem_tokensOf.mp hu
  have htrivia := h c hc
  cases c with
  | leaf t => rwa [List.mem_singleton.mp hu]
  | node kind children => cases htrivia

theorem RowCalm.of_append {cs : List Tree} {us vs : List Token} (h : RowCalm cs (us ++ vs)) : RowCalm cs vs := by
  induction cs generalizing vs with
  | nil => trivial
  | cons c cs ih =>
    obtain ⟨hc, hcalm, hcs⟩ := h
    rw [List.append_assoc] at hcs
    exact ⟨fun hstatement => (hc hstatement).of_append, hcalm, ih hcs⟩

theorem rowCalm_dropWhile {row : List Tree} (h : RowCalm row []) : RowCalm (row.dropWhile isTrivia) [] := by
  rw [← List.takeWhile_append_dropWhile (p := isTrivia) (l := row), rowCalm_append, List.nil_append] at h
  have hrest := h.2
  rw [← List.append_nil (tokensOf _)] at hrest
  exact hrest.of_append

end Tree

/-! ## Patterns -/

/-- Whether what the rule describes ends with a calm token. -/
def Rule.endsCalm : Rule → Bool
  | block | statement | functionBody | condition => true
  | _ => false

namespace Pattern

/-- Behind a match there is a calm token, if `b` says so of the tokens in front of it. -/
@[simp] def CalmAfter : Pattern Rule → Prop → Prop
  | nothing, b => b
  | token accepts, _ => ∀ t, accepts t = true → t.isCalm = true
  | rule name, _ => name.endsCalm = true
  | both p q, b => q.CalmAfter (p.CalmAfter b)
  | either p q, b => p.CalmAfter b ∧ q.CalmAfter b
  | many p, b => b ∧ p.CalmAfter True
  | when _, b => b
  | ahead _, b => b
  | node _ p, b => p.CalmAfter b

/-- The statements and clauses of a match stand behind calm tokens, if `b` says so of the tokens in front of it, and the
nodes that are laid out end with one. -/
@[simp] def CalmInside : Pattern Rule → Prop → Prop
  | rule name, b => closesItself name = true ∧ (name = .statement → b)
  | both p q, b => p.CalmInside b ∧ q.CalmInside (p.CalmAfter b)
  | either p q, b => p.CalmInside b ∧ q.CalmInside b
  | many p, b => p.CalmInside (b ∧ p.CalmAfter True)
  | node kind p, b => (kind = .statement ∨ kind = .clause → b) ∧ (kind ≠ .other → p.CalmAfter False) ∧
      (kind = .block → p = blockBody) ∧ p.CalmInside True
  | _, _ => True

/-- The pattern makes neither statements nor clauses nor blocks itself. -/
def plainInside : Pattern Rule → Bool
  | rule name => name != .statement && closesItself name
  | both p q => p.plainInside && q.plainInside
  | either p q => p.plainInside && q.plainInside
  | many p => p.plainInside
  | node kind p => kind == .other && p.plainInside
  | _ => true

theorem calmInside_of_plainInside {p : Pattern Rule} (h : p.plainInside = true) (b : Prop) : p.CalmInside b := by
  induction p generalizing b with
  | nothing | token _ | when _ | ahead _ _ => trivial
  | rule name =>
    rw [plainInside, Bool.and_eq_true, bne_iff_ne] at h
    exact ⟨h.2, fun heq => absurd heq h.1⟩
  | both p q ihp ihq =>
    rw [plainInside, Bool.and_eq_true] at h
    exact ⟨ihp h.1 b, ihq h.2 _⟩
  | either p q ihp ihq =>
    rw [plainInside, Bool.and_eq_true] at h
    exact ⟨ihp h.1 b, ihq h.2 b⟩
  | many p ih => exact ih h _
  | node kind p ih =>
    rw [plainInside, Bool.and_eq_true] at h
    cases eq_of_beq h.1
    exact ⟨nofun, fun hne => absurd rfl hne, nofun, ih h.2 True⟩

variable {b : Prop}

@[simp] theorem calmAfter_symbol (s : String) : (symbol s).CalmAfter b ↔ s.toList ≠ ['>'] ∧ s.toList ≠ ['?'] := by
  simp only [symbol, CalmAfter, Token.isCalm, Token.isSymbol, Bool.and_eq_true, beq_iff_eq]
  constructor
  · intro h
    simpa using h ⟨.symbol, [], s.toList⟩ ⟨rfl, rfl⟩
  · rintro ⟨hgreater, hquestion⟩ t ⟨hkind, htext⟩
    simp [hkind, htext, hgreater, hquestion]

theorem calmAfter_of_kind {accepts : Token → Bool} (h : ∀ t, accepts t = true → t.kind ≠ .symbol) :
    (token accepts).CalmAfter b := by
  intro t ht
  simp [Token.isCalm, Token.isSymbol, h t ht]

@[simp] theorem calmAfter_word (w : String) : (word w).CalmAfter b := by
  refine calmAfter_of_kind (fun t ht => ?_)
  rw [Token.isWord, Bool.and_eq_true] at ht
  simp [eq_of_beq ht.1]

@[simp] theorem calmAfter_wordOf (ws : List Text) : (wordOf ws).CalmAfter b := by
  refine calmAfter_of_kind (fun t ht => ?_)
  rw [Token.isOneOf, Bool.and_eq_true] at ht
  simp [eq_of_beq ht.1]

@[simp] theorem calmAfter_kindOf {ks : List TokenKind} (h : ks.contains .symbol = false) :
    (kindOf ks).CalmAfter b := by
  refine calmAfter_of_kind (fun t ht hk => ?_)
  rw [hk] at ht
  rw [h] at ht
  cases ht

@[simp] theorem calmAfter_row_singleton (p : Pattern Rule) : (row [p]).CalmAfter b ↔ p.CalmAfter b := Iff.rfl

@[simp] theorem calmAfter_row_cons (p q : Pattern Rule) (ps : List (Pattern Rule)) :
    (row (p :: q :: ps)).CalmAfter b ↔ (row (q :: ps)).CalmAfter (p.CalmAfter b) := Iff.rfl

@[simp] theorem calmInside_row_singleton (p : Pattern Rule) : (row [p]).CalmInside b ↔ p.CalmInside b := Iff.rfl

@[simp] theorem calmInside_row_cons (p q : Pattern Rule) (ps : List (Pattern Rule)) :
    (row (p :: q :: ps)).CalmInside b ↔ p.CalmInside b ∧ (row (q :: ps)).CalmInside (p.CalmAfter b) := Iff.rfl

@[simp] theorem calmAfter_inParens (p : Pattern Rule) : (inParens p).CalmAfter b := by
  simp [inParens]

@[simp] theorem calmAfter_inBrackets (p : Pattern Rule) : (inBrackets p).CalmAfter b := by
  simp [inBrackets]

@[simp] theorem calmAfter_inBraces (p : Pattern Rule) : (inBraces p).CalmAfter b := by
  simp [inBraces]

@[simp] theorem calmInside_inBraces (p : Pattern Rule) : (inBraces p).CalmInside b ↔ p.CalmInside True := by
  simp (disch := decide) [inBraces, calmInside_of_plainInside]

theorem calm_oneOf {c : Prop} {ps : List (Pattern Rule)} (hne : ps ≠ [])
    (h : ∀ p ∈ ps, p.CalmAfter b ∧ p.CalmInside c) : (oneOf ps).CalmAfter b ∧ (oneOf ps).CalmInside c := by
  induction ps with
  | nil => exact absurd rfl hne
  | cons p ps ih =>
    rw [List.forall_mem_cons] at h
    cases ps with
    | nil => exact h.1
    | cons q ps =>
      have hrest := ih (List.cons_ne_nil q ps) h.2
      exact ⟨⟨h.1.1, hrest.1⟩, h.1.2, hrest.2⟩

end Pattern

namespace Grammar

open Pattern

theorem calm_block (b : Prop) : block.CalmAfter b ∧ block.CalmInside b := by
  simp [block, blockBody, Rule.endsCalm]

theorem calmAfter_functionBody : functionBody.CalmAfter False := by
  simp [functionBody, oneOf, Rule.endsCalm]

theorem calmAfter_condition : condition.CalmAfter False := by
  simp [condition, sepBy]

theorem calm_switchBody (b : Prop) : switchBody.CalmAfter b ∧ switchBody.CalmInside b := by
  simp (disch := decide) [switchBody, Rule.endsCalm, calmInside_of_plainInside]

theorem calm_keywordStatements : ∀ p ∈ keywordStatements, p.CalmAfter False ∧ p.CalmInside True := by
  simp (disch := decide) [keywordStatements, ifWord, tryStatement, nextIs, nextIsNot, Rule.endsCalm, forHeader,
    foreachHeader, calm_switchBody, calmInside_of_plainInside]

theorem calm_plainStatements :
    ∀ p ∈ [labeled, localFunction, localVariables, effect], p.CalmAfter False ∧ p.CalmInside True := by
  simp (disch := decide) [labeled, localFunction, localVariables, effect, Rule.endsCalm, calmInside_of_plainInside]

theorem calmAfter_directive (name : String) (b : Prop) : (directive name).CalmAfter b := by
  refine calmAfter_of_kind (fun t ht => ?_)
  rw [Bool.and_eq_true] at ht
  simp [eq_of_beq ht.1]

theorem calmInside_branch (b : Prop) : (branch (.rule .statement) (.rule .statementBranch)).CalmInside b := by
  simp (disch := decide) [branch, calmAfter_directive, startsLine, Rule.endsCalm, calmInside_of_plainInside]

theorem calm_conditional : (conditional (.rule .statement) (.rule .statementBranch)).CalmAfter False ∧
    (conditional (.rule .statement) (.rule .statementBranch)).CalmInside True := by
  simp (disch := decide) [conditional, calmAfter_directive, startsLine, Rule.endsCalm, calmInside_of_plainInside]

theorem calm_statement : statement.CalmAfter False ∧ statement.CalmInside True := by
  have hall : (oneOf (keywordStatements ++ [labeled, localFunction, localVariables, effect])).CalmAfter False ∧
      (oneOf (keywordStatements ++ [labeled, localFunction, localVariables, effect])).CalmInside True := by
    refine calm_oneOf (by simp) (fun p hp => ?_)
    rcases List.mem_append.mp hp with hp | hp
    · exact calm_keywordStatements p hp
    · exact calm_plainStatements p hp
  exact ⟨⟨rfl, calm_conditional.1, hall.1⟩, ⟨rfl, nofun⟩, calm_conditional.2,
    fun _ => trivial, fun _ => hall.1, nofun, hall.2⟩

end Grammar

theorem calmAfter_grammar {name : Rule} (h : name.endsCalm = true) : (grammar name).CalmAfter False := by
  cases name with
  | block => exact (Grammar.calm_block False).1
  | statement => exact Grammar.calm_statement.1
  | functionBody => exact Grammar.calmAfter_functionBody
  | condition => exact Grammar.calmAfter_condition
  | _ => cases h

theorem calmInside_grammar {name : Rule} (h : Pattern.closesItself name = true) :
    (grammar name).CalmInside (name = .statement) := by
  cases name with
  | block => exact (Grammar.calm_block _).2
  | statement =>
    rw [eq_self]
    exact Grammar.calm_statement.2
  | statementBranch => exact Grammar.calmInside_branch _
  | member | memberBranch | declaration | topLevel => cases h
  | expression arrow => cases arrow <;> exact Pattern.calmInside_of_plainInside rfl _
  | operand effect => cases effect <;> exact Pattern.calmInside_of_plainInside rfl _
  | suffixes effect assignable complete =>
    cases effect <;> cases assignable <;> cases complete <;> exact Pattern.calmInside_of_plainInside rfl _
  | _ => exact Pattern.calmInside_of_plainInside rfl _

/-! ## Matches -/

/-- The last token of such a match is calm and no comment, or there is none and it was known to be calm before. -/
theorem Matches.calmAfter {p : Pattern Rule} {ts rest : List Token} {row : List Tree} (h : Matches grammar p ts row rest)
    {b : Prop} (hp : p.CalmAfter b) :
    (∃ front t, Tree.tokensOf row = front ++ [t] ∧ t.isCalm = true ∧ t.isTrivia = false) ∨
      (Tree.tokensOf row = [] ∧ b) := by
  induction h generalizing b with
  | nothing ts => exact Or.inr ⟨rfl, hp⟩
  | @token accepts trivia t rest htrivia hsolid haccepts =>
    exact Or.inl ⟨trivia, t, Tree.tokensOf_leaves _, hp t haccepts, hsolid⟩
  | rule name _ ih =>
    rcases ih (calmAfter_grammar hp) with hlast | ⟨-, hfalse⟩
    · exact Or.inl hlast
    · exact hfalse.elim
  | both _ _ ihp ihq =>
    rw [Tree.tokensOf_append]
    rcases ihq hp with ⟨front, t, hback, ht⟩ | ⟨hback, hp⟩
    · exact Or.inl ⟨_, t, by rw [hback, List.append_assoc], ht⟩
    · rw [hback, List.append_nil]
      exact ihp hp
  | first q _ ih => exact ih hp.1
  | second p _ ih => exact ih hp.2
  | done p ts => exact Or.inr ⟨rfl, hp.1⟩
  | more _ _ ihp ihmany =>
    rw [Tree.tokensOf_append]
    rcases ihmany hp with ⟨front, t, hback, ht⟩ | ⟨hback, hb⟩
    · exact Or.inl ⟨_, t, by rw [hback, List.append_assoc], ht⟩
    · rw [hback, List.append_nil]
      exact (ihp hp.2).imp_right (fun h => ⟨h.1, hb⟩)
  | when condition ts => exact Or.inr ⟨rfl, hp⟩
  | ahead p ts => exact Or.inr ⟨rfl, hp⟩
  | node kind _ ih =>
    rw [Tree.tokensOf_group]
    exact ih hp

theorem Matches.endsCalm {p : Pattern Rule} {ts rest : List Token} {row : List Tree} (h : Matches grammar p ts row rest)
    {b : Prop} (hp : p.CalmAfter b) {us : List Token} (hb : b → EndsCalm us) : EndsCalm (us ++ Tree.tokensOf row) := by
  rcases h.calmAfter hp with ⟨front, t, heq, ht, -⟩ | ⟨heq, h⟩
  · rw [heq]
    exact LastCalm.endsCalm ⟨front, t, rfl, ht⟩ us
  · rw [heq, List.append_nil]
    exact hb h

/-- A match of a statement is a node that is laid out, with comments in front of it. -/
theorem Matches.exists_group {ts rest : List Token} {row : List Tree} (h : Matches grammar (.rule .statement) ts row rest) :
    ∃ kind inner, kind ≠ .other ∧ row = Tree.group kind inner := by
  cases h with
  | rule _ h =>
    cases h with
    | first _ h =>
      cases h with
      | rule _ h =>
        cases h with
        | node _ _ => exact ⟨.block, _, nofun, rfl⟩
    | second _ h =>
      cases h with
      | first _ h =>
        cases h with
        | node _ _ => exact ⟨.conditional, _, nofun, rfl⟩
      | second _ h =>
        cases h with
        | node _ _ => exact ⟨.statement, _, nofun, rfl⟩

namespace Tree

theorem RowCalm.calm {cs : List Tree} {us : List Token} (h : RowCalm cs us) : ∀ c ∈ cs, Calm c := by
  induction cs generalizing us with
  | nil => nofun
  | cons c cs ih =>
    intro d hd
    rcases List.mem_cons.mp hd with rfl | hd
    · exact h.2.1
    · exact ih h.2.2 d hd

theorem lastCalm_of_mem_group {kind : NodeKind} {row : List Tree} (hkind : kind ≠ .other)
    (h : ∀ c ∈ group kind row, Calm c) : ∀ c ∈ group kind row, LastCalm (tokens c) := by
  intro c hc
  have hcalm := h c hc
  rcases List.mem_append.mp hc with hc | hc
  · have htrivia := isTrivia_of_mem_takeWhile c hc
    cases c with
    | leaf t => exact lastCalm_singleton (isCalm_of_isTrivia htrivia)
    | node kind children => cases htrivia
  · rw [List.mem_singleton] at hc
    subst hc
    exact hcalm.1 hkind

end Tree

/-- Each part of a block ends with a calm token. -/
theorem Matches.lastCalm_parts {ts rest : List Token} {row : List Tree}
    (h : Matches grammar (.many (.rule .statement)) ts row rest) (hcalm : ∀ c ∈ row, c.Calm) :
    ∀ c ∈ row, LastCalm c.tokens := by
  generalize hp : Pattern.many (.rule Rule.statement) = p at h
  induction h with
  | done p ts => nofun
  | more hfront _ _ ih =>
    cases hp
    rw [List.forall_mem_append] at hcalm ⊢
    obtain ⟨kind, inner, hkind, rfl⟩ := hfront.exists_group
    exact ⟨Tree.lastCalm_of_mem_group hkind hcalm.1, ih hcalm.2 rfl⟩
  | _ => cases hp

theorem Matches.lastCalm_symbol {x : String} {ts rest : List Token} {row : List Tree}
    (h : Matches grammar (.symbol x) ts row rest) (hx : x.toList ≠ ['>'] ∧ x.toList ≠ ['?']) :
    ∀ c ∈ row, LastCalm c.tokens := by
  cases h with
  | @token _ trivia t _ htrivia _ haccepts =>
    intro c hc
    obtain ⟨u, hu, rfl⟩ := List.mem_map.mp hc
    rcases List.mem_append.mp hu with hu | hu
    · exact lastCalm_singleton (isCalm_of_isTrivia (htrivia u hu))
    · rw [List.mem_singleton.mp hu]
      exact lastCalm_singleton ((Pattern.calmAfter_symbol (b := False) x).mpr hx t haccepts)

theorem Matches.lastCalm_block {ts rest : List Token} {row : List Tree} (h : Matches grammar blockBody ts row rest)
    (hcalm : ∀ c ∈ row, c.Calm) : ∀ c ∈ row, LastCalm c.tokens := by
  cases h with
  | both hopening h =>
    cases h with
    | both hparts hclosing =>
      simp only [List.forall_mem_append] at hcalm ⊢
      exact ⟨hopening.lastCalm_symbol (by decide), hparts.lastCalm_parts hcalm.2.1, hclosing.lastCalm_symbol (by decide)⟩

theorem Matches.calm_node {kind : NodeKind} {p : Pattern Rule} {ts rest : List Token} {row : List Tree}
    (h : Matches grammar p ts row rest) (hends : kind ≠ .other → p.CalmAfter False) (hblock : kind = .block → p = blockBody)
    (hrow : Tree.RowCalm row []) : (Tree.node kind (row.dropWhile Tree.isTrivia)).Calm := by
  refine ⟨fun hkind => ?_, fun hkind c hc => ?_, Tree.rowCalm_dropWhile hrow⟩
  · rcases h.calmAfter (hends hkind) with ⟨front, t, heq, ht, hsolid⟩ | ⟨-, hfalse⟩
    · rw [← List.takeWhile_append_dropWhile (p := Tree.isTrivia) (l := row), Tree.tokensOf_append] at heq
      rcases List.eq_nil_or_concat (Tree.tokensOf (row.dropWhile Tree.isTrivia)) with hnil | ⟨back, u, hback⟩
      · rw [hnil, List.append_nil] at heq
        have hmem : t ∈ Tree.tokensOf (row.takeWhile Tree.isTrivia) := by simp [heq]
        rw [Tree.isTrivia_of_mem_tokensOf Tree.isTrivia_of_mem_takeWhile t hmem] at hsolid
        cases hsolid
      · rw [hback, List.concat_eq_append, ← List.append_assoc] at heq
        obtain ⟨-, hlast⟩ := List.append_inj' heq rfl
        cases hlast
        exact ⟨back, _, by rw [hback, List.concat_eq_append], ht⟩
    · exact hfalse.elim
  · subst hkind
    rw [hblock rfl] at h
    exact h.lastCalm_block hrow.calm c ((List.dropWhile_suffix _).subset hc)

theorem Matches.rowCalm {p : Pattern Rule} {ts rest : List Token} {row : List Tree} (h : Matches grammar p ts row rest)
    {b : Prop} (hp : p.CalmInside b) {us : List Token} (hb : b → EndsCalm us) : Tree.RowCalm row us := by
  induction h generalizing b us with
  | nothing ts => trivial
  | token rest htrivia hsolid haccepts => exact Tree.rowCalm_leaves _ us
  | rule name _ ih => exact ih (calmInside_grammar hp.1) (fun hname => hb (hp.2 hname))
  | both hfront _ ihp ihq =>
    exact Tree.rowCalm_append.mpr ⟨ihp hp.1 hb, ihq hp.2 (fun h => hfront.endsCalm h hb)⟩
  | first q _ ih => exact ih hp.1 hb
  | second p _ ih => exact ih hp.2 hb
  | done p ts => trivial
  | @more p _ _ _ _ _ hfront _ ihp ihmany =>
    have hround : (Pattern.many p).CalmInside (b ∧ p.CalmAfter True) := by
      simpa only [Pattern.CalmInside, and_assoc, and_self] using hp
    exact Tree.rowCalm_append.mpr ⟨ihp hp (fun h => hb h.1),
      ihmany hround (fun h => hfront.endsCalm h.2 (fun _ => hb h.1))⟩
  | when condition ts => trivial
  | ahead p ts => trivial
  | @node kind p _ _ row hmatch ih =>
    obtain ⟨hstatement, hends, hblock, hinner⟩ := hp
    have htrivia : ∀ c ∈ row.takeWhile Tree.isTrivia, c.isTrivia = true := Tree.isTrivia_of_mem_takeWhile
    refine Tree.rowCalm_append.mpr ⟨Tree.rowCalm_trivia htrivia us, fun hkind => ?_, ?_, trivial⟩
    · refine EndsCalm.append (hb (hstatement ?_)) (endsCalm_of_isTrivia (Tree.isTrivia_of_mem_tokensOf htrivia))
      cases kind with
      | statement => exact Or.inl rfl
      | clause => exact Or.inr rfl
      | block | conditional | other => cases hkind
    · exact hmatch.calm_node hends hblock (ih hinner (fun _ => endsCalm_nil))

/-- The block that is laid out is calm. -/
theorem ReadAsBlock.calm {b : Tree} (h : ReadAsBlock b) : b.Calm := by
  obtain ⟨ts, row, rest, hmatch, rfl⟩ := h
  have hblock : blockBody.CalmAfter False ∧ blockBody.CalmInside True := by simp [blockBody, Rule.endsCalm]
  exact hmatch.calm_node (fun _ => hblock.1) (fun _ => rfl) (hmatch.rowCalm hblock.2 (fun _ => endsCalm_nil))

end CSharpDraft.Fragment
