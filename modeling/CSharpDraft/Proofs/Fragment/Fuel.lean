import CSharpDraft.Proofs.Fragment.Nodes

/-!
# The steps of a match

`Pattern.run` may take so many steps for each token that no match needs more. So what it gives is that of any larger
number of steps, and the number can be left out of further statements.

* `Pattern.steps` : the most steps of a pattern up to the next token, read off the pattern;
* `Pattern.moves` : patterns that come to the next token;
* `run_congr` : two runs agree where the steps are enough for both;
* `Pattern.parse`, with an equation for each kind of pattern : what a run with enough steps gives.
-/

set_option autoImplicit false

namespace CSharpDraft.Fragment

/-! ## Steps up to the next token -/

/-- A bound for the steps of a rule up to the next token. -/
def Rule.steps : Rule → Nat
  | variableList | functionBody | declaration => 20
  | operand _ => 40
  | expression _ => 50
  | argument | shape | member => 60
  | statement => 80
  | topLevel => 90
  | _ => 15

namespace Pattern

/-- The most steps of a pattern before it takes a token. -/
def steps : Pattern Rule → Nat
  | nothing | token _ | when _ => 1
  | rule name => name.steps + 1
  | both p q => max p.steps (if p.takes then 0 else q.steps) + 1
  | either p q => max p.steps q.steps + 1
  | many p => p.steps + 1
  | ahead p => p.steps + 1
  | node _ p => p.steps + 1

/-- The steps that are allowed for a token are enough for each part of the pattern, and what is repeated takes a token
each time. -/
def moves : Pattern Rule → Bool
  | both p q => p.moves && q.moves && decide (q.steps ≤ stepsPerToken)
  | either p q => p.moves && q.moves
  | many p => p.moves && p.takes && decide (p.steps < stepsPerToken)
  | ahead p => p.moves
  | node _ p => p.moves
  | _ => true

theorem steps_pos (p : Pattern Rule) : 0 < p.steps := by
  cases p <;> simp [steps]

end Pattern

theorem steps_grammar (name : Rule) : (grammar name).steps ≤ name.steps := by
  cases name with
  | expression arrow => cases arrow <;> decide
  | operand effect => cases effect <;> decide
  | suffixes effect assignable complete => cases effect <;> cases assignable <;> cases complete <;> decide
  | _ => decide

theorem moves_grammar (name : Rule) : (grammar name).moves = true := by
  cases name with
  | expression arrow => cases arrow <;> rfl
  | operand effect => cases effect <;> rfl
  | suffixes effect assignable complete => cases effect <;> cases assignable <;> cases complete <;> rfl
  | _ => rfl

/-! ## Runs with enough steps -/

/-- What a row comes to, from what its first pattern comes to and what follows on the tokens that are left. -/
def followed (next : List Token → Option (List Tree × List Token)) :
    Option (List Tree × List Token) → Option (List Tree × List Token)
  | none => none
  | some (front, rest) => (next rest).map (fun result => (front ++ result.1, result.2))

theorem run_both (fuel : Nat) (p q : Pattern Rule) (ts : List Token) : Pattern.run grammar (fuel + 1) (.both p q) ts =
    followed (Pattern.run grammar fuel q) (Pattern.run grammar fuel p ts) := by
  rw [Pattern.run]
  cases Pattern.run grammar fuel p ts with
  | none => rfl
  | some result =>
    obtain ⟨front, rest⟩ := result
    dsimp only [followed]
    cases Pattern.run grammar fuel q rest <;> rfl

theorem run_many (fuel : Nat) (p : Pattern Rule) (ts : List Token) : Pattern.run grammar (fuel + 1) (.many p) ts =
    if (Pattern.run grammar fuel p ts).isNone then some ([], ts)
    else followed (Pattern.run grammar fuel (.many p)) (Pattern.run grammar fuel p ts) := by
  rw [Pattern.run]
  cases Pattern.run grammar fuel p ts with
  | none => rfl
  | some result =>
    obtain ⟨front, rest⟩ := result
    dsimp only [followed]
    cases Pattern.run grammar fuel (.many p) rest <;> rfl

theorem followed_eq_some {next : List Token → Option (List Tree × List Token)}
    {o : Option (List Tree × List Token)} {row : List Tree} {rest : List Token} :
    followed next o = some (row, rest) ↔
      ∃ front between back, o = some (front, between) ∧ next between = some (back, rest) ∧ row = front ++ back := by
  cases o with
  | none => simp [followed]
  | some result =>
    obtain ⟨front, between⟩ := result
    rw [followed, Option.map_eq_some_iff]
    constructor
    · rintro ⟨⟨back, rest⟩, hnext, heq⟩
      cases heq
      exact ⟨front, between, back, rfl, hnext, rfl⟩
    · rintro ⟨_, _, back, heq, hnext, rfl⟩
      cases heq
      exact ⟨(back, rest), hnext, rfl⟩

theorem Matches.length_le {p : Pattern Rule} {ts rest : List Token} {row : List Tree}
    (h : Matches grammar p ts row rest) : rest.length ≤ ts.length := by
  rw [h.tokens_eq, List.length_append]
  exact Nat.le_add_left _ _

/-- A match that takes a token leaves fewer. -/
theorem Matches.length_lt {p : Pattern Rule} {ts rest : List Token} {row : List Tree}
    (h : Matches grammar p ts row rest) (hp : p.takes = true) : rest.length < ts.length := by
  obtain ⟨t, ht, -⟩ := h.takes hp
  have hpos := List.length_pos_of_mem ht
  rw [h.tokens_eq, List.length_append]
  omega

/-- The steps that are enough for a match at the start of the tokens. -/
def Pattern.bound (p : Pattern Rule) (ts : List Token) : Nat := p.steps + stepsPerToken * ts.length

namespace Pattern

theorem bound_pos (p : Pattern Rule) (ts : List Token) : 0 < p.bound ts :=
  Nat.lt_of_lt_of_le p.steps_pos (Nat.le_add_right _ _)

section Bound

variable (p q : Pattern Rule) (ts : List Token)

theorem bound_rule (name : Rule) : (grammar name).bound ts < (rule name).bound ts :=
  Nat.add_lt_add_right (Nat.lt_succ_of_le (steps_grammar name)) _

theorem bound_both : p.bound ts < (both p q).bound ts :=
  Nat.add_lt_add_right (Nat.lt_succ_of_le (Nat.le_max_left ..)) _

theorem bound_either_left : p.bound ts < (either p q).bound ts :=
  Nat.add_lt_add_right (Nat.lt_succ_of_le (Nat.le_max_left ..)) _

theorem bound_either_right : q.bound ts < (either p q).bound ts :=
  Nat.add_lt_add_right (Nat.lt_succ_of_le (Nat.le_max_right ..)) _

theorem bound_many : p.bound ts < (many p).bound ts := Nat.add_lt_add_right (Nat.lt_succ_self _) _

theorem bound_ahead : p.bound ts < (ahead p).bound ts := Nat.add_lt_add_right (Nat.lt_succ_self _) _

theorem bound_node (kind : NodeKind) : p.bound ts < (node kind p).bound ts := Nat.add_lt_add_right (Nat.lt_succ_self _) _

end Bound

end Pattern

theorem Matches.bound_both {p q : Pattern Rule} {ts rest : List Token} {row : List Tree}
    (h : Matches grammar p ts row rest) (hq : q.steps ≤ stepsPerToken) :
    q.bound rest < (Pattern.both p q).bound ts := by
  have hle := Nat.mul_le_mul_left stepsPerToken h.length_le
  unfold Pattern.bound
  rw [Pattern.steps]
  by_cases htakes : p.takes = true
  · have hlt := Nat.mul_le_mul_left stepsPerToken (h.length_lt htakes)
    rw [Nat.succ_eq_add_one, Nat.mul_add] at hlt
    omega
  · rw [if_neg htakes]
    omega

theorem Matches.bound_many {p : Pattern Rule} {ts rest : List Token} {row : List Tree}
    (h : Matches grammar p ts row rest) (hp : p.takes = true) :
    (Pattern.many p).bound rest < (Pattern.many p).bound ts := by
  have hlt := Nat.mul_le_mul_left stepsPerToken (h.length_lt hp)
  have hpos : 0 < stepsPerToken := by decide
  rw [Nat.succ_eq_add_one, Nat.mul_add] at hlt
  unfold Pattern.bound
  omega

/-- Two runs with enough steps give the same. -/
theorem run_congr {p : Pattern Rule} (hp : p.moves = true) {m n : Nat} {ts : List Token} (hm : p.bound ts ≤ m)
    (hn : p.bound ts ≤ n) : Pattern.run grammar m p ts = Pattern.run grammar n p ts := by
  induction m generalizing p n ts with
  | zero => exact absurd hm (Nat.not_le_of_lt (p.bound_pos ts))
  | succ m ih =>
    obtain ⟨n, rfl⟩ := Nat.exists_eq_succ_of_ne_zero (Nat.ne_of_gt (Nat.lt_of_lt_of_le (p.bound_pos ts) hn))
    cases p with
    | nothing | token accepts | when condition => rfl
    | rule name =>
      have hbound := Pattern.bound_rule ts name
      rw [Pattern.run, Pattern.run]
      exact ih (moves_grammar name) (by omega) (by omega)
    | both p q =>
      simp only [Pattern.moves, Bool.and_eq_true, decide_eq_true_eq] at hp
      have hbound := p.bound_both q ts
      rw [Pattern.run, Pattern.run, ← ih hp.1.1 (by omega) (by omega : p.bound ts ≤ n)]
      cases hfront : Pattern.run grammar m p ts with
      | none => rfl
      | some result =>
        have hrest := (matches_of_run hfront).bound_both hp.2
        simp only [ih hp.1.2 (by omega) (by omega : q.bound result.2 ≤ n)]
    | either p q =>
      simp only [Pattern.moves, Bool.and_eq_true] at hp
      have hfirst := p.bound_either_left q ts
      have hsecond := p.bound_either_right q ts
      rw [Pattern.run, Pattern.run, ih hp.1 (by omega) (by omega : p.bound ts ≤ n),
        ih hp.2 (by omega) (by omega : q.bound ts ≤ n)]
    | many p =>
      simp only [Pattern.moves, Bool.and_eq_true, decide_eq_true_eq] at hp
      have hbound := p.bound_many ts
      rw [Pattern.run, Pattern.run, ← ih hp.1.1 (by omega) (by omega : p.bound ts ≤ n)]
      cases hfront : Pattern.run grammar m p ts with
      | none => rfl
      | some result =>
        have hrest := (matches_of_run hfront).bound_many hp.1.2
        have hmany : (Pattern.many p).moves = true := by simp [Pattern.moves, hp]
        simp only [ih hmany (by omega) (by omega : (Pattern.many p).bound result.2 ≤ n)]
    | ahead p =>
      rw [Pattern.moves] at hp
      have hbound := p.bound_ahead ts
      rw [Pattern.run, Pattern.run, ih hp (by omega) (by omega : p.bound ts ≤ n)]
    | node kind p =>
      rw [Pattern.moves] at hp
      have hbound := p.bound_node ts kind
      rw [Pattern.run, Pattern.run, ih hp (by omega) (by omega : p.bound ts ≤ n)]

/-! ## Parsing without counting steps -/

namespace Pattern

/-- What a run gives that has enough steps. -/
def parse (p : Pattern Rule) (ts : List Token) : Option (List Tree × List Token) := run grammar (p.bound ts) p ts

variable {p q : Pattern Rule} {ts : List Token}

theorem run_eq_parse (hp : p.moves = true) {n : Nat} (hn : p.bound ts ≤ n) : run grammar n p ts = p.parse ts :=
  run_congr hp hn (Nat.le_refl _)

/-- The same for a run with at least one step more. -/
theorem parse_eq_run (hp : p.moves = true) {n : Nat} (hn : p.bound ts ≤ n + 1) :
    p.parse ts = run grammar (n + 1) p ts :=
  (run_eq_parse hp hn).symm

theorem parse_rule (name : Rule) : (rule name).parse ts = (grammar name).parse ts := by
  rw [parse_eq_run rfl (Nat.le_succ _), run, run_eq_parse (moves_grammar name) (Nat.le_of_lt (bound_rule ts name))]

theorem parse_both (h : (both p q).moves = true) : (both p q).parse ts = followed q.parse (p.parse ts) := by
  have hparts := h
  simp only [moves, Bool.and_eq_true, decide_eq_true_eq] at hparts
  rw [parse_eq_run h (Nat.le_succ _), run_both, run_eq_parse hparts.1.1 (Nat.le_of_lt (p.bound_both q ts))]
  cases hfront : p.parse ts with
  | none => rfl
  | some result =>
    have hrest := (matches_of_run hfront).bound_both hparts.2
    rw [followed, followed, run_eq_parse hparts.1.2 (Nat.le_of_lt hrest)]

theorem parse_either (h : (either p q).moves = true) :
    (either p q).parse ts = (p.parse ts).or (q.parse ts) := by
  have hparts := h
  simp only [moves, Bool.and_eq_true] at hparts
  rw [parse_eq_run h (Nat.le_succ _), run, run_eq_parse hparts.1 (Nat.le_of_lt (p.bound_either_left q ts)),
    run_eq_parse hparts.2 (Nat.le_of_lt (p.bound_either_right q ts))]
  cases p.parse ts <;> rfl

theorem parse_many (h : (many p).moves = true) : (many p).parse ts =
    if (p.parse ts).isNone then some ([], ts) else followed (many p).parse (p.parse ts) := by
  have hparts := h
  simp only [moves, Bool.and_eq_true, decide_eq_true_eq] at hparts
  rw [parse_eq_run h (Nat.le_succ _), run_many, run_eq_parse hparts.1.1 (Nat.le_of_lt (p.bound_many ts))]
  cases hfront : p.parse ts with
  | none => rfl
  | some result =>
    have hrest := (matches_of_run hfront).bound_many hparts.1.2
    rw [followed, followed, run_eq_parse h (Nat.le_of_lt hrest)]

theorem parse_node (kind : NodeKind) (h : p.moves = true) :
    (node kind p).parse ts = match p.parse ts with
      | some (row, rest) => some (Tree.group kind row, rest)
      | none => none := by
  have hrun : (node kind p).parse ts = run grammar ((node kind p).bound ts + 1) (node kind p) ts :=
    parse_eq_run (p := .node kind p) h (Nat.le_succ _)
  rw [run, run_eq_parse h (Nat.le_of_lt (p.bound_node ts kind))] at hrun
  exact hrun

theorem parse_token (accepts : Token → Bool) : (token accepts).parse ts = takeToken accepts ts :=
  parse_eq_run rfl (Nat.le_succ _)

theorem parse_nothing : nothing.parse ts = some ([], ts) := parse_eq_run rfl (Nat.le_succ _)

theorem parse_when (condition : List Token → Bool) :
    (when condition).parse ts = if condition (skipTrivia ts) then some ([], ts) else none :=
  parse_eq_run rfl (Nat.le_succ _)

theorem parse_ahead (h : p.moves = true) :
    (ahead p).parse ts = match p.parse ts with
      | some _ => some ([], ts)
      | none => none := by
  have hrun : (ahead p).parse ts = run grammar ((ahead p).bound ts + 1) (ahead p) ts :=
    parse_eq_run (p := .ahead p) h (Nat.le_succ _)
  rw [run, run_eq_parse h (Nat.le_of_lt (p.bound_ahead ts))] at hrun
  exact hrun

end Pattern

/-! ## The block of a body -/

namespace Pattern

/-- What makes a block that was parsed has parsed it as one. -/
theorem exists_parse_block {n : Nat} {p : Pattern Rule} {ts rest : List Token} {row : List Tree} {b : Tree}
    (hn : p.bound ts ≤ n) (hmoves : p.moves = true) (hp : p.makesNoBlock = true) (h : p.parse ts = some (row, rest))
    (hb : Tree.firstBlockOf? row = some b) :
    ∃ ts row rest, Grammar.block.parse ts = some (row, rest) ∧ Tree.firstBlockOf? row = some b := by
  induction n generalizing p ts rest row with
  | zero => exact absurd hn (Nat.not_le_of_lt (p.bound_pos ts))
  | succ n ih =>
    cases p with
    | nothing | when condition | ahead p =>
      have hrow := (matches_of_run h)
      cases hrow
      cases hb
    | token accepts =>
      cases matches_of_run h with
      | token rest htrivia hsolid haccepts =>
        rw [Tree.firstBlockOf?_leaves] at hb
        cases hb
    | rule name =>
      have hbound := bound_rule ts name
      rw [parse_rule] at h
      by_cases hname : name = .block
      · subst hname
        exact ⟨ts, row, rest, h, hb⟩
      · exact ih (by omega) (moves_grammar name) (makesNoBlock_grammar hname) h hb
    | both p q =>
      have hbound := p.bound_both q ts
      rw [parse_both hmoves] at h
      simp only [moves, makesNoBlock, Bool.and_eq_true, decide_eq_true_eq] at hmoves hp
      obtain ⟨front, between, back, hfront, hback, rfl⟩ := followed_eq_some.mp h
      have hrest := (matches_of_run hfront).bound_both hmoves.2
      rw [Tree.firstBlockOf?_append, Option.or_eq_some_iff] at hb
      rcases hb with hb | ⟨-, hb⟩
      · exact ih (by omega) hmoves.1.1 hp.1 hfront hb
      · exact ih (by omega) hmoves.1.2 hp.2 hback hb
    | either p q =>
      have hfirst := p.bound_either_left q ts
      have hsecond := p.bound_either_right q ts
      rw [parse_either hmoves] at h
      simp only [moves, makesNoBlock, Bool.and_eq_true] at hmoves hp
      rcases Option.or_eq_some_iff.mp h with hparse | ⟨-, hparse⟩
      · exact ih (by omega) hmoves.1 hp.1 hparse hb
      · exact ih (by omega) hmoves.2 hp.2 hparse hb
    | many p =>
      have hbound := p.bound_many ts
      have hmany := hmoves
      rw [parse_many hmoves] at h
      simp only [moves, Bool.and_eq_true, decide_eq_true_eq] at hmoves
      split at h
      · cases h
        cases hb
      · obtain ⟨front, between, back, hfront, hback, rfl⟩ := followed_eq_some.mp h
        have hrest := (matches_of_run hfront).bound_many hmoves.1.2
        rw [Tree.firstBlockOf?_append, Option.or_eq_some_iff] at hb
        rcases hb with hb | ⟨-, hb⟩
        · exact ih (by omega) hmoves.1.1 hp hfront hb
        · exact ih (by omega) hmany hp hback hb
    | node kind p =>
      have hbound := p.bound_node ts kind
      rw [moves] at hmoves
      rw [parse_node kind hmoves] at h
      rw [makesNoBlock, Bool.and_eq_true, bne_iff_ne] at hp
      split at h
      · next inner between hinner =>
        cases h
        rw [Tree.firstBlockOf?_group_of_ne hp.1] at hb
        exact ih (by omega) hmoves hp.2 hinner hb
      · cases h

theorem takeToken_eq_some {accepts : Token → Bool} {ts rest : List Token} {row : List Tree}
    (h : takeToken accepts ts = some (row, rest)) :
    ∃ trivia t, ts = trivia ++ t :: rest ∧ row = trivia.map Tree.leaf ++ [Tree.leaf t] ∧ accepts t = true ∧
      t.isTrivia = false ∧ ∀ u ∈ trivia, u.isTrivia = true := by
  have hmatch : Matches grammar (.token accepts) ts row rest := matches_of_takeToken h
  cases hmatch with
  | @token _ trivia t _ htrivia hsolid haccepts =>
    exact ⟨trivia, t, rfl, by simp, haccepts, hsolid, htrivia⟩

end Pattern

/-- The trees of a file are those of a parse, and it leaves nothing but comments. -/
theorem parse?_eq_some {source : Text} {file : Tree} :
    parse? source = some file ↔ ∃ ts row rest, tokens? source = some ts ∧ bracketsMatch [] ts = true ∧
      (Pattern.many (.rule .topLevel)).parse ts = some (row, rest) ∧ Pattern.skipTrivia rest = [] ∧
      file = .node .other (row ++ rest.map .leaf) := by
  have hrun : ∀ ts, Pattern.run grammar (stepsPerToken * (ts.length + 1)) (.many (.rule .topLevel)) ts =
      (Pattern.many (.rule .topLevel)).parse ts := by
    intro ts
    have hsteps : (Pattern.many (.rule .topLevel)).steps ≤ stepsPerToken := by decide
    refine Pattern.run_eq_parse rfl ?_
    rw [Pattern.bound, Nat.mul_add]
    omega
  constructor
  · intro h
    unfold parse? at h
    split at h
    · cases h
    · next ts hts =>
      obtain ⟨htokens, hbrackets⟩ := Option.filter_eq_some_iff.mp hts
      rw [hrun] at h
      split at h
      · next row rest hparse =>
        split at h
        · next hrest =>
          cases h
          exact ⟨ts, row, rest, htokens, hbrackets, hparse, List.isEmpty_iff.mp hrest, rfl⟩
        · cases h
      · cases h
  · rintro ⟨ts, row, rest, htokens, hbrackets, hparse, hrest, rfl⟩
    have hts : (tokens? source).filter (bracketsMatch []) = some ts :=
      Option.filter_eq_some_iff.mpr ⟨htokens, hbrackets⟩
    unfold parse?
    rw [hts]
    dsimp only
    rw [hrun, hparse]
    simp [hrest]

theorem Pattern.parse_both_eq_some {p q : Pattern Rule} (h : (both p q).moves = true) {ts rest : List Token}
    {row : List Tree} : (both p q).parse ts = some (row, rest) ↔ ∃ front between back, p.parse ts = some (front, between) ∧
      q.parse between = some (back, rest) ∧ row = front ++ back := by
  rw [parse_both h]
  exact followed_eq_some

/-- The parts of a block are parsed between its braces. -/
theorem exists_parse_of_block {ts rest : List Token} {row : List Tree} {b : Tree}
    (h : Grammar.block.parse ts = some (row, rest)) (hb : Tree.firstBlockOf? row = some b)
    (hplain : ∀ u ∈ b.tokens, u.isTrivia = false) :
    ∃ opening parts closing, b = .node .block (.leaf opening :: parts ++ [.leaf closing]) ∧
      opening.isSymbol ['\x7b'] = true ∧ closing.isSymbol ['\x7d'] = true ∧
      (Pattern.many (.rule .statement)).parse (Tree.tokensOf parts ++ closing :: rest) =
        some (parts, closing :: rest) := by
  rw [Grammar.block, Pattern.parse_node _ rfl] at h
  split at h
  · next inner rest' hbraces =>
    cases h
    rw [Tree.firstBlockOf?_group] at hb
    cases hb
    obtain ⟨_, between, _, hopening, hinner, rfl⟩ := (Pattern.parse_both_eq_some rfl).mp hbraces
    obtain ⟨parts, left, _, hparts, hclosing, rfl⟩ := (Pattern.parse_both_eq_some rfl).mp hinner
    change (Pattern.symbol "\x7d").parse left = _ at hclosing
    rw [Pattern.symbol, Pattern.parse_token] at hopening hclosing
    obtain ⟨before, opening, -, rfl, hopens, hsolid, hbefore⟩ := Pattern.takeToken_eq_some hopening
    obtain ⟨after, closing, rfl, rfl, hcloses, -, hafter⟩ := Pattern.takeToken_eq_some hclosing
    rw [List.append_assoc, Tree.dropWhile_isTrivia_leaves hbefore, List.singleton_append,
      List.dropWhile_cons_of_neg (by simp [Tree.isTrivia, hsolid])] at hplain ⊢
    obtain rfl : after = [] := by
      refine List.eq_nil_iff_forall_not_mem.mpr (fun u hu => ?_)
      have hnot := hplain u (by simp [Tree.tokens, Tree.tokensOf, hu])
      rw [hafter u hu] at hnot
      cases hnot
    have htokens := (matches_of_run hparts).tokens_eq
    rw [List.nil_append] at htokens hparts
    rw [htokens] at hparts
    exact ⟨opening, parts, closing, rfl, hopens, hcloses, hparts⟩
  · cases h

/-- The block of a body without comments was parsed as statements between two braces. -/
theorem exists_parse_of_bodyBlock? {body : Text} {b : Tree} (hb : bodyBlock? body = some b)
    (hplain : ∀ u ∈ b.tokens, u.isTrivia = false) :
    ∃ opening parts closing rest, b = .node .block (.leaf opening :: parts ++ [.leaf closing]) ∧
      opening.isSymbol ['\x7b'] = true ∧ closing.isSymbol ['\x7d'] = true ∧
      (Pattern.many (.rule .statement)).parse (Tree.tokensOf parts ++ closing :: rest) =
        some (parts, closing :: rest) := by
  obtain ⟨file, hfile, hfirst⟩ := Option.bind_eq_some_iff.mp hb
  obtain ⟨ts, row, rest, -, -, hparse, -, rfl⟩ := parse?_eq_some.mp hfile
  rw [Tree.firstBlock?_file] at hfirst
  obtain ⟨ts, row, rest, hblock, hfirst⟩ := Pattern.exists_parse_block (Nat.le_refl _) rfl rfl hparse hfirst
  obtain ⟨opening, parts, closing, h⟩ := exists_parse_of_block hblock hfirst hplain
  exact ⟨opening, parts, closing, rest, h⟩

end CSharpDraft.Fragment
