import CSharpDraft.Fragment.Grammar
import CSharpDraft.Proofs.Fragment.Law

/-!
# What a match of a pattern gives

`Matches` is the relation behind `Pattern.run`: what a pattern may take from the start of a list of tokens. It leaves out
the fuel and why a choice was made, so facts about all matches are inductions on it.

* `matches_of_run` : what `run` finds is a match;
* `Matches.tokens_eq` : a match takes the tokens that its trees hold and leaves the others;
* `exists_match_of_parse?`, `exists_match_of_bodyBlock?` : a file is read as a match, and the block of a body is the first
  of the match.
-/

set_option autoImplicit false

namespace CSharpDraft.Fragment

/-! ## Matches -/

section Matches

variable {ρ : Type} (grammar : ρ → Pattern ρ)

/-- The pattern takes the trees `row` from the tokens and leaves the rest. -/
inductive Matches : Pattern ρ → List Token → List Tree → List Token → Prop where
  | nothing (ts : List Token) : Matches .nothing ts [] ts
  | token {accepts : Token → Bool} {trivia : List Token} {t : Token} (rest : List Token) :
    (∀ u ∈ trivia, u.isTrivia = true) → t.isTrivia = false → accepts t = true →
    Matches (.token accepts) (trivia ++ t :: rest) ((trivia ++ [t]).map Tree.leaf) rest
  | rule (name : ρ) {ts rest : List Token} {row : List Tree} :
    Matches (grammar name) ts row rest → Matches (.rule name) ts row rest
  | both {p q : Pattern ρ} {ts between rest : List Token} {front back : List Tree} :
    Matches p ts front between → Matches q between back rest → Matches (.both p q) ts (front ++ back) rest
  | first {p : Pattern ρ} (q : Pattern ρ) {ts rest : List Token} {row : List Tree} :
    Matches p ts row rest → Matches (.either p q) ts row rest
  | second (p : Pattern ρ) {q : Pattern ρ} {ts rest : List Token} {row : List Tree} :
    Matches q ts row rest → Matches (.either p q) ts row rest
  | done (p : Pattern ρ) (ts : List Token) : Matches (.many p) ts [] ts
  | more {p : Pattern ρ} {ts between rest : List Token} {front back : List Tree} :
    Matches p ts front between → Matches (.many p) between back rest → Matches (.many p) ts (front ++ back) rest
  | when (condition : List Token → Bool) (ts : List Token) : Matches (.when condition) ts [] ts
  | ahead (p : Pattern ρ) (ts : List Token) : Matches (.ahead p) ts [] ts
  | node (kind : NodeKind) {p : Pattern ρ} {ts rest : List Token} {row : List Tree} :
    Matches p ts row rest → Matches (.node kind p) ts (Tree.group kind row) rest

variable {grammar}

theorem matches_of_takeToken {accepts : Token → Bool} {ts rest : List Token} {row : List Tree}
    (h : Pattern.takeToken accepts ts = some (row, rest)) : Matches grammar (.token accepts) ts row rest := by
  unfold Pattern.takeToken Pattern.skipTrivia at h
  have hts : ts = ts.takeWhile Token.isTrivia ++ ts.dropWhile Token.isTrivia := List.takeWhile_append_dropWhile.symm
  cases hrest : ts.dropWhile Token.isTrivia with
  | nil =>
    rw [hrest] at h
    cases h
  | cons t left =>
    rw [hrest] at h hts
    dsimp only at h
    split at h
    · next haccepts =>
      cases h
      have htrivia : ∀ u ∈ ts.takeWhile Token.isTrivia, u.isTrivia = true :=
        fun u hu => List.all_eq_true.mp List.all_takeWhile u hu
      have hsolid : t.isTrivia = false := by
        have hhead := List.head?_dropWhile_not Token.isTrivia ts
        rw [hrest] at hhead
        simpa using hhead
      have hmatch : Matches grammar (.token accepts) _ _ rest := .token rest htrivia hsolid haccepts
      rwa [← hts] at hmatch
    · cases h

/-- What `run` finds is a match. -/
theorem matches_of_run {fuel : Nat} {p : Pattern ρ} {ts rest : List Token} {row : List Tree}
    (h : Pattern.run grammar fuel p ts = some (row, rest)) : Matches grammar p ts row rest := by
  induction fuel generalizing p ts row rest with
  | zero => cases h
  | succ fuel ih =>
    cases p with
    | nothing =>
      cases h
      exact .nothing ts
    | token accepts => exact matches_of_takeToken h
    | rule name => exact .rule name (ih h)
    | both p q =>
      rw [Pattern.run] at h
      split at h
      · cases h
      · next hp =>
        split at h
        · cases h
        · next hq =>
          cases h
          exact .both (ih hp) (ih hq)
    | either p q =>
      rw [Pattern.run] at h
      split at h
      · next hp =>
        cases h
        exact .first q (ih hp)
      · exact .second p (ih h)
    | many p =>
      rw [Pattern.run] at h
      split at h
      · cases h
        exact .done p ts
      · next hp =>
        split at h
        · cases h
        · next hmany =>
          cases h
          exact .more (ih hp) (ih hmany)
    | when condition =>
      rw [Pattern.run] at h
      split at h
      · cases h
        exact .when condition ts
      · cases h
    | ahead p =>
      rw [Pattern.run] at h
      split at h
      · cases h
        exact .ahead p ts
      · cases h
    | node kind p =>
      rw [Pattern.run] at h
      split at h
      · next hp =>
        cases h
        exact .node kind (ih hp)
      · cases h

end Matches

/-! ## The tokens of a match -/

namespace Tree

@[simp] theorem tokensOf_leaves (ts : List Token) : tokensOf (ts.map leaf) = ts := by
  induction ts with
  | nil => rfl
  | cons t ts ih =>
    rw [List.map_cons, tokensOf, tokens, ih]
    rfl

@[simp] theorem tokensOf_group (kind : NodeKind) (row : List Tree) : tokensOf (group kind row) = tokensOf row := by
  have hnode : tokensOf [node kind (row.dropWhile isTrivia)] = tokensOf (row.dropWhile isTrivia) := by
    rw [tokensOf, tokens, tokensOf, List.append_nil]
  rw [group, tokensOf_append, hnode, ← tokensOf_append, List.takeWhile_append_dropWhile]

end Tree

theorem Matches.tokens_eq {ρ : Type} {grammar : ρ → Pattern ρ} {p : Pattern ρ} {ts rest : List Token} {row : List Tree}
    (h : Matches grammar p ts row rest) : ts = Tree.tokensOf row ++ rest := by
  induction h with
  | nothing ts => rfl
  | token rest htrivia hsolid haccepts => rw [Tree.tokensOf_leaves, List.append_assoc, List.singleton_append]
  | rule name _ ih => exact ih
  | both _ _ ihp ihq => rw [Tree.tokensOf_append, List.append_assoc, ← ihq, ← ihp]
  | first q _ ih => exact ih
  | second p _ ih => exact ih
  | done p ts => rfl
  | more _ _ ihp ihmany => rw [Tree.tokensOf_append, List.append_assoc, ← ihmany, ← ihp]
  | when condition ts => rfl
  | ahead p ts => rfl
  | node kind _ ih => rw [Tree.tokensOf_group, ← ih]

/-! ## Where blocks come from -/

/-- The pattern makes no block itself: a block comes from one of the rules that it refers to. -/
def Pattern.makesNoBlock {ρ : Type} : Pattern ρ → Bool
  | both p q => p.makesNoBlock && q.makesNoBlock
  | either p q => p.makesNoBlock && q.makesNoBlock
  | many p => p.makesNoBlock
  | node kind p => kind != .block && p.makesNoBlock
  | _ => true

theorem makesNoBlock_grammar {name : Rule} (h : name ≠ .block) : (grammar name).makesNoBlock = true := by
  cases name with
  | block => exact absurd rfl h
  | expression arrow => cases arrow <;> rfl
  | operand effect => cases effect <;> rfl
  | suffixes effect assignable complete => cases effect <;> cases assignable <;> cases complete <;> rfl
  | _ => rfl

namespace Tree

theorem firstBlockOf?_append (cs ds : List Tree) :
    firstBlockOf? (cs ++ ds) = (firstBlockOf? cs).or (firstBlockOf? ds) := by
  induction cs with
  | nil => rfl
  | cons c cs ih =>
    rw [List.cons_append, firstBlockOf?, firstBlockOf?, ih]
    cases firstBlock? c <;> rfl

theorem firstBlockOf?_eq_none {cs : List Tree} (h : ∀ c ∈ cs, firstBlock? c = none) : firstBlockOf? cs = none := by
  induction cs with
  | nil => rfl
  | cons c cs ih => rw [firstBlockOf?, h c List.mem_cons_self, ih (fun d hd => h d (List.mem_cons_of_mem c hd))]

theorem firstBlockOf?_leaves (ts : List Token) : firstBlockOf? (ts.map leaf) = none := by
  refine firstBlockOf?_eq_none (fun c hc => ?_)
  obtain ⟨t, -, rfl⟩ := List.mem_map.mp hc
  rfl

theorem firstBlock?_file (row : List Tree) (rest : List Token) :
    firstBlock? (node .other (row ++ rest.map leaf)) = firstBlockOf? row := by
  rw [firstBlock?, firstBlockOf?_append, firstBlockOf?_leaves, Option.or_none]
  nofun

theorem firstBlock?_of_isTrivia {c : Tree} (h : c.isTrivia = true) : firstBlock? c = none := by
  cases c with
  | leaf t => rfl
  | node kind children => cases h

theorem isTrivia_of_mem_takeWhile {row : List Tree} : ∀ c ∈ row.takeWhile isTrivia, c.isTrivia = true :=
  fun c hc => List.all_eq_true.mp List.all_takeWhile c hc

theorem firstBlockOf?_takeWhile (row : List Tree) : firstBlockOf? (row.takeWhile isTrivia) = none :=
  firstBlockOf?_eq_none (fun c hc => firstBlock?_of_isTrivia (isTrivia_of_mem_takeWhile c hc))

theorem firstBlockOf?_dropWhile (row : List Tree) : firstBlockOf? (row.dropWhile isTrivia) = firstBlockOf? row := by
  conv => rhs; rw [← List.takeWhile_append_dropWhile (p := isTrivia) (l := row)]
  rw [firstBlockOf?_append, firstBlockOf?_takeWhile, Option.none_or]

theorem firstBlockOf?_group (kind : NodeKind) (row : List Tree) :
    firstBlockOf? (group kind row) = firstBlock? (node kind (row.dropWhile isTrivia)) := by
  rw [group, firstBlockOf?_append, firstBlockOf?_takeWhile, Option.none_or, firstBlockOf?]
  cases firstBlock? (node kind (row.dropWhile isTrivia)) <;> rfl

theorem firstBlockOf?_group_of_ne {kind : NodeKind} (h : kind ≠ .block) (row : List Tree) :
    firstBlockOf? (group kind row) = firstBlockOf? row := by
  rw [firstBlockOf?_group, ← firstBlockOf?_dropWhile row]
  cases kind with
  | block => exact absurd rfl h
  | statement | clause | conditional | other => rfl

end Tree

def blockBody : Pattern Rule := .inBraces (.many (.rule .statement))

/-- The tree is the node over a match of a block's statements in braces. -/
def ReadAsBlock (b : Tree) : Prop :=
  ∃ ts row rest, Matches grammar blockBody ts row rest ∧ b = .node .block (row.dropWhile Tree.isTrivia)

theorem Matches.readAsBlock {p : Pattern Rule} {ts rest : List Token} {row : List Tree} {b : Tree}
    (h : Matches grammar p ts row rest) (hp : p.makesNoBlock = true) (hfirst : Tree.firstBlockOf? row = some b) :
    ReadAsBlock b := by
  induction h with
  | nothing ts => cases hfirst
  | token rest htrivia hsolid haccepts =>
    rw [Tree.firstBlockOf?_leaves] at hfirst
    cases hfirst
  | rule name hmatch ih =>
    by_cases hname : name = .block
    · subst hname
      cases hmatch with
      | node kind hbody =>
        rw [Tree.firstBlockOf?_group] at hfirst
        cases hfirst
        exact ⟨_, _, _, hbody, rfl⟩
    · exact ih (makesNoBlock_grammar hname) hfirst
  | both _ _ ihp ihq =>
    rw [Pattern.makesNoBlock, Bool.and_eq_true] at hp
    rw [Tree.firstBlockOf?_append, Option.or_eq_some_iff] at hfirst
    rcases hfirst with hfirst | ⟨-, hfirst⟩
    · exact ihp hp.1 hfirst
    · exact ihq hp.2 hfirst
  | first q _ ih =>
    rw [Pattern.makesNoBlock, Bool.and_eq_true] at hp
    exact ih hp.1 hfirst
  | second p _ ih =>
    rw [Pattern.makesNoBlock, Bool.and_eq_true] at hp
    exact ih hp.2 hfirst
  | done p ts => cases hfirst
  | more _ _ ihp ihmany =>
    rw [Tree.firstBlockOf?_append, Option.or_eq_some_iff] at hfirst
    rcases hfirst with hfirst | ⟨-, hfirst⟩
    · exact ihp hp hfirst
    · exact ihmany hp hfirst
  | when condition ts => cases hfirst
  | ahead p ts => cases hfirst
  | node kind _ ih =>
    rw [Pattern.makesNoBlock, Bool.and_eq_true, bne_iff_ne] at hp
    rw [Tree.firstBlockOf?_group_of_ne hp.1] at hfirst
    exact ih hp.2 hfirst

/-- The tree of a file comes from a match of its tokens, whose brackets match. -/
theorem exists_match_of_parse? {s : Text} {t : Tree} (h : parse? s = some t) :
    ∃ ts row rest, tokens? s = some ts ∧ bracketsMatch [] ts = true ∧
      Matches grammar (.many (.rule .topLevel)) ts row rest ∧ t = .node .other (row ++ rest.map .leaf) := by
  unfold parse? at h
  split at h
  · cases h
  · next ts hts =>
    obtain ⟨htokens, hbrackets⟩ := Option.filter_eq_some_iff.mp hts
    split at h
    · next row rest hrun =>
      split at h
      · cases h
        exact ⟨ts, row, rest, htokens, hbrackets, matches_of_run hrun, rfl⟩
      · cases h
    · cases h

/-- The block of a body comes from a match of the file around it, whose brackets match. -/
theorem exists_match_of_bodyBlock? {body : Text} {b : Tree} (h : bodyBlock? body = some b) :
    ∃ ts row rest, tokens? (wrapBody body) = some ts ∧ bracketsMatch [] ts = true ∧
      Matches grammar (.many (.rule .topLevel)) ts row rest ∧ Tree.firstBlockOf? row = some b := by
  obtain ⟨file, hparse, hfirst⟩ := Option.bind_eq_some_iff.mp h
  obtain ⟨ts, row, rest, htokens, hbrackets, hmatch, rfl⟩ := exists_match_of_parse? hparse
  rw [Tree.firstBlock?_file] at hfirst
  exact ⟨ts, row, rest, htokens, hbrackets, hmatch, hfirst⟩

/-- The block that is laid out is a block of statements. -/
theorem readAsBlock_of_bodyBlock? {body : Text} {b : Tree} (h : bodyBlock? body = some b) : ReadAsBlock b := by
  obtain ⟨ts, row, rest, -, -, hmatch, hfirst⟩ := exists_match_of_bodyBlock? h
  exact hmatch.readAsBlock rfl hfirst

end CSharpDraft.Fragment
