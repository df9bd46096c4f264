import CSharpDraft.Proofs.Fragment.Balance

/-!
# What every node of a match is like

A node is made by a pattern of the grammar, so what all patterns below nodes have in common holds of all nodes.

* `Pattern.takes` : whether each match of a pattern takes a token, read off the pattern (`Matches.takes`);
* `Pattern.startsPlain` : whether a match starts with nothing that is laid out on its own (`Matches.startsPlain`);
* `Matches.wellMade`, `ReadAsBlock.wellMade` : so each node holds a token, and a statement starts with a part of its own.
-/

set_option autoImplicit false

namespace CSharpDraft.Fragment

/-! ## Patterns that take a token -/

/-- Whether what the rule describes has a token. Behind an operand nothing has to follow, unless a form is asked for
that may stand as a statement and the operand is none yet. -/
def Rule.takes : Rule → Bool
  | suffixes effect _ complete => effect && !complete
  | _ => true

/-- Whether each match of the pattern takes a token. -/
def Pattern.takes : Pattern Rule → Bool
  | token _ => true
  | rule name => name.takes
  | both p q => p.takes || q.takes
  | either p q => p.takes && q.takes
  | node _ p => p.takes
  | _ => false

theorem takes_grammar (name : Rule) : (grammar name).takes = name.takes := by
  cases name with
  | expression arrow => cases arrow <;> rfl
  | operand effect => cases effect <;> rfl
  | suffixes effect assignable complete => cases effect <;> cases assignable <;> cases complete <;> rfl
  | _ => rfl

namespace Tree

/-- A row that holds more than comments has a tree that is no comment. -/
theorem exists_not_isTrivia {row : List Tree} (h : ∃ t ∈ tokensOf row, t.isTrivia = false) :
    ∃ c ∈ row, c.isTrivia = false := by
  obtain ⟨t, ht, hsolid⟩ := h
  obtain ⟨c, hc, ht⟩ := mem_tokensOf.mp ht
  refine ⟨c, hc, ?_⟩
  cases c with
  | leaf u => rwa [List.mem_singleton.mp ht] at hsolid
  | node kind children => rfl

end Tree

/-- The trees of such a match hold more than comments. -/
theorem Matches.takes {p : Pattern Rule} {ts rest : List Token} {row : List Tree} (h : Matches grammar p ts row rest)
    (hp : p.takes = true) : ∃ t ∈ Tree.tokensOf row, t.isTrivia = false := by
  induction h with
  | nothing ts => cases hp
  | @token accepts trivia t rest htrivia hsolid haccepts =>
    rw [Tree.tokensOf_leaves]
    exact ⟨t, by simp, hsolid⟩
  | rule name _ ih => exact ih ((takes_grammar name).trans hp)
  | both _ _ ihp ihq =>
    rw [Tree.tokensOf_append]
    rcases Bool.or_eq_true _ _ ▸ hp with hp | hq
    · obtain ⟨t, ht, hsolid⟩ := ihp hp
      exact ⟨t, List.mem_append_left _ ht, hsolid⟩
    · obtain ⟨t, ht, hsolid⟩ := ihq hq
      exact ⟨t, List.mem_append_right _ ht, hsolid⟩
  | first q _ ih => exact ih (Bool.and_eq_true _ _ ▸ hp).1
  | second p _ ih => exact ih (Bool.and_eq_true _ _ ▸ hp).2
  | done p ts => cases hp
  | more _ _ _ _ => cases hp
  | when condition ts => cases hp
  | ahead p ts => cases hp
  | node kind _ ih =>
    rw [Tree.tokensOf_group]
    exact ih hp

theorem dropWhile_ne_nil {α : Type} {p : α → Bool} {l : List α} (h : ∃ a ∈ l, p a = false) : l.dropWhile p ≠ [] := by
  obtain ⟨a, ha, hp⟩ := h
  intro hnil
  have hsplit := List.takeWhile_append_dropWhile (p := p) (l := l)
  rw [hnil, List.append_nil] at hsplit
  have hall : p a = true := List.all_eq_true.mp List.all_takeWhile a (hsplit ▸ ha)
  rw [hp] at hall
  cases hall

/-! ## Patterns that start plain -/

/-- Whether what the rule describes starts with a token or a node that is not laid out on its own. -/
def Rule.startsPlain : Rule → Bool
  | block | statement | functionBody | topLevel => false
  | _ => true

/-- Whether the first tree of each match is not laid out on its own, comments aside. -/
def Pattern.startsPlain : Pattern Rule → Bool
  | rule name => name.startsPlain
  | both p q => p.startsPlain && (p.takes || q.startsPlain)
  | either p q => p.startsPlain && q.startsPlain
  | many p => p.startsPlain
  | node kind _ => kind == .conditional || kind == .other
  | _ => true

theorem startsPlain_grammar {name : Rule} (h : name.startsPlain = true) : (grammar name).startsPlain = true := by
  cases name with
  | block | statement | functionBody | topLevel => cases h
  | expression arrow => cases arrow <;> rfl
  | operand effect => cases effect <;> rfl
  | suffixes effect assignable complete => cases effect <;> cases assignable <;> cases complete <;> rfl
  | _ => rfl

namespace Tree

/-- The first tree of a row is not laid out on its own, comments aside. -/
def StartsPlain (row : List Tree) : Prop := ∀ c ∈ (row.dropWhile isTrivia).head?, c.isLaidOut = false

theorem StartsPlain.append {front back : List Tree} (hfront : StartsPlain front)
    (h : (∃ c ∈ front, c.isTrivia = false) ∨ StartsPlain back) : StartsPlain (front ++ back) := by
  intro c hc
  rw [List.dropWhile_append] at hc
  split at hc
  · next hempty =>
    rcases h with htakes | hback
    · exact absurd (List.isEmpty_iff.mp hempty) (dropWhile_ne_nil htakes)
    · exact hback c hc
  · next hne =>
    obtain ⟨d, ds, hds⟩ : ∃ d ds, front.dropWhile isTrivia = d :: ds :=
      List.exists_cons_of_ne_nil (fun hnil => hne (by rw [hnil]; rfl))
    refine hfront c ?_
    rw [hds] at hc ⊢
    exact hc

theorem startsPlain_group {kind : NodeKind} (h : (kind == .conditional || kind == .other) = true) (row : List Tree) :
    StartsPlain (group kind row) := by
  intro c hc
  have hall : ∀ d ∈ row.takeWhile isTrivia, isTrivia d = true := isTrivia_of_mem_takeWhile
  rw [group, List.dropWhile_append_of_pos hall] at hc
  cases hc
  rcases Bool.or_eq_true _ _ ▸ h with h | h <;> rw [eq_of_beq h] <;> rfl

end Tree

theorem Matches.startsPlain {p : Pattern Rule} {ts rest : List Token} {row : List Tree} (h : Matches grammar p ts row rest)
    (hp : p.startsPlain = true) : Tree.StartsPlain row := by
  induction h with
  | nothing ts => nofun
  | @token accepts trivia t rest htrivia hsolid haccepts =>
    intro c hc
    rw [List.map_append, Tree.dropWhile_isTrivia_leaves htrivia, List.map_singleton,
      List.dropWhile_cons_of_neg (by simp [Tree.isTrivia, hsolid])] at hc
    cases hc
    rfl
  | rule name _ ih => exact ih (startsPlain_grammar hp)
  | both hfront _ ihp ihq =>
    rw [Pattern.startsPlain, Bool.and_eq_true, Bool.or_eq_true] at hp
    exact (ihp hp.1).append (hp.2.imp (fun hp => Tree.exists_not_isTrivia (hfront.takes hp)) ihq)
  | first q _ ih => exact ih (Bool.and_eq_true _ _ ▸ hp).1
  | second p _ ih => exact ih (Bool.and_eq_true _ _ ▸ hp).2
  | done p ts => nofun
  | more _ _ ihp ihmany => exact (ihp hp).append (Or.inr (ihmany hp))
  | when condition ts => nofun
  | ahead p ts => nofun
  | node kind _ _ => exact Tree.startsPlain_group hp _

/-! ## Nodes -/

/-- Whether a node of the kind may be made over the matches of the pattern. -/
def NodeKind.fits (kind : NodeKind) (p : Pattern Rule) : Bool :=
  p.takes && (p.startsPlain || !(kind == .statement || kind == .clause))

/-- Whether all nodes that the pattern makes itself may be made. -/
def Pattern.nodesFit : Pattern Rule → Bool
  | both p q => p.nodesFit && q.nodesFit
  | either p q => p.nodesFit && q.nodesFit
  | many p => p.nodesFit
  | node kind p => kind.fits p && p.nodesFit
  | _ => true

theorem nodesFit_grammar (name : Rule) : (grammar name).nodesFit = true := by
  cases name with
  | expression arrow => cases arrow <;> rfl
  | operand effect => cases effect <;> rfl
  | suffixes effect assignable complete => cases effect <;> cases assignable <;> cases complete <;> rfl
  | _ => rfl

namespace Tree

theorem wellMade_of_isTrivia {c : Tree} (h : c.isTrivia = true) : c.WellMade := by
  cases c with
  | leaf t => exact .leaf t
  | node kind children => cases h

end Tree

theorem Matches.wellMade_node {kind : NodeKind} {p : Pattern Rule} {ts rest : List Token} {row : List Tree}
    (h : Matches grammar p ts row rest) (hfits : kind.fits p = true) (hrow : ∀ c ∈ row, c.WellMade) :
    (Tree.node kind (row.dropWhile Tree.isTrivia)).WellMade := by
  rw [NodeKind.fits, Bool.and_eq_true] at hfits
  refine .node (dropWhile_ne_nil (Tree.exists_not_isTrivia (h.takes hfits.1))) (fun hstatement => ?_) (fun c hc => ?_)
  · rcases Bool.or_eq_true _ _ ▸ hfits.2 with hplain | hkind
    · exact h.startsPlain hplain
    · cases kind with
      | statement | clause => cases hkind
      | block | conditional | other => cases hstatement
  · exact hrow c ((List.dropWhile_suffix _).subset hc)

theorem Matches.wellMade {p : Pattern Rule} {ts rest : List Token} {row : List Tree} (h : Matches grammar p ts row rest)
    (hp : p.nodesFit = true) : ∀ c ∈ row, c.WellMade := by
  induction h with
  | nothing ts => nofun
  | token rest htrivia hsolid haccepts =>
    intro c hc
    obtain ⟨t, -, rfl⟩ := List.mem_map.mp hc
    exact .leaf t
  | rule name _ ih => exact ih (nodesFit_grammar name)
  | both _ _ ihp ihq =>
    rw [Pattern.nodesFit, Bool.and_eq_true] at hp
    intro c hc
    exact (List.mem_append.mp hc).elim (ihp hp.1 c) (ihq hp.2 c)
  | first q _ ih => exact ih (Bool.and_eq_true _ _ ▸ hp).1
  | second p _ ih => exact ih (Bool.and_eq_true _ _ ▸ hp).2
  | done p ts => nofun
  | more _ _ ihp ihmany =>
    intro c hc
    exact (List.mem_append.mp hc).elim (ihp hp c) (ihmany hp c)
  | when condition ts => nofun
  | ahead p ts => nofun
  | node kind hmatch ih =>
    rw [Pattern.nodesFit, Bool.and_eq_true] at hp
    intro c hc
    rcases List.mem_append.mp hc with hc | hc
    · exact Tree.wellMade_of_isTrivia (Tree.isTrivia_of_mem_takeWhile c hc)
    · rw [List.mem_singleton.mp hc]
      exact hmatch.wellMade_node hp.1 (ih hp.2)

/-- The nodes of a block that is laid out are well made. -/
theorem ReadAsBlock.wellMade {b : Tree} (h : ReadAsBlock b) : b.WellMade := by
  obtain ⟨ts, row, rest, hmatch, rfl⟩ := h
  exact hmatch.wellMade_node rfl (hmatch.wellMade rfl)

end CSharpDraft.Fragment
