import CSharpDraft.Proofs.Fragment.Match

/-!
# Where the first block of a match may start

A match is known to start with some tokens, and nothing is known about the tokens behind them. `reach` goes through all
ways in which a pattern can take the known ones, without regard to conditions on what follows.

* `Course` : what a match may come to, and `Course.Holds` what that says about its trees;
* `Matches.listed` : each match comes to something that `reach` lists.
-/

set_option autoImplicit false

namespace CSharpDraft.Fragment

/-- What a match may come to: it has no block and ends in front of a known token, or behind the last; its first block
starts with a known token; or it gets further than the known tokens tell. -/
inductive Course where
  | upTo (place : Nat)
  | blockAt (place : Nat)
  | beyond
  deriving DecidableEq, Repr

namespace Course

/-- Goes on from where a match without a block ends. -/
def andThen (next : Nat → List Course) : Course → List Course
  | upTo j => next j
  | c => [c]

/-- The course is that of a match that takes `row` and leaves `rest`, with the tokens `known` in front of `us`. -/
inductive Holds (known us : List Token) (row : List Tree) (rest : List Token) : Course → Prop where
  | upTo {j : Nat} : j ≤ known.length → Tree.firstBlockOf? row = none → rest = known.drop j ++ us →
    Holds known us row rest (.upTo j)
  | blockAt {k : Nat} {b : Tree} (after : List Token) : Tree.firstBlockOf? row = some b →
    known.drop k ++ us = b.tokens ++ after → Holds known us row rest (.blockAt k)
  | beyond : Holds known us row rest .beyond

/-- The match comes to something that is listed. -/
def Listed (known us : List Token) (cs : List Course) (row : List Tree) (rest : List Token) : Prop :=
  ∃ c ∈ cs, c.Holds known us row rest

section Listed

variable {known us rest : List Token} {row : List Tree}

theorem Holds.congr {c : Course} (h : c.Holds known us row rest) {row' : List Tree}
    (hfirst : Tree.firstBlockOf? row' = Tree.firstBlockOf? row) : c.Holds known us row' rest := by
  cases h with
  | upTo hj hnone hrest => exact .upTo hj (hfirst.trans hnone) hrest
  | blockAt after hsome htokens => exact .blockAt after (hfirst.trans hsome) htokens
  | beyond => exact .beyond

theorem Holds.listed {c : Course} (h : c.Holds known us row rest) : Listed known us [c] row rest :=
  ⟨c, List.mem_singleton.mpr rfl, h⟩

theorem Listed.of_subset {cs ds : List Course} (h : Listed known us cs row rest) (hsub : cs ⊆ ds) :
    Listed known us ds row rest := by
  obtain ⟨c, hc, hholds⟩ := h
  exact ⟨c, hsub hc, hholds⟩

/-- A match goes on from where another one without a block ends. -/
theorem Holds.append {between : List Token} {front back : List Tree} {c : Course}
    (h : c.Holds known us front between) {next : Nat → List Course}
    (hnext : ∀ j ≤ known.length, between = known.drop j ++ us → Listed known us (next j) back rest) :
    Listed known us (c.andThen next) (front ++ back) rest := by
  have hfirst := Tree.firstBlockOf?_append front back
  cases h with
  | upTo hj hfront hbetween =>
    rw [hfront, Option.none_or] at hfirst
    obtain ⟨d, hd, hholds⟩ := hnext _ hj hbetween
    exact ⟨d, hd, hholds.congr hfirst⟩
  | blockAt after hfront htokens =>
    rw [hfront, Option.some_or] at hfirst
    exact (Holds.blockAt after hfirst htokens).listed
  | beyond => exact Holds.beyond.listed

end Listed

end Course

section Reach

variable {ρ : Type} (grammar : ρ → Pattern ρ) (known : List Token)

/-- What a match of the pattern may come to that starts in front of the known token `i`. -/
def reach : Nat → Pattern ρ → Nat → List Course
  | 0, _, _ => [.beyond]
  | _ + 1, .nothing, i => [.upTo i]
  | _ + 1, .token accepts, i =>
    match known[i]? with
    | none => [.beyond]
    | some t => if accepts t then [.upTo (i + 1)] else []
  | fuel + 1, .rule name, i => reach fuel (grammar name) i
  | fuel + 1, .both p q, i => (reach fuel p i).flatMap (Course.andThen (reach fuel q))
  | fuel + 1, .either p q, i => reach fuel p i ++ reach fuel q i
  | fuel + 1, .many p, i =>
    .upTo i :: (reach fuel p i).flatMap (Course.andThen (fun j => if j = i then [] else reach fuel (.many p) j))
  | _ + 1, .when _, i => [.upTo i]
  | _ + 1, .ahead _, i => [.upTo i]
  | fuel + 1, .node kind p, i =>
    if kind = .block then (if (reach fuel p i).isEmpty then [] else if i < known.length then [.blockAt i] else [.beyond])
    else reach fuel p i

variable {grammar known}

theorem dropWhile_isTrivia_eq_self {row : List Tree} {ts rest : List Token} (h : ts = Tree.tokensOf row ++ rest)
    (ht : ∀ t ∈ ts.head?, t.isTrivia = false) : row.dropWhile Tree.isTrivia = row := by
  subst h
  cases row with
  | nil => rfl
  | cons c row =>
    cases c with
    | leaf u => exact List.dropWhile_cons_of_neg (by simpa [Tree.isTrivia] using ht u rfl)
    | node kind children => exact List.dropWhile_cons_of_neg (by simp [Tree.isTrivia])

section Listed

variable {us rest : List Token} {row : List Tree} {i : Nat}

/-- Without fuel no match is told apart from another, so that only what comes with some fuel has to be looked at. -/
theorem listed_of_succ {p : Pattern ρ} (fuel : Nat)
    (h : ∀ n, Course.Listed known us (reach grammar known (n + 1) p i) row rest) :
    Course.Listed known us (reach grammar known fuel p i) row rest := by
  cases fuel with
  | zero => exact Course.Holds.beyond.listed
  | succ n => exact h n

/-- No trivia is known, so that a match of one token takes the known token at its place. -/
theorem listed_token (hknown : ∀ t ∈ known, t.isTrivia = false) {accepts : Token → Bool} {trivia : List Token} {t : Token}
    (htrivia : ∀ u ∈ trivia, u.isTrivia = true) (haccepts : accepts t = true)
    (hts : trivia ++ t :: rest = known.drop i ++ us) (n : Nat) :
    Course.Listed known us (reach grammar known (n + 1) (.token accepts) i) ((trivia ++ [t]).map Tree.leaf) rest := by
  rw [reach]
  by_cases hlt : i < known.length
  · have hnot : known[i].isTrivia = false := hknown _ (List.getElem_mem hlt)
    rw [List.drop_eq_getElem_cons hlt, List.cons_append] at hts
    rw [List.getElem?_eq_getElem hlt]
    cases trivia with
    | nil =>
      obtain ⟨rfl, rfl⟩ := List.cons.inj hts
      simp only [haccepts, if_true]
      exact (Course.Holds.upTo hlt (Tree.firstBlockOf?_leaves _) rfl).listed
    | cons u trivia =>
      obtain ⟨rfl, -⟩ := List.cons.inj hts
      rw [htrivia _ List.mem_cons_self] at hnot
      cases hnot
  · rw [List.getElem?_eq_none (Nat.le_of_not_lt hlt)]
    exact Course.Holds.beyond.listed

/-- A block starts where its match does, since no trivia is known that could stand in front of it. -/
theorem holds_block (hknown : ∀ t ∈ known, t.isTrivia = false) (hlt : i < known.length)
    (htokens : known.drop i ++ us = Tree.tokensOf row ++ rest) :
    (Course.blockAt i).Holds known us (Tree.group .block row) rest := by
  have hhead : ∀ t ∈ (known.drop i ++ us).head?, t.isTrivia = false := by
    intro t ht
    rw [List.drop_eq_getElem_cons hlt] at ht
    cases ht
    exact hknown _ (List.getElem_mem hlt)
  refine .blockAt rest (Tree.firstBlockOf?_group .block row) ?_
  rw [dropWhile_isTrivia_eq_self htokens hhead]
  exact htokens

end Listed

/-- Each match comes to something that is listed. -/
theorem Matches.listed (hknown : ∀ t ∈ known, t.isTrivia = false) {p : Pattern ρ} {ts rest us : List Token}
    {row : List Tree} (h : Matches grammar p ts row rest) (fuel i : Nat) (hi : i ≤ known.length)
    (hts : ts = known.drop i ++ us) : Course.Listed known us (reach grammar known fuel p i) row rest := by
  induction h generalizing fuel i with
  | nothing ts | when condition ts | ahead p ts =>
    exact listed_of_succ fuel fun n => (Course.Holds.upTo hi rfl hts).listed
  | token rest htrivia hsolid haccepts =>
    exact listed_of_succ fuel (listed_token hknown htrivia haccepts hts)
  | rule name _ ih =>
    exact listed_of_succ fuel fun n => ih n i hi hts
  | both _ _ ihp ihq =>
    refine listed_of_succ fuel fun n => ?_
    obtain ⟨c, hc, hholds⟩ := ihp n i hi hts
    exact (hholds.append (ihq n)).of_subset (fun d hd => List.mem_flatMap.mpr ⟨c, hc, hd⟩)
  | first q _ ih =>
    exact listed_of_succ fuel fun n => (ih n i hi hts).of_subset (List.subset_append_left _ _)
  | second p _ ih =>
    exact listed_of_succ fuel fun n => (ih n i hi hts).of_subset (List.subset_append_right _ _)
  | done p ts =>
    exact listed_of_succ fuel fun n => ⟨.upTo i, List.mem_cons_self, .upTo hi rfl hts⟩
  | @more p ts between rest front back _ _ ihp ihmany =>
    refine listed_of_succ fuel fun n => ?_
    obtain ⟨c, hc, hholds⟩ := ihp n i hi hts
    have hnext : ∀ j ≤ known.length, between = known.drop j ++ us →
        Course.Listed known us
          (if j = i then reach grammar known (n + 1) (.many p) i else reach grammar known n (.many p) j) back rest := by
      intro j hj hbetween
      split
      · next heq => exact ihmany (n + 1) i hi (heq ▸ hbetween)
      · exact ihmany n j hj hbetween
    refine (hholds.append hnext).of_subset (fun d hd => ?_)
    cases c with
    | upTo j =>
      by_cases hj : j = i
      · rwa [Course.andThen, if_pos hj] at hd
      · exact List.mem_cons_of_mem _ (List.mem_flatMap.mpr ⟨_, hc, by simpa only [Course.andThen, if_neg hj] using hd⟩)
    | blockAt k => exact List.mem_cons_of_mem _ (List.mem_flatMap.mpr ⟨_, hc, hd⟩)
    | beyond => exact List.mem_cons_of_mem _ (List.mem_flatMap.mpr ⟨_, hc, hd⟩)
  | @node kind p ts rest row hmatch ih =>
    refine listed_of_succ fuel fun n => ?_
    obtain ⟨c, hc, hholds⟩ := ih n i hi hts
    rw [reach]
    split
    · next hkind =>
      subst hkind
      rw [if_neg (by simpa using List.ne_nil_of_mem hc)]
      split
      · next hlt => exact (holds_block hknown hlt (hts.symm.trans hmatch.tokens_eq)).listed
      · exact Course.Holds.beyond.listed
    · next hkind => exact ⟨c, hc, hholds.congr (Tree.firstBlockOf?_group_of_ne hkind _)⟩

end Reach

end CSharpDraft.Fragment
