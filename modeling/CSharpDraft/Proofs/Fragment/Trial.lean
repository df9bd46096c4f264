import CSharpDraft.Proofs.Fragment.Alike
import CSharpDraft.Proofs.Fragment.BodyFile

/-!
# Parsing around a block

The tokens of a file are known in front of a block and behind it, and the block itself is known to be parsed as one.
`trial` goes through a pattern as a parse does, in one step over the block, and says what it comes to, unless that
depends on what it does not know.

* `Place` : where a parse may be;
* `Verdict.Holds`, `trial_holds` : what is said of a pattern holds of its parse;
* `bodyBlock?_eq_some` : so the block of a body that is a block is this block.
-/

set_option autoImplicit false

namespace CSharpDraft.Fragment

/-- A place in a file: in front of tokens with the block behind them, or behind the block. -/
inductive Place where
  | before (ts : List Token)
  | behind (ts : List Token)
  deriving DecidableEq, Repr

namespace Place

/-- The tokens from a place on, in a file with the tokens `inside` of a block and `back` behind them. -/
def tokens (inside back : List Token) : Place → List Token
  | before ts => ts ++ (inside ++ back)
  | behind ts => ts

/-- The first block between two places of a file with the block `b`. -/
def FirstBlock (b : Tree) : Place → Place → Option Tree → Prop
  | before _, before _, found => found = none
  | before _, behind _, found => found = some b
  | behind _, behind _, found => found = none
  | behind _, before _, _ => False

theorem firstBlock_self (b : Tree) (place : Place) : FirstBlock b place place none := by
  cases place <;> rfl

theorem FirstBlock.append {b : Tree} {start between stop : Place} {front back : List Tree}
    (hfront : FirstBlock b start between (Tree.firstBlockOf? front))
    (hback : FirstBlock b between stop (Tree.firstBlockOf? back)) :
    FirstBlock b start stop (Tree.firstBlockOf? (front ++ back)) := by
  rw [Tree.firstBlockOf?_append]
  generalize Tree.firstBlockOf? front = x at hfront
  generalize Tree.firstBlockOf? back = y at hback
  cases start <;> cases between <;> cases stop <;> simp_all [FirstBlock]

end Place

/-- What a pattern comes to. -/
inductive Verdict where
  | fails
  | takes (place : Place)
  /-- It fails or takes what is in front of the place. -/
  | maybe (place : Place)
  | unknown
  deriving DecidableEq, Repr

namespace Verdict

/-- What a row of two patterns comes to, from what its first comes to. -/
def andThen (next : Place → Verdict) : Verdict → Verdict
  | fails => fails
  | takes place => next place
  | maybe place =>
    match next place with
    | fails => fails
    | takes place => maybe place
    | maybe place => maybe place
    | unknown => unknown
  | unknown => unknown

/-- What a choice of two patterns comes to, from what its first comes to. -/
def orElse : Verdict → Verdict → Verdict
  | fails, other => other
  | takes place, _ => takes place
  | maybe place, other => if other = fails then maybe place else unknown
  | unknown, _ => unknown

end Verdict

/-- One token in front of others. -/
def stepOver (accepts : Token → Bool) (place : Place) (t : Token) : Verdict :=
  if !t.isPlain then .unknown else if accepts t then .takes place else .fails

section Trial

variable (opening : Token) (back : List Token)

/-- What the pattern comes to at the place. The block starts with the token `opening` and has `back` behind it. -/
def trial : Nat → Pattern Rule → Place → Verdict
  | 0, _, _ => .unknown
  | _ + 1, .nothing, place => .takes place
  | _ + 1, .token accepts, .before (t :: ts) => stepOver accepts (.before ts) t
  | _ + 1, .token accepts, .behind (t :: ts) => stepOver accepts (.behind ts) t
  | _ + 1, .token accepts, .before [] => if accepts opening then .unknown else .fails
  | _ + 1, .token _, .behind [] => .fails
  | fuel + 1, .rule name, place =>
    if name = .block ∧ place = .before [] then .takes (.behind back) else trial fuel (grammar name) place
  | fuel + 1, .both p q, place => (trial fuel p place).andThen (trial fuel q)
  | fuel + 1, .either p q, place => (trial fuel p place).orElse (trial fuel q place)
  | fuel + 1, .many p, place =>
    match trial fuel p place with
    | .fails => .takes place
    | .takes next => trial fuel (.many p) next
    | _ => .unknown
  | _ + 1, .when _, place => .maybe place
  | fuel + 1, .ahead p, place =>
    match trial fuel p place with
    | .fails => .fails
    | .takes _ => .takes place
    | .maybe _ => .maybe place
    | .unknown => .unknown
  | fuel + 1, .node kind p, place =>
    match trial fuel p place with
    | .fails => .fails
    | verdict => if kind = .block then .unknown else verdict

end Trial

/-! ## What a parse comes to -/

section Holds

variable (opening : Token) (inside back : List Token) (b : Tree)

/-- What the verdict says of a parse that starts at a place. -/
inductive Verdict.Holds (start : Place) : Verdict → Option (List Tree × List Token) → Prop where
  | fails : Holds start fails none
  | takes {stop : Place} {row : List Tree} : start.FirstBlock b stop (Tree.firstBlockOf? row) →
    Holds start (takes stop) (some (row, stop.tokens (opening :: inside) back))
  | none (stop : Place) : Holds start (maybe stop) none
  | some {stop : Place} {row : List Tree} : start.FirstBlock b stop (Tree.firstBlockOf? row) →
    Holds start (maybe stop) (some (row, stop.tokens (opening :: inside) back))
  | unknown (parsed : Option (List Tree × List Token)) : Holds start unknown parsed

variable {opening inside back b}

theorem holds_self (place : Place) :
    (Verdict.takes place).Holds opening inside back b place (some ([], place.tokens (opening :: inside) back)) :=
  .takes (place.firstBlock_self b)

theorem holds_stepOver {accepts : Token → Bool} {start stop : Place} {t : Token}
    (hstart : start.tokens (opening :: inside) back = t :: stop.tokens (opening :: inside) back)
    (hfirst : start.FirstBlock b stop none) : (stepOver accepts stop t).Holds opening inside back b start
      (Pattern.takeToken accepts (start.tokens (opening :: inside) back)) := by
  unfold stepOver
  cases hplain : t.isPlain with
  | false => exact .unknown _
  | true =>
    rw [hstart, takeToken_cons hplain]
    cases accepts t with
    | false => exact .fails
    | true =>
      have hrow : start.FirstBlock b stop (Tree.firstBlockOf? [.leaf t]) := hfirst
      exact .takes hrow

/-- A row of two patterns comes to what its second does, behind what its first takes. -/
theorem Verdict.Holds.behind {start between : Place} {front : List Tree} {verdict : Verdict}
    {next : List Token → Option (List Tree × List Token)} (hfront : start.FirstBlock b between (Tree.firstBlockOf? front))
    (h : verdict.Holds opening inside back b between (next (between.tokens (opening :: inside) back))) :
    verdict.Holds opening inside back b start
      (followed next (Option.some (front, between.tokens (opening :: inside) back))) := by
  rw [followed]
  generalize next (between.tokens (opening :: inside) back) = parsed at h
  cases h with
  | fails => exact .fails
  | takes hback => exact .takes (hfront.append hback)
  | none stop => exact .none stop
  | some hback => exact .some (hfront.append hback)
  | unknown => exact .unknown _

theorem Verdict.Holds.andThen {start : Place} {verdict : Verdict} {parsed : Option (List Tree × List Token)}
    (h : verdict.Holds opening inside back b start parsed) {next : List Token → Option (List Tree × List Token)}
    {trialNext : Place → Verdict}
    (hnext : ∀ place, (trialNext place).Holds opening inside back b place (next (place.tokens (opening :: inside) back))) :
    (verdict.andThen trialNext).Holds opening inside back b start (followed next parsed) := by
  cases h with
  | fails => exact .fails
  | takes hfront => exact (hnext _).behind hfront
  | none stop =>
    rw [Verdict.andThen]
    generalize trialNext stop = verdict
    cases verdict with
    | fails => exact .fails
    | takes place | maybe place => exact .none place
    | unknown => exact .unknown _
  | @some stop row hfront =>
    have hrest := (hnext stop).behind hfront
    rw [Verdict.andThen]
    generalize trialNext stop = verdict at hrest
    generalize followed next _ = parsed at hrest
    cases hrest with
    | fails => exact .fails
    | takes hrest | some hrest => exact .some hrest
    | none place => exact .none place
    | unknown => exact .unknown _
  | unknown => exact .unknown _

theorem Verdict.Holds.orElse {start : Place} {verdict other : Verdict} {first second : Option (List Tree × List Token)}
    (h : verdict.Holds opening inside back b start first) (hother : other.Holds opening inside back b start second) :
    (verdict.orElse other).Holds opening inside back b start (first.or second) := by
  cases h with
  | fails => exact hother
  | takes hrow => exact .takes hrow
  | none stop =>
    rw [Verdict.orElse]
    split
    · next hfails =>
      subst hfails
      cases hother
      exact .none stop
    · exact .unknown _
  | some hrow =>
    rw [Verdict.orElse]
    split
    · exact .some hrow
    · exact .unknown _
  | unknown => exact .unknown _

variable (hopening : opening.isPlain = true) (hb : b.isBlock = true)
  (hblock : Grammar.block.parse (opening :: inside ++ back) = some ([b], back))
include hopening hb hblock

/-- What a trial says of a pattern holds of its parse. -/
theorem trial_holds {fuel : Nat} {p : Pattern Rule} (hp : p.moves = true) (place : Place) :
    (trial opening back fuel p place).Holds opening inside back b place
      (p.parse (place.tokens (opening :: inside) back)) := by
  induction fuel generalizing p place with
  | zero => exact .unknown _
  | succ fuel ih =>
    cases p with
    | nothing =>
      rw [Pattern.parse_nothing]
      exact holds_self place
    | token accepts =>
      rw [Pattern.parse_token]
      match place with
      | .before [] =>
        rw [trial]
        split
        · exact .unknown _
        · next hrefuses =>
          rw [Place.tokens, List.nil_append, List.cons_append, takeToken_cons hopening, if_neg hrefuses]
          exact .fails
      | .behind [] => exact .fails
      | .before (t :: ts) => exact holds_stepOver rfl rfl
      | .behind (t :: ts) => exact holds_stepOver rfl rfl
    | rule name =>
      rw [trial, Pattern.parse_rule]
      split
      · next h =>
        obtain ⟨rfl, rfl⟩ := h
        have hfirst : (Place.before []).FirstBlock b (.behind back) (Tree.firstBlockOf? [b]) := by
          cases b with
          | leaf t => cases hb
          | node kind children =>
            cases kind with
            | block => rfl
            | statement | clause | conditional | other => cases hb
        change Verdict.Holds _ _ _ _ _ _ (Grammar.block.parse (opening :: inside ++ back))
        rw [hblock]
        exact .takes hfirst
      · exact ih (moves_grammar name) place
    | both p q =>
      rw [trial, Pattern.parse_both hp]
      simp only [Pattern.moves, Bool.and_eq_true] at hp
      exact (ih hp.1.1 place).andThen (fun stop => ih hp.1.2 stop)
    | either p q =>
      rw [trial, Pattern.parse_either hp]
      simp only [Pattern.moves, Bool.and_eq_true] at hp
      exact (ih hp.1 place).orElse (ih hp.2 place)
    | many p =>
      have hinner := hp
      simp only [Pattern.moves, Bool.and_eq_true] at hinner
      have hfirst := ih hinner.1.1 place
      rw [trial, Pattern.parse_many hp]
      generalize trial opening back fuel p place = verdict at hfirst ⊢
      generalize p.parse (place.tokens (opening :: inside) back) = parsed at hfirst ⊢
      cases hfirst with
      | fails => exact holds_self place
      | takes hrow => exact (ih hp _).behind hrow
      | none | some | unknown => exact .unknown _
    | when condition =>
      rw [trial, Pattern.parse_when]
      split
      · exact .some (place.firstBlock_self b)
      · exact .none place
    | ahead p =>
      rw [Pattern.moves] at hp
      have hinner := ih hp place
      rw [trial, Pattern.parse_ahead hp]
      generalize trial opening back fuel p place = verdict at hinner ⊢
      generalize p.parse (place.tokens (opening :: inside) back) = parsed at hinner ⊢
      cases hinner with
      | fails => exact .fails
      | takes => exact holds_self place
      | none => exact .none place
      | some => exact .some (place.firstBlock_self b)
      | unknown => exact .unknown _
    | node kind p =>
      rw [Pattern.moves] at hp
      have hinner := ih hp place
      rw [trial, Pattern.parse_node kind hp]
      generalize trial opening back fuel p place = verdict at hinner ⊢
      generalize p.parse (place.tokens (opening :: inside) back) = parsed at hinner ⊢
      by_cases hkind : kind = .block
      · cases hinner with
        | fails => exact .fails
        | takes | none | some | unknown =>
          dsimp only
          rw [if_pos hkind]
          exact .unknown _
      · have hrow := Tree.firstBlockOf?_group_of_ne hkind
        simp only [if_neg hkind]
        cases hinner with
        | fails => exact .fails
        | takes hfirst => exact .takes (by rwa [hrow])
        | none stop => exact .none stop
        | some hfirst => exact .some (by rwa [hrow])
        | unknown => exact .unknown _

end Holds

/-! ## The file around a body -/

/-- The brace that opens a body in its file. -/
def fileOpening : Token := ⟨.symbol, [' '], ['\x7b']⟩

/-- The brace that closes the class around a body. -/
def fileClosing : Token := ⟨.symbol, [' '], ['\x7d']⟩

theorem trial_bodyFront :
    trial fileOpening [fileClosing] 60 (.many (.rule .topLevel)) (.before bodyFront.dropLast) = .takes (.behind []) := by
  decide +kernel

/-- Where a body is a block, it is the block of its file. -/
theorem bodyBlock?_eq_some {t : Text} {inside : List Token} {b : Tree}
    (htokens : tokens? (wrapBody t) = some (bodyFront ++ (inside ++ [fileClosing])))
    (hbrackets : bracketsMatch [] (bodyFront ++ (inside ++ [fileClosing])) = true) (hb : b.isBlock = true)
    (hblock : Grammar.block.parse (fileOpening :: inside ++ [fileClosing]) = some ([b], [fileClosing])) :
    bodyBlock? t = some b := by
  have hfile := trial_bodyFront ▸ trial_holds rfl hb hblock rfl (.before bodyFront.dropLast)
  generalize hparse : Pattern.parse _ _ = parsed at hfile
  cases hfile with
  | @takes _ row hfirst =>
    have hfile : Parser.parse? (wrapBody t) = some (.node .other (row ++ ([] : List Token).map .leaf)) :=
      parse?_eq_some.mpr ⟨_, row, [], htokens, hbrackets, hparse, rfl, rfl⟩
    rw [bodyBlock?, hfile, Option.bind_some, Tree.firstBlock?_file]
    exact hfirst

end CSharpDraft.Fragment
