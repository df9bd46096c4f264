import CSharpDraft.Proofs.Fragment.Fuel

/-!
# Matches of tokens with other gaps

A pattern looks at the kinds and the texts of tokens. It looks at the gap between two tokens only where they may be one
operator, and never behind the brace that closes the block around it.

* `Alike` : two lists with the same tokens up to the end of a block, with other gaps where these do not matter;
* `Pattern.Steady` : patterns that cannot tell such lists apart, read off the pattern;
* `run_alike_of` : what they match in both lists is the same but for the gaps, for a grammar of such patterns.
-/

set_option autoImplicit false

namespace CSharpDraft.Fragment

/-! ## Tokens without gaps -/

namespace Token

/-- Whether a gap behind the symbol `x` matters in front of the token: the two may be a shift, or the access to an element
of what may be null. -/
def sticksTo (t : Token) (x : Text) : Bool :=
  x == ['>'] && (t.isSymbol ['>'] || t.isSymbol ['>', '=']) || x == ['?'] && t.isSymbol ['[']

/-- A test of tokens that does not look at their gaps. -/
def Blind (accepts : Token → Bool) : Prop := ∀ t, accepts t.bare = accepts t

theorem Blind.congr {accepts : Token → Bool} (h : Blind accepts) {t u : Token} (hbare : u.bare = t.bare) :
    accepts u = accepts t := by
  rw [← h u, hbare, h t]

end Token

/-! ## Lists of tokens that are alike -/

/-- If a gap behind the symbol `x` matters, it is in both lists or in none. -/
def SameGap (x : Text) (us us' : List Token) : Prop :=
  ∀ u ∈ us.head?, ∀ u' ∈ us'.head?, u.sticksTo x = true → Token.isTight u' = Token.isTight u

theorem sameGap_none {us us' : List Token} : ∀ x ∈ (none : Option Text), SameGap x us us' :=
  fun _ h => absurd h (Option.not_mem_none _)

/-- Up to the end of a block both lists hold the same tokens, none of them a comment or a directive, and their gaps do not
make a difference. The brackets and strings `s` are open in the block in front of the tokens. -/
inductive Alike : List Opened → List Token → List Token → Prop where
  | close {u u' : Token} (us us' : List Token) : u.isSymbol ['\x7d'] = true → u'.bare = u.bare →
    Alike [] (u :: us) (u' :: us')
  | cons {s s' : List Opened} {u u' : Token} {us us' : List Token} : u.isPlain = true → u'.bare = u.bare →
    nest? u.kind u.text s = some s' → (u.kind = .symbol → SameGap u.text us us') → Alike s' us us' →
    Alike s (u :: us) (u' :: us')

theorem Alike.exists_cons {s : List Opened} {ts ts' : List Token} (h : Alike s ts ts') :
    ∃ u us u' us', ts = u :: us ∧ ts' = u' :: us' ∧ u.isPlain = true ∧ u'.bare = u.bare := by
  cases h with
  | close us us' hclose hbare => exact ⟨_, us, _, us', rfl, rfl, Token.isPlain_of_isSymbol hclose, hbare⟩
  | cons hplain hbare _ _ _ => exact ⟨_, _, _, _, rfl, rfl, hplain, hbare⟩

theorem Token.isPlain_congr {t u : Token} (h : u.bare = t.bare) : u.isPlain = t.isPlain :=
  have hblind : Token.Blind Token.isPlain := fun _ => rfl
  hblind.congr h

theorem sticksTo_congr {t u : Token} (h : u.bare = t.bare) (x : Text) : u.sticksTo x = t.sticksTo x :=
  have hblind : Token.Blind (Token.sticksTo · x) := fun _ => rfl
  hblind.congr h

theorem Alike.skipTrivia {s : List Opened} {ts ts' : List Token} (h : Alike s ts ts') :
    Pattern.skipTrivia ts = ts ∧ Pattern.skipTrivia ts' = ts' := by
  obtain ⟨u, us, u', us', rfl, rfl, hplain, hbare⟩ := h.exists_cons
  have hplain' : u'.isPlain = true := (Token.isPlain_congr hbare).trans hplain
  constructor
  · exact List.dropWhile_cons_of_neg (by simp [Token.isTrivia_of_isPlain hplain])
  · exact List.dropWhile_cons_of_neg (by simp [Token.isTrivia_of_isPlain hplain'])

theorem takeToken_cons {accepts : Token → Bool} {u : Token} (hplain : u.isPlain = true) (us : List Token) :
    Pattern.takeToken accepts (u :: us) = if accepts u then some ([Tree.leaf u], us) else none := by
  have hsolid : u.isTrivia = false := Token.isTrivia_of_isPlain hplain
  rw [Pattern.takeToken, Pattern.skipTrivia, List.dropWhile_cons_of_neg (by simp [hsolid]),
    List.takeWhile_cons_of_neg (by simp [hsolid])]
  rfl

/-! ## Patterns that cannot tell them apart -/

namespace Pattern

/-- The condition says the same of lists that are alike. -/
def Blind (condition : List Token → Bool) : Prop :=
  ∀ (s : List Opened) (ts ts' : List Token), Alike s ts ts' → condition ts' = condition ts

/-- The pattern is a token of a block that has no directives, which it does not match. -/
def Refuses : Pattern Rule → Prop
  | token accepts => ∀ t, accepts t = true → t.isPlain = false
  | _ => False

/-- The last token of each match is the symbol `x`. -/
def EndsIn (x : Text) : Pattern Rule → Prop
  | token accepts => ∀ t, accepts t = true → t.isSymbol x = true
  | both _ q => q.EndsIn x
  | _ => False

/-- A gap between the symbol `x` and the first token of a match matters. -/
def StartsBehind (x : Text) : Pattern Rule → Prop
  | token accepts => ∀ t, accepts t = true → t.sticksTo x = true
  | both p _ => p.StartsBehind x
  | _ => False

/-- The pattern is a token, whatever its gap. -/
def IsBlindToken : Pattern Rule → Prop
  | token accepts => Token.Blind accepts
  | _ => False

/-- The pattern cannot tell lists apart that are alike. Behind the symbol `x` it may ask whether the next token is tight if
this matters for the token that it takes then. -/
def Steady : Pattern Rule → Option Text → Prop
  | nothing, _ => True
  | token accepts, _ => Token.Blind accepts
  | rule name, _ => closesItself name = true
  | both p q, x => p.Refuses ∨ (p = nextIs Token.isTight ∧ (∃ y ∈ x, q.StartsBehind y) ∧ q.Steady none) ∨
      p.Steady x ∧ (q.Steady none ∨ ∃ y, p.EndsIn y ∧ q.Steady (some y))
  | either p q, x => p.Steady x ∧ q.Steady x
  | many p, _ => p.Steady none
  | when condition, _ => Blind condition
  | ahead p, _ => p.IsBlindToken
  | node _ p, _ => p.Steady none

/-- The pattern asks nowhere whether a token is tight, and a list with directives is none that it may tell from others. -/
@[simp] def Gapless : Pattern Rule → Prop
  | nothing => True
  | token accepts => Token.Blind accepts
  | rule name => closesItself name = true
  | both p q => p.Gapless ∧ q.Gapless
  | either p q => p.Gapless ∧ q.Gapless
  | many p => p.Gapless
  | when condition => Blind condition
  | ahead p => p.IsBlindToken
  | node _ p => p.Gapless

theorem Gapless.steady {p : Pattern Rule} (h : p.Gapless) (x : Option Text) : p.Steady x := by
  induction p generalizing x with
  | nothing => trivial
  | token accepts => exact h
  | rule name => exact h
  | both p q ihp ihq => exact Or.inr (Or.inr ⟨ihp h.1 x, Or.inl (ihq h.2 none)⟩)
  | either p q ihp ihq => exact ⟨ihp h.1 x, ihq h.2 x⟩
  | many p ih => exact ih h none
  | when condition => exact h
  | ahead p _ => exact h
  | node kind p ih => exact ih h none

end Pattern

/-- What two matches of a pattern come to that are the same but for the gaps, with `s` open behind them. -/
inductive SameResult (p : Pattern Rule) (s : List Opened) :
    Option (List Tree × List Token) → Option (List Tree × List Token) → Prop where
  | none : SameResult p s none none
  | some {row row' : List Tree} {rest rest' : List Token} : row'.map Tree.bare = row.map Tree.bare →
    Alike s rest rest' → (∀ x, p.EndsIn x → SameGap x rest rest') → SameResult p s (some (row, rest)) (some (row', rest'))

theorem SameResult.of_endsIn {p q : Pattern Rule} {s : List Opened} {o o' : Option (List Tree × List Token)}
    (h : SameResult p s o o') (hends : ∀ x, q.EndsIn x → p.EndsIn x) : SameResult q s o o' := by
  cases h with
  | none => exact .none
  | some hrow hrest hgap => exact .some hrow hrest (fun x hx => hgap x (hends x hx))

theorem sameResult_takeToken {accepts : Token → Bool} {s s' z : List Opened} {ts ts' : List Token}
    (h : Alike (s ++ z) ts ts') (hleads : (Pattern.token accepts).Leads s s') (hblind : Token.Blind accepts) :
    SameResult (.token accepts) (s' ++ z) (Pattern.takeToken accepts ts) (Pattern.takeToken accepts ts') := by
  obtain ⟨u, us, u', us', rfl, rfl, hplain, hbare⟩ := h.exists_cons
  rw [takeToken_cons hplain, takeToken_cons ((Token.isPlain_congr hbare).trans hplain), hblind.congr hbare]
  by_cases haccepts : accepts u = true
  · rw [if_pos haccepts, if_pos haccepts]
    have hnest := nest?_append (hleads u haccepts) z
    generalize hs : s ++ z = m at h hnest
    cases h with
    | close _ _ hclose _ =>
      rw [Token.isSymbol, Bool.and_eq_true] at hclose
      rw [eq_of_beq hclose.1, eq_of_beq hclose.2] at hnest
      cases hnest
    | cons _ _ hnest' hgap hrest =>
      rw [hnest] at hnest'
      cases hnest'
      refine .some (by simp [Tree.bare, hbare]) hrest (fun x hx => ?_)
      have hsymbol := hx u haccepts
      rw [Token.isSymbol, Bool.and_eq_true] at hsymbol
      rw [← eq_of_beq hsymbol.2]
      exact hgap (eq_of_beq hsymbol.1)
  · rw [if_neg haccepts, if_neg haccepts]
    exact .none

theorem run_of_refuses {p : Pattern Rule} (h : p.Refuses) {u : Token} (hplain : u.isPlain = true) (us : List Token)
    (fuel : Nat) : Pattern.run grammar fuel p (u :: us) = none := by
  cases fuel with
  | zero => rfl
  | succ fuel =>
    cases p with
    | token accepts =>
      rw [Pattern.run, takeToken_cons hplain, if_neg]
      intro haccepts
      rw [h u haccepts] at hplain
      cases hplain
    | _ => cases h

theorem run_of_startsBehind {p : Pattern Rule} {x : Text} (h : p.StartsBehind x) {u : Token} (hplain : u.isPlain = true)
    (hsticks : u.sticksTo x = false) (us : List Token) (fuel : Nat) : Pattern.run grammar fuel p (u :: us) = none := by
  induction fuel generalizing p with
  | zero => rfl
  | succ fuel ih =>
    cases p with
    | token accepts =>
      rw [Pattern.run, takeToken_cons hplain, if_neg]
      intro haccepts
      rw [h u haccepts] at hsticks
      cases hsticks
    | both p q =>
      have hfirst := ih (p := p) h
      simp only [Pattern.run, hfirst]
    | _ => cases h

theorem SameResult.both {p q : Pattern Rule} {m s : List Opened} {o o' : Option (List Tree × List Token)}
    {next next' : List Token → Option (List Tree × List Token)} (h : SameResult p m o o')
    (hnext : ∀ rest rest', Alike m rest rest' → (∀ x, p.EndsIn x → SameGap x rest rest') →
      SameResult q s (next rest) (next' rest')) : SameResult (.both p q) s (followed next o) (followed next' o') := by
  cases h with
  | none => exact .none
  | @some row row' rest rest' hrow hrest hgap =>
    have hsecond := hnext rest rest' hrest hgap
    rw [followed, followed]
    generalize next rest = o at hsecond ⊢
    generalize next' rest' = o' at hsecond ⊢
    cases hsecond with
    | none => exact .none
    | some hrow' hrest' hgap' => exact .some (by rw [List.map_append, List.map_append, hrow, hrow']) hrest' hgap'

theorem SameResult.isNone_eq {p : Pattern Rule} {s : List Opened} {o o' : Option (List Tree × List Token)}
    (h : SameResult p s o o') : o'.isNone = o.isNone := by
  cases h <;> rfl

theorem run_nextIs {accepts : Token → Bool} {u : Token} (hplain : u.isPlain = true) (us : List Token) (fuel : Nat) :
    Pattern.run grammar (fuel + 1) (Pattern.nextIs accepts) (u :: us) =
      if accepts u then some ([], u :: us) else none := by
  rw [Pattern.nextIs, Pattern.run, Pattern.skipTrivia,
    List.dropWhile_cons_of_neg (by simp [Token.isTrivia_of_isPlain hplain])]
  rfl

section Grammar

variable (hgrammar : ∀ name, Pattern.closesItself name = true → (grammar name).Steady none)
include hgrammar

theorem run_alike_of {fuel : Nat} {p : Pattern Rule} {x : Option Text} {s s' z : List Opened} {ts ts' : List Token}
    (h : Alike (s ++ z) ts ts') (hleads : p.Leads s s') (hsteady : p.Steady x) (hx : ∀ y ∈ x, SameGap y ts ts') :
    SameResult p (s' ++ z) (Pattern.run grammar fuel p ts) (Pattern.run grammar fuel p ts') := by
  induction fuel generalizing p x s s' z ts ts' with
  | zero => exact .none
  | succ fuel ih =>
    cases p with
    | nothing =>
      cases hleads
      exact .some rfl h (fun _ => False.elim)
    | token accepts => exact sameResult_takeToken h hleads hsteady
    | rule name =>
      obtain ⟨rfl, hcloses, -⟩ := hleads
      exact (ih (s := []) h (leads_grammar hcloses) (hgrammar name hcloses) sameGap_none).of_endsIn (fun _ => False.elim)
    | both p q =>
      obtain ⟨between, hp, hq⟩ := hleads
      rw [run_both, run_both]
      obtain ⟨u, us, u', us', rfl, rfl, hplain, hbare⟩ := h.exists_cons
      have hplain' := (Token.isPlain_congr hbare).trans hplain
      rcases hsteady with hrefuses | ⟨rfl, ⟨y, hy, hstarts⟩, hsteady⟩ | ⟨hsteadyp, hsteadyq⟩
      · rw [run_of_refuses hrefuses hplain, run_of_refuses hrefuses hplain']
        exact .none
      · cases hp
        cases fuel with
        | zero => exact .none
        | succ fuel =>
          rw [run_nextIs hplain, run_nextIs hplain']
          by_cases hsticks : u.sticksTo y = true
          · refine SameResult.both (p := .nextIs Token.isTight) (m := s ++ z) ?_
              (fun rest rest' hrest _ => ih hrest hq hsteady sameGap_none)
            rw [hx y hy u rfl u' rfl hsticks]
            split
            · exact .some rfl h (fun _ => False.elim)
            · exact .none
          · have hnone := run_of_startsBehind hstarts hplain (by simpa using hsticks) us (fuel + 1)
            have hnone' := run_of_startsBehind hstarts hplain' (by simpa [sticksTo_congr hbare] using hsticks) us' (fuel + 1)
            cases Token.isTight u <;> cases Token.isTight u' <;> simp [followed, hnone, hnone', SameResult.none]
      · refine (ih h hp hsteadyp hx).both (fun rest rest' hrest hgap => ?_)
        rcases hsteadyq with hsteadyq | ⟨y, hends, hsteadyq⟩
        · exact ih hrest hq hsteadyq sameGap_none
        · refine ih hrest hq hsteadyq (fun w hw => ?_)
          cases hw
          exact hgap y hends
    | either p q =>
      rw [Pattern.run, Pattern.run]
      have hfirst := ih h hleads.1 hsteady.1 hx
      generalize Pattern.run grammar fuel p ts = o at hfirst ⊢
      generalize Pattern.run grammar fuel p ts' = o' at hfirst ⊢
      cases hfirst with
      | none => exact (ih h hleads.2 hsteady.2 hx).of_endsIn (fun _ => False.elim)
      | some hrow hrest _ => exact .some hrow hrest (fun _ => False.elim)
    | many p =>
      obtain ⟨rfl, hp⟩ := hleads
      have hfirst := ih h hp hsteady sameGap_none
      rw [run_many, run_many, hfirst.isNone_eq]
      split
      · exact .some rfl h (fun _ => False.elim)
      · exact (hfirst.both (fun rest rest' hrest _ =>
          ih (p := .many p) (x := none) hrest ⟨rfl, hp⟩ hsteady sameGap_none)).of_endsIn (fun _ => False.elim)
    | when condition =>
      cases hleads
      rw [Pattern.run, Pattern.run, h.skipTrivia.1, h.skipTrivia.2, hsteady _ _ _ h]
      split
      · exact .some rfl h (fun _ => False.elim)
      · exact .none
    | ahead p =>
      cases hleads
      rw [Pattern.run, Pattern.run]
      cases p with
      | token accepts =>
        obtain ⟨u, us, u', us', rfl, rfl, hplain, hbare⟩ := h.exists_cons
        cases fuel with
        | zero => exact .none
        | succ fuel =>
          rw [Pattern.run, Pattern.run, takeToken_cons hplain, takeToken_cons ((Token.isPlain_congr hbare).trans hplain),
            Token.Blind.congr hsteady hbare]
          cases accepts u with
          | true => exact .some rfl h (fun _ => False.elim)
          | false => exact .none
      | _ => cases hsteady
    | node kind p =>
      obtain ⟨rfl, -, -, hp⟩ := hleads
      rw [Pattern.run, Pattern.run]
      have hinner := ih (s := []) h hp hsteady sameGap_none
      generalize Pattern.run grammar fuel p ts = o at hinner ⊢
      generalize Pattern.run grammar fuel p ts' = o' at hinner ⊢
      cases hinner with
      | none => exact .none
      | some hrow hrest _ =>
        exact .some (by rw [Tree.map_bare_group, Tree.map_bare_group, hrow]) hrest (fun _ => False.elim)

end Grammar

end CSharpDraft.Fragment
