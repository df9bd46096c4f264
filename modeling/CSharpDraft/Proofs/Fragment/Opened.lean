import CSharpDraft.Fragment.Tree

/-!
# What is open between tokens

* `Opened`, `nest?` : the brackets and interpolated strings that are open, and what a token does to them;
* `nestAll?`, `TokensNest` : what tokens do, and what they do inside of something that is open.
-/

set_option autoImplicit false

namespace CSharpDraft.Fragment

/-! ## What is open -/

/-- What waits for its end: a bracket, or an interpolated string in one of its holes. -/
inductive Opened where
  | bracket
  | string
  deriving DecidableEq, Repr

def openingBrackets : List Text := [['('], ['['], ['\x7b']]

def closingBrackets : List Text := [[')'], [']'], ['\x7d']]

/-- What is open behind a symbol, the innermost first. -/
def nestSymbol? (x : Text) (s : List Opened) : Option (List Opened) :=
  if openingBrackets.contains x then some (.bracket :: s)
  else if closingBrackets.contains x then
    match s with
    | .bracket :: s => some s
    | _ => none
  else some s

/-- What is open behind a token, if the token fits. -/
def nest? (k : TokenKind) (x : Text) (s : List Opened) : Option (List Opened) :=
  match k with
  | .symbol => nestSymbol? x s
  | .interpolated .opening => some (.string :: s)
  | .interpolated .middle =>
    match s with
    | .string :: s => some (.string :: s)
    | _ => none
  | .interpolated .closing =>
    match s with
    | .string :: s => some s
    | _ => none
  | _ => some s

/-- The innermost thing that is open, if any, is a bracket. -/
def Firm (s : List Opened) : Prop := s.head? ≠ some .string

theorem nestSymbol?_append {x : Text} {s s' : List Opened} (h : nestSymbol? x s = some s') (z : List Opened) :
    nestSymbol? x (s ++ z) = some (s' ++ z) := by
  unfold nestSymbol? at *
  split
  · next hopens =>
    rw [if_pos hopens] at h
    cases h
    rfl
  · next hopens =>
    rw [if_neg hopens] at h
    split
    · next hcloses =>
      rw [if_pos hcloses] at h
      cases s with
      | nil => cases h
      | cons o s =>
        cases o with
        | bracket =>
          cases h
          rfl
        | string => cases h
    · next hcloses =>
      rw [if_neg hcloses] at h
      cases h
      rfl

theorem nest?_append {k : TokenKind} {x : Text} {s s' : List Opened} (h : nest? k x s = some s') (z : List Opened) :
    nest? k x (s ++ z) = some (s' ++ z) := by
  cases k with
  | symbol => exact nestSymbol?_append h z
  | interpolated part =>
    cases part with
    | whole | opening =>
      cases h
      rfl
    | middle | closing =>
      cases s with
      | nil => cases h
      | cons o s =>
        cases o with
        | bracket => cases h
        | string =>
          cases h
          rfl
  | word | escapedWord | number | character | string | comment | directive | conditional =>
    cases h
    rfl

theorem nest?_of_isTrivia {t : Token} (h : t.isTrivia = true) (s : List Opened) : nest? t.kind t.text s = some s := by
  rcases Bool.or_eq_true _ _ ▸ h with h | h <;> rw [eq_of_beq h] <;> rfl

theorem Firm.append {s z : List Opened} (hs : Firm s) (hz : Firm z) : Firm (s ++ z) := by
  cases s with
  | nil => exact hz
  | cons o s => exact hs

@[simp] theorem firm_nil : Firm [] := fun h => by cases h

@[simp] theorem firm_bracket (s : List Opened) : Firm (.bracket :: s) := fun h => by cases h

/-! ## Rows of tokens -/

/-- The tokens fit behind what is open, and something is open in front of each of them that is no opening brace. -/
def TokensNest : List Token → List Opened → List Opened → Prop
  | [], s, s' => s' = s
  | u :: us, s, s' =>
    (s ≠ [] ∨ u.text = ['\x7b']) ∧ ∃ between, nest? u.kind u.text s = some between ∧ TokensNest us between s'

theorem tokensNest_append {us vs : List Token} {s s' : List Opened} :
    TokensNest (us ++ vs) s s' ↔ ∃ between, TokensNest us s between ∧ TokensNest vs between s' := by
  induction us generalizing s with
  | nil => simp [TokensNest]
  | cons u us ih =>
    simp only [List.cons_append, TokensNest, ih]
    constructor
    · rintro ⟨hopen, m, hu, n, hus, hvs⟩
      exact ⟨n, ⟨hopen, m, hu, hus⟩, hvs⟩
    · rintro ⟨n, ⟨hopen, m, hu, hus⟩, hvs⟩
      exact ⟨hopen, m, hu, n, hus, hvs⟩

/-- What is open behind tokens, if all of them fit. -/
def nestAll? : List Token → List Opened → Option (List Opened)
  | [], s => some s
  | u :: us, s => (nest? u.kind u.text s).bind (nestAll? us)

theorem nestAll?_cons {u : Token} {us : List Token} {s s' : List Opened} :
    nestAll? (u :: us) s = some s' ↔ ∃ m, nest? u.kind u.text s = some m ∧ nestAll? us m = some s' :=
  Option.bind_eq_some_iff

theorem nestAll?_append (us vs : List Token) (s : List Opened) :
    nestAll? (us ++ vs) s = (nestAll? us s).bind (nestAll? vs) := by
  induction us generalizing s with
  | nil => rfl
  | cons u us ih =>
    rw [List.cons_append, nestAll?, nestAll?, Option.bind_assoc]
    exact congrArg _ (funext ih)

/-- Tokens do the same where more is open around them. -/
theorem nestAll?_around {us : List Token} {s s' : List Opened} (h : nestAll? us s = some s') (z : List Opened) :
    nestAll? us (s ++ z) = some (s' ++ z) := by
  induction us generalizing s with
  | nil =>
    cases h
    rfl
  | cons u us ih =>
    obtain ⟨m, hu, hus⟩ := nestAll?_cons.mp h
    exact nestAll?_cons.mpr ⟨m ++ z, nest?_append hu z, ih hus⟩

end CSharpDraft.Fragment
