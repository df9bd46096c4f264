import CSharpDraft.Fragment.Lexer
import CSharpDraft.Proofs.Fragment.Spacing

/-!
# Tokens and what stands behind them

A token is as long as possible, so the lexer looks at what stands behind it.
-/

set_option autoImplicit false

namespace CSharpDraft.Fragment

open Text (EndsSolid endsSolid_singleton isNameStart isNameRest)

/-! ## Texts behind a token -/

theorem stopless {t : Text} (h : t.any isStop = false) : ∀ c ∈ t, isStop c = false := by
  simpa using h

/-- The text `r'` may take the place of `r`: up to its first stop it starts with nothing that `r` does not start with. -/
def Covers (r r' : Text) : Prop := ∀ s, (∀ c ∈ s, isStop c = false) → s <+: r' → s <+: r

theorem Covers.refl (r : Text) : Covers r r := fun _ _ h => h

theorem covers_nil (r : Text) : Covers r [] := by
  intro s _ h
  rw [List.prefix_nil.mp h]
  exact List.nil_prefix

theorem covers_stop {c : Char} (hc : isStop c = true) (r r' : Text) : Covers r (c :: r') := by
  intro s hs h
  cases s with
  | nil => exact List.nil_prefix
  | cons d s =>
    rw [List.cons_prefix_cons] at h
    have hd := hs d List.mem_cons_self
    rw [h.1, hc] at hd
    cases hd

theorem Covers.append {r r' : Text} (h : Covers r r') (y : Text) : Covers (y ++ r) (y ++ r') := by
  intro s hs hstart
  induction y generalizing s with
  | nil => exact h s hs hstart
  | cons d y ih =>
    cases s with
    | nil => exact List.nil_prefix
    | cons c s =>
      rw [List.cons_append, List.cons_prefix_cons] at hstart ⊢
      exact ⟨hstart.1, ih s (fun e he => hs e (List.mem_cons_of_mem c he)) hstart.2⟩

/-- What is seen of the new text up to its first stop is there in the old text. -/
theorem Covers.cons {r r' : Text} {c : Char} (h : Covers r (c :: r')) (hc : isStop c = false) :
    ∃ q, r = c :: q ∧ Covers q r' := by
  obtain ⟨q, rfl⟩ := h [c] (by simpa using hc) ⟨r', rfl⟩
  refine ⟨q, rfl, fun s hs hstart => ?_⟩
  have hall := h (c :: s) (by simpa [hc] using hs) (List.cons_prefix_cons.mpr ⟨rfl, hstart⟩)
  exact (List.cons_prefix_cons.mp hall).2

/-- The first character of the new text is in no class of characters that the old text does not go on with. -/
theorem Covers.head_not {r r' : Text} {p : Char → Bool} (h : Covers r r') (hp : ∀ c, p c = true → isStop c = false)
    (hr : ∀ c q, r = c :: q → p c = false) : ∀ c q, r' = c :: q → p c = false := by
  rintro c q rfl
  cases hc : p c with
  | false => rfl
  | true =>
    obtain ⟨q, rfl, -⟩ := h.cons (hp c hc)
    rw [← hc, hr c q rfl]

/-- The codes of all stops. -/
def stopCodes : List Nat :=
  [0x09, 0x0A, 0x0B, 0x0C, 0x0D, 0x1C, 0x1D, 0x1E, 0x1F, 0x20, 0x85, 0xA0, 0x1680, 0x2000, 0x2001, 0x2002, 0x2003, 0x2004,
    0x2005, 0x2006, 0x2007, 0x2008, 0x2009, 0x200A, 0x2028, 0x2029, 0x202F, 0x205F, 0x3000, 0xFEFF]

theorem mem_stopCodes {c : Char} (h : isStop c = true) : c.toNat ∈ stopCodes := by
  simp only [isStop, isGapChar, Text.isBlankChar, Bool.or_eq_true, Bool.and_eq_true, decide_eq_true_eq, beq_iff_eq] at h
  simp only [stopCodes, List.mem_cons, List.not_mem_nil, or_false]
  omega

theorem eq_false_of_codes {p : Char → Bool} {codes : List Nat} (h : ∀ n ∈ codes, p (Char.ofNat n) = false) {c : Char}
    (hc : c.toNat ∈ codes) : p c = false := by
  rw [← Char.ofNat_toNat c]
  exact h _ hc

/-- A class of characters without stops; only the stops have to be looked at. -/
theorem not_isStop {p : Char → Bool} (h : ∀ n ∈ stopCodes, p (Char.ofNat n) = false) :
    ∀ c, p c = true → isStop c = false := by
  intro c hc
  cases hstop : isStop c with
  | false => rfl
  | true =>
    rw [eq_false_of_codes h (mem_stopCodes hstop)] at hc
    cases hc

/-! ## Runs of characters -/

/-- What a scanner of a run of characters does: its cut is one of the text, the part that it takes has no stop, and it
takes that part wherever what follows does not continue it. -/
def Steady (f : Text → Cut) : Prop :=
  ∀ t x r, f t = (x, r) → t = x ++ r ∧ (∀ c ∈ x, isStop c = false) ∧ ∀ r', Covers r r' → f (x ++ r') = (x, r')

theorem scanWhile_eq_iff {p : Char → Bool} {t x r : Text} :
    scanWhile p t = (x, r) ↔ t = x ++ r ∧ (∀ c ∈ x, p c = true) ∧ ∀ c q, r = c :: q → p c = false := by
  unfold scanWhile
  rw [Prod.mk.injEq]
  constructor
  · rintro ⟨rfl, rfl⟩
    refine ⟨List.takeWhile_append_dropWhile.symm, fun c hc => List.all_eq_true.mp List.all_takeWhile c hc, ?_⟩
    intro c q hq
    have := List.head?_dropWhile_not p t
    rw [hq] at this
    simpa using this
  · rintro ⟨rfl, hx, hr⟩
    rw [List.takeWhile_append_of_pos hx, List.dropWhile_append_of_pos hx]
    cases r with
    | nil => simp
    | cons c q => simp [hr c q rfl]

theorem steady_scanWhile {p : Char → Bool} (hp : ∀ c, p c = true → isStop c = false) : Steady (scanWhile p) := by
  intro t x r h
  obtain ⟨rfl, hx, hr⟩ := scanWhile_eq_iff.mp h
  exact ⟨rfl, fun c hc => hp c (hx c hc), fun r' hc => scanWhile_eq_iff.mpr ⟨rfl, hx, hc.head_not hp hr⟩⟩

/-- At most `n` characters of a class. -/
def scanUpTo (n : Nat) (p : Char → Bool) (t : Text) : Cut :=
  ((t.take n).takeWhile p, t.drop ((t.take n).takeWhile p).length)

theorem scanUpTo_cons (n : Nat) (p : Char → Bool) (c : Char) (t : Text) :
    scanUpTo (n + 1) p (c :: t) = if p c then Cut.prepend [c] (scanUpTo n p t) else ([], c :: t) := by
  unfold scanUpTo
  rw [List.take_succ_cons, List.takeWhile_cons]
  cases p c with
  | true => rfl
  | false => rfl

theorem scanUpTo_of_head_not {n : Nat} {p : Char → Bool} {t : Text} (h : ∀ c q, t = c :: q → p c = false) :
    scanUpTo n p t = ([], t) := by
  match n, t with
  | 0, _ => rfl
  | _ + 1, [] => rfl
  | n + 1, c :: t => rw [scanUpTo_cons, h c t rfl]; rfl

theorem steady_scanUpTo (n : Nat) {p : Char → Bool} (hp : ∀ c, p c = true → isStop c = false) :
    Steady (scanUpTo n p) := by
  induction n with
  | zero =>
    intro t x r h
    obtain ⟨rfl, rfl⟩ := Prod.mk.inj h
    exact ⟨rfl, fun c hc => absurd hc List.not_mem_nil, fun r' _ => rfl⟩
  | succ n ih =>
    intro t x r h
    by_cases hhead : ∀ c q, t = c :: q → p c = false
    · rw [scanUpTo_of_head_not hhead] at h
      obtain ⟨rfl, rfl⟩ := Prod.mk.inj h
      exact ⟨rfl, fun c hc => absurd hc List.not_mem_nil, fun r' hc => scanUpTo_of_head_not (hc.head_not hp hhead)⟩
    · cases t with
      | nil => exact absurd (fun c q hq => by cases hq) hhead
      | cons d t =>
        cases hd : p d with
        | false => exact absurd (fun c q hq => by cases hq; exact hd) hhead
        | true =>
          rw [scanUpTo_cons, if_pos hd] at h
          cases hcut : scanUpTo n p t with
          | mk y q =>
            rw [hcut] at h
            obtain ⟨rfl, rfl⟩ := Prod.mk.inj h
            obtain ⟨rfl, hy, hnew⟩ := ih t y q hcut
            refine ⟨rfl, fun c hc => ?_, fun r' hc => ?_⟩
            · rcases List.mem_cons.mp hc with rfl | hc
              · exact hp c hd
              · exact hy c hc
            · change scanUpTo (n + 1) p (d :: (y ++ r')) = (d :: y, r')
              rw [scanUpTo_cons, if_pos hd, hnew r' hc]
              rfl

/-- One scanner, then another on what it leaves. -/
def scanBoth (f g : Text → Cut) (t : Text) : Cut := Cut.prepend (f t).1 (g (f t).2)

theorem Steady.both {f g : Text → Cut} (hf : Steady f) (hg : Steady g) : Steady (scanBoth f g) := by
  intro t x r h
  cases hfirst : f t with
  | mk y q =>
  cases hsecond : g q with
  | mk z q' =>
  rw [scanBoth, hfirst, hsecond] at h
  obtain ⟨rfl, rfl⟩ := Prod.mk.inj h
  obtain ⟨rfl, hy, hynew⟩ := hf t y q hfirst
  obtain ⟨rfl, hz, hznew⟩ := hg q z q' hsecond
  refine ⟨(List.append_assoc y z q').symm, fun c hc => ?_, fun r' hc => ?_⟩
  · rcases List.mem_append.mp hc with hc | hc
    · exact hy c hc
    · exact hz c hc
  · rw [List.append_assoc, scanBoth, hynew _ (hc.append z), hznew r' hc]
    rfl

theorem isStop_of_isNameRest : ∀ c, isNameRest c = true → isStop c = false := not_isStop (by decide +kernel)

theorem isStop_of_isDigit : ∀ c, Char.isDigit c = true → isStop c = false := not_isStop (by decide)

theorem isStop_of_isHexDigit : ∀ c, isHexDigit c = true → isStop c = false := not_isStop (by decide)

/-! ## Numbers -/

theorem steady_scanDigits {p : Char → Bool} (hp : ∀ c, p c = true → isStop c = false) : Steady (scanDigits p) := by
  refine steady_scanWhile (fun c hc => ?_)
  rcases Bool.or_eq_true _ _ ▸ hc with hc | hc
  · exact hp c hc
  · rw [eq_of_beq hc]
    rfl

theorem steady_scanSuffix (n : Nat) {letters : Text} (h : ∀ c ∈ letters, isStop c = false) :
    Steady (scanSuffix n letters) :=
  steady_scanUpTo n (fun c hc => h c (List.elem_iff.mp hc))

/-- Digits behind a digit are digits. -/
theorem scanDigits_cons {p : Char → Bool} {d : Char} (hd : p d = true) (r : Text) :
    ∃ y q, scanDigits p (d :: r) = (d :: y, q) := by
  refine ⟨r.takeWhile (fun c => p c || c == '_'), r.dropWhile (fun c => p c || c == '_'), ?_⟩
  simp [scanDigits, scanWhile, hd]

/-- A part of a number that starts with the characters `front`, with digits behind them. -/
def Fronted (front : Text) (t : Text) : Prop := ∃ d r, t = front ++ d :: r ∧ d.isDigit = true

theorem Fronted.of_covers {front r r' : Text} (hfront : ∀ c ∈ front, isStop c = false) (h : Covers r r')
    (hr' : Fronted front r') : Fronted front r := by
  obtain ⟨d, q, rfl, hd⟩ := hr'
  have hstops : ∀ c ∈ front ++ [d], isStop c = false := by
    intro c hc
    rcases List.mem_append.mp hc with hc | hc
    · exact hfront c hc
    · rw [List.mem_singleton.mp hc]
      exact isStop_of_isDigit d hd
  obtain ⟨q', rfl⟩ := h (front ++ [d]) hstops ⟨q, by simp⟩
  exact ⟨d, q', by simp, hd⟩

/-- A scanner that takes one of several fronts with the digits behind it, or nothing. -/
theorem steady_of_fronted {f : Text → Cut} (Front : Text → Prop) (hstops : ∀ w, Front w → ∀ c ∈ w, isStop c = false)
    (htake : ∀ w, Front w → ∀ d r, d.isDigit = true →
      f (w ++ d :: r) = Cut.prepend w (scanDigits Char.isDigit (d :: r)))
    (hleave : ∀ t, (∀ w, Front w → ¬ Fronted w t) → f t = ([], t)) : Steady f := by
  intro t x r h
  by_cases hfront : ∃ w, Front w ∧ Fronted w t
  · obtain ⟨w, hw, d, q, rfl, hd⟩ := hfront
    obtain ⟨y, q', hcut⟩ := scanDigits_cons hd q
    obtain ⟨hq, hy, hnew⟩ := steady_scanDigits isStop_of_isDigit _ _ _ hcut
    rw [htake w hw d q hd, hcut] at h
    obtain ⟨rfl, rfl⟩ := Prod.mk.inj h
    refine ⟨by rw [hq, List.append_assoc], fun c hc => ?_, fun r' hc => ?_⟩
    · rcases List.mem_append.mp hc with hc | hc
      · exact hstops w hw c hc
      · exact hy c hc
    · rw [List.append_assoc, List.cons_append, htake w hw d _ hd, ← List.cons_append, hnew r' hc]
      rfl
  · have hnone : ∀ w, Front w → ¬ Fronted w t := fun w hw ht => hfront ⟨w, hw, ht⟩
    rw [hleave t hnone] at h
    obtain ⟨rfl, rfl⟩ := Prod.mk.inj h
    exact ⟨rfl, fun c hc => absurd hc List.not_mem_nil, fun r' hc =>
      hleave r' (fun w hw ht => hnone w hw (ht.of_covers (hstops w hw) hc))⟩

theorem steady_scanFraction : Steady scanFraction := by
  refine steady_of_fronted (· = ['.']) (by rintro w rfl; exact stopless rfl) ?_ ?_
  · rintro w rfl d r hd
    simp [scanFraction, hd]
  · intro t ht
    unfold scanFraction
    split
    · next d r => rw [if_neg (fun hd => ht ['.'] rfl ⟨d, r, rfl, hd⟩)]
    · rfl

theorem isStop_of_isAmong {cs : Text} (h : ∀ c ∈ cs, isStop c = false) : ∀ c, isAmong cs c = true → isStop c = false :=
  fun c hc => h c (List.elem_iff.mp hc)

theorem isAmong_sign_of_isDigit {d : Char} (hd : d.isDigit = true) : isAmong ['+', '-'] d = false := by
  cases hsign : isAmong ['+', '-'] d with
  | false => rfl
  | true =>
    simp only [isAmong, List.contains_cons, List.contains_nil, Bool.or_false, Bool.or_eq_true, beq_iff_eq] at hsign
    rcases hsign with rfl | rfl <;> exact absurd hd (by decide)

/-- What stands in front of the digits of an exponent: its letter, with a sign behind it or without. -/
inductive ExponentFront : Text → Prop where
  | plain {e : Char} : isAmong ['e', 'E'] e = true → ExponentFront [e]
  | signed {e s : Char} : isAmong ['e', 'E'] e = true → isAmong ['+', '-'] s = true → ExponentFront [e, s]

theorem steady_scanExponent : Steady scanExponent := by
  have hletters : ∀ c, isAmong ['e', 'E'] c = true → isStop c = false := isStop_of_isAmong (stopless rfl)
  have hsigns : ∀ c, isAmong ['+', '-'] c = true → isStop c = false := isStop_of_isAmong (stopless rfl)
  refine steady_of_fronted ExponentFront ?_ ?_ ?_
  · rintro w (he | ⟨he, hs⟩)
    · simpa using hletters _ he
    · simpa using ⟨hletters _ he, hsigns _ hs⟩
  · rintro w (he | ⟨he, hs⟩) d r hd
    · cases r with
      | nil => simp [scanExponent, he, hd, scanDigits, scanWhile, Cut.prepend]
      | cons c r => simp [scanExponent, he, hd, isAmong_sign_of_isDigit hd]
    · simp [scanExponent, he, hs, hd]
  · intro t ht
    unfold scanExponent
    split
    · next e s d r =>
      rw [if_neg, if_neg]
      · intro h
        rw [Bool.and_eq_true] at h
        exact ht [e] (.plain h.1) ⟨s, d :: r, rfl, h.2⟩
      · intro h
        rw [Bool.and_eq_true, Bool.and_eq_true] at h
        exact ht [e, s] (.signed h.1.1 h.1.2) ⟨d, r, rfl, h.2⟩
    · next e d =>
      rw [if_neg]
      intro h
      rw [Bool.and_eq_true] at h
      exact ht [e] (.plain h.1) ⟨d, [], rfl, h.2⟩
    · rfl

/-! A number: each of its parts is steady, and a part that is left out here is left out there too. -/

theorem steady_scanDecimal : Steady scanNumber.scanDecimal := by
  intro t x r h
  unfold scanNumber.scanDecimal at h
  cases hw : scanDigits Char.isDigit t with
  | mk w r₁ =>
  cases hf : scanFraction r₁ with
  | mk f r₂ =>
  cases he : scanExponent r₂ with
  | mk e r₃ =>
  cases hm : scanSuffix 1 "fFdDmM".toList r₃ with
  | mk m r₄ =>
  obtain ⟨rfl, hw', hwnew⟩ := steady_scanDigits isStop_of_isDigit t w r₁ hw
  obtain ⟨rfl, hf', hfnew⟩ := steady_scanFraction r₁ f r₂ hf
  obtain ⟨rfl, he', henew⟩ := steady_scanExponent r₂ e r₃ he
  obtain ⟨rfl, hm', hmnew⟩ := steady_scanSuffix 1 (stopless rfl) r₃ m r₄ hm
  simp only [hw, hf, he, hm] at h
  have hparts : ∀ z, Covers r₄ z → scanNumber.scanDecimal (w ++ (f ++ (e ++ (m ++ z)))) =
      if f.isEmpty && e.isEmpty && m.isEmpty then Cut.prepend (w ++ f ++ e) (scanSuffix 2 "uUlL".toList z)
      else Cut.prepend (w ++ f ++ e) (m, z) := by
    intro z hz
    have hm₁ := hz.append m
    have he₁ := hm₁.append e
    unfold scanNumber.scanDecimal
    simp only [hwnew _ (he₁.append f), hfnew _ he₁, henew _ hm₁, hmnew _ hz]
  by_cases hplain : (f.isEmpty && e.isEmpty && m.isEmpty) = true
  · cases hs : scanSuffix 2 "uUlL".toList r₄ with
    | mk s r₅ =>
    obtain ⟨rfl, hs', hsnew⟩ := steady_scanSuffix 2 (stopless rfl) r₄ s r₅ hs
    rw [if_pos hplain, hs] at h
    obtain ⟨rfl, rfl⟩ := Prod.mk.inj h
    have hm₀ : m = [] := List.isEmpty_iff.mp (Bool.and_eq_true _ _ ▸ hplain).2
    refine ⟨by simp [hm₀], fun c hc => ?_, fun r' hc => ?_⟩
    · simp only [List.mem_append] at hc
      grind
    · have hnew := hparts (s ++ r') (hc.append s)
      rw [if_pos hplain, hsnew r' hc] at hnew
      simpa [hm₀, Cut.prepend] using hnew
  · rw [if_neg hplain] at h
    obtain ⟨rfl, rfl⟩ := Prod.mk.inj h
    refine ⟨by simp, fun c hc => ?_, fun r' hc => ?_⟩
    · simp only [List.mem_append] at hc
      grind
    · have hnew := hparts r' hc
      rw [if_neg hplain] at hnew
      simpa [Cut.prepend] using hnew

/-- The digits behind the mark of a radix. -/
inductive Radix : Char → (Char → Bool) → Prop where
  | hex {x : Char} : isAmong ['x', 'X'] x = true → Radix x isHexDigit
  | binary {x : Char} : isAmong ['b', 'B'] x = true → Radix x (isAmong ['0', '1'])

theorem scanNumber_radix {x : Char} {p : Char → Bool} (h : Radix x p) (r : Text) :
    scanNumber ('0' :: x :: r) =
      Cut.prepend ['0', x] (scanBoth (scanDigits p) (scanSuffix 2 "uUlL".toList) r) := by
  cases h with
  | hex hx => simp [scanNumber, scanBoth, hx, Cut.prepend]
  | binary hx =>
    have hhex : isAmong ['x', 'X'] x = false := by
      simp only [isAmong, List.contains_cons, List.contains_nil, Bool.or_false, Bool.or_eq_true, beq_iff_eq] at hx
      rcases hx with rfl | rfl <;> rfl
    simp [scanNumber, scanBoth, hx, hhex, Cut.prepend]

theorem scanNumber_decimal {t : Text} (h : ∀ x p r, t = '0' :: x :: r → ¬ Radix x p) :
    scanNumber t = scanNumber.scanDecimal t := by
  unfold scanNumber
  split
  · next x r =>
    rw [if_neg (fun hx => h x _ r rfl (.hex hx)), if_neg (fun hx => h x _ r rfl (.binary hx))]
  · rfl

theorem steady_scanNumber : Steady scanNumber := by
  intro t x r h
  by_cases hradix : ∃ y p q, t = '0' :: y :: q ∧ Radix y p
  · obtain ⟨y, p, q, rfl, hy⟩ := hradix
    have hp : (∀ c, p c = true → isStop c = false) ∧ isStop y = false := by
      cases hy with
      | hex hy => exact ⟨isStop_of_isHexDigit, isStop_of_isAmong (stopless rfl) y hy⟩
      | binary hy => exact ⟨isStop_of_isAmong (stopless rfl), isStop_of_isAmong (stopless rfl) y hy⟩
    have hsuffix : Steady (scanSuffix 2 "uUlL".toList) := steady_scanSuffix 2 (stopless rfl)
    rw [scanNumber_radix hy] at h
    cases hcut : scanBoth (scanDigits p) (scanSuffix 2 "uUlL".toList) q with
    | mk digits rest =>
      obtain ⟨rfl, hdigits, hnew⟩ := (steady_scanDigits hp.1).both hsuffix q digits rest hcut
      rw [hcut] at h
      obtain ⟨rfl, rfl⟩ := Prod.mk.inj h
      refine ⟨rfl, fun c hc => ?_, fun r' hc => ?_⟩
      · rcases List.mem_append.mp hc with hc | hc
        · rcases List.mem_cons.mp hc with rfl | hc
          · rfl
          · rw [List.mem_singleton.mp hc]
            exact hp.2
        · exact hdigits c hc
      · have hnumber := scanNumber_radix hy (digits ++ r')
        rw [hnew r' hc] at hnumber
        exact hnumber
  · have hplain : ∀ y p q, t = '0' :: y :: q → ¬ Radix y p := fun y p q ht hy => hradix ⟨y, p, q, ht, hy⟩
    rw [scanNumber_decimal hplain] at h
    obtain ⟨rfl, hx, hnew⟩ := steady_scanDecimal t x r h
    refine ⟨rfl, hx, fun r' hc => ?_⟩
    rw [scanNumber_decimal, hnew r' hc]
    intro y p q hq hy
    have hy' : isStop y = false := by
      cases hy with
      | hex hy => exact isStop_of_isAmong (stopless rfl) y hy
      | binary hy => exact isStop_of_isAmong (stopless rfl) y hy
    have hcover := hc.append x
    rw [hq] at hcover
    obtain ⟨q₁, hq₁, hcover₁⟩ := hcover.cons rfl
    obtain ⟨q₂, rfl, -⟩ := hcover₁.cons hy'
    exact hplain y p q₂ hq₁ hy

/-! ## Characters and strings -/

/-- What a scanner of a literal does with a text: its cut is one of the text, the part that it takes ends with a character
that is not blank, and it takes that part wherever what follows does not continue it. -/
def StableAt (f : Text → Option Cut) (t : Text) : Prop :=
  ∀ x r, f t = some (x, r) → t = x ++ r ∧ EndsSolid x ∧ ∀ r', Covers r r' → f (x ++ r') = some (x, r')

theorem StableAt.of_none {f : Text → Option Cut} {t : Text} (h : f t = none) : StableAt f t := by
  intro x r hx
  rw [h] at hx
  cases hx

/-- The scanner ends with `w`. -/
theorem StableAt.done {f : Text → Option Cut} {w q : Text} (hw : EndsSolid w)
    (h : ∀ r', Covers q r' → f (w ++ r') = some (w, r')) : StableAt f (w ++ q) := by
  intro x r hx
  rw [h q (Covers.refl q)] at hx
  cases hx
  exact ⟨rfl, hw, h⟩

/-- The scanner takes `w` and goes on as `g`; it sees no more than the first character behind `w`. -/
theorem StableAt.more {f g : Text → Option Cut} {w q : Text} (hg : StableAt g q)
    (h : ∀ q', q'.head? = q.head? → f (w ++ q') = (g q').map (Cut.prepend w)) : StableAt f (w ++ q) := by
  intro x r hx
  rw [h q rfl] at hx
  cases hq : g q with
  | none =>
    rw [hq] at hx
    cases hx
  | some c =>
    obtain ⟨y, r⟩ := c
    rw [hq] at hx
    cases hx
    obtain ⟨rfl, hy, hnew⟩ := hg y r hq
    refine ⟨(List.append_assoc w y r).symm, hy.append w, fun r' hc => ?_⟩
    rw [List.append_assoc, h _ (hy.head?_append r r'), hnew r' hc]
    rfl

theorem stableAt_scanComment (t : Text) : StableAt scanComment t := by
  fun_induction scanComment t with
  | case1 r => exact StableAt.done (w := ['*', '/']) ⟨['*'], '/', rfl, rfl⟩ (fun r' _ => rfl)
  | case2 c r hno ih =>
    refine StableAt.more (w := [c]) ih (fun q hq => ?_)
    rw [List.singleton_append, scanComment.eq_2]
    rintro r' rfl rfl
    cases r with
    | nil => cases hq
    | cons d r =>
      cases hq
      exact hno r rfl rfl
  | case3 => exact .of_none rfl

theorem stableAt_scanString (t : Text) : StableAt scanString t := by
  fun_induction scanString t with
  | case1 r => exact StableAt.done (w := ['"']) ⟨[], '"', rfl, rfl⟩ (fun r' _ => rfl)
  | case2 r => exact .of_none rfl
  | case3 c r ih => exact StableAt.more (w := ['\\', c]) ih (fun q _ => rfl)
  | case4 c r h1 h2 h3 ih => 
    refine StableAt.more (w := [c]) ih (fun q hq => ?_)
    rw [List.singleton_append, scanString.eq_4]
    · exact h1
    · exact h2
    · rintro d r' rfl rfl
      cases r with
      | nil => cases hq
      | cons d r => exact h3 d r rfl rfl
  | case5 => exact .of_none rfl

theorem stableAt_scanVerbatim (t : Text) : StableAt scanVerbatim t := by
  fun_induction scanVerbatim t with
  | case1 r ih => exact StableAt.more (w := ['"', '"']) ih (fun q _ => rfl)
  | case2 r hno =>
    refine StableAt.done (w := ['"']) ⟨[], '"', rfl, rfl⟩ (fun r' hc => ?_)
    rw [List.singleton_append, scanVerbatim.eq_2]
    rintro q rfl
    obtain ⟨q', rfl, -⟩ := hc.cons rfl
    exact hno q' rfl
  | case3 c r h1 h2 ih =>
    refine StableAt.more (w := [c]) ih (fun q hq => ?_)
    rw [List.singleton_append, scanVerbatim.eq_3 c q (fun r' hc _ => h2 hc) h2]
  | case4 => exact .of_none rfl

theorem stableAt_scanRaw (quotes seen : Nat) (t : Text) : StableAt (scanRaw quotes seen) t := by
  fun_induction scanRaw quotes seen t with
  | case1 seen r hlast =>
    refine StableAt.done (w := ['"']) ⟨[], '"', rfl, rfl⟩ (fun r' _ => ?_)
    rw [List.singleton_append, scanRaw, if_pos hlast]
  | case2 seen r hmore ih =>
    refine StableAt.more (w := ['"']) ih (fun q _ => ?_)
    rw [List.singleton_append, scanRaw, if_neg hmore]
  | case3 seen c r hno ih =>
    refine StableAt.more (w := [c]) ih (fun q _ => ?_)
    rw [List.singleton_append, scanRaw.eq_2]
    exact hno
  | case4 seen => exact .of_none rfl

/-- The mark of a string of bytes is taken or left, whatever follows. -/
theorem steady_scanBytesMark : Steady scanBytesMark := by
  intro t x r h
  by_cases hmark : ∃ c q, t = c :: '8' :: q ∧ isAmong ['u', 'U'] c = true
  · obtain ⟨c, q, rfl, hc⟩ := hmark
    have hcut : ∀ q, scanBytesMark (c :: '8' :: q) = ([c, '8'], q) := fun q => by rw [scanBytesMark, if_pos hc]
    rw [hcut] at h
    cases h
    refine ⟨rfl, fun d hd => ?_, fun r' _ => hcut r'⟩
    rcases List.mem_cons.mp hd with rfl | hd
    · exact isStop_of_isAmong (stopless rfl) d hc
    · rw [List.mem_singleton.mp hd]
      rfl
  · have hleave : ∀ t, (¬ ∃ c q, t = c :: '8' :: q ∧ isAmong ['u', 'U'] c = true) → scanBytesMark t = ([], t) := by
      intro t ht
      unfold scanBytesMark
      split
      · next c q => rw [if_neg (fun hc => ht ⟨c, q, rfl, hc⟩)]
      · rfl
    rw [hleave t hmark] at h
    cases h
    refine ⟨rfl, fun d hd => absurd hd List.not_mem_nil, fun r' hc => hleave r' ?_⟩
    rintro ⟨c, q, rfl, hmark'⟩
    obtain ⟨q₁, rfl, hc₁⟩ := hc.cons (isStop_of_isAmong (stopless rfl) c hmark')
    obtain ⟨q₂, rfl, -⟩ := hc₁.cons rfl
    exact hmark ⟨c, q₂, rfl, hmark'⟩

theorem endsSolid_append_stopless {x y : Text} (hx : EndsSolid x) (hy : ∀ c ∈ y, isStop c = false) :
    EndsSolid (x ++ y) := by
  rcases List.eq_nil_or_concat y with rfl | ⟨z, c, rfl⟩
  · rw [List.append_nil]
    exact hx
  · rw [List.concat_eq_append] at hy ⊢
    exact EndsSolid.append x ⟨z, c, rfl, isBlankChar_of_not_isStop (hy c (by simp))⟩

theorem endsSolid_of_stopless {c : Char} {x : Text} (h : ∀ d ∈ c :: x, isStop d = false) : EndsSolid (c :: x) :=
  endsSolid_append_stopless (endsSolid_singleton (isBlankChar_of_not_isStop (h c List.mem_cons_self)))
    (fun d hd => h d (List.mem_cons_of_mem c hd))

/-- The scanner takes `w`, goes on as `g` and takes the mark of a string of bytes if there is one. -/
theorem StableAt.withBytesMark {f g : Text → Option Cut} {w q : Text} (hg : StableAt g q)
    (h : ∀ q', q'.head? = q.head? → f (w ++ q') = (g q').map (fun c => (Cut.prepend w c).withBytesMark)) :
    StableAt f (w ++ q) := by
  intro x r hx
  rw [h q rfl] at hx
  cases hq : g q with
  | none =>
    rw [hq] at hx
    cases hx
  | some c =>
    obtain ⟨y, q'⟩ := c
    cases hmark : scanBytesMark q' with
    | mk m r =>
    rw [hq, Option.map_some, Cut.withBytesMark, Cut.prepend, Cut.prepend, hmark] at hx
    cases hx
    obtain ⟨rfl, hy, hnew⟩ := hg y q' hq
    obtain ⟨rfl, hm, hmnew⟩ := steady_scanBytesMark q' m r hmark
    refine ⟨by simp, endsSolid_append_stopless (hy.append w) hm, fun r' hc => ?_⟩
    rw [List.append_assoc, List.append_assoc, h _ (hy.head?_append _ _), hnew _ (hc.append m), Option.map_some,
      Cut.withBytesMark, Cut.prepend, Cut.prepend, hmnew r' hc]

theorem scanHex_eq (least most : Nat) (t : Text) :
    scanHex least most t =
      if least ≤ (scanUpTo most isHexDigit t).1.length then some (scanUpTo most isHexDigit t) else none := rfl

theorem stableAt_scanHex (least most : Nat) (hleast : 0 < least) (t : Text) : StableAt (scanHex least most) t := by
  intro x r h
  cases hcut : scanUpTo most isHexDigit t with
  | mk y q =>
  obtain ⟨rfl, hy, hnew⟩ := steady_scanUpTo most isStop_of_isHexDigit t y q hcut
  rw [scanHex_eq, hcut] at h
  split at h
  · next hlen =>
    cases h
    refine ⟨rfl, ?_, fun r' hc => ?_⟩
    · cases x with
      | nil => exact absurd hlen (Nat.not_le_of_lt hleast)
      | cons c x => exact endsSolid_of_stopless hy
    · rw [scanHex_eq, hnew r' hc, if_pos hlen]
  · cases h

theorem stableAt_scanEscape (t : Text) : StableAt scanEscape t := by
  fun_cases scanEscape t with
  | case1 r => exact StableAt.more (w := ['x']) (stableAt_scanHex 2 4 (by decide) r) (fun q _ => rfl)
  | case2 r => exact StableAt.more (w := ['u']) (stableAt_scanHex 4 4 (by decide) r) (fun q _ => rfl)
  | case3 r => exact StableAt.more (w := ['U']) (stableAt_scanHex 8 8 (by decide) r) (fun q _ => rfl)
  | case4 c r hx hu hU hc =>
    have hsolid : Text.isBlankChar c = false := isBlankChar_of_not_isStop (isStop_of_isAmong (stopless rfl) c hc)
    refine StableAt.done (w := [c]) (endsSolid_singleton hsolid) (fun r' _ => ?_)
    rw [List.singleton_append, scanEscape.eq_4, if_pos hc]
    · exact hx
    · exact hu
    · exact hU
  | case5 c r hx hu hU hc =>
    refine .of_none ?_
    rw [scanEscape.eq_4, if_neg hc]
    · exact hx
    · exact hu
    · exact hU
  | case6 => exact .of_none rfl

theorem stableAt_scanCharacter (t : Text) : StableAt scanCharacter t := by
  have hquote : EndsSolid ['\''] := ⟨[], '\'', rfl, rfl⟩
  fun_cases scanCharacter t with
  | case1 r taken rest hescape =>
    obtain ⟨rfl, -, hnew⟩ := stableAt_scanEscape r taken _ hescape
    have hdone : StableAt scanCharacter ((['\\'] ++ taken ++ ['\'']) ++ rest) := by
      refine .done (hquote.append _) (fun r' hc => ?_)
      rw [List.append_assoc, List.append_assoc, List.singleton_append, scanCharacter,
        hnew _ (hc.append ['\''])]
      rfl
    simpa using hdone
  | case2 r hno =>
    refine .of_none ?_
    rw [scanCharacter]
    split
    · next taken rest h => exact absurd h (hno taken rest)
    · rfl
  | case3 r => exact .of_none rfl
  | case4 c r h1 h2 =>
    refine StableAt.done (w := [c, '\'']) (hquote.append [c]) (fun r' _ => ?_)
    rw [List.cons_append, List.singleton_append, scanCharacter.eq_3]
    · exact h1
    · exact h2
  | case5 t h1 h2 h3 =>
    refine .of_none ?_
    rw [scanCharacter.eq_4]
    · exact h1
    · exact h2
    · exact h3

theorem isNameRest_of_isNameStart {c : Char} (h : isNameStart c = true) : isNameRest c = true := by
  simp [isNameRest, h]

theorem stableAt_scanName (t : Text) : StableAt scanName t := by
  intro x r h
  match t with
  | [] => cases h
  | c :: q =>
    rw [scanName] at h
    split at h
    · next hc =>
      obtain ⟨hx, hstops, hnew⟩ := steady_scanWhile isStop_of_isNameRest _ x r (Option.some.inj h)
      have hfirst : ∃ y, x = c :: y := by
        have htake := congrArg Prod.fst (Option.some.inj h)
        rw [scanWhile, List.takeWhile_cons_of_pos (isNameRest_of_isNameStart hc)] at htake
        exact ⟨_, htake.symm⟩
      obtain ⟨y, rfl⟩ := hfirst
      refine ⟨hx, endsSolid_of_stopless hstops, fun r' hcover => ?_⟩
      rw [List.cons_append, scanName, if_pos hc, ← List.cons_append, hnew r' hcover]
    · cases h

/-! ## Strings by their first quotes -/

theorem le_length_takeWhile {n : Nat} {c : Char} {t : Text} :
    n ≤ (t.takeWhile (· == c)).length ↔ List.replicate n c <+: t := by
  induction n generalizing t with
  | zero => simp
  | succ n ih =>
    cases t with
    | nil => simp [List.replicate_succ]
    | cons d t =>
      rw [List.replicate_succ, List.cons_prefix_cons, List.takeWhile_cons]
      cases hd : d == c with
      | true =>
        rw [if_pos rfl, List.length_cons, Nat.add_le_add_iff_right, ih]
        exact (and_iff_right (eq_of_beq hd).symm).symm
      | false =>
        rw [if_neg (by simp)]
        simp only [List.length_nil, Nat.le_zero, Nat.add_eq_zero_iff, Nat.one_ne_zero, and_false, false_iff, not_and]
        rintro rfl
        simp at hd

/-- A string on one line, from its first quote. -/
def scanRegular (t : Text) : Option Cut := (scanString (t.drop 1)).map (fun c => (Cut.prepend ['"'] c).withBytesMark)

theorem scanQuoted_of_few {t : Text} (h : ¬ List.replicate 3 '"' <+: t) : scanQuoted t = scanRegular t := by
  rw [scanQuoted, if_neg (fun hlen => h (le_length_takeWhile.mp hlen))]
  rfl

theorem scanWhile_append_of_head {p : Char → Bool} {t x r r' : Text} (h : scanWhile p t = (x, r))
    (hhead : r'.head? = r.head?) : scanWhile p (x ++ r') = (x, r') := by
  obtain ⟨-, hx, hr⟩ := scanWhile_eq_iff.mp h
  refine scanWhile_eq_iff.mpr ⟨rfl, hx, ?_⟩
  rintro c q rfl
  cases r with
  | nil => cases hhead
  | cons d r =>
    cases hhead
    exact hr c r rfl

theorem stableAt_scanQuoted (q : Text) : StableAt scanQuoted ('"' :: q) := by
  by_cases hraw : List.replicate 3 '"' <+: '"' :: q
  · cases hcut : scanWhile (· == '"') ('"' :: q) with
    | mk quotes rest =>
    have ht : '"' :: q = quotes ++ rest := (scanWhile_eq_iff.mp hcut).1
    have hfirst : ('"' :: q).takeWhile (· == '"') = quotes := congrArg Prod.fst hcut
    have hlen : 3 ≤ quotes.length := by
      rw [← hfirst]
      exact le_length_takeWhile.mpr hraw
    rw [ht]
    refine StableAt.withBytesMark (stableAt_scanRaw quotes.length 0 rest) (fun q' hq' => ?_)
    have hquotes : (quotes ++ q').takeWhile (· == '"') = quotes :=
      congrArg Prod.fst (scanWhile_append_of_head hcut hq')
    rw [scanQuoted, hquotes, if_pos hlen, List.drop_left]
  · have hregular : StableAt scanRegular ('"' :: q) :=
      StableAt.withBytesMark (w := ['"']) (stableAt_scanString q) (fun _ _ => rfl)
    intro x r h
    rw [scanQuoted_of_few hraw] at h
    obtain ⟨ht, hx, hnew⟩ := hregular x r h
    refine ⟨ht, hx, fun r' hc => ?_⟩
    rw [scanQuoted_of_few, hnew r' hc]
    intro hthree
    refine hraw ?_
    rw [ht]
    exact hc.append x _ (stopless rfl) hthree

/-! ## Interpolated strings -/

/-- The cut of a stretch that ends in the given way. -/
def Stretch.cut? (e : StretchEnd) : Stretch → Option Cut
  | (x, e', r) => if e' = e then some (x, r) else none

/-- The stretches that end in one way, as a scanner. -/
def stretchTo (e : StretchEnd) (f : Text → Option Stretch) (t : Text) : Option Cut := (f t).bind (Stretch.cut? e)

theorem stretchTo_eq_some {e : StretchEnd} {f : Text → Option Stretch} {t x r : Text} :
    stretchTo e f t = some (x, r) ↔ f t = some (x, e, r) := by
  unfold stretchTo
  cases f t with
  | none => simp
  | some s =>
    obtain ⟨y, e', q⟩ := s
    by_cases he : e' = e
    · simp [Stretch.cut?, he]
    · simp [Stretch.cut?, he]

theorem stretchTo_more {e : StretchEnd} {f g : Text → Option Stretch} {t q w : Text}
    (h : f t = (g q).map (Stretch.prepend w)) : stretchTo e f t = (stretchTo e g q).map (Cut.prepend w) := by
  unfold stretchTo
  rw [h]
  cases g q with
  | none => rfl
  | some s =>
    obtain ⟨y, e', r⟩ := s
    simp only [Option.map_some, Option.bind_some, Stretch.prepend, Stretch.cut?]
    split <;> rfl

theorem stableAt_of_end {f : Text → Option Stretch} {w q : Text} (d : StretchEnd) (hw : EndsSolid w)
    (h : ∀ r', Covers q r' → f (w ++ r') = some (w, d, r')) (e : StretchEnd) : StableAt (stretchTo e f) (w ++ q) := by
  by_cases he : d = e
  · exact .done hw (fun r' hc => stretchTo_eq_some.mpr (he ▸ h r' hc))
  · refine .of_none ?_
    rw [stretchTo, h q (Covers.refl q), Option.bind_some, Stretch.cut?, if_neg he]

theorem endsSolid_quote : EndsSolid ['"'] := endsSolid_singleton rfl

theorem endsSolid_brace : EndsSolid ['\x7b'] := endsSolid_singleton rfl

theorem stableAt_stretchRegular (e : StretchEnd) (t : Text) : StableAt (stretchTo e stretchRegular) t := by
  fun_induction stretchRegular t with
  | case1 r => exact stableAt_of_end .close endsSolid_quote (fun _ _ => rfl) e
  | case2 r ih => exact StableAt.more (w := ['\x7b', '\x7b']) ih (fun q _ => stretchTo_more rfl)
  | case3 r hno =>
    refine stableAt_of_end .hole endsSolid_brace (fun r' hc => ?_) e
    rw [List.singleton_append, stretchRegular.eq_3]
    rintro q rfl
    obtain ⟨q', rfl, -⟩ := hc.cons rfl
    exact hno q' rfl
  | case4 r => exact .of_none rfl
  | case5 c r ih => exact StableAt.more (w := ['\\', c]) ih (fun q _ => stretchTo_more rfl)
  | case6 c r hquote _ hbrace hfeed hslash ih =>
    refine StableAt.more (w := [c]) ih (fun q hq => stretchTo_more ?_)
    refine stretchRegular.eq_6 c q hquote (fun _ hc _ => hbrace hc) hbrace hfeed ?_
    rintro d q' hc rfl
    cases r with
    | nil => cases hq
    | cons d' r => exact hslash d' r hc rfl
  | case7 => exact .of_none rfl

theorem stableAt_stretchVerbatim (e : StretchEnd) (t : Text) : StableAt (stretchTo e stretchVerbatim) t := by
  fun_induction stretchVerbatim t with
  | case1 r ih => exact StableAt.more (w := ['"', '"']) ih (fun q _ => stretchTo_more rfl)
  | case2 r hno =>
    refine stableAt_of_end .close endsSolid_quote (fun r' hc => ?_) e
    rw [List.singleton_append, stretchVerbatim.eq_2]
    rintro q rfl
    obtain ⟨q', rfl, -⟩ := hc.cons rfl
    exact hno q' rfl
  | case3 r ih => exact StableAt.more (w := ['\x7b', '\x7b']) ih (fun q _ => stretchTo_more rfl)
  | case4 r hno =>
    refine stableAt_of_end .hole endsSolid_brace (fun r' hc => ?_) e
    rw [List.singleton_append, stretchVerbatim.eq_4]
    rintro q rfl
    obtain ⟨q', rfl, -⟩ := hc.cons rfl
    exact hno q' rfl
  | case5 c r _ hquote _ hbrace ih =>
    exact StableAt.more (w := [c]) ih (fun q _ => stretchTo_more
      (stretchVerbatim.eq_5 c q (fun _ hc _ => hquote hc) hquote (fun _ hc _ => hbrace hc) hbrace))
  | case6 => exact .of_none rfl

theorem stableAt_stretchRaw (e : StretchEnd) (quotes braces seenQuotes seenBraces : Nat) (t : Text) :
    StableAt (stretchTo e (stretchRaw quotes braces seenQuotes seenBraces)) t := by
  fun_induction stretchRaw quotes braces seenQuotes seenBraces t with
  | case1 seenQuotes seenBraces r hlast =>
    refine stableAt_of_end .close endsSolid_quote (fun r' _ => ?_) e
    rw [List.singleton_append, stretchRaw, if_pos hlast]
  | case2 seenQuotes seenBraces r hmore ih =>
    refine StableAt.more (w := ['"']) ih (fun q _ => stretchTo_more ?_)
    rw [List.singleton_append, stretchRaw, if_neg hmore]
  | case3 seenQuotes seenBraces r hlast =>
    refine stableAt_of_end .hole endsSolid_brace (fun r' _ => ?_) e
    rw [List.singleton_append, stretchRaw, if_pos hlast]
  | case4 seenQuotes seenBraces r hmore ih =>
    refine StableAt.more (w := ['\x7b']) ih (fun q _ => stretchTo_more ?_)
    rw [List.singleton_append, stretchRaw, if_neg hmore]
  | case5 seenQuotes seenBraces c r hquote hbrace ih =>
    exact StableAt.more (w := [c]) ih (fun q _ => stretchTo_more (stretchRaw.eq_3 quotes braces _ _ c q hquote hbrace))
  | case6 => exact .of_none rfl

/-- A stretch is found again wherever what follows does not continue it. -/
theorem stretch_stable {quote : Quote} {t x r : Text} {e : StretchEnd} (h : stretch quote t = some (x, e, r)) :
    t = x ++ r ∧ EndsSolid x ∧ ∀ r', Covers r r' → stretch quote (x ++ r') = some (x, e, r') := by
  have hstable : StableAt (stretchTo e (stretch quote)) t := by
    cases quote with
    | regular => exact stableAt_stretchRegular e t
    | verbatim => exact stableAt_stretchVerbatim e t
    | raw quotes braces => exact stableAt_stretchRaw e quotes braces 0 0 t
  obtain ⟨ht, hx, hnew⟩ := hstable x r (stretchTo_eq_some.mpr h)
  exact ⟨ht, hx, fun r' hc => stretchTo_eq_some.mp (hnew r' hc)⟩

end CSharpDraft.Fragment
