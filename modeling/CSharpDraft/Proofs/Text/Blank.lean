import CSharpDraft.Text.Pascal

/-!
# Blank texts

Trimming, upper case and Pascal case never turn a text that can serve as a name into one that cannot.

* `isBlank_trim` : a text is blank exactly if nothing of it is left when it is trimmed;
* `blankCodes` : the code points of the blank characters, with what the tables have at them, so that a class of characters
  without blanks is told by looking at these alone (`isBlankChar_of_class`);
* `isBlank_upperChar` : the upper case of a character is blank exactly if the character is;
* `isBlank_pascal` : the Pascal case of a key is blank exactly if the key is.
-/

set_option autoImplicit false

namespace CSharpDraft.Text

/-! ## Trimming -/

theorem isBlank_singleton (c : Char) : isBlank [c] = isBlankChar c := by
  rw [isBlank, List.all_cons, List.all_nil, Bool.and_true]

theorem isBlank_cons (c : Char) (t : Text) : isBlank (c :: t) = (isBlankChar c && isBlank t) := List.all_cons

theorem isBlank_append (s t : Text) : isBlank (s ++ t) = (isBlank s && isBlank t) := List.all_append

theorem isBlank_trimLeft (t : Text) : isBlank (trimLeft t) = isBlank t := by
  unfold trimLeft
  induction t with
  | nil => rfl
  | cons c t ih =>
    rw [List.dropWhile_cons]
    split
    · next hc => rw [ih, isBlank_cons, hc, Bool.true_and]
    · rfl

theorem isBlank_reverse (t : Text) : isBlank t.reverse = isBlank t := List.all_reverse

theorem isBlank_trimRight (t : Text) : isBlank (trimRight t) = isBlank t := by
  have htrim := isBlank_trimLeft t.reverse
  rw [trimRight, isBlank_reverse, ← isBlank_reverse t]
  exact htrim

theorem isBlank_trim (t : Text) : isBlank (trim t) = isBlank t := by
  rw [trim, isBlank_trimRight, isBlank_trimLeft]

/-- A text without one character at its end is blank if the whole text is. -/
theorem isBlank_of_dropTrailing {c : Char} {t : Text} (h : isBlank (dropTrailing c t) = false) : isBlank t = false := by
  rw [dropTrailing, isBlank_reverse] at h
  rw [← isBlank_reverse t]
  cases hrev : t.reverse with
  | nil =>
    rw [hrev] at h
    exact h
  | cons d r =>
    rw [hrev, dropLeading] at h
    split at h
    · rw [isBlank_cons, h, Bool.and_false]
    · exact h

/-! ## Blank code points -/

/-- Code points that are blank as far as the tables of characters go: none is part of a word, and none has an upper case
of its own or is the upper case of another. The images of the characters of a run lie between those of its first and its
last. -/
structure BlankCodes where
  codes : List Nat
  word : ∀ n ∈ codes, isWord (Char.ofNat n) = false
  upper : ∀ n ∈ codes, upperChar (Char.ofNat n) = [Char.ofNat n]
  apart : ∀ r ∈ upperRuns, ∀ n ∈ codes, (n : Int) < r.first + r.shift ∨ r.last + r.shift < (n : Int)

def blankCodes : BlankCodes where
  codes := [0x09, 0x0A, 0x0B, 0x0C, 0x0D, 0x1C, 0x1D, 0x1E, 0x1F, 0x20, 0x85, 0xA0, 0x1680, 0x2000, 0x2001, 0x2002, 0x2003,
    0x2004, 0x2005, 0x2006, 0x2007, 0x2008, 0x2009, 0x200A, 0x2028, 0x2029, 0x202F, 0x205F, 0x3000]
  word := by decide +kernel
  upper := by decide +kernel
  apart := by decide +kernel

theorem mem_blankCodes {c : Char} (h : isBlankChar c = true) : c.toNat ∈ blankCodes.codes := by
  simp only [isBlankChar, Bool.or_eq_true, Bool.and_eq_true, decide_eq_true_eq, beq_iff_eq] at h
  simp only [blankCodes, List.mem_cons, List.not_mem_nil, or_false]
  omega

/-- What holds of the characters at the blank code points holds of every blank character. -/
theorem of_isBlankChar {P : Char → Prop} (h : ∀ n ∈ blankCodes.codes, P (Char.ofNat n)) {c : Char} (hc : isBlankChar c = true) :
    P c := by
  rw [← Char.ofNat_toNat c]
  exact h _ (mem_blankCodes hc)

theorem isBlankChar_of_class {p : Char → Bool} (h : ∀ n ∈ blankCodes.codes, p (Char.ofNat n) = false) {c : Char}
    (hc : p c = true) : isBlankChar c = false := by
  cases hblank : isBlankChar c with
  | false => rfl
  | true =>
    have hp : p c = false := of_isBlankChar (P := fun c => p c = false) h hblank
    rw [hp] at hc
    cases hc

/-- No character of a word is blank. -/
theorem isBlankChar_of_isWord {c : Char} : isWord c = true → isBlankChar c = false :=
  isBlankChar_of_class blankCodes.word

theorem isBlankChar_of_isSeparator {c : Char} : isSeparator c = true → isBlankChar c = false :=
  isBlankChar_of_class (by decide)

/-! ## Upper case -/

theorem upperChar_of_isBlankChar {c : Char} : isBlankChar c = true → upperChar c = [c] :=
  of_isBlankChar (P := fun c => upperChar c = [c]) blankCodes.upper

/-- No upper case of several characters is blank. -/
theorem upperLonger_solid : ∀ e ∈ upperLonger, isBlank (e.2.map Char.ofNat) = false := by decide

/-- A number that is no code point stands for the character zero. -/
theorem toNat_ofNat (n : Nat) : (Char.ofNat n).toNat = n ∨ (Char.ofNat n).toNat = 0 := by
  by_cases h : n.isValidChar
  · rw [Char.ofNat, dif_pos h]
    exact Or.inl rfl
  · rw [Char.ofNat, dif_neg h]
    exact Or.inr rfl

theorem isBlankChar_of_upperRuns {r : CaseRun} (hr : r ∈ upperRuns) {n : Nat} (hn : r.contains n = true) :
    isBlankChar (Char.ofNat (n + r.shift).toNat) = false := by
  simp only [CaseRun.contains, Bool.and_eq_true, decide_eq_true_eq] at hn
  cases hblank : isBlankChar (Char.ofNat (n + r.shift).toNat) with
  | false => rfl
  | true =>
    have hcode := mem_blankCodes hblank
    have hpos : (Char.ofNat (n + r.shift).toNat).toNat ≠ 0 := by
      intro hzero
      rw [hzero] at hcode
      revert hcode
      decide
    have hapart := blankCodes.apart r hr _ hcode
    rcases toNat_ofNat (n + r.shift).toNat with hsame | hzero
    · omega
    · exact absurd hzero hpos

theorem isBlank_upperChar (c : Char) : isBlank (upperChar c) = isBlankChar c := by
  cases hblank : isBlankChar c with
  | true => rw [upperChar_of_isBlankChar hblank, isBlank_singleton, hblank]
  | false =>
    unfold upperChar CaseMap.apply
    cases hrun : upperRuns.find? (·.contains c.toNat) with
    | some r =>
      have hcontains := List.find?_some hrun
      dsimp only
      rw [isBlank_singleton]
      exact isBlankChar_of_upperRuns (List.mem_of_find?_eq_some hrun) hcontains
    | none =>
      dsimp only
      cases himage : upperLonger.lookup c.toNat with
      | none => rw [isBlank_singleton, hblank]
      | some image =>
        obtain ⟨front, back, heq, -⟩ := List.lookup_eq_some_iff.mp himage
        have hmem : (c.toNat, image) ∈ upperLonger := by
          rw [heq]
          exact List.mem_append_right _ List.mem_cons_self
        exact upperLonger_solid _ hmem

/-! ## Pascal case -/

theorem isBlank_raiseWords (t : Text) : isBlank (raiseWords t) = isBlank t := by
  fun_induction raiseWords t with
  | case1 s c r h ih =>
    obtain ⟨hs, hc⟩ := Bool.and_eq_true_iff.mp h
    rw [isBlank_append, isBlank_upperChar, isBlankChar_of_isWord hc, isBlank_cons, isBlankChar_of_isSeparator hs,
      Bool.false_and, Bool.false_and]
  | case2 s c r h ih => rw [isBlank_cons, ih, isBlank_cons s]
  | case3 r h => rfl

/-- Pascal case makes no key blank, and no blank key a name. -/
theorem isBlank_pascal (t : Text) : isBlank (pascal t) = isBlank t := by
  unfold pascal
  split
  · next h =>
    rw [h]
    rfl
  · cases t with
    | nil => rfl
    | cons c r =>
      dsimp only
      rw [isBlank_append, isBlank_upperChar, isBlank_raiseWords, isBlank_cons]

end CSharpDraft.Text
