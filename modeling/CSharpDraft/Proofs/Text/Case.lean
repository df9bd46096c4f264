import CSharpDraft.Proofs.Text.Blank

/-!
# What is in upper case stays as it is

The upper case of a character is found in a table. What is said here about all of its rows is evaluated on numbers that
have a bit for each code point in question, so that two lists of code points are compared by one operation on numerals.

* `codeSet ns`, `rangeSet rs` : the code points of a list, or of a list of ranges, as the bits of a number;
* `CaseMap.entries` : the characters that a mapping changes, with their images (`CaseMap.apply_eq_or`,
  `CaseMap.apply_of_forall_ne`);
* `upperChar_of_mem_upperChar` : each character of an upper case is its own upper case;
* `eq_of_mem_upperChar_of_isSeparator` : the upper case of a character holds no separator, unless it is one itself;
* `exists_isWord_upperChar` : the upper case of a character of a word starts with one.
-/

set_option autoImplicit false

namespace CSharpDraft.Text

/-! ## Code points as bits -/

def codeSet (ns : List Nat) : Nat := ns.foldr (fun n s => 1 <<< n ||| s) 0

theorem testBit_codeSet (ns : List Nat) (k : Nat) : (codeSet ns).testBit k = ns.any (· == k) := by
  induction ns with
  | nil => exact Nat.zero_testBit k
  | cons n ns ih =>
    rw [codeSet, List.foldr_cons, Nat.testBit_or, ← codeSet, ih, List.any_cons, Nat.one_shiftLeft,
      Nat.testBit_two_pow]
    rfl

/-- Lists without a common bit have no common element. -/
theorem not_mem_of_codeSet {ns ms : List Nat} (h : codeSet ns &&& codeSet ms = 0) {n : Nat} (hn : n ∈ ns) : n ∉ ms := by
  intro hm
  have hbit := congrArg (Nat.testBit · n) h
  simp only [Nat.testBit_and, testBit_codeSet, Nat.zero_testBit] at hbit
  have hns : ns.any (· == n) = true := List.any_eq_true.mpr ⟨n, hn, beq_self_eq_true n⟩
  have hms : ms.any (· == n) = true := List.any_eq_true.mpr ⟨n, hm, beq_self_eq_true n⟩
  rw [hns, hms] at hbit
  cases hbit

def rangeSet (rs : List (Nat × Nat)) : Nat :=
  rs.foldr (fun r s => (1 <<< (r.2 + 1 - r.1) - 1) <<< r.1 ||| s) 0

theorem testBit_rangeSet (rs : List (Nat × Nat)) (k : Nat) : (rangeSet rs).testBit k = inRanges rs k := by
  induction rs with
  | nil => exact Nat.zero_testBit k
  | cons r rs ih =>
    rw [rangeSet, List.foldr_cons, Nat.testBit_or, ← rangeSet, ih, Nat.testBit_shiftLeft, Nat.one_shiftLeft,
      Nat.testBit_two_pow_sub_one]
    refine congrArg (· || inRanges rs k) ?_
    rw [Bool.eq_iff_iff]
    simp only [Bool.and_eq_true, decide_eq_true_eq]
    omega

/-! ## Entries of a case mapping -/

/-- The code points of a run. -/
def CaseRun.codes (r : CaseRun) : List Nat :=
  (List.range ((r.last - r.first) / r.stride + 1)).map (fun k => r.first + k * r.stride)

theorem CaseRun.mem_codes {r : CaseRun} {n : Nat} (h : r.contains n = true) : n ∈ r.codes := by
  simp only [CaseRun.contains, Bool.and_eq_true, decide_eq_true_eq, beq_iff_eq] at h
  obtain ⟨⟨hfirst, hlast⟩, hmod⟩ := h
  refine List.mem_map.mpr ⟨(n - r.first) / r.stride, List.mem_range.mpr ?_, ?_⟩
  · exact Nat.lt_succ_of_le (Nat.div_le_div_right (by omega))
  · rw [Nat.div_mul_cancel (Nat.dvd_of_mod_eq_zero hmod)]
    omega

/-- The code points of the characters that the mapping changes, each with those of its image. -/
def CaseMap.entries (m : CaseMap) : List (Nat × List Nat) :=
  m.runs.flatMap (fun r => r.codes.map (fun n : Nat => (n, [((n : Int) + r.shift).toNat]))) ++ m.longer

namespace CaseMap

variable {m : CaseMap} {c : Char}

theorem mem_entries_of_find? {r : CaseRun} (h : m.runs.find? (·.contains c.toNat) = some r) :
    (c.toNat, [(c.toNat + r.shift).toNat]) ∈ m.entries := by
  have hcontains := List.find?_some h
  refine List.mem_append_left _ (List.mem_flatMap.mpr ⟨r, List.mem_of_find?_eq_some h, ?_⟩)
  exact List.mem_map.mpr ⟨c.toNat, CaseRun.mem_codes hcontains, rfl⟩

theorem mem_entries_of_lookup {image : List Nat} (h : m.longer.lookup c.toNat = some image) :
    (c.toNat, image) ∈ m.entries := by
  obtain ⟨front, back, heq, -⟩ := List.lookup_eq_some_iff.mp h
  refine List.mem_append_right _ ?_
  rw [heq]
  exact List.mem_append_right _ List.mem_cons_self

theorem apply_eq_or (m : CaseMap) (c : Char) :
    m.apply c = [c] ∨ ∃ image, (c.toNat, image) ∈ m.entries ∧ m.apply c = image.map Char.ofNat := by
  unfold apply
  cases hrun : m.runs.find? (·.contains c.toNat) with
  | some r => exact Or.inr ⟨_, mem_entries_of_find? hrun, rfl⟩
  | none =>
    cases himage : m.longer.lookup c.toNat with
    | some image => exact Or.inr ⟨image, mem_entries_of_lookup himage, rfl⟩
    | none => exact Or.inl rfl

theorem apply_of_forall_ne (h : ∀ e ∈ m.entries, e.1 ≠ c.toNat) : m.apply c = [c] := by
  unfold apply
  cases hrun : m.runs.find? (·.contains c.toNat) with
  | some r => exact absurd rfl (h _ (mem_entries_of_find? hrun))
  | none =>
    cases himage : m.longer.lookup c.toNat with
    | some image => exact absurd rfl (h _ (mem_entries_of_lookup himage))
    | none => rfl

end CaseMap

/-! ## Upper case -/

def upperMap : CaseMap := ⟨upperRuns, upperLonger⟩

/-- The code points in the images of the mapping, and the one that stands for numbers that are no code points. -/
def upperImages : List Nat := 0 :: upperMap.entries.flatMap (·.2)

/-- Neither a separator nor a character with an upper case of its own is in the image of a character. -/
theorem upperMap_apart : codeSet (0x2D :: 0x5F :: upperMap.entries.map (·.1)) &&& codeSet upperImages = 0 := by
  decide +kernel

/-- A character of an upper case is in the image of its character, or is that character itself. -/
theorem mem_upperChar {c d : Char} (h : d ∈ upperChar c) :
    (d = c ∧ upperChar c = [c]) ∨ d.toNat ∈ upperImages := by
  rcases upperMap.apply_eq_or c with hsame | ⟨image, hmem, heq⟩
  · rw [upperChar, ← upperMap, hsame] at h ⊢
    exact Or.inl ⟨List.mem_singleton.mp h, rfl⟩
  · rw [upperChar, ← upperMap, heq] at h
    obtain ⟨n, hn, rfl⟩ := List.mem_map.mp h
    refine Or.inr ?_
    rcases toNat_ofNat n with hcode | hcode
    · rw [hcode]
      exact List.mem_cons_of_mem 0 (List.mem_flatMap.mpr ⟨_, hmem, hn⟩)
    · rw [hcode]
      exact List.mem_cons_self

theorem upperChar_of_mem_upperChar {c d : Char} (h : d ∈ upperChar c) : upperChar d = [d] := by
  rcases mem_upperChar h with ⟨rfl, hsame⟩ | himage
  · exact hsame
  · refine CaseMap.apply_of_forall_ne fun e he hcode => not_mem_of_codeSet upperMap_apart (n := e.1) ?_ ?_
    · exact List.mem_cons_of_mem _ (List.mem_cons_of_mem _ (List.mem_map_of_mem he))
    · rw [hcode]
      exact himage

theorem eq_or_eq_of_isSeparator {c : Char} (h : isSeparator c = true) : c = '_' ∨ c = '-' := by
  simpa [isSeparator] using h

theorem eq_of_mem_upperChar_of_isSeparator {c d : Char} (h : d ∈ upperChar c) (hd : isSeparator d = true) : d = c := by
  rcases mem_upperChar h with ⟨rfl, -⟩ | himage
  · rfl
  · refine absurd himage (not_mem_of_codeSet upperMap_apart ?_)
    rcases eq_or_eq_of_isSeparator hd with rfl | rfl
    · exact List.mem_cons_of_mem _ List.mem_cons_self
    · exact List.mem_cons_self

theorem upperChar_of_isSeparator {c : Char} (h : isSeparator c = true) : upperChar c = [c] := by
  rcases eq_or_eq_of_isSeparator h with rfl | rfl
  · decide
  · decide

/-- Nothing in an upper case is a separator, unless the character is one. -/
theorem isSeparator_of_mem_upperChar {c d : Char} (h : d ∈ upperChar c) : isSeparator d = isSeparator c := by
  cases hd : isSeparator d with
  | true => rw [← eq_of_mem_upperChar_of_isSeparator h hd, hd]
  | false =>
    cases hc : isSeparator c with
    | false => rfl
    | true =>
      rw [upperChar_of_isSeparator hc, List.mem_singleton] at h
      rw [h, hc] at hd
      cases hd

/-! ## Characters of words -/

/-- The code points of the characters of words in the ASCII range. -/
def asciiWordRanges : List (Nat × Nat) := [(0x30, 0x39), (0x41, 0x5A), (0x5F, 0x5F), (0x61, 0x7A)]

def wordRanges : List (Nat × Nat) :=
  asciiWordRanges ++ letterRanges ++ digitRanges ++ letterNumberRanges ++ otherNumberRanges

theorem inRanges_append (rs qs : List (Nat × Nat)) (n : Nat) :
    inRanges (rs ++ qs) n = (inRanges rs n || inRanges qs n) := List.any_append

theorem beyondAscii_eq {rs : List (Nat × Nat)} (h : ∀ r ∈ rs, 0x80 ≤ r.1) (c : Char) :
    beyondAscii rs c = inRanges rs c.toNat := by
  rw [beyondAscii]
  cases hin : inRanges rs c.toNat with
  | false => exact Bool.and_false _
  | true =>
    obtain ⟨r, hr, hbounds⟩ := List.any_eq_true.mp hin
    simp only [Bool.and_eq_true, decide_eq_true_eq] at hbounds
    have hfirst := h r hr
    rw [Bool.and_true, decide_eq_true_eq]
    omega

theorem inRanges_asciiWordRanges (c : Char) :
    inRanges asciiWordRanges c.toNat = (c == '_' || c.isAlpha || c.isDigit) := by
  have hscore : c = '_' ↔ c.val.toNat = 0x5F := Char.toNat_inj.symm
  have halpha : c.isAlpha = (decide (c.val ≥ 65 ∧ c.val ≤ 90) || decide (c.val ≥ 97) && decide (c.val ≤ 122)) := rfl
  have hdigit : c.isDigit = (decide (c.val ≥ 48) && decide (c.val ≤ 57)) := rfl
  rw [Bool.eq_iff_iff, halpha, hdigit]
  simp only [inRanges, asciiWordRanges, List.any_cons, List.any_nil, Bool.or_eq_true, Bool.and_eq_true,
    decide_eq_true_eq, beq_iff_eq, Bool.false_eq_true, or_false, hscore, ge_iff_le, UInt32.le_iff_toNat_le, Char.toNat,
    UInt32.reduceToNat]
  omega

theorem isWord_eq_testBit (c : Char) : isWord c = (rangeSet wordRanges).testBit c.toNat := by
  rw [testBit_rangeSet, wordRanges, inRanges_append, inRanges_append, inRanges_append, inRanges_append,
    inRanges_asciiWordRanges, ← beyondAscii_eq (by decide +kernel), ← beyondAscii_eq (by decide +kernel),
    ← beyondAscii_eq (by decide +kernel), ← beyondAscii_eq (by decide +kernel)]
  rw [isWord, isLetter, isDigit, isLetterNumber, isOtherNumber]
  ac_rfl

/-- If a character of a word changes, it becomes one or more characters, the first of which is part of a word. -/
theorem upperMap_word : ∀ e ∈ upperMap.entries, (rangeSet wordRanges).testBit e.1 = true →
    (rangeSet wordRanges).testBit (Char.ofNat (e.2.headD 0)).toNat = true := by
  decide +kernel

theorem exists_isWord_upperChar {c : Char} (h : isWord c = true) :
    ∃ d r, upperChar c = d :: r ∧ isWord d = true := by
  rcases upperMap.apply_eq_or c with hsame | ⟨image, hmem, heq⟩
  · exact ⟨c, [], hsame, h⟩
  · rw [isWord_eq_testBit] at h
    have hword := upperMap_word _ hmem h
    rw [← isWord_eq_testBit] at hword
    cases image with
    | nil => exact absurd (show isWord (Char.ofNat 0) = true from hword) (by decide)
    | cons n ns => exact ⟨_, _, heq, hword⟩

end CSharpDraft.Text
