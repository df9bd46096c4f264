import CSharpDraft.Proofs.Text.Collapse
import CSharpDraft.Proofs.Text.Without

/-!
# Ends of texts

What a text starts and ends with after one character was dropped at an end, and after blanks were.

* `dropLeading_eq_iff`, `dropTrailing_eq_nil_iff`, `getLast?_dropTrailing_iff` : the texts of which a given text is left;
* `without_dropLeading`, `without_dropTrailing` : where no blank stands at the end, dropping a character there and leaving
  out the blanks can be done in either order;
* `ends_of_without` : whether a text that ends solid is empty or ends with a given character is seen without its blanks.
-/

set_option autoImplicit false

namespace CSharpDraft.Text

/-! ## One character less -/

theorem dropLeading_cons (c : Char) (t : Text) : dropLeading c (c :: t) = t := if_pos rfl

theorem dropLeading_of_head? {c : Char} {t : Text} (h : t.head? ≠ some c) : dropLeading c t = t := by
  cases t with
  | nil => rfl
  | cons d r => exact if_neg (fun hd => h (congrArg some hd))

theorem dropTrailing_concat (c : Char) (t : Text) : dropTrailing c (t ++ [c]) = t := by
  rw [dropTrailing, List.reverse_append, List.reverse_singleton, List.singleton_append, dropLeading_cons,
    List.reverse_reverse]

theorem dropTrailing_of_getLast? {c : Char} {t : Text} (h : t.getLast? ≠ some c) : dropTrailing c t = t := by
  rw [dropTrailing, dropLeading_of_head? (by rwa [List.head?_reverse]), List.reverse_reverse]

theorem dropLeading_eq_iff {c : Char} {s t : Text} (hs : s.head? ≠ some c) :
    dropLeading c t = s ↔ t = s ∨ t = c :: s := by
  cases t with
  | nil => simp [dropLeading]
  | cons d r =>
    by_cases hd : d = c
    · subst hd
      have hne : d :: r ≠ s := by
        rintro rfl
        exact hs rfl
      rw [dropLeading_cons, List.cons_inj_right, or_iff_right hne]
    · rw [dropLeading, if_neg hd, or_iff_left (fun h => hd (List.cons.inj h).1)]

theorem dropTrailing_eq_nil_iff {c : Char} {t : Text} : dropTrailing c t = [] ↔ t = [] ∨ t = [c] := by
  rw [dropTrailing, List.reverse_eq_nil_iff, dropLeading_eq_iff (by simp), List.reverse_eq_nil_iff, List.reverse_eq_cons_iff]
  rfl

theorem getLast?_dropTrailing_iff {c : Char} {t : Text} : (dropTrailing c t).getLast? = some c ↔ [c, c] <:+ t := by
  constructor
  · intro h
    by_cases hlast : t.getLast? = some c
    · obtain ⟨r, rfl⟩ := List.getLast?_eq_some_iff.mp hlast
      rw [dropTrailing_concat] at h
      obtain ⟨q, rfl⟩ := List.getLast?_eq_some_iff.mp h
      exact ⟨q, by simp⟩
    · rw [dropTrailing_of_getLast? hlast] at h
      exact absurd h hlast
  · rintro ⟨q, rfl⟩
    have htwo : q ++ [c, c] = (q ++ [c]) ++ [c] := by simp
    rw [htwo, dropTrailing_concat, List.getLast?_concat]

theorem suffix_dropLeading_iff {c d : Char} (h : d ≠ c) (t : Text) : [d, d] <:+ dropLeading c t ↔ [d, d] <:+ t := by
  cases t with
  | nil => rfl
  | cons e r =>
    rw [dropLeading]
    split
    · next he =>
      subst he
      rw [List.suffix_cons_iff, or_iff_right (fun heq => h (List.cons.inj heq).1)]
    · rfl

theorem ends_dropLeading {t : Text} (h : t = [] ∨ EndsSolid t) (c : Char) :
    dropLeading c t = [] ∨ EndsSolid (dropLeading c t) := by
  rcases t with _ | ⟨d, r⟩
  · exact Or.inl rfl
  · rw [dropLeading]
    split
    · rcases (h.resolve_left (List.cons_ne_nil d r)).of_cons with ⟨hnil, -⟩ | hends
      · exact Or.inl hnil
      · exact Or.inr hends
    · exact h

theorem ends_trimLeft {t : Text} (h : t = [] ∨ EndsSolid t) : trimLeft t = [] ∨ EndsSolid (trimLeft t) := by
  rcases h with rfl | hends
  · exact Or.inl rfl
  · exact Or.inr (hends.trimLeft_append []).1

/-! ## The characters that are not blank -/

theorem without_cons_solid {c : Char} (hc : isBlankChar c = false) (t : Text) :
    without isBlankChar (c :: t) = c :: without isBlankChar t := List.filter_cons_of_pos (by simp [hc])

theorem without_dropLeading {t : Text} (h : t = [] ∨ StartsSolid t) (c : Char) :
    without isBlankChar (dropLeading c t) = dropLeading c (without isBlankChar t) := by
  rcases h with rfl | ⟨d, r, rfl, hd⟩
  · rfl
  · rw [without_cons_solid hd, dropLeading, dropLeading]
    split
    · rfl
    · exact without_cons_solid hd r

theorem without_dropTrailing {t : Text} (h : t = [] ∨ EndsSolid t) (c : Char) :
    without isBlankChar (dropTrailing c t) = dropTrailing c (without isBlankChar t) := by
  have hreverse : t.reverse = [] ∨ StartsSolid t.reverse := by
    rcases h with rfl | ⟨r, d, rfl, hd⟩
    · exact Or.inl rfl
    · exact Or.inr ⟨d, r.reverse, by simp, hd⟩
  rw [dropTrailing, dropTrailing, without_reverse, without_dropLeading hreverse, without_reverse]

theorem getLast?_without {t : Text} (h : t = [] ∨ EndsSolid t) : (without isBlankChar t).getLast? = t.getLast? := by
  rcases h with rfl | ⟨r, c, rfl, hc⟩
  · rfl
  · rw [without_append, without_cons_solid hc, without_nil, List.getLast?_concat, List.getLast?_concat]

theorem without_isBlankChar_eq_nil_iff {t : Text} : without isBlankChar t = [] ↔ isBlank t = true := by
  simp [without, isBlank]

/-- A text that ends solid is empty, or ends with `c`, if its characters that are not blank do so; here these are `u`
without one `c` at the end. -/
theorem ends_of_without {x u : Text} {c : Char} (hx : x = [] ∨ EndsSolid x)
    (hu : without isBlankChar x = dropTrailing c u) :
    (x = [] ↔ u = [] ∨ u = [c]) ∧ (x.getLast? = some c ↔ [c, c] <:+ u) := by
  have hlast := getLast?_without hx
  rw [hu] at hlast
  constructor
  · rw [← List.getLast?_eq_none_iff, ← hlast, List.getLast?_eq_none_iff, dropTrailing_eq_nil_iff]
  · rw [← hlast, getLast?_dropTrailing_iff]

end CSharpDraft.Text
