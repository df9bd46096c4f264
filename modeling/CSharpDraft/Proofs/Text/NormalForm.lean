import CSharpDraft.Proofs.Text.Ends

/-!
# One line as a normal form

A text on one line has no line break and no blank at its ends, and `collapse` gives each text such a form. It keeps the
characters that are not blank, in their order, and leaves a text alone that has the form.

* `collapse_eq_self_iff` : the texts that `collapse` leaves as they are;
* `solidLines_append_break` : a line break separates the lines in front of it from those behind it, also where it only
  completes the one before it;
* `collapse_append_break` : so it becomes one space on the line, if there is something on both of its sides;
* `collapse_normalizes` : what `collapse` guarantees for every text.
-/

set_option autoImplicit false

namespace CSharpDraft.Text

/-! ## Texts on one line -/

theorem collapse_eq_nil_iff (t : Text) : collapse t = [] ↔ isBlank t = true := by
  have hsame : without isBlankChar (collapse t) = without isBlankChar t := without_collapse (fun _ h => h) t
  rw [← without_isBlankChar_eq_nil_iff, ← hsame]
  constructor
  · intro h
    rw [h, without_nil]
  · intro h
    apply (collapse_eq_nil_or t).resolve_right
    rintro ⟨⟨c, r, hcons, hc⟩, -⟩
    rw [hcons, without_cons_solid hc] at h
    cases h

theorem trim_collapse (t : Text) : trim (collapse t) = collapse t := by
  rw [trim, trimLeft_collapse, trimRight_collapse]

/-- A trimmed text starts and ends with characters that are not blank, if there is anything left of it. -/
theorem trim_cases (t : Text) : trim t = [] ∨ StartsSolid (trim t) ∧ EndsSolid (trim t) := by
  rcases trimRight_eq_nil_or (trimLeft t) with hnil | hends
  · exact Or.inl hnil
  · apply (trim_eq_nil_or t).imp_right
    intro hstarts
    exact ⟨hstarts, hends⟩

/-- The texts that are on one line already: no line break, and no blank at an end. -/
theorem collapse_eq_self_iff (t : Text) : collapse t = t ↔ OneLine t ∧ trim t = t := by
  constructor
  · intro h
    rw [← h]
    exact ⟨oneLine_collapse t, trim_collapse t⟩
  · rintro ⟨hline, htrim⟩
    have hcases := trim_cases t
    rw [htrim] at hcases
    rcases hcases with rfl | ⟨hstarts, hends⟩
    · rfl
    · exact collapse_of_oneLine hline hstarts hends

/-! ## Lines around a break -/

theorem solidLines_of_oneLine {x : Text} (hx : OneLine x) : solidLines x = if trim x = [] then [] else [trim x] := by
  cases x with
  | nil => rfl
  | cons c r =>
    have hlines : lines (c :: r) = [c :: r] := lines_of_oneLine hx (List.cons_ne_nil c r)
    rw [solidLines_of_lines_cons hlines, List.map_nil, List.filter_nil, List.append_nil]

theorem solidLines_first_break {x : Text} (hx : OneLine x) {b : Char} (hb : isLineBreak b = true) (y : Text) :
    solidLines (x ++ b :: y) = solidLines x ++ solidLines y := by
  obtain ⟨rest, hlines, hrest⟩ := lines_append_break hx hb y
  rw [solidLines_of_lines_cons hlines, hrest, solidLines_of_oneLine hx]

/-- A line break separates what stands in front of it from what stands behind it. -/
theorem solidLines_append_break (s : Text) {b : Char} (hb : isLineBreak b = true) (t : Text) :
    solidLines (s ++ b :: t) = solidLines s ++ solidLines t := by
  by_cases hs : OneLine s
  · exact solidLines_first_break hs hb t
  · obtain ⟨x, k, r, hsplit, hx, hk⟩ := exists_break hs
    have hlength : r.length < s.length := by
      rw [hsplit, List.length_append, List.length_cons]
      omega
    have hrest : solidLines (r ++ b :: t) = solidLines r ++ solidLines t := solidLines_append_break r hb t
    rw [hsplit, List.append_assoc, List.cons_append, solidLines_first_break hx hk, hrest, solidLines_first_break hx hk,
      List.append_assoc]
termination_by s.length

theorem solidLines_eq_nil_iff (t : Text) : solidLines t = [] ↔ collapse t = [] := by
  rw [collapse_eq_join]
  constructor
  · intro h
    rw [h]
    rfl
  · intro h
    cases hlines : solidLines t with
    | nil => rfl
    | cons l ls =>
      have hmem : l ∈ solidLines t := by simp [hlines]
      have hl : l ≠ [] := by simpa using (List.mem_filter.mp hmem).2
      rw [hlines, join_cons] at h
      exact absurd (List.append_eq_nil_iff.mp h).1 hl

/-- On one line, a line break becomes a space, if there is something on both of its sides. -/
theorem collapse_append_break (s : Text) {b : Char} (hb : isLineBreak b = true) (t : Text) :
    collapse (s ++ b :: t) =
      if collapse s = [] then collapse t else if collapse t = [] then collapse s else collapse s ++ ' ' :: collapse t := by
  rw [collapse_eq_join, solidLines_append_break s hb]
  split
  · next hs => rw [(solidLines_eq_nil_iff s).mpr hs, List.nil_append, collapse_eq_join]
  · next hs =>
    split
    · next ht => rw [(solidLines_eq_nil_iff t).mpr ht, List.append_nil, collapse_eq_join]
    · next ht =>
      rw [← solidLines_eq_nil_iff] at hs ht
      rw [join_append hs ht, List.append_assoc, collapse_eq_join, collapse_eq_join]
      rfl

/-- A text on one line has no line break and no blank at its ends. It has the characters of the text that are not blank,
in their order, and is empty exactly if there are none. Put on one line again it stays as it is, and a line feed becomes
a space between what stands in front of it and what stands behind it. -/
theorem collapse_normalizes (t : Text) :
    OneLine (collapse t) ∧ trim (collapse t) = collapse t ∧
      without isBlankChar (collapse t) = without isBlankChar t ∧ (collapse t = [] ↔ isBlank t = true) ∧
      collapse (collapse t) = collapse t ∧
      ∀ u : Text, collapse (t ++ '\n' :: u) =
        if collapse t = [] then collapse u else if collapse u = [] then collapse t
        else collapse t ++ ' ' :: collapse u := by
  have hline : OneLine (collapse t) := oneLine_collapse t
  have htrim : trim (collapse t) = collapse t := trim_collapse t
  refine ⟨hline, htrim, without_collapse (fun _ h => h) t, collapse_eq_nil_iff t, ?_, ?_⟩
  · exact (collapse_eq_self_iff (collapse t)).mpr ⟨hline, htrim⟩
  · intro u
    exact collapse_append_break t rfl u

/-- A line feed that ends a text which ends with a carriage return is no further line break. -/
example : collapse " a\r".toList = "a".toList ∧ collapse (" a\r".toList ++ '\n' :: "\t\x0b b ".toList) = "a b".toList := by
  decide

end CSharpDraft.Text
