import CSharpDraft.Proofs.Text.Lines

/-!
# Texts without some of their characters

`Text.without p t` deletes the characters with `p`. Where `p` holds of all blanks, nothing that only moves blanks can be
seen in what is left: trimming, splitting into lines, joining and putting a text on one line.
-/

set_option autoImplicit false

namespace CSharpDraft.Text

open scoped List

/-- The text without its characters with `p`. -/
def without (p : Char → Bool) (t : Text) : Text := t.filter (fun c => !p c)

variable {p : Char → Bool}

@[simp] theorem without_nil : without p [] = [] := rfl

@[simp] theorem without_append (s t : Text) : without p (s ++ t) = without p s ++ without p t := List.filter_append ..

theorem without_cons_of_pos {c : Char} (h : p c = true) (t : Text) : without p (c :: t) = without p t :=
  List.filter_cons_of_neg (by simp [h])

theorem without_flatten (ts : List Text) : without p ts.flatten = (ts.map (without p)).flatten := List.filter_flatten

theorem without_eq_nil {t : Text} (h : ∀ c ∈ t, p c = true) : without p t = [] :=
  List.filter_eq_nil_iff.mpr (fun c hc => by simp [h c hc])

theorem without_without (t : Text) : without p (without p t) = without p t := by simp [without]

theorem without_sublist {s t : Text} (h : s <+ t) : without p s <+ without p t := h.filter _

theorem without_sublist_iff {s t : Text} : without p s <+ t ↔ without p s <+ without p t := by
  refine ⟨fun h => ?_, fun h => h.trans List.filter_sublist⟩
  have hsub := without_sublist (p := p) h
  rwa [without_without] at hsub

theorem sublist_cons_dropLeading (c : Char) (t : Text) : t <+ c :: dropLeading c t := by
  cases t with
  | nil => exact List.nil_sublist _
  | cons d t =>
    rw [dropLeading]
    split
    · next hd => exact hd ▸ List.Sublist.refl _
    · exact List.sublist_cons_self c _

theorem sublist_dropTrailing_append (c : Char) (t : Text) : t <+ dropTrailing c t ++ [c] := by
  have hreverse := (sublist_cons_dropLeading c t.reverse).reverse
  rwa [List.reverse_reverse, List.reverse_cons] at hreverse

/-- What stands between texts is not seen if it is deleted. -/
theorem without_join {separator : Text} (h : ∀ c ∈ separator, p c = true) (ts : List Text) :
    without p (join separator ts) = without p ts.flatten := by
  cases ts with
  | nil => rfl
  | cons t ts =>
    rw [join_cons, List.flatten_cons, without_append, without_append]
    refine congrArg (without p t ++ ·) ?_
    induction ts with
    | nil => rfl
    | cons u us ih =>
      rw [List.flatMap_cons, List.flatten_cons, without_append, without_append, without_append, ih, without_eq_nil h,
        List.nil_append]

theorem without_reverse (t : Text) : without p t.reverse = (without p t).reverse := List.filter_reverse ..

theorem flatten_consLine (c : Char) (ls : List Text) : (consLine c ls).flatten = c :: ls.flatten := by
  cases ls with
  | nil => rfl
  | cons l ls => rfl

section Blanks

variable (hp : ∀ c, isBlankChar c = true → p c = true)
include hp

theorem without_trimLeft (t : Text) : without p (trimLeft t) = without p t := by
  have hblank : ∀ c ∈ t.takeWhile isBlankChar, p c = true :=
    fun c hc => hp c (List.all_eq_true.mp List.all_takeWhile c hc)
  conv => rhs; rw [← List.takeWhile_append_dropWhile (p := isBlankChar) (l := t)]
  rw [without_append, without_eq_nil hblank, List.nil_append]
  rfl

theorem without_trimRight (t : Text) : without p (trimRight t) = without p t := by
  have hleft := without_trimLeft hp t.reverse
  rw [trimLeft] at hleft
  rw [trimRight, without_reverse, hleft, without_reverse, List.reverse_reverse]

theorem without_trim (t : Text) : without p (trim t) = without p t := by
  rw [trim, without_trimRight hp, without_trimLeft hp]

theorem without_lines (t : Text) : without p (lines t).flatten = without p t := by
  fun_induction lines t with
  | case1 => rfl
  | case2 r ih =>
    rw [List.flatten_cons, List.nil_append, ih, without_cons_of_pos (hp _ rfl), without_cons_of_pos (hp _ rfl)]
  | case3 c r _ hc ih =>
    rw [List.flatten_cons, List.nil_append, ih, without_cons_of_pos (hp c (isBlankChar_of_isLineBreak hc))]
  | case4 c r _ _ ih =>
    rw [flatten_consLine, ← List.singleton_append, without_append, ih, ← without_append, List.singleton_append]

theorem without_collapse (t : Text) : without p (collapse t) = without p t := by
  have hspace : ∀ c ∈ [' '], p c = true := by simpa using hp ' ' rfl
  have htrim : without p ∘ trim = without p := funext (without_trim hp)
  rw [collapse, without_join hspace, List.flatten_filter_not_isEmpty, without_flatten, List.map_map, htrim,
    ← without_flatten, without_lines hp]

end Blanks

end CSharpDraft.Text
