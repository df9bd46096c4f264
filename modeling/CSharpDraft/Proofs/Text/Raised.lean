import CSharpDraft.Proofs.Text.Pascal
import CSharpDraft.Proofs.Text.Without

/-!
# What Pascal case keeps

A key and its Pascal case differ in separators that were dropped and in characters that are in upper case; all else stands
where it stood.

* `Raised t u` : `u` is `t` with some of its separators dropped and some of its characters in upper case;
* `Raised.upper_without` : no difference is left where all separators are dropped and all characters are in upper case;
* `raised_raiseWords` : one conversion from left to right makes such a text;
* `pascal_keeps_letters` : what Pascal case keeps of every key.
-/

set_option autoImplicit false

namespace CSharpDraft.Text

/-! ## Texts in upper case -/

theorem upper_append (s t : Text) : upper (s ++ t) = upper s ++ upper t := List.flatMap_append

/-- What is in upper case is its own upper case. -/
theorem upper_upperChar (c : Char) : upper (upperChar c) = upperChar c := by
  calc upper (upperChar c)
    _ = (upperChar c).flatMap (fun d => [d]) := List.flatMap_congr (fun _ hd => upperChar_of_mem_upperChar hd)
    _ = upperChar c := List.flatMap_singleton' (upperChar c)

/-! ## Raised texts -/

/-- The text with some of its separators dropped and some of its characters in upper case, each in its place. -/
inductive Raised : Text → Text → Prop
  | nil : Raised [] []
  | drop {s : Char} {t u : Text} (hs : isSeparator s = true) (h : Raised t u) : Raised (s :: t) u
  | keep (c : Char) {t u : Text} (h : Raised t u) : Raised (c :: t) (c :: u)
  | raise (c : Char) {t u : Text} (h : Raised t u) : Raised (c :: t) (upperChar c ++ u)

theorem Raised.refl (t : Text) : Raised t t := by
  induction t with
  | nil => exact Raised.nil
  | cons c t ih => exact Raised.keep c ih

/-- Without its separators and with all else in upper case, a text does not show which characters were raised. -/
theorem upper_without_upperChar (c : Char) :
    upper (without isSeparator (upperChar c)) = upper (without isSeparator [c]) := by
  cases hc : isSeparator c with
  | true => rw [upperChar_of_isSeparator hc]
  | false =>
    have hraised : without isSeparator (upperChar c) = upperChar c := by
      apply List.filter_eq_self.mpr
      intro d hd
      rw [isSeparator_of_mem_upperChar hd, hc]
      rfl
    have hsingle : without isSeparator [c] = [c] := by simp [without, hc]
    rw [hraised, hsingle, upper_upperChar, upper, List.flatMap_singleton]

/-- Raising a text can be seen in its separators and in the case of its other characters only. -/
theorem Raised.upper_without {t u : Text} (h : Raised t u) :
    upper (without isSeparator u) = upper (without isSeparator t) := by
  induction h with
  | nil => rfl
  | drop hs _ ih => rw [without_cons_of_pos hs, ih]
  | @keep c t u _ ih =>
    rw [← List.singleton_append, ← List.singleton_append (l := t), without_append, without_append, upper_append,
      upper_append, ih]
  | @raise c t u _ ih =>
    rw [← List.singleton_append (l := t), without_append, without_append, upper_append, upper_append, ih,
      upper_without_upperChar]

/-! ## Pascal case -/

theorem raised_raiseWords (t : Text) : Raised t (raiseWords t) := by
  fun_induction raiseWords t with
  | case1 s c r h ih => exact Raised.drop (Bool.and_eq_true_iff.mp h).1 (Raised.raise c ih)
  | case2 s c r h ih => exact Raised.keep s ih
  | case3 r h => exact Raised.refl r

theorem raised_pascal {t : Text} (h : isBlank t = false) : Raised t (pascal t) := by
  cases t with
  | nil => cases h
  | cons c r =>
    rw [pascal_cons h]
    exact Raised.raise c (raised_raiseWords r)

theorem pascal_of_isBlank {t : Text} (h : isBlank t = true) : pascal t = [] := by
  unfold pascal
  rw [if_pos h]

/-- The Pascal case of a key is blank exactly if the key is, and then it is empty. Any other key keeps all its characters
but separators, each in its place: no difference is left without separators and in upper case. -/
theorem pascal_keeps_letters (t : Text) :
    isBlank (pascal t) = isBlank t ∧ (isBlank t = true → pascal t = []) ∧
      (isBlank t = false → Raised t (pascal t) ∧
        upper (without isSeparator (pascal t)) = upper (without isSeparator t)) := by
  refine ⟨isBlank_pascal t, pascal_of_isBlank, ?_⟩
  intro h
  have hraised : Raised t (pascal t) := raised_pascal h
  exact ⟨hraised, hraised.upper_without⟩

/-- A key with characters that have an upper case of two, and with two hyphens of which the first one stays. -/
theorem pascal_keeps_letters_street :
    isBlank "straße_ßeta--ﬁn".toList = false ∧ pascal "straße_ßeta--ﬁn".toList = "StraßeSSeta-FIn".toList ∧
      Raised "straße_ßeta--ﬁn".toList "StraßeSSeta-FIn".toList ∧
      upper (without isSeparator "StraßeSSeta-FIn".toList) = upper (without isSeparator "straße_ßeta--ﬁn".toList) ∧
      isBlank " \t".toList = true ∧ pascal " \t".toList = [] := by
  have hsolid : isBlank "straße_ßeta--ﬁn".toList = false := by decide
  have hpascal : pascal "straße_ßeta--ﬁn".toList = "StraßeSSeta-FIn".toList := by decide +kernel
  have hblank : isBlank " \t".toList = true := by decide
  have hkeeps := (pascal_keeps_letters "straße_ßeta--ﬁn".toList).2.2 hsolid
  rw [hpascal] at hkeeps
  exact ⟨hsolid, hpascal, hkeeps.1, hkeeps.2, hblank, (pascal_keeps_letters " \t".toList).2.1 hblank⟩

end CSharpDraft.Text
