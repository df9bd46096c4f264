import CSharpDraft.Proofs.Text.Case
import Mathlib.Data.List.Infix

/-!
# Pascal case twice

A separator that Pascal case leaves in front of a word is dropped by the next conversion. This happens where separators
stand next to each other: the first of two hyphens is kept, and of two underscores the second is taken for the character
that the first one raises.

* `opensWord` : the text starts with a separator that is dropped. Nothing changes in a text exactly if no part of it opens
  a word (`raiseWords_eq_self_iff`);
* `opensDoubly` : the text starts with a separator in front of such a text. A part of the result opens a word exactly if a
  part of the text opens one doubly (`somewhere_opensWord_raiseWords`);
* `pascal_pascal_iff` : the keys that have their Pascal case after one conversion.
-/

set_option autoImplicit false

namespace CSharpDraft.Text

/-! ## Words behind separators -/

def startsWord (t : Text) : Bool := t.head?.any isWord

@[simp] theorem startsWord_cons (c : Char) (r : Text) : startsWord (c :: r) = isWord c := rfl

/-- The text starts with a separator in front of a character of a word. -/
def opensWord : Text → Bool
  | [] => false
  | s :: r => isSeparator s && startsWord r

/-- The text starts with two separators in front of a character of a word, which may be a separator too. -/
def opensDoubly : Text → Bool
  | [] => false
  | s :: r => isSeparator s && opensWord r

/-- Some part of the text, up to its end, has the property. -/
def somewhere (p : Text → Bool) (t : Text) : Bool := t.tails.any p

theorem somewhere_cons (p : Text → Bool) (c : Char) (r : Text) : somewhere p (c :: r) = (p (c :: r) || somewhere p r) := by
  rw [somewhere, List.tails_cons, List.any_cons, somewhere]

theorem somewhere_opensWord_append {x : Text} (h : ∀ c ∈ x, isSeparator c = false) (y : Text) :
    somewhere opensWord (x ++ y) = somewhere opensWord y := by
  induction x with
  | nil => rfl
  | cons c x ih =>
    rw [List.cons_append, somewhere_cons, ih (fun d hd => h d (List.mem_cons_of_mem c hd)), opensWord,
      h c List.mem_cons_self, Bool.false_and, Bool.false_or]

/-- The upper case of a character has no separator in it, unless it is one. -/
theorem somewhere_opensWord_upperChar_append (c : Char) (y : Text) :
    somewhere opensWord (upperChar c ++ y) = (isSeparator c && startsWord y || somewhere opensWord y) := by
  cases hc : isSeparator c with
  | true => rw [upperChar_of_isSeparator hc, List.singleton_append, somewhere_cons, opensWord, hc]
  | false =>
    rw [Bool.false_and, Bool.false_or]
    exact somewhere_opensWord_append (fun d hd => (isSeparator_of_mem_upperChar hd).trans hc) y

theorem startsWord_upperChar_append {c : Char} (h : isWord c = true) (y : Text) : startsWord (upperChar c ++ y) = true := by
  obtain ⟨d, r, heq, hd⟩ := exists_isWord_upperChar h
  rw [heq]
  exact hd

theorem countP_upperChar (c : Char) : (upperChar c).countP isSeparator = if isSeparator c then 1 else 0 := by
  split
  · next hc => rw [upperChar_of_isSeparator hc, List.countP_cons_of_pos hc, List.countP_nil]
  · next hc =>
    refine List.countP_eq_zero.mpr fun d hd hsep => hc ?_
    rwa [← isSeparator_of_mem_upperChar hd]

theorem somewhere_eq_false_of_short {t : Text} (h : ∀ s c r, t = s :: c :: r → False) :
    somewhere opensWord t = false ∧ somewhere opensDoubly t = false := by
  rcases t with _ | ⟨s, _ | ⟨c, r⟩⟩
  · exact ⟨rfl, rfl⟩
  · simp [somewhere, opensWord, opensDoubly, startsWord]
  · exact (h s c r rfl).elim

/-! ## One conversion -/

theorem startsWord_raiseWords (t : Text) : startsWord (raiseWords t) = (startsWord t || opensWord t) := by
  match t with
  | [] => rfl
  | [s] => simp [raiseWords, opensWord, startsWord]
  | s :: c :: r =>
    rw [raiseWords, opensWord, startsWord_cons, startsWord_cons]
    split
    · next h => rw [h, Bool.or_true, startsWord_upperChar_append (Bool.and_eq_true_iff.mp h).2]
    · next h => rw [startsWord_cons, eq_false_of_ne_true h, Bool.or_false]

/-- A part of the result opens a word exactly if a part of the text opens one doubly. -/
theorem somewhere_opensWord_raiseWords (t : Text) :
    somewhere opensWord (raiseWords t) = somewhere opensDoubly t := by
  fun_induction raiseWords t with
  | case1 s c r h ih =>
    obtain ⟨hs, hc⟩ := Bool.and_eq_true_iff.mp h
    rw [somewhere_opensWord_upperChar_append, ih, startsWord_raiseWords, somewhere_cons, somewhere_cons, opensDoubly,
      opensDoubly, opensWord, hs, Bool.true_and, Bool.and_or_distrib_left, Bool.or_assoc]
  | case2 s c r h ih =>
    rw [somewhere_cons, ih, opensWord, startsWord_raiseWords, somewhere_cons opensDoubly s, opensDoubly,
      Bool.and_or_distrib_left, startsWord_cons, eq_false_of_ne_true h, Bool.false_or]
  | case3 r h => rw [(somewhere_eq_false_of_short h).1, (somewhere_eq_false_of_short h).2]

/-- A conversion adds no separators, and takes one away from each word that it opens. -/
theorem countP_raiseWords (t : Text) :
    (raiseWords t).countP isSeparator ≤ t.countP isSeparator ∧
      (somewhere opensWord t = true → (raiseWords t).countP isSeparator < t.countP isSeparator) := by
  fun_induction raiseWords t with
  | case1 s c r h ih =>
    have hless : (upperChar c ++ raiseWords r).countP isSeparator < (s :: c :: r).countP isSeparator := by
      rw [List.countP_append, countP_upperChar, List.countP_cons_of_pos (Bool.and_eq_true_iff.mp h).1, List.countP_cons]
      omega
    exact ⟨hless.le, fun _ => hless⟩
  | case2 s c r h ih =>
    rw [somewhere_cons, opensWord, startsWord_cons, eq_false_of_ne_true h, Bool.false_or, List.countP_cons,
      @List.countP_cons _ _ s]
    exact ⟨Nat.add_le_add_right ih.1 _, fun hopens => Nat.add_lt_add_right (ih.2 hopens) _⟩
  | case3 r h =>
    rw [(somewhere_eq_false_of_short h).1]
    exact ⟨le_rfl, fun hopens => absurd hopens Bool.false_ne_true⟩

/-- A text stays as it is exactly if no part of it opens a word. -/
theorem raiseWords_eq_self_iff (t : Text) : raiseWords t = t ↔ somewhere opensWord t = false := by
  constructor
  · intro h
    have hcount := (countP_raiseWords t).2
    rw [h] at hcount
    exact eq_false_of_ne_true fun hopens => lt_irrefl _ (hcount hopens)
  · intro h
    fun_induction raiseWords t with
    | case1 s c r hpair ih =>
      rw [somewhere_cons, opensWord, startsWord_cons, hpair] at h
      cases h
    | case2 s c r hpair ih =>
      rw [somewhere_cons, Bool.or_eq_false_iff] at h
      rw [ih h.2]
    | case3 r _ => rfl

/-! ## Two conversions -/

theorem somewhere_opensDoubly_iff (t : Text) : somewhere opensDoubly t = true ↔
    ∃ a b c, [a, b, c] <:+: t ∧ isSeparator a = true ∧ isSeparator b = true ∧ isWord c = true := by
  rw [somewhere, List.any_eq_true]
  constructor
  · rintro ⟨s, hs, hopens⟩
    match s with
    | [] | [_] | [_, _] => simp [opensDoubly, opensWord, startsWord] at hopens
    | a :: b :: c :: r =>
      simp only [opensDoubly, opensWord, startsWord_cons, Bool.and_eq_true] at hopens
      exact ⟨a, b, c, (List.prefix_append [a, b, c] r).isInfix.trans ((List.mem_tails _ _).mp hs).isInfix, hopens⟩
  · rintro ⟨a, b, c, ⟨x, y, rfl⟩, ha, hb, hc⟩
    refine ⟨[a, b, c] ++ y, (List.mem_tails _ _).mpr ⟨x, by simp⟩, ?_⟩
    simp [opensDoubly, opensWord, ha, hb, hc]

theorem upperChar_ne_nil (c : Char) : upperChar c ≠ [] := by
  intro hnil
  have hblank := isBlank_upperChar c
  rw [hnil] at hblank
  rw [upperChar_of_isBlankChar hblank.symm] at hnil
  cases hnil

theorem pascal_cons {c : Char} {r : Text} (h : isBlank (c :: r) = false) :
    pascal (c :: r) = upperChar c ++ raiseWords r := by
  rw [pascal, h]
  rfl

/-- Behind the first character of an upper case there are no separators. -/
theorem not_isSeparator_of_upperChar {c d : Char} {ds : Text} (h : upperChar c = d :: ds) :
    ∀ x ∈ ds, isSeparator x = false := by
  intro x hx
  by_contra hsep
  have hsame : x = c := eq_of_mem_upperChar_of_isSeparator (h ▸ List.mem_cons_of_mem d hx) (by simpa using hsep)
  subst hsame
  rw [upperChar_of_isSeparator (by simpa using hsep)] at h
  cases h
  cases hx

theorem somewhere_opensDoubly_of_isBlank {t : Text} (h : isBlank t = true) : somewhere opensDoubly t.tail = false := by
  refine eq_false_of_ne_true fun hopens => ?_
  obtain ⟨a, b, c, hpart, ha, -⟩ := (somewhere_opensDoubly_iff t.tail).mp hopens
  have hmem : a ∈ t := List.mem_of_mem_tail (hpart.subset List.mem_cons_self)
  have hblank : isBlankChar a = true := List.all_eq_true.mp h a hmem
  rw [isBlankChar_of_isSeparator ha] at hblank
  cases hblank

/-- A key has its Pascal case after one conversion exactly if, behind its first character, no two separators stand next to
each other in front of a character of a word. -/
theorem pascal_pascal_iff (t : Text) : pascal (pascal t) = pascal t ↔
    ¬ ∃ a b c, [a, b, c] <:+: t.tail ∧ isSeparator a = true ∧ isSeparator b = true ∧ isWord c = true := by
  rw [← somewhere_opensDoubly_iff, Bool.not_eq_true]
  cases hblank : isBlank t with
  | true =>
    have hone : pascal t = [] := by
      unfold pascal
      rw [if_pos hblank]
    rw [hone, somewhere_opensDoubly_of_isBlank hblank]
    exact iff_of_true rfl rfl
  | false =>
    cases t with
    | nil => cases hblank
    | cons c r =>
      obtain ⟨d, ds, hupper⟩ := List.exists_cons_of_ne_nil (upperChar_ne_nil c)
      have hd : upperChar d = [d] := upperChar_of_mem_upperChar (c := c) (hupper ▸ List.mem_cons_self)
      have hone : pascal (c :: r) = d :: (ds ++ raiseWords r) := by rw [pascal_cons hblank, hupper, List.cons_append]
      have hsolid : isBlank (d :: (ds ++ raiseWords r)) = false := by rw [← hone, isBlank_pascal, hblank]
      rw [hone, pascal_cons hsolid, hd, List.singleton_append, List.cons_inj_right, raiseWords_eq_self_iff,
        somewhere_opensWord_append (not_isSeparator_of_upperChar hupper), somewhere_opensWord_raiseWords, List.tail_cons]

/-- Of two underscores one is kept and in front of a word, which the next conversion opens. -/
theorem not_pascal_pascal : pascal "a__b".toList = "A_b".toList ∧ pascal "A_b".toList = "AB".toList ∧
    ¬ ∀ t : Text, pascal (pascal t) = pascal t := by
  have honce : pascal "a__b".toList = "A_b".toList := by decide +kernel
  have htwice : pascal "A_b".toList = "AB".toList := by decide +kernel
  refine ⟨honce, htwice, fun h => ?_⟩
  have hsame := h "a__b".toList
  rw [honce, htwice] at hsame
  exact absurd hsame (by decide)

end CSharpDraft.Text
