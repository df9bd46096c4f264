import CSharpDraft.Proofs.Fragment.Kept
import CSharpDraft.Proofs.Fragment.Lawful

/-!
# What the layout of a body drops

A body is laid out as its first block, or on one line where it has none.

* `plainBlock_keeps` : on one line all of the body is kept;
* `without_formatBlock` : of a body with a block, the block is kept and nothing else;
* `formatBlock_keeps` : so what is dropped of a body that starts with a brace is what stands behind its block;
* `not_formatBlock_keeps` : this can be code.
-/

set_option autoImplicit false

namespace CSharpDraft.Fragment

open scoped List
open Text (without isBlankChar)

/-! ## On one line -/

theorem without_plainBlock (body : Text) :
    without isBlankChar (plainBlock body).flatten = without isBlankChar
      (['\x7b'] ++ (Text.dropTrailing '\x7d' (Text.dropLeading '\x7b' (Text.trim body)) ++ ['\x7d'])) := by
  have hblank : ∀ c, isBlankChar c = true → isBlankChar c = true := fun _ hc => hc
  have hmargin : without isBlankChar Text.margin = [] := by decide
  unfold plainBlock
  generalize Text.dropTrailing '\x7d' (Text.dropLeading '\x7b' (Text.trim body)) = inner
  have hinner : without isBlankChar (Text.trim inner) = without isBlankChar inner := Text.without_trim hblank inner
  dsimp only
  split
  · next hempty =>
    rw [List.isEmpty_iff.mp hempty] at hinner
    rw [Text.without_append, Text.without_append, ← hinner]
    rfl
  · simp only [List.flatten_cons, List.flatten_nil, List.append_nil, Text.without_append, hmargin, List.nil_append,
      Text.without_collapse hblank, hinner]

/-- The line between the braces has what stands in the body between its own braces. -/
theorem plainBlock_keeps (body : Text) : without isBlankChar body <+ (plainBlock body).flatten := by
  have hdrop : Text.trim body <+
      ['\x7b'] ++ (Text.dropTrailing '\x7d' (Text.dropLeading '\x7b' (Text.trim body)) ++ ['\x7d']) :=
    (Text.sublist_cons_dropLeading '\x7b' _).trans ((Text.sublist_dropTrailing_append '\x7d' _).cons_cons '\x7b')
  rw [Text.without_sublist_iff, without_plainBlock, ← Text.without_trim (fun _ hc => hc)]
  exact Text.without_sublist hdrop

/-! ## As a block -/

section Block

variable [Parser] {lex : Text → Option (List Token)} (hcover : Parser.Covering lex) (hshape : Parser.Shaped)
include hcover hshape

/-- The lines of a block hold its source text, apart from what may stand between tokens. -/
theorem without_formatBlock {body : Text} {b : Tree} (hb : bodyBlock? body = some b) :
    without isStop (formatBlock body).flatten = without isStop b.text := by
  have hgaps : ∀ u ∈ b.tokens.tail, ∀ c ∈ u.gap, isStop c = true := fun u hu c hc =>
    isStop_of_isGapChar ((wellCut_of_bodyBlock? hb hcover u (List.mem_of_mem_tail hu)).gap c hc)
  rw [formatBlock_eq hb]
  exact (Tree.without_layout (fun _ hc => isStop_of_isBlankChar hc) (hshape.braced hb) hgaps).2 (isBlock_of_bodyBlock? hb)

/-- All of a body that starts with its block is kept if there is nothing but blanks behind the block, and only then. -/
theorem keeps_iff_of_rest {body rest : Text} {b : Tree} (hb : bodyBlock? body = some b)
    (hrest : Text.trim body = b.text ++ rest) :
    without isStop body <+ (formatBlock body).flatten ↔ without isStop rest = [] := by
  have hlines := without_formatBlock hcover hshape hb
  have hbody : without isStop body = without isStop b.text ++ without isStop rest := by
    rw [← Text.without_trim (fun _ hc => isStop_of_isBlankChar hc), hrest, Text.without_append]
  rw [Text.without_sublist_iff, hlines, hbody]
  constructor
  · intro hsub
    have hlength := hsub.length_le
    rw [List.length_append] at hlength
    exact List.eq_nil_of_length_eq_zero (by omega)
  · intro hnil
    simp [hnil]

/-- A body without a block is kept. Of another one the first block is kept, and for a body that starts with a brace this
is its start: the body is kept exactly if there are only blanks behind the block. -/
theorem formatBlock_keeps (hopening : Parser.Opening) (body : Text) :
    (bodyBlock? body = none → without isBlankChar body <+ (formatBlock body).flatten) ∧
      ∀ b, bodyBlock? body = some b →
        without isStop (formatBlock body).flatten = without isStop b.text ∧
          ((Text.trim body).head? = some '\x7b' → ∃ rest, Text.trim body = b.text ++ rest ∧
            (without isStop body <+ (formatBlock body).flatten ↔ without isStop rest = [])) := by
  refine ⟨fun hnone => ?_, fun b hb => ⟨without_formatBlock hcover hshape hb, fun hbrace => ?_⟩⟩
  · unfold formatBlock
    simp only [hnone]
    exact plainBlock_keeps body
  · obtain ⟨rest, hrest⟩ := hopening.starts hb hbrace
    exact ⟨rest, hrest, keeps_iff_of_rest hcover hshape hb hrest⟩

end Block

/-- A body whose parentheses do not match. -/
def unclosedBody : Text := "\x7b x = (1 + ; \x7d".toList

def twoMethodBody : Text := "\x7b x(); \x7d int Other() \x7b return 2; \x7d".toList

/-- Evaluated at once, so that the words of the grammar are taken apart only once. -/
theorem bodyBlock?_dropped :
    ((bodyBlock? unclosedBody).isNone && (bodyBlock? twoMethodBody).any (fun b =>
      b.blockLines == [['\x7b'], "    x();".toList, ['\x7d']])) = true := by
  decide +kernel

theorem formatBlock_keeps_twoMethodBody :
    (bodyBlock? unclosedBody = none ∧ without isBlankChar unclosedBody <+ (formatBlock unclosedBody).flatten) ∧
      ∃ b, bodyBlock? twoMethodBody = some b ∧
        without isStop (formatBlock twoMethodBody).flatten = without isStop b.text ∧
          (Text.trim twoMethodBody).head? = some '\x7b' ∧ ∃ rest, Text.trim twoMethodBody = b.text ++ rest ∧
            (without isStop twoMethodBody <+ (formatBlock twoMethodBody).flatten ↔ without isStop rest = []) := by
  obtain ⟨hunclosed, htwo⟩ := Bool.and_eq_true_iff.mp bodyBlock?_dropped
  obtain ⟨b, hb, -⟩ := (Option.any_eq_true _ _).mp htwo
  have hnone : bodyBlock? unclosedBody = none := Option.isNone_iff_eq_none.mp hunclosed
  have hbrace : (Text.trim twoMethodBody).head? = some '\x7b' := by decide
  obtain ⟨hlines, hrest⟩ := (formatBlock_keeps Grammar.covering Grammar.shaped Grammar.opening twoMethodBody).2 b hb
  have hrefused := (formatBlock_keeps Grammar.covering Grammar.shaped Grammar.opening unclosedBody).1 hnone
  exact ⟨⟨hnone, hrefused⟩, b, hb, hlines, hbrace, hrest hbrace⟩

/-- The other method is not in the lines. -/
theorem not_formatBlock_keeps : ¬ ∀ body : Text, without isBlankChar body <+ (formatBlock body).flatten := by
  intro hall
  obtain ⟨b, hb, hlines⟩ := (Option.any_eq_true _ _).mp (Bool.and_eq_true_iff.mp bodyBlock?_dropped).2
  have hkept := hall twoMethodBody
  rw [formatBlock_eq hb, beq_iff_eq.mp hlines] at hkept
  revert hkept
  decide

end CSharpDraft.Fragment
