import CSharpDraft.Fragment.Block
import CSharpDraft.Proofs.Text.Lines

/-!
# Lines of laid-out fragments

Whatever text a caller gives, what the layout makes of it is made of lines: an expression or an initial value is one
line (`oneLine_formatExpression`, `oneLine_formatDefault`), and each line of a block is a line and not empty
(`line_of_mem_formatBlock`).
-/

set_option autoImplicit false

namespace CSharpDraft.Fragment

open Text (OneLine)

/-! ## Expressions and initial values -/

theorem oneLine_formatExpression (t : Text) : OneLine (formatExpression t) :=
  (Text.oneLine_collapse t).of_subset
    (List.Subset.trans (Text.trimRight_subset _) (Text.dropTrailing_subset ';' _))

theorem oneLine_formatDefault (t : Text) : OneLine (formatDefault t) := by
  unfold formatDefault
  refine OneLine.of_subset ?_ (List.Subset.trans (Text.trimRight_subset _) (Text.dropTrailing_subset ';' _))
  have hline := Text.oneLine_collapse t
  split
  · next r h =>
    rw [h, Text.oneLine_cons] at hline
    exact hline.2.of_subset (Text.trimLeft_subset r)
  · exact hline

/-! ## Trees -/

namespace Tree

theorem oneLine_of_mem_pendingLine (pending : List Tree) : ∀ l ∈ pendingLine pending, OneLine l := by
  intro l hl
  unfold pendingLine at hl
  split at hl
  · simp at hl
  · rw [List.mem_singleton] at hl
    rw [hl]
    exact Text.oneLine_collapse _

theorem oneLine_of_mem_joinPending {pending : List Tree} {ls : List Text} (h : ∀ l ∈ ls, OneLine l) :
    ∀ l ∈ joinPending pending ls, OneLine l := by
  intro l hl
  unfold joinPending at hl
  split at hl
  · exact h l hl
  · simp at hl
  · rcases List.mem_cons.mp hl with rfl | hl
    · rw [Text.oneLine_append, Text.oneLine_append]
      exact ⟨⟨Text.oneLine_collapse _, by decide⟩, h _ List.mem_cons_self⟩
    · exact h l (List.mem_cons_of_mem _ hl)

mutual

theorem oneLine_of_mem_blockLines (t : Tree) : ∀ l ∈ blockLines t, OneLine l := by
  cases t with
  | leaf token => simp [blockLines]
  | node kind children =>
    intro l hl
    have hparts := oneLine_of_mem_partLines children
    simp only [blockLines, List.cons_append, List.mem_cons, List.mem_append, List.not_mem_nil, or_false] at hl
    rcases hl with rfl | hl | rfl
    · decide
    · exact hparts l hl
    · decide

theorem oneLine_of_mem_partLines (cs : List Tree) : ∀ l ∈ partLines cs, OneLine l := by
  cases cs with
  | nil => simp [partLines]
  | cons c cs =>
    intro l hl
    have hc := oneLine_of_mem_statementLines c
    have hcs := oneLine_of_mem_partLines cs
    rw [partLines, List.mem_append] at hl
    rcases hl with hl | hl
    · split at hl
      · obtain ⟨m, hm, rfl⟩ := List.mem_map.mp hl
        rw [Text.oneLine_append]
        exact ⟨by decide, hc m hm⟩
      · simp at hl
    · exact hcs l hl

theorem oneLine_of_mem_statementLines (t : Tree) : ∀ l ∈ statementLines t, OneLine l := by
  cases t with
  | leaf token =>
    intro l hl
    rw [statementLines, List.mem_singleton] at hl
    rw [hl]
    exact Text.oneLine_collapse _
  | node kind children =>
    intro l hl
    have hbroken := oneLine_of_mem_brokenLines children []
    rw [statementLines] at hl
    split at hl
    · exact hbroken l hl
    · rw [List.mem_singleton] at hl
      rw [hl]
      exact Text.oneLine_collapse _

theorem oneLine_of_mem_brokenLines (cs pending : List Tree) : ∀ l ∈ brokenLines cs pending, OneLine l := by
  cases cs with
  | nil =>
    rw [brokenLines]
    exact oneLine_of_mem_pendingLine pending
  | cons c cs =>
    intro l hl
    have hblock := oneLine_of_mem_blockLines c
    have hstatement := oneLine_of_mem_statementLines c
    rw [brokenLines] at hl
    split at hl
    · rcases List.mem_append.mp hl with hl | hl
      · rcases List.mem_append.mp hl with hl | hl
        · exact oneLine_of_mem_pendingLine pending l hl
        · exact hblock l hl
      · exact oneLine_of_mem_brokenLines cs [] l hl
    · split at hl
      · rcases List.mem_append.mp hl with hl | hl
        · exact oneLine_of_mem_joinPending hstatement l hl
        · exact oneLine_of_mem_brokenLines cs [] l hl
      · exact oneLine_of_mem_brokenLines cs (pending ++ [c]) l hl

end

theorem ne_nil_of_mem_partLines (cs : List Tree) : ∀ l ∈ partLines cs, l ≠ [] := by
  induction cs with
  | nil => simp [partLines]
  | cons c cs ih =>
    intro l hl
    rw [partLines, List.mem_append] at hl
    rcases hl with hl | hl
    · split at hl
      · obtain ⟨m, -, rfl⟩ := List.mem_map.mp hl
        simp [Text.margin]
      · simp at hl
    · exact ih l hl

theorem ne_nil_of_mem_blockLines (t : Tree) : ∀ l ∈ blockLines t, l ≠ [] := by
  cases t with
  | leaf token => simp [blockLines]
  | node kind children =>
    intro l hl
    simp only [blockLines, List.cons_append, List.mem_cons, List.mem_append, List.not_mem_nil, or_false] at hl
    rcases hl with rfl | hl | rfl
    · decide
    · exact ne_nil_of_mem_partLines children l hl
    · decide

end Tree

/-! ## Blocks -/

theorem line_of_mem_plainBlock (body : Text) : ∀ l ∈ plainBlock body, OneLine l ∧ l ≠ [] := by
  intro l hl
  unfold plainBlock at hl
  dsimp only at hl
  split at hl
  · simp only [List.mem_cons, List.not_mem_nil, or_false] at hl
    rcases hl with rfl | rfl <;> decide
  · simp only [List.mem_cons, List.not_mem_nil, or_false] at hl
    rcases hl with rfl | rfl | rfl
    · decide
    · rw [Text.oneLine_append]
      exact ⟨⟨by decide, Text.oneLine_collapse _⟩, by simp [Text.margin]⟩
    · decide

/-- The lines of a block are lines, and none of them is empty. -/
theorem line_of_mem_formatBlock [Parser] (body : Text) : ∀ l ∈ formatBlock body, OneLine l ∧ l ≠ [] := by
  intro l hl
  unfold formatBlock at hl
  split at hl
  · exact ⟨Tree.oneLine_of_mem_blockLines _ l hl, Tree.ne_nil_of_mem_blockLines _ l hl⟩
  · exact line_of_mem_plainBlock body l hl

end CSharpDraft.Fragment
