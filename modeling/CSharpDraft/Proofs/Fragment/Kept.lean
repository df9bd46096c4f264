import CSharpDraft.Proofs.Fragment.Layout
import CSharpDraft.Proofs.Text.Without

/-!
# The layout keeps all characters

The lines of a tree hold the characters of its source text, each once and in order, apart from blanks.

* `without_spelling_pieces` : cutting tokens into pieces loses the gaps between the pieces and nothing else;
* `Row.without_line` : what stands on the line of a row;
* `without_layout` : the lines of statements and of blocks, for every tree with braced blocks.
-/

set_option autoImplicit false

namespace CSharpDraft.Fragment

open Text (without isBlankChar)

variable {p : Char → Bool}

/-! ## Pieces -/

/-- Where the gaps between tokens are not seen, a list of tokens reads as its two parts. -/
theorem without_spelling_append {us vs : List Token} (h : ∀ u ∈ (us ++ vs).tail, ∀ c ∈ u.gap, p c = true) :
    without p (spelling (us ++ vs)) = without p (spelling us) ++ without p (spelling vs) := by
  cases us with
  | nil => rfl
  | cons u us =>
    cases vs with
    | nil => simp [spelling]
    | cons v vs =>
      have hgap : without p v.gap = [] := Text.without_eq_nil (h v (by simp))
      simp only [List.cons_append, spelling, List.flatMap_append, List.flatMap_cons, Text.without_append, hgap,
        List.nil_append, List.append_assoc]

theorem without_spelling_pieces {ps : List (List Token)} (h : ∀ u ∈ ps.flatten.tail, ∀ c ∈ u.gap, p c = true) :
    without p (ps.flatMap spelling) = without p (spelling ps.flatten) := by
  induction ps with
  | nil => rfl
  | cons q ps ih =>
    have hrest : ∀ u ∈ ps.flatten.tail, ∀ c ∈ u.gap, p c = true := by
      intro u hu
      refine h u ?_
      rw [List.flatten_cons]
      cases q with
      | nil => exact hu
      | cons v q => exact List.mem_append_right q (List.mem_of_mem_tail hu)
    rw [List.flatMap_cons, Text.without_append, ih hrest, List.flatten_cons, without_spelling_append h]

/-! ## Rows -/

section Blanks

variable (hp : ∀ c, isBlankChar c = true → p c = true)
include hp

theorem Row.without_line (r : Row) : without p r.line = without p (r.pieces.flatMap spelling) := by
  have hspace : ∀ c ∈ [' '], p c = true := by simpa using hp ' ' rfl
  have hmargins : ∀ c ∈ (List.replicate r.depth Text.margin).flatten, p c = true := by
    intro c hc
    obtain ⟨m, hm, hc⟩ := List.mem_flatten.mp hc
    rw [List.eq_of_mem_replicate hm] at hc
    rw [show c = ' ' by simpa [Text.margin] using hc]
    exact hp ' ' rfl
  have hcollapse : without p ∘ (fun q => Text.collapse (spelling q)) = without p ∘ spelling :=
    funext (fun q => Text.without_collapse hp (spelling q))
  rw [line, Text.without_append, Text.without_eq_nil hmargins, List.nil_append, Text.without_join hspace,
    Text.without_flatten, List.map_map, hcollapse, ← List.map_map, ← Text.without_flatten]
  rfl

theorem without_map_line (rs : List Row) :
    without p (rs.map Row.line).flatten = without p ((Tree.piecesOf rs).flatMap spelling) := by
  induction rs with
  | nil => rfl
  | cons r rs ih =>
    rw [List.map_cons, List.flatten_cons, Text.without_append, ih, Row.without_line hp, ← Text.without_append,
      ← List.flatMap_append]
    rfl

/-! ## Trees -/

namespace Tree

/-- Rows that hold the tokens of a tree give lines with the characters of its text. -/
theorem LaidAs.without_lines {ls : List Text} {rs : List Row} {us : List Token} (h : LaidAs ls rs)
    (htokens : rs.flatMap Row.tokens = us) (hgaps : ∀ u ∈ us.tail, ∀ c ∈ u.gap, p c = true) :
    without p ls.flatten = without p (spelling us) := by
  rw [← flatten_piecesOf] at htokens
  rw [h.lines_eq, without_map_line hp, without_spelling_pieces (by rwa [htokens]), htokens]

theorem without_layout {t : Tree} (hbraced : t.BlocksBraced) (hgaps : ∀ u ∈ t.tokens.tail, ∀ c ∈ u.gap, p c = true) :
    without p (statementLines t).flatten = without p t.text ∧
      (t.isBlock = true → without p (blockLines t).flatten = without p t.text) :=
  ⟨(laidAs_rows hbraced).1.without_lines hp (tokens_rows t).1 hgaps,
    fun hblock => ((laidAs_rows hbraced).2 hblock).without_lines hp ((tokens_rows t).2 hblock) hgaps⟩

end Tree

end Blanks

namespace Tree

/-- The layout of a statement or a block has the characters of the source text that are not blank, each once and in
order, for any tree whose blocks are in braces and which has nothing but blanks between its tokens. -/
theorem lines_keep_text {t : Tree} (hbraced : t.BlocksBraced) (hgaps : ∀ u ∈ t.tokens.tail, Text.isBlank u.gap = true) :
    without isBlankChar (statementLines t).flatten = without isBlankChar t.text ∧
      (t.isBlock = true → without isBlankChar (blockLines t).flatten = without isBlankChar t.text) :=
  without_layout (fun _ hc => hc) hbraced (fun u hu => List.all_eq_true.mp (hgaps u hu))

/-- A block of the given statements. -/
def inBlock (statements : List Tree) : Tree :=
  .node .block (.leaf ⟨.symbol, [' '], ['\x7b']⟩ :: statements ++ [.leaf ⟨.symbol, ['\n'], ['\x7d']⟩])

def callOf (f : Text) : Tree :=
  .node .statement [.leaf ⟨.word, "\u2028\t".toList, f⟩, .leaf ⟨.symbol, [], ['(']⟩, .leaf ⟨.symbol, ['\r'], [')']⟩,
    .leaf ⟨.symbol, [], [';']⟩]

def ifHead (a : Text) : List Tree :=
  [.leaf ⟨.word, [' '], "if".toList⟩, .leaf ⟨.symbol, ['\n'], ['(']⟩, .leaf ⟨.word, [], a⟩, .leaf ⟨.symbol, [], [')']⟩]

/-- A block with two `if` statements, the second behind the `else` of the first. -/
def choice : Tree :=
  inBlock [.node .statement (ifHead ['a'] ++ [inBlock [callOf ['f']], .leaf ⟨.word, ['\n'], "else".toList⟩,
    .node .statement (ifHead ['b'] ++ [inBlock [callOf ['g']]])])]

theorem blocksBraced_inBlock {t : Tree} (hpart : t.isPart = true) (h : t.BlocksBraced) : (inBlock [t]).BlocksBraced := by
  refine .node (fun _ => ⟨_, _, [t], rfl, rfl, rfl, by simpa using hpart⟩) ?_
  simpa using ⟨.leaf _, h, .leaf _⟩

theorem lines_keep_text_choice :
    choice.BlocksBraced ∧ (∀ u ∈ choice.tokens.tail, Text.isBlank u.gap = true) ∧
      without isBlankChar (statementLines choice).flatten = without isBlankChar choice.text ∧
      without isBlankChar (blockLines choice).flatten = without isBlankChar choice.text := by
  have hcall (f : Text) : (inBlock [callOf f]).BlocksBraced :=
    blocksBraced_inBlock rfl (.node nofun (by simp [BlocksBraced.leaf]))
  have hif (a : Text) : ∀ c ∈ ifHead a, c.BlocksBraced := by simp [ifHead, BlocksBraced.leaf]
  have helse : (Tree.node .statement (ifHead ['b'] ++ [inBlock [callOf ['g']]])).BlocksBraced :=
    .node nofun (List.forall_mem_append.mpr ⟨hif _, by simpa using hcall _⟩)
  have hbraced : choice.BlocksBraced :=
    blocksBraced_inBlock rfl (.node nofun (List.forall_mem_append.mpr
      ⟨hif _, by simp [BlocksBraced.leaf, hcall, helse]⟩))
  have hgaps : ∀ u ∈ choice.tokens.tail, Text.isBlank u.gap = true := by decide
  have hlayout := lines_keep_text hbraced hgaps
  exact ⟨hbraced, hgaps, hlayout.1, hlayout.2 rfl⟩

end Tree

end CSharpDraft.Fragment
