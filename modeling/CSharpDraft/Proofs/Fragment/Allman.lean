import CSharpDraft.Proofs.Fragment.Lawful
import CSharpDraft.Proofs.Fragment.SameCode

/-!
# Where the braces and the statements of a block stand

A block that is reached through blocks, statements and clauses has its braces on lines of their own, one step further to
the right for each block around it, and its statements on lines of their own between them. This does not hold of a block
that stands alone among the statements of another one, which is laid out as a statement.

* `Tree.Reached` : the trees below a block that are reached in this way, with their place;
* `Tree.Placed` : what is laid out of such a tree, as rows of the whole block (`Tree.Reached.placed`);
* `laidOut_of_reached` : where the braces and statements of a reached block stand;
* `not_laidOut_bareBody` : a block that stands alone is not laid out.
-/

set_option autoImplicit false

namespace CSharpDraft.Fragment

open Text (EndsSolid StartsSolid)

/-! ## Rows with something on them -/

/-- The row has pieces of tokens that were cut from a text, and none of them is empty. -/
structure Row.Filled (r : Row) : Prop where
  ne_nil : ∀ p ∈ r.pieces, p ≠ []
  wellCut : ∀ u ∈ r.tokens, WellCut u

theorem startsSolid_spelling {p : List Token} (hne : p ≠ []) (hcut : ∀ u ∈ p, WellCut u) : StartsSolid (spelling p) := by
  obtain ⟨u, us, rfl⟩ := List.exists_cons_of_ne_nil hne
  exact (hcut u List.mem_cons_self).startsSolid _

theorem endsSolid_piecesText {ps : List (List Token)} (h : ∀ p ∈ ps, StartsSolid (spelling p)) {x : Text}
    (hx : EndsSolid x) : EndsSolid (x ++ piecesText ps) := by
  induction ps generalizing x with
  | nil => simpa [piecesText] using hx
  | cons p ps ih =>
    rw [List.forall_mem_cons] at h
    have hp : EndsSolid (x ++ ' ' :: Text.collapse (spelling p)) :=
      ((Text.solid_collapse h.1).2.append [' ']).append x
    have hsplit : x ++ piecesText (p :: ps) = x ++ ' ' :: Text.collapse (spelling p) ++ piecesText ps := by
      simp [piecesText]
    rw [hsplit]
    exact ih h.2 hp

/-- Behind its indentation a row starts and ends with a character that is not blank. -/
theorem Row.solid_line {r : Row} (h : r.Filled) :
    ∃ t, r.line = (List.replicate r.depth Text.margin).flatten ++ t ∧ StartsSolid t ∧ EndsSolid t ∧
      t.head? = (spelling r.first).head? := by
  have hpieces : ∀ p ∈ r.pieces, StartsSolid (spelling p) := fun p hp =>
    startsSolid_spelling (h.ne_nil p hp) (fun u hu => h.wellCut u (List.mem_flatten.mpr ⟨p, hp, hu⟩))
  rw [Row.pieces, List.forall_mem_cons] at hpieces
  obtain ⟨hstarts, hends⟩ := Text.solid_collapse hpieces.1
  refine ⟨_, line_eq r, hstarts.append _, endsSolid_piecesText hpieces.2 hends, ?_⟩
  obtain ⟨c, y, hc, hsolid⟩ := hpieces.1
  rw [hc, Text.collapse_eq_squeeze ⟨c, y, rfl, hsolid⟩, Text.squeeze_cons_solid hsolid]
  rfl

/-- The rows of parts are rows one step to the right. -/
theorem Tree.partRows_eq {parts : List Tree} (h : ∀ c ∈ parts, c.isPart = true) :
    partRows parts = (parts.flatMap statementRows).map Row.deeper := by
  induction parts with
  | nil => rfl
  | cons c cs ih =>
    rw [List.forall_mem_cons] at h
    rw [partRows, if_pos h.1, ih h.2, List.flatMap_cons, List.map_append]

/-- The rows of a part of a block have pieces of tokens that were cut from the text. -/
theorem filled_of_part {part : Tree} (hwell : part.WellMade) (htokens : ∀ u ∈ part.tokens, WellCut u) :
    ∀ r ∈ part.statementRows, r.Filled := by
  intro r hr
  refine ⟨fun p hp => (Tree.pieces_ne_nil hwell).1 p (List.mem_flatMap.mpr ⟨r, hr, hp⟩), fun u hu => htokens u ?_⟩
  rw [← (Tree.tokens_rows part).1]
  exact List.mem_flatMap.mpr ⟨r, hr, hu⟩

theorem Row.line_brace {t : Token} {c : Char} (h : t.isSymbol [c] = true) (hc : Text.isBlankChar c = false)
    (depth : Nat) : Row.line ⟨depth, [t], []⟩ = (List.replicate depth Text.margin).flatten ++ [c] := by
  have hcollapse : Text.collapse [c] = [c] := by
    rw [Text.collapse_eq_squeeze ⟨c, [], rfl, hc⟩, Text.squeeze_cons_solid hc]
    rfl
  rw [line_eq, spelling_singleton, Token.text_of_isSymbol h, hcollapse]
  rfl

/-! ## Rows further to the right -/

/-- The indentation of a line. -/
def margins (depth : Nat) : Text := (List.replicate depth Text.margin).flatten

namespace Row

/-- The row some steps further to the right. -/
def shift (depth : Nat) (r : Row) : Row := { r with depth := r.depth + depth }

@[simp] theorem shift_zero : shift 0 = id := rfl

theorem shift_deeper (depth : Nat) (r : Row) : r.deeper.shift depth = r.shift (depth + 1) := by
  rw [shift, deeper, shift, Nat.add_assoc, Nat.add_comm 1 depth]

@[simp] theorem tokens_shift (depth : Nat) (r : Row) : (r.shift depth).tokens = r.tokens := rfl

end Row

@[simp] theorem tokens_map_shift (depth : Nat) (rs : List Row) :
    (rs.map (Row.shift depth)).flatMap Row.tokens = rs.flatMap Row.tokens := by
  rw [List.flatMap_map]
  rfl

namespace Tree

/-! ## Rows behind pieces -/

/-- The rows with further pieces in front of the first. -/
def leadRows (pieces : List (List Token)) : List Row → List Row
  | [] => []
  | r :: rs => pieces.foldr Row.behind r :: rs

@[simp] theorem leadRows_nil (rs : List Row) : leadRows [] rs = rs := by cases rs <;> rfl

theorem leadRows_leadRows (ps qs : List (List Token)) (rs : List Row) :
    leadRows ps (leadRows qs rs) = leadRows (ps ++ qs) rs := by
  cases rs with
  | nil => rfl
  | cons r rs => simp [leadRows]

theorem leadRows_append {rs : List Row} (h : rs ≠ []) (pieces : List (List Token)) (qs : List Row) :
    leadRows pieces (rs ++ qs) = leadRows pieces rs ++ qs := by
  cases rs with
  | nil => exact absurd rfl h
  | cons r rs => rfl

theorem tokens_leadRows {rs : List Row} (h : rs ≠ []) (pieces : List (List Token)) :
    (leadRows pieces rs).flatMap Row.tokens = pieces.flatten ++ rs.flatMap Row.tokens := by
  cases rs with
  | nil => exact absurd rfl h
  | cons r rs =>
    have hfirst : (pieces.foldr Row.behind r).tokens = pieces.flatten ++ r.tokens := by
      induction pieces with
      | nil => rfl
      | cons p ps ih => simp [ih]
    simp [leadRows, hfirst]

/-- The piece of the trees that wait for a row, if there are any. -/
def pendingPieces (pending : List Tree) : List (List Token) :=
  if pending.isEmpty then [] else [tokensOf pending]

theorem flatten_pendingPieces (pending : List Tree) : (pendingPieces pending).flatten = tokensOf pending := by
  cases pending with
  | nil => rfl
  | cons c cs => simp [pendingPieces]

theorem joinRows_eq_leadRows {rs : List Row} (h : rs ≠ []) (pending : List Tree) :
    joinRows pending rs = leadRows (pendingPieces pending) rs := by
  cases rs with
  | nil => exact absurd rfl h
  | cons r rs => cases pending <;> rfl

theorem pendingRows_ne_nil {pending : List Tree} (h : pending ≠ []) : pendingRows pending ≠ [] := by
  cases pending with
  | nil => exact absurd rfl h
  | cons c cs => exact List.cons_ne_nil _ _

theorem joinRows_ne_nil {pending : List Tree} (h : pending ≠ []) (rs : List Row) : joinRows pending rs ≠ [] := by
  cases pending with
  | nil => exact absurd rfl h
  | cons c cs =>
    cases rs with
    | nil => exact pendingRows_ne_nil h
    | cons r rs => exact List.cons_ne_nil _ _

/-- The rows in front of a place in a row of trees, and what waits for a row there. -/
theorem exists_brokenRows_append (cs ds pending : List Tree) :
    ∃ above waiting, brokenRows (cs ++ ds) pending = above ++ brokenRows ds waiting ∧
      above.flatMap Row.tokens ++ tokensOf waiting = tokensOf pending ++ tokensOf cs ∧
      (pending ≠ [] → above ≠ [] ∨ waiting ≠ []) := by
  induction cs generalizing pending with
  | nil => exact ⟨[], pending, rfl, by simp [tokensOf], Or.inr⟩
  | cons c cs ih =>
    rw [List.cons_append, brokenRows, tokensOf]
    split
    · next hc =>
      obtain ⟨above, waiting, hrows, htokens, -⟩ := ih []
      refine ⟨pendingRows pending ++ blockRows c ++ above, waiting, ?_, ?_, fun hne => Or.inl ?_⟩
      · rw [hrows, ← List.append_assoc]
      · rw [List.flatMap_append, List.append_assoc, htokens, List.flatMap_append, tokens_pendingRows,
          (tokens_rows c).2 hc]
        simp [tokensOf]
      · simp [pendingRows_ne_nil hne]
    · split
      · obtain ⟨above, waiting, hrows, htokens, -⟩ := ih []
        refine ⟨joinRows pending (statementRows c) ++ above, waiting, ?_, ?_, fun hne => Or.inl ?_⟩
        · rw [hrows, List.append_assoc]
        · rw [List.flatMap_append, List.append_assoc, htokens, tokens_joinRows, (tokens_rows c).1]
          simp [tokensOf]
        · simp [joinRows_ne_nil hne]
      · obtain ⟨above, waiting, hrows, htokens, hne⟩ := ih (pending ++ [c])
        exact ⟨above, waiting, hrows, by simp [htokens, tokensOf], fun _ => hne (by simp)⟩

theorem rowHoldsBlock_of_mem {cs : List Tree} {c : Tree} (hc : c ∈ cs)
    (h : (c.isBlock || (c.isStatement && holdsBlock c)) = true) : rowHoldsBlock cs = true := by
  induction cs with
  | nil => cases hc
  | cons d cs ih =>
    rw [rowHoldsBlock, Bool.or_eq_true]
    rcases List.mem_cons.mp hc with rfl | hc
    · exact Or.inl h
    · exact Or.inr (ih hc)

/-! ## Places -/

/-- The trees below the block `b` that are reached through blocks, statements and clauses, with the tokens of `b` in
front of them and the number of blocks around them. With `bare`, a block may be reached that stands alone among the
parts of another one. -/
inductive Reached (bare : Bool) (b : Tree) : List Token → Nat → Tree → Prop where
  | root : Reached bare b [] 0 b
  | part {front : List Token} {depth : Nat} {before after : List Tree} {c : Tree} :
    Reached bare b front depth (node .block (before ++ c :: after)) →
    (c.isStatement || (bare && c.isBlock)) = true → Reached bare b (front ++ tokensOf before) (depth + 1) c
  | within {front : List Token} {depth : Nat} {kind : NodeKind} {before after : List Tree} {c : Tree} :
    Reached bare b front depth (node kind (before ++ c :: after)) →
    isStatement (node kind (before ++ c :: after)) = true → c.isLaidOut = true →
    Reached bare b (front ++ tokensOf before) depth c

/-- The rows of the tree stand among those of `b`, `depth` steps to the right and behind the tokens `front`. The first
row of a statement may have other pieces in front, as behind an `else`. -/
structure Placed (b : Tree) (front : List Token) (depth : Nat) (c : Tree) : Prop where
  wellMade : c.WellMade
  braced : c.BlocksBraced
  block : c.isBlock = true → ∃ above below,
    b.blockRows = above ++ c.blockRows.map (Row.shift depth) ++ below ∧ above.flatMap Row.tokens = front
  statement : c.isStatement = true → c.holdsBlock = true → ∃ above pieces below,
    b.blockRows = above ++ (leadRows pieces c.statementRows).map (Row.shift depth) ++ below ∧
      above.flatMap Row.tokens ++ pieces.flatten = front

theorem not_isBlock_of_isStatement {c : Tree} (h : c.isStatement = true) : c.isBlock = false := by
  cases c with
  | leaf t => rfl
  | node kind children =>
    cases kind with
    | block => cases h
    | statement | clause | conditional | other => rfl

section Placed

variable {b : Tree} {front : List Token} {depth : Nat} {before after : List Tree} {c : Tree}

theorem Placed.part (h : Placed b front depth (node .block (before ++ c :: after))) (hc : c.isStatement = true) :
    Placed b (front ++ tokensOf before) (depth + 1) c := by
  obtain ⟨hwell, hbraced, hblock, -⟩ := h
  obtain ⟨above, below, hrows, htokens⟩ := hblock rfl
  have hpart : c.isPart = true := by
    cases c with
    | leaf t => cases hc
    | node kind children => rfl
  have hbefore : (partRows before).flatMap Row.tokens = tokensOf before :=
    tokens_partRows (fun d _ => (tokens_rows d).1)
  cases hwell with | node _ _ hwell =>
  cases hbraced with | node _ hbraced =>
  refine ⟨hwell c (by simp), hbraced c (by simp), fun hb => ?_, fun _ _ => ?_⟩
  · rw [not_isBlock_of_isStatement hc] at hb
    cases hb
  · refine ⟨above ++ (partRows before).map (Row.shift depth), [], (partRows after).map (Row.shift depth) ++ below, ?_, ?_⟩
    · rw [hrows, blockRows, partRows_append, partRows, if_pos hpart, leadRows_nil]
      simp [Row.shift_deeper, Function.comp_def]
    · simp [htokens, hbefore]

/-- A tree that is laid out on its own inside a statement stands behind something that waits for a row, or behind rows of
the statement. -/
theorem exists_statementRows {kind : NodeKind} (h : (node kind (before ++ c :: after)).WellMade)
    (hkind : isStatement (node kind (before ++ c :: after)) = true)
    (hc : (c.isBlock || (c.isStatement && holdsBlock c)) = true) :
    ∃ above waiting, statementRows (node kind (before ++ c :: after)) = above ++ brokenRows (c :: after) waiting ∧
      above.flatMap Row.tokens ++ tokensOf waiting = tokensOf before ∧ (above ≠ [] ∨ waiting ≠ []) := by
  cases h with | node _ hplain _ =>
  have hlaid : c.isLaidOut = true := by
    rw [isLaidOut, Bool.or_eq_true]
    rw [Bool.or_eq_true, Bool.and_eq_true] at hc
    exact hc.imp_right And.left
  rw [statementRows, if_pos (rowHoldsBlock_of_mem (by simp) hc)]
  cases before with
  | nil =>
    rw [hplain hkind c rfl] at hlaid
    cases hlaid
  | cons d before =>
    have hd : d.isBlock = false ∧ d.isStatement = false := Bool.or_eq_false_iff.mp (hplain hkind d rfl)
    obtain ⟨above, waiting, hrows, htokens, hne⟩ := exists_brokenRows_append before (c :: after) [d]
    refine ⟨above, waiting, ?_, ?_, hne (by simp)⟩
    · rw [List.cons_append, brokenRows, hd.1, hd.2]
      exact hrows
    · rw [htokens]
      simp [tokensOf]

theorem Placed.within {kind : NodeKind} (h : Placed b front depth (node kind (before ++ c :: after)))
    (hkind : isStatement (node kind (before ++ c :: after)) = true) : Placed b (front ++ tokensOf before) depth c := by
  obtain ⟨hwell, hbraced, -, hstatement⟩ := h
  have hfirst := exists_statementRows hwell hkind
  have hholds : (c.isBlock || (c.isStatement && holdsBlock c)) = true →
      holdsBlock (node kind (before ++ c :: after)) = true := fun hc => rowHoldsBlock_of_mem (by simp) hc
  cases hwell with | node _ _ hwell =>
  cases hbraced with | node _ hbraced =>
  refine ⟨hwell c (by simp), hbraced c (by simp), fun hb => ?_, fun hs hh => ?_⟩
  · have hc : (c.isBlock || (c.isStatement && holdsBlock c)) = true := by rw [hb, Bool.true_or]
    obtain ⟨above, pieces, below, hrows, htokens⟩ := hstatement hkind (hholds hc)
    obtain ⟨upper, waiting, hupper, hbefore, hne⟩ := hfirst hc
    have hlead : upper ++ pendingRows waiting ≠ [] := by
      rcases hne with hne | hne
      · simp [hne]
      · simp [pendingRows_ne_nil hne]
    rw [brokenRows, if_pos hb, ← List.append_assoc, ← List.append_assoc] at hupper
    refine ⟨above ++ (leadRows pieces (upper ++ pendingRows waiting)).map (Row.shift depth),
      (brokenRows after []).map (Row.shift depth) ++ below, ?_, ?_⟩
    · rw [hrows, hupper, List.append_assoc (upper ++ _), leadRows_append hlead]
      simp
    · rw [List.flatMap_append, tokens_map_shift, tokens_leadRows hlead, List.flatMap_append, tokens_pendingRows, hbefore,
        ← List.append_assoc, htokens]
  · have hb := not_isBlock_of_isStatement hs
    have hc : (c.isBlock || (c.isStatement && holdsBlock c)) = true := by rw [hs, hh]; simp
    obtain ⟨above, pieces, below, hrows, htokens⟩ := hstatement hkind (hholds hc)
    obtain ⟨upper, waiting, hupper, hbefore, -⟩ := hfirst hc
    have hne : statementRows c ≠ [] := (laidAs_rows (hbraced c (by simp))).1.ne_nil
    rw [brokenRows, hb, hs, hh, joinRows_eq_leadRows hne] at hupper
    by_cases hnil : upper = []
    · subst hnil
      refine ⟨above, pieces ++ pendingPieces waiting, (brokenRows after []).map (Row.shift depth) ++ below, ?_, ?_⟩
      · have hlead : leadRows (pendingPieces waiting) (statementRows c) ≠ [] := by
          obtain ⟨r, rs, hr⟩ := List.exists_cons_of_ne_nil hne
          rw [hr]
          exact List.cons_ne_nil _ _
        rw [hrows, hupper]
        simp [leadRows_append hlead, leadRows_leadRows]
      · rw [← htokens, ← hbefore, List.flatten_append, flatten_pendingPieces]
        simp
    · refine ⟨above ++ (leadRows pieces upper).map (Row.shift depth), pendingPieces waiting,
        (brokenRows after []).map (Row.shift depth) ++ below, ?_, ?_⟩
      · rw [hrows, hupper]
        simp [leadRows_append hnil]
      · rw [← htokens, ← hbefore, List.flatMap_append, tokens_map_shift, tokens_leadRows hnil, flatten_pendingPieces]
        simp

theorem Reached.placed {c : Tree} (h : Reached false b front depth c) (hwell : b.WellMade) (hbraced : b.BlocksBraced)
    (hb : b.isBlock = true) : Placed b front depth c := by
  induction h with
  | root =>
    refine ⟨hwell, hbraced, fun _ => ⟨[], [], by simp, rfl⟩, fun hstatement => ?_⟩
    rw [not_isBlock_of_isStatement hstatement] at hb
    cases hb
  | part _ hc ih => exact ih.part (by simpa using hc)
  | within _ hkind _ ih => exact ih.within hkind

end Placed

/-! ## Blocks -/

/-- The rows of a part of a block, so far to the right. -/
def rowsAt (depth : Nat) (part : Tree) : List Row := part.statementRows.map (Row.shift depth)

/-- The rows hold the part and nothing else, and the first of them starts with it. -/
structure StartsAt (depth : Nat) (part : Tree) : Prop where
  tokens_eq : (rowsAt depth part).flatMap Row.tokens = part.tokens
  starts : ∃ first others t, rowsAt depth part = first :: others ∧ first.line = margins depth ++ t ∧ StartsSolid t ∧
    t.head? = part.text.head?

/-- In the lines of the body, the block that stands behind the tokens `front` has its braces on lines of their own, so
far to the right, and each of its parts on further lines between them, one step further to the right. -/
def LaidOut [Parser] (body : Text) (front : List Token) (depth : Nat) (block : Tree) : Prop :=
  ∃ opening closing parts, ∃ above below : List Row, block = node .block (leaf opening :: parts ++ [leaf closing]) ∧
    formatBlock body = above.map Row.line ++ [margins depth ++ ['\x7b']] ++
      (parts.flatMap (rowsAt (depth + 1))).map Row.line ++ [margins depth ++ ['\x7d']] ++ below.map Row.line ∧
    above.flatMap Row.tokens = front ∧ ∀ part ∈ parts, StartsAt (depth + 1) part

theorem startsAt {part : Tree} (hwell : part.WellMade) (hbraced : part.BlocksBraced)
    (hcut : ∀ u ∈ part.tokens, WellCut u) (depth : Nat) : StartsAt depth part := by
  have htokens := (tokens_rows part).1
  refine ⟨(tokens_map_shift depth _).trans htokens, ?_⟩
  obtain ⟨-, hne, hhead⟩ := (laidAs_rows hbraced).1
  obtain ⟨r, rs, hrows⟩ := List.exists_cons_of_ne_nil hne
  have hfilled : r.Filled := filled_of_part hwell hcut r (by simp [hrows])
  have hshifted : (r.shift depth).Filled := ⟨hfilled.ne_nil, hfilled.wellCut⟩
  obtain ⟨t, ht, hstarts, -, hfirst⟩ := Row.solid_line hshifted
  refine ⟨r.shift depth, rs.map (Row.shift depth), t, by rw [rowsAt, hrows]; rfl, ?_, hstarts, ?_⟩
  · have hdepth : r.depth = 0 := hhead r (by simp [hrows])
    rw [ht, margins, Row.shift, hdepth, Nat.zero_add]
  · obtain ⟨u, us, hu⟩ := List.exists_cons_of_ne_nil (hfilled.ne_nil r.first List.mem_cons_self)
    obtain ⟨c, y, hc, -⟩ := (hfilled.wellCut u (by simp [Row.tokens, Row.pieces, hu])).starts
    have hpart : part.tokens = u :: (us ++ r.others.flatten ++ rs.flatMap Row.tokens) := by
      rw [← htokens, hrows, List.flatMap_cons, Row.tokens, Row.pieces, List.flatten_cons, hu]
      simp
    rw [hfirst, Row.shift, hu, text, hpart, spelling_cons, spelling_cons, hc]
    rfl

end Tree

open CSharpDraft.Fragment.Tree (Reached LaidOut)

/-- A block that is reached through blocks, statements and clauses has its braces and its parts on lines of their own,
unless there is a block on the way that stands alone in another one. -/
theorem laidOut_of_reached [Parser] {lex : Text → Option (List Token)} (hcover : Parser.Covering lex)
    (hshape : Parser.Shaped) {body : Text} {b : Tree} (hb : bodyBlock? body = some b) {front : List Token} {depth : Nat}
    {block : Tree} (h : Reached false b front depth block) (hblock : block.isBlock = true) :
    LaidOut body front depth block := by
  have hisBlock := isBlock_of_bodyBlock? hb
  have hlines := ((Tree.laidAs_rows (hshape.braced hb)).2 hisBlock).lines_eq
  obtain ⟨hwell, hbraced, hrows, -⟩ := h.placed (hshape.wellMade hb) (hshape.braced hb) hisBlock
  obtain ⟨above, below, hrows, hfront⟩ := hrows hblock
  have hcut : ∀ u ∈ block.tokens, WellCut u := by
    intro u hu
    refine wellCut_of_bodyBlock? hb hcover u ?_
    rw [← (Tree.tokens_rows b).2 hisBlock, hrows, List.flatMap_append, List.flatMap_append, tokens_map_shift,
      (Tree.tokens_rows block).2 hblock]
    simp [hu]
  cases hwell with
  | leaf t => cases hblock
  | @node kind children _ _ hwell =>
    cases hbraced with | node hbraced hall =>
    cases kind with
    | statement | clause | conditional | other => cases hblock
    | block =>
      obtain ⟨opening, closing, parts, rfl, hopening, hclosing, hparts⟩ := hbraced rfl
      refine ⟨opening, closing, parts, above, below, rfl, ?_, hfront, fun part hpart => ?_⟩
      · rw [formatBlock_eq hb, hlines, hrows, Tree.blockRows, Tree.partRows_braced hopening hclosing,
          Tree.partRows_eq hparts]
        have hinside : ((parts.flatMap Tree.statementRows).map Row.deeper).map (Row.shift depth) =
            parts.flatMap (Tree.rowsAt (depth + 1)) := by
          rw [List.map_map, List.map_flatMap]
          simp only [Function.comp_def, Row.shift_deeper]
          rfl
        have hbrace : ∀ {t : Token} {c : Char}, t.isSymbol [c] = true → Text.isBlankChar c = false →
            (Row.shift depth ⟨0, [t], []⟩).line = margins depth ++ [c] := by
          intro t c ht hc
          rw [Row.shift, Row.line_brace ht hc, Nat.zero_add, margins]
        simp only [List.map_append, List.map_cons, List.map_nil, hinside, hbrace hopening rfl, hbrace hclosing rfl]
        simp
      · refine Tree.startsAt (hwell part (by simp [hpart])) (hall part (by simp [hpart])) (fun u hu => hcut u ?_) _
        exact Tree.mem_tokensOf.mpr ⟨part, by simp [hpart], hu⟩

/-- A body with a block in the branch of an `if` statement. -/
def branchBody : Text := "\x7b if (a) \x7b b(); \x7d \x7d".toList

def bareBody : Text := "\x7b \x7b a(); b(); \x7d \x7d".toList

/-- Whether the tree is a block around one statement that ends with a block. -/
def Tree.isBranch : Tree → Bool
  | node .block [_, node .statement [_, _, _, _, node .block _], _] => true
  | _ => false

def Tree.isNested : Tree → Bool
  | node .block [_, node .block _, _] => true
  | _ => false

/-- Evaluated at once, so that the words of the grammar are taken apart only once. -/
theorem bodyBlock?_nested :
    ((bodyBlock? branchBody).any Tree.isBranch && (bodyBlock? bareBody).any (fun b => b.isNested &&
      b.blockLines == [['\x7b'], "    \x7b a(); b(); \x7d".toList, ['\x7d']])) = true := by
  decide +kernel

theorem laidOut_branchBody :
    ∃ b front block, bodyBlock? branchBody = some b ∧ Reached false b front 1 block ∧ block.isBlock = true ∧
      LaidOut branchBody front 1 block := by
  obtain ⟨b, hb, hbranch⟩ := (Option.any_eq_true _ _).mp (Bool.and_eq_true_iff.mp bodyBlock?_nested).1
  unfold Tree.isBranch at hbranch
  split at hbranch
  · next opening word left condition right children closing =>
    have hstatement : Reached false (.node .block ([opening] ++ _ :: [closing])) _ _
        (.node .statement ([word, left, condition, right] ++ .node .block children :: [])) := Reached.root.part rfl
    have hreached := hstatement.within rfl rfl
    exact ⟨_, _, _, hb, hreached, rfl, laidOut_of_reached Grammar.covering Grammar.shaped hb hreached rfl⟩
  · cases hbranch

/-- A block that stands alone in another one is kept on one line. -/
theorem not_laidOut_bareBody :
    ¬ ∀ (body : Text) (b : Tree) (front : List Token) (depth : Nat) (block : Tree), bodyBlock? body = some b →
      Reached true b front depth block → block.isBlock = true → LaidOut body front depth block := by
  intro hall
  obtain ⟨b, hb, hnested⟩ := (Option.any_eq_true _ _).mp (Bool.and_eq_true_iff.mp bodyBlock?_nested).2
  rw [Bool.and_eq_true] at hnested
  obtain ⟨hnested, hlines⟩ := hnested
  unfold Tree.isNested at hnested
  split at hnested
  · next opening children closing =>
    have hreached : Reached true (.node .block ([opening] ++ _ :: [closing])) _ _ (.node .block children) :=
      Reached.root.part rfl
    obtain ⟨_, _, _, _, _, -, hlaid, -⟩ := hall bareBody _ _ _ _ hb hreached rfl
    have hbrace : margins 1 ++ ['\x7b'] ∈ formatBlock bareBody := by
      rw [hlaid]
      simp
    rw [formatBlock_eq hb, beq_iff_eq.mp hlines] at hbrace
    revert hbrace
    decide
  · cases hnested

end CSharpDraft.Fragment
