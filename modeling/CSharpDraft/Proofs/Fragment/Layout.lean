import CSharpDraft.Proofs.Fragment.Law

/-!
# The rows of a laid-out block

The layout joins pieces of the source into lines. `Row` keeps the tokens of a line, piece by piece.

* `Tree.blockRows` : the rows of a block, by the same recursion as its lines;
* `Tree.laidAs_rows` : each row gives one line;
* `Tree.tokens_rows` : the rows hold the tokens of the block, each token once and in order;
* `Tree.pieces_ne_nil` : no piece of a row is empty;
* `Tree.WellMade.seamed` : a piece starts at a seam of the tree.
-/

set_option autoImplicit false

namespace CSharpDraft.Fragment

open Text (OneLine)

/-! ## Rows -/

/-- A line of a block before it is written: how far it stands to the right, and the pieces of source text on it, of which
there is at least one. -/
structure Row where
  depth : Nat
  first : List Token
  others : List (List Token)
  deriving DecidableEq, Repr

namespace Row

def pieces (r : Row) : List (List Token) := r.first :: r.others

def tokens (r : Row) : List Token := r.pieces.flatten

def line (r : Row) : Text :=
  (List.replicate r.depth Text.margin).flatten ++ Text.join [' '] (r.pieces.map (fun p => Text.collapse (spelling p)))

/-- The row one step to the right. -/
def deeper (r : Row) : Row := { r with depth := r.depth + 1 }

/-- The row with one more piece in front. -/
def behind (piece : List Token) (r : Row) : Row := ⟨r.depth, piece, r.first :: r.others⟩

@[simp] theorem pieces_deeper (r : Row) : r.deeper.pieces = r.pieces := rfl

@[simp] theorem tokens_deeper (r : Row) : r.deeper.tokens = r.tokens := rfl

@[simp] theorem pieces_behind (piece : List Token) (r : Row) : (r.behind piece).pieces = piece :: r.pieces := rfl

@[simp] theorem tokens_behind (piece : List Token) (r : Row) : (r.behind piece).tokens = piece ++ r.tokens := rfl

theorem line_deeper (r : Row) : r.deeper.line = Text.margin ++ r.line := by
  simp [line, deeper, pieces, List.replicate_succ]

theorem line_behind (piece : List Token) {r : Row} (h : r.depth = 0) :
    (r.behind piece).line = Text.collapse (spelling piece) ++ [' '] ++ r.line := by
  simp [line, h, behind, pieces, Text.join, List.intercalate_cons_cons]

theorem line_single (piece : List Token) : line ⟨0, piece, []⟩ = Text.collapse (spelling piece) := by
  simp [line, pieces, Text.join]

@[simp] theorem tokens_single (depth : Nat) (piece : List Token) : tokens ⟨depth, piece, []⟩ = piece := by
  simp [tokens, pieces]

end Row

namespace Tree

/-- The row of the trees that wait for one, if there are any. -/
def pendingRows (pending : List Tree) : List Row :=
  if pending.isEmpty then [] else [⟨0, tokensOf pending, []⟩]

/-- Puts the trees that wait for a row in front of the first row. -/
def joinRows (pending : List Tree) (rs : List Row) : List Row :=
  match pending, rs with
  | [], rs => rs
  | _, [] => pendingRows pending
  | _, r :: rs => r.behind (tokensOf pending) :: rs

mutual

def blockRows : Tree → List Row
  | leaf _ => []
  | node _ children => partRows children

/-- The rows of the parts of a block, one step to the right, and of the braces around them. -/
def partRows : List Tree → List Row
  | [] => []
  | c :: cs => (if c.isPart then (statementRows c).map Row.deeper else [⟨0, tokens c, []⟩]) ++ partRows cs

def statementRows : Tree → List Row
  | leaf t => [⟨0, [t], []⟩]
  | node _ children => if rowHoldsBlock children then brokenRows children [] else [⟨0, tokensOf children, []⟩]

/-- The rows of a row of trees that is broken around its blocks, behind the trees that wait for a row. -/
def brokenRows : List Tree → List Tree → List Row
  | [], pending => pendingRows pending
  | c :: cs, pending =>
    if c.isBlock then pendingRows pending ++ blockRows c ++ brokenRows cs []
    else if c.isStatement && holdsBlock c then joinRows pending (statementRows c) ++ brokenRows cs []
    else brokenRows cs (pending ++ [c])

end

/-! ## Tokens -/

theorem tokens_pendingRows (pending : List Tree) : (pendingRows pending).flatMap Row.tokens = tokensOf pending := by
  cases pending with
  | nil => rfl
  | cons c cs => simp [pendingRows]

theorem tokens_joinRows (pending : List Tree) (rs : List Row) :
    (joinRows pending rs).flatMap Row.tokens = tokensOf pending ++ rs.flatMap Row.tokens := by
  cases pending with
  | nil => rfl
  | cons c cs =>
    cases rs with
    | nil => simp [joinRows, tokens_pendingRows]
    | cons r rs => simp [joinRows]

theorem tokens_brokenRows {cs : List Tree}
    (hblock : ∀ c ∈ cs, c.isBlock = true → (blockRows c).flatMap Row.tokens = tokens c)
    (hstatement : ∀ c ∈ cs, (statementRows c).flatMap Row.tokens = tokens c) (pending : List Tree) :
    (brokenRows cs pending).flatMap Row.tokens = tokensOf pending ++ tokensOf cs := by
  induction cs generalizing pending with
  | nil => simp [brokenRows, tokens_pendingRows, tokensOf]
  | cons c cs ih =>
    have hcs := ih (fun d hd => hblock d (List.mem_cons_of_mem c hd)) (fun d hd => hstatement d (List.mem_cons_of_mem c hd))
    rw [brokenRows]
    split
    · next hc =>
      rw [List.flatMap_append, List.flatMap_append, tokens_pendingRows, hblock c List.mem_cons_self hc, hcs]
      simp [tokensOf]
    · split
      · rw [List.flatMap_append, tokens_joinRows, hstatement c List.mem_cons_self, hcs]
        simp [tokensOf]
      · rw [hcs]
        simp [tokensOf]

theorem tokens_partRows {cs : List Tree} (hstatement : ∀ c ∈ cs, (statementRows c).flatMap Row.tokens = tokens c) :
    (partRows cs).flatMap Row.tokens = tokensOf cs := by
  induction cs with
  | nil => rfl
  | cons c cs ih =>
    rw [partRows, List.flatMap_append, ih (fun d hd => hstatement d (List.mem_cons_of_mem c hd)), tokensOf]
    split
    · rw [List.flatMap_map, ← hstatement c List.mem_cons_self]
      rfl
    · simp

/-- The rows hold the tokens of the tree, each once and in order. -/
theorem tokens_rows (t : Tree) :
    (statementRows t).flatMap Row.tokens = tokens t ∧
      (t.isBlock = true → (blockRows t).flatMap Row.tokens = tokens t) := by
  induction t using induct with
  | leaf t => exact ⟨by simp [statementRows, tokens], nofun⟩
  | node kind children ih =>
    have hstatement := fun c hc => (ih c hc).1
    refine ⟨?_, fun _ => tokens_partRows hstatement⟩
    rw [statementRows, tokens]
    split
    · exact tokens_brokenRows (fun c hc => (ih c hc).2) hstatement []
    · simp

/-! ## Lines -/

/-- The rows give the lines, and the first of them stands as far to the left as what they are rows of. -/
structure LaidAs (ls : List Text) (rs : List Row) : Prop where
  lines_eq : ls = rs.map Row.line
  ne_nil : rs ≠ []
  head : ∀ r ∈ rs.head?, r.depth = 0

theorem laidAs_single (piece : List Token) : LaidAs [Text.collapse (spelling piece)] [⟨0, piece, []⟩] :=
  ⟨by rw [List.map_singleton, Row.line_single], List.cons_ne_nil _ _, by simp⟩

theorem LaidAs.append {ls ms : List Text} {rs qs : List Row} (h : LaidAs ls rs) (hm : ms = qs.map Row.line) :
    LaidAs (ls ++ ms) (rs ++ qs) := by
  obtain ⟨rfl, hne, hhead⟩ := h
  refine ⟨by rw [hm, List.map_append], by simp [hne], fun r hr => hhead r ?_⟩
  cases rs with
  | nil => exact absurd rfl hne
  | cons q rs => exact hr

theorem laidAs_pending {pending : List Tree} (h : pending ≠ []) : LaidAs (pendingLine pending) (pendingRows pending) := by
  have hempty : pending.isEmpty = false := by simpa using h
  rw [pendingLine, pendingRows, hempty]
  exact laidAs_single (tokensOf pending)

theorem LaidAs.join {ls : List Text} {rs : List Row} (h : LaidAs ls rs) (pending : List Tree) :
    LaidAs (joinPending pending ls) (joinRows pending rs) := by
  cases pending with
  | nil => exact h
  | cons c cs =>
    obtain ⟨rfl, hne, hhead⟩ := h
    cases rs with
    | nil => exact absurd rfl hne
    | cons r rs =>
      have hdepth : r.depth = 0 := hhead r rfl
      refine ⟨?_, List.cons_ne_nil _ _, ?_⟩
      · simp [joinPending, joinRows, Row.line_behind _ hdepth, textOf]
      · simpa [joinRows, Row.behind] using hdepth

theorem pendingLine_eq (pending : List Tree) : pendingLine pending = (pendingRows pending).map Row.line := by
  cases pending with
  | nil => rfl
  | cons c cs => exact (laidAs_pending (List.cons_ne_nil c cs)).lines_eq

section Broken

variable {cs : List Tree} (hblock : ∀ c ∈ cs, c.isBlock = true → LaidAs (blockLines c) (blockRows c))
  (hstatement : ∀ c ∈ cs, LaidAs (statementLines c) (statementRows c))
include hblock hstatement

theorem brokenLines_eq (pending : List Tree) : brokenLines cs pending = (brokenRows cs pending).map Row.line := by
  induction cs generalizing pending with
  | nil => rw [brokenLines, brokenRows, pendingLine_eq]
  | cons c cs ih =>
    have hcs := ih (fun d hd => hblock d (List.mem_cons_of_mem c hd)) (fun d hd => hstatement d (List.mem_cons_of_mem c hd))
    rw [brokenLines, brokenRows]
    split
    · next hc =>
      rw [List.map_append, List.map_append, pendingLine_eq, (hblock c List.mem_cons_self hc).lines_eq, hcs]
    · split
      · rw [List.map_append, ((hstatement c List.mem_cons_self).join pending).lines_eq, hcs]
      · exact hcs _

theorem laidAs_broken (pending : List Tree) (h : rowHoldsBlock cs = true ∨ pending ≠ []) :
    LaidAs (brokenLines cs pending) (brokenRows cs pending) := by
  induction cs generalizing pending with
  | nil =>
    rw [brokenLines, brokenRows]
    rcases h with h | h
    · cases h
    · exact laidAs_pending h
  | cons c cs ih =>
    have hblock' := fun d hd => hblock d (List.mem_cons_of_mem c hd)
    have hstatement' := fun d hd => hstatement d (List.mem_cons_of_mem c hd)
    have hrest := brokenLines_eq hblock' hstatement' []
    rw [brokenLines, brokenRows]
    split
    · next hc =>
      have hfirst := hblock c List.mem_cons_self hc
      by_cases hpending : pending = []
      · subst hpending
        exact hfirst.append hrest
      · exact ((laidAs_pending hpending).append hfirst.lines_eq).append hrest
    · split
      · exact ((hstatement c List.mem_cons_self).join pending).append hrest
      · exact ih hblock' hstatement' _ (Or.inr (by simp))

end Broken

theorem partLines_append (cs ds : List Tree) : partLines (cs ++ ds) = partLines cs ++ partLines ds := by
  induction cs with
  | nil => rfl
  | cons c cs ih => rw [List.cons_append, partLines, partLines, ih, List.append_assoc]

theorem partRows_append (cs ds : List Tree) : partRows (cs ++ ds) = partRows cs ++ partRows ds := by
  induction cs with
  | nil => rfl
  | cons c cs ih => rw [List.cons_append, partRows, partRows, ih, List.append_assoc]

theorem partLines_eq {cs : List Tree} (hparts : ∀ c ∈ cs, c.isPart = true)
    (hstatement : ∀ c ∈ cs, LaidAs (statementLines c) (statementRows c)) :
    partLines cs = (partRows cs).map Row.line := by
  induction cs with
  | nil => rfl
  | cons c cs ih =>
    have hcs := ih (fun d hd => hparts d (List.mem_cons_of_mem c hd)) (fun d hd => hstatement d (List.mem_cons_of_mem c hd))
    rw [partLines, partRows, if_pos (hparts c List.mem_cons_self), if_pos (hparts c List.mem_cons_self),
      (hstatement c List.mem_cons_self).lines_eq, List.map_append, ← hcs, List.map_map, List.map_map]
    refine congrArg (· ++ partLines cs) (List.map_congr_left (fun r _ => ?_))
    exact (Row.line_deeper r).symm

theorem isPart_of_isSymbol {t : Token} {x : Text} (h : t.isSymbol x = true) : (leaf t).isPart = false :=
  Token.isTrivia_of_isSymbol h

/-- The rows of parts between two braces. -/
theorem partRows_braced {opening closing : Token} (hopening : opening.isSymbol ['\x7b'] = true)
    (hclosing : closing.isSymbol ['\x7d'] = true) (parts : List Tree) :
    partRows (leaf opening :: parts ++ [leaf closing]) =
      ⟨0, [opening], []⟩ :: partRows parts ++ [⟨0, [closing], []⟩] := by
  rw [List.cons_append, partRows, partRows_append, isPart_of_isSymbol hopening]
  simp [partRows, isPart_of_isSymbol hclosing, tokens]

theorem partLines_braced {opening closing : Token} (hopening : opening.isSymbol ['\x7b'] = true)
    (hclosing : closing.isSymbol ['\x7d'] = true) (parts : List Tree) :
    partLines (leaf opening :: parts ++ [leaf closing]) = partLines parts := by
  rw [List.cons_append, partLines, partLines_append, isPart_of_isSymbol hopening]
  simp [partLines, isPart_of_isSymbol hclosing]

/-- Each row of a tree gives one line. -/
theorem laidAs_rows {t : Tree} (h : BlocksBraced t) :
    LaidAs (statementLines t) (statementRows t) ∧ (t.isBlock = true → LaidAs (blockLines t) (blockRows t)) := by
  induction h with
  | leaf t =>
    refine ⟨?_, nofun⟩
    rw [statementLines, statementRows, ← spelling_singleton]
    exact laidAs_single [t]
  | @node kind children hbraced _ ih =>
    constructor
    · rw [statementLines, statementRows]
      split
      · next hholds => exact laidAs_broken (fun c hc => (ih c hc).2) (fun c hc => (ih c hc).1) [] (Or.inl hholds)
      · exact laidAs_single (tokensOf children)
    · intro hblock
      cases kind with
      | block =>
        obtain ⟨opening, closing, parts, rfl, hopening, hclosing, hparts⟩ := hbraced rfl
        have hlines := partLines_eq hparts (fun c hc => (ih c (by simp [hc])).1)
        rw [blockLines, blockRows, partRows_braced hopening hclosing, partLines_braced hopening hclosing, hlines]
        refine ⟨?_, by simp, by simp⟩
        have hbrace : ∀ {t : Token} {x : Text}, t.isSymbol x = true → Row.line ⟨0, [t], []⟩ = Text.collapse x := by
          intro t x ht
          rw [Row.line_single, spelling_singleton, Token.text_of_isSymbol ht]
        rw [List.map_append, List.map_cons, List.map_singleton, hbrace hopening, hbrace hclosing]
        rfl
      | statement | clause | conditional | other => cases hblock

/-! ## Pieces -/

/-- The pieces of rows. -/
def piecesOf (rs : List Row) : List (List Token) := rs.flatMap Row.pieces

@[simp] theorem piecesOf_append (rs qs : List Row) : piecesOf (rs ++ qs) = piecesOf rs ++ piecesOf qs :=
  List.flatMap_append

theorem flatten_piecesOf (rs : List Row) : (piecesOf rs).flatten = rs.flatMap Row.tokens := by
  induction rs with
  | nil => rfl
  | cons r rs ih => rw [piecesOf, List.flatMap_cons, List.flatten_append, List.flatMap_cons, ← ih]; rfl

theorem piecesOf_deeper (rs : List Row) : piecesOf (rs.map Row.deeper) = piecesOf rs := by
  rw [piecesOf, List.flatMap_map]
  rfl

theorem pieces_pendingRows {pending : List Tree} (h : ∀ c ∈ pending, c.WellMade) :
    ∀ p ∈ piecesOf (pendingRows pending), p ≠ [] := by
  unfold pendingRows
  split
  · simp [piecesOf]
  · next hne =>
    have htokens := tokensOf_ne_nil (by simpa using hne) h
    simpa [piecesOf, Row.pieces] using htokens

theorem pieces_joinRows {pending : List Tree} {rs : List Row} (h : ∀ c ∈ pending, c.WellMade)
    (hrs : ∀ p ∈ piecesOf rs, p ≠ []) : ∀ p ∈ piecesOf (joinRows pending rs), p ≠ [] := by
  cases pending with
  | nil => exact hrs
  | cons c cs =>
    cases rs with
    | nil => exact pieces_pendingRows h
    | cons r rs =>
      have htokens := tokensOf_ne_nil (List.cons_ne_nil c cs) h
      simpa [joinRows, piecesOf, htokens] using hrs

theorem pieces_brokenRows {cs pending : List Tree} (hwell : ∀ c ∈ cs, c.WellMade)
    (hblock : ∀ c ∈ cs, ∀ p ∈ piecesOf (blockRows c), p ≠ [])
    (hstatement : ∀ c ∈ cs, ∀ p ∈ piecesOf (statementRows c), p ≠ []) (hpending : ∀ c ∈ pending, c.WellMade) :
    ∀ p ∈ piecesOf (brokenRows cs pending), p ≠ [] := by
  induction cs generalizing pending with
  | nil => exact pieces_pendingRows hpending
  | cons c cs ih =>
    rw [List.forall_mem_cons] at hwell hblock hstatement
    rw [brokenRows]
    split
    · simp only [piecesOf_append, List.mem_append]
      rintro p ((hp | hp) | hp)
      · exact pieces_pendingRows hpending p hp
      · exact hblock.1 p hp
      · exact ih hwell.2 hblock.2 hstatement.2 (by simp) p hp
    · split
      · simp only [piecesOf_append, List.mem_append]
        rintro p (hp | hp)
        · exact pieces_joinRows hpending hstatement.1 p hp
        · exact ih hwell.2 hblock.2 hstatement.2 (by simp) p hp
      · refine ih hwell.2 hblock.2 hstatement.2 (fun d hd => ?_)
        rcases List.mem_append.mp hd with hd | hd
        · exact hpending d hd
        · exact List.mem_singleton.mp hd ▸ hwell.1

theorem pieces_partRows {cs : List Tree} (hwell : ∀ c ∈ cs, c.WellMade)
    (hstatement : ∀ c ∈ cs, ∀ p ∈ piecesOf (statementRows c), p ≠ []) : ∀ p ∈ piecesOf (partRows cs), p ≠ [] := by
  induction cs with
  | nil => nofun
  | cons c cs ih =>
    rw [List.forall_mem_cons] at hwell hstatement
    rw [partRows, piecesOf_append]
    intro p hp
    rcases List.mem_append.mp hp with hp | hp
    · split at hp
      · rw [piecesOf_deeper] at hp
        exact hstatement.1 p hp
      · have hpiece : p = tokens c := by simpa [piecesOf, Row.pieces] using hp
        rw [hpiece]
        exact hwell.1.tokens_ne_nil
    · exact ih hwell.2 hstatement.2 p hp

/-- No piece of a tree's rows is empty. -/
theorem pieces_ne_nil {t : Tree} (h : t.WellMade) :
    (∀ p ∈ piecesOf (statementRows t), p ≠ []) ∧ ∀ p ∈ piecesOf (blockRows t), p ≠ [] := by
  induction h with
  | leaf t => exact ⟨by simp [statementRows, piecesOf, Row.pieces], nofun⟩
  | @node kind children hne _ hwell ih =>
    have hstatement := fun c hc => (ih c hc).1
    refine ⟨?_, pieces_partRows hwell hstatement⟩
    rw [statementRows]
    split
    · exact pieces_brokenRows hwell (fun c hc => (ih c hc).2) hstatement (by simp)
    · simpa [piecesOf, Row.pieces] using tokensOf_ne_nil hne hwell

/-! ## Seams -/

/-- The tokens of pieces, which start at seams. -/
def pieceSlots (ps : List (List Token)) : List (Bool × Token) := ps.flatMap (fun p => seamed (seamless p))

/-- The tokens are the same, and the seams in front of the first ones are seams of the others, too. -/
def SeamsIn : List (Bool × Token) → List (Bool × Token) → Prop :=
  List.Forall₂ (fun u v => u.2 = v.2 ∧ (u.1 = true → v.1 = true))

@[simp] theorem pieceSlots_nil : pieceSlots [] = [] := rfl

theorem pieceSlots_cons (p : List Token) (ps : List (List Token)) :
    pieceSlots (p :: ps) = seamed (seamless p) ++ pieceSlots ps := List.flatMap_cons

theorem pieceSlots_append (ps qs : List (List Token)) : pieceSlots (ps ++ qs) = pieceSlots ps ++ pieceSlots qs :=
  List.flatMap_append

theorem SeamsIn.seamed {us vs : List (Bool × Token)} (h : SeamsIn us vs) : SeamsIn us (seamed vs) := by
  cases h with
  | nil => exact .nil
  | cons h hrest => exact .cons ⟨h.1, fun _ => rfl⟩ hrest

theorem seamsIn_piece {p : List Token} {us : List (Bool × Token)} (h : us.map Prod.snd = p) :
    SeamsIn (pieceSlots [p]) (Tree.seamed us) := by
  subst h
  rw [pieceSlots_cons, pieceSlots_nil, List.append_nil]
  have hrest : ∀ vs : List (Bool × Token), SeamsIn (seamless (vs.map Prod.snd)) vs := by
    intro vs
    rw [SeamsIn, seamless, List.forall₂_map_left_iff, List.forall₂_map_left_iff, List.forall₂_same]
    exact fun v _ => ⟨rfl, fun h => absurd h Bool.false_ne_true⟩
  cases us with
  | nil => exact .nil
  | cons u us => exact .cons ⟨rfl, id⟩ (hrest us)

theorem seamed_rowSlots {cs : List Tree} (h : ∀ c ∈ cs, c.WellMade) (inBlock : Bool) :
    seamed (rowSlots inBlock true cs) = rowSlots inBlock true cs := by
  cases cs with
  | nil => rfl
  | cons c cs =>
    have hne := (h c List.mem_cons_self).tokens_ne_nil
    rw [rowSlots]
    split
    · have hslots : slots c ≠ [] := fun hnil => hne (by rw [← map_snd_slots, hnil]; rfl)
      rw [seamed_append (by simpa using hslots), seamed_seamed]
    · rw [if_pos rfl, seamed_append (by simpa [seamless] using hne), seamed_seamed]

theorem seamsIn_pending {pending : List Tree} {us : List (Bool × Token)} (h : us.map Prod.snd = tokensOf pending) :
    SeamsIn (pieceSlots (piecesOf (pendingRows pending))) (seamed us) := by
  cases pending with
  | nil =>
    rw [List.map_eq_nil_iff.mp h]
    exact .nil
  | cons c cs => exact seamsIn_piece h

theorem piecesOf_joinRows (pending : List Tree) (rs : List Row) :
    piecesOf (joinRows pending rs) = piecesOf (pendingRows pending) ++ piecesOf rs := by
  cases pending with
  | nil => rfl
  | cons c cs =>
    cases rs with
    | nil => exact (List.append_nil _).symm
    | cons r rs => rfl

/-- The pieces of a tree's rows start at its seams. -/
structure Seamed (t : Tree) : Prop where
  statement : SeamsIn (pieceSlots (piecesOf (statementRows t))) (seamed (slots t))
  block : t.isBlock = true → SeamsIn (pieceSlots (piecesOf (blockRows t))) (slots t)

theorem seamsIn_brokenRows {cs : List Tree} (hwell : ∀ c ∈ cs, c.WellMade) (hmem : ∀ c ∈ cs, Seamed c)
    (inBlock behind : Bool) {pending : List Tree} {us : List (Bool × Token)} (h : us.map Prod.snd = tokensOf pending) :
    SeamsIn (pieceSlots (piecesOf (brokenRows cs pending))) (seamed (us ++ rowSlots inBlock behind cs)) := by
  induction cs generalizing behind pending us with
  | nil =>
    rw [brokenRows, rowSlots, List.append_nil]
    exact seamsIn_pending h
  | cons c cs ih =>
    rw [List.forall_mem_cons] at hwell hmem
    have hlaid : c.isLaidOut = true →
        seamed (us ++ rowSlots inBlock behind (c :: cs)) = seamed us ++ seamed (slots c) ++ rowSlots inBlock true cs := by
      intro hc
      have hne := hwell.1.tokens_ne_nil
      have hslots : us ++ seamed (slots c) ≠ [] := by
        intro hnil
        rw [List.append_eq_nil_iff, seamed_eq_nil] at hnil
        exact hne (by rw [← map_snd_slots, hnil.2]; rfl)
      rw [rowSlots, hc, if_pos (Bool.or_true _), ← List.append_assoc, seamed_append hslots, seamed_append_seamed]
    have hrest : SeamsIn (pieceSlots (piecesOf (brokenRows cs []))) (rowSlots inBlock true cs) := by
      have hnil : ([] : List (Bool × Token)).map Prod.snd = tokensOf [] := rfl
      have hrest := ih hwell.2 hmem.2 true hnil
      rwa [List.nil_append, seamed_rowSlots hwell.2] at hrest
    rw [brokenRows]
    split
    · next hblock =>
      rw [hlaid (by simp [isLaidOut, hblock]), piecesOf_append, piecesOf_append, pieceSlots_append, pieceSlots_append]
      exact List.rel_append (List.rel_append (seamsIn_pending h) (hmem.1.block hblock).seamed) hrest
    · split
      · next hstatement =>
        have hc := (Bool.and_eq_true _ _ ▸ hstatement).1
        rw [hlaid (by simp [isLaidOut, hc]), piecesOf_append, piecesOf_joinRows, pieceSlots_append, pieceSlots_append]
        exact List.rel_append (List.rel_append (seamsIn_pending h) hmem.1.statement) hrest
      · have hfirst : (rowSlots inBlock behind [c]).map Prod.snd = tokensOf [c] :=
          map_snd_rowSlots (fun d _ => map_snd_slots d) inBlock behind
        have hpending : (us ++ rowSlots inBlock behind [c]).map Prod.snd = tokensOf (pending ++ [c]) := by
          rw [List.map_append, h, hfirst, tokensOf_append]
        have hnext := ih hwell.2 hmem.2 c.isLaidOut hpending
        rw [rowSlots]
        rwa [rowSlots, rowSlots, List.append_nil, List.append_assoc] at hnext

theorem seamsIn_partRows {cs : List Tree} (hmem : ∀ c ∈ cs, Seamed c) (behind : Bool) :
    SeamsIn (pieceSlots (piecesOf (partRows cs))) (rowSlots true behind cs) := by
  induction cs generalizing behind with
  | nil => exact .nil
  | cons c cs ih =>
    rw [List.forall_mem_cons] at hmem
    rw [partRows, piecesOf_append, pieceSlots_append, rowSlots, Bool.true_or, if_pos rfl]
    refine List.rel_append ?_ (ih hmem.2 _)
    split
    · rw [piecesOf_deeper]
      exact hmem.1.statement
    · exact seamsIn_piece (map_snd_slots c)

/-- A piece starts at a seam of the tree. -/
theorem WellMade.seamed {t : Tree} (h : t.WellMade) : Seamed t := by
  induction h with
  | leaf t => exact ⟨.cons ⟨rfl, id⟩ .nil, nofun⟩
  | @node kind children _ _ hwell ih =>
    refine ⟨?_, fun hblock => ?_⟩
    · rw [statementRows]
      split
      · have hnil : ([] : List (Bool × Token)).map Prod.snd = tokensOf [] := rfl
        exact seamsIn_brokenRows hwell ih _ false hnil
      · exact seamsIn_piece (map_snd_slots (Tree.node kind children))
    · cases kind with
      | block => exact seamsIn_partRows ih false
      | statement | clause | conditional | other => cases hblock

end Tree

end CSharpDraft.Fragment
