import CSharpDraft.Proofs.Fragment.SameCode

/-!
# The tokens of laid-out lines

The lines of a block are a text again. Where no token has a line break in it and none is a comment, this text holds the
same tokens, and only their gaps are others.

* `Settled p p'` : the tokens of a piece, and those that its line holds for it;
* `exists_settled_rows` : the lines hold such tokens for each piece of their rows;
* `exists_lex_lines` : so these are the tokens of the lines, and what is between them changes at the seams of the block.
-/

set_option autoImplicit false

namespace CSharpDraft.Fragment

open Text (OneLine squeeze)
open CSharpDraft.Fragment.Tree (piecesOf pieceSlots seamed seamless)

/-! ## Pieces -/

/-- A token that the layout copies as it is. -/
structure Fixed (u : Token) : Prop where
  wellCut : WellCut u
  noSlashes : ¬ ['/', '/'] <+: u.text
  oneLine : OneLine u.text

/-- The tokens `p'` are those of the piece `p` with the gaps that they have on its line. -/
structure Settled (p p' : List Token) : Prop where
  bare : p'.map Token.bare = p.map Token.bare
  tight : p'.tail.map Token.isTight = p.tail.map Token.isTight
  spelling_eq : spelling p' = Text.collapse (spelling p)
  gap : ∀ u ∈ p', ∀ c ∈ u.gap, isGapChar c = true

theorem Fixed.squeeze_append {u : Token} (h : Fixed u) (y : Text) :
    squeeze [] (u.text ++ y) = u.text ++ squeeze [] y := by
  have hends := h.wellCut.ends h.noSlashes
  rw [Text.squeeze_append hends, Text.squeeze_of_oneLine h.oneLine hends Text.oneLine_nil, List.nil_append]

theorem exists_squeeze_written {us : List Token} (h : ∀ u ∈ us, Fixed u) :
    ∃ us', squeeze [] (written us) = written us' ∧ us'.map Token.bare = us.map Token.bare ∧
      us'.map Token.isTight = us.map Token.isTight ∧ ∀ u ∈ us', ∀ c ∈ u.gap, isGapChar c = true := by
  induction us with
  | nil => exact ⟨[], rfl, rfl, rfl, nofun⟩
  | cons u us ih =>
    rw [List.forall_mem_cons] at h
    obtain ⟨us', hwritten, hbare, htight, hgaps⟩ := ih h.2
    obtain ⟨g, hgap, hg, hempty⟩ := squeeze_gap h.1.wellCut (written us)
    refine ⟨{ u with gap := g } :: us', ?_, ?_, ?_, List.forall_mem_cons.mpr ⟨hg, hgaps⟩⟩
    · rw [written_cons, hgap, h.1.squeeze_append, hwritten, written_cons]
    · rw [List.map_cons, List.map_cons, hbare]
      rfl
    · have hsame : Token.isTight { u with gap := g } = Token.isTight u := by
        rw [Bool.eq_iff_iff, Token.isTight, Token.isTight, List.isEmpty_iff, List.isEmpty_iff]
        exact hempty
      rw [List.map_cons, List.map_cons, htight, hsame]

/-- The line of a piece holds its tokens. -/
theorem exists_settled {p : List Token} (hne : p ≠ []) (h : ∀ u ∈ p, Fixed u) {g : Text}
    (hg : ∀ c ∈ g, isGapChar c = true) : ∃ p', Settled p p' ∧ written p' = g ++ Text.collapse (spelling p) := by
  obtain ⟨u, us, rfl⟩ := List.exists_cons_of_ne_nil hne
  rw [List.forall_mem_cons] at h
  obtain ⟨us', hwritten, hbare, htight, hgaps⟩ := exists_squeeze_written h.2
  have hcollapse : Text.collapse (spelling (u :: us)) = u.text ++ written us' := by
    rw [spelling_cons, Text.collapse_eq_squeeze (h.1.wellCut.startsSolid _), h.1.squeeze_append, hwritten]
  refine ⟨{ u with gap := g } :: us', ⟨?_, htight, hcollapse.symm, List.forall_mem_cons.mpr ⟨hg, hgaps⟩⟩, ?_⟩
  · rw [List.map_cons, List.map_cons, hbare]
    rfl
  · rw [written_cons, hcollapse]

/-! ## Rows -/

theorem exists_settled_pieces {ps : List (List Token)} (hne : ∀ p ∈ ps, p ≠ []) (h : ∀ u ∈ ps.flatten, Fixed u) :
    ∃ ps', List.Forall₂ Settled ps ps' ∧ written ps'.flatten = piecesText ps := by
  induction ps with
  | nil => exact ⟨[], .nil, rfl⟩
  | cons p ps ih =>
    rw [List.forall_mem_cons] at hne
    obtain ⟨ps', hsettled, hwritten⟩ := ih hne.2 (fun u hu => h u (List.mem_append_right p hu))
    obtain ⟨p', hp, hp'⟩ := exists_settled hne.1 (fun u hu => h u (List.mem_append_left _ hu)) isGapChar_space
    refine ⟨p' :: ps', .cons hp hsettled, ?_⟩
    rw [List.flatten_cons, written_append, hp', hwritten]
    rfl

theorem exists_settled_row {r : Row} (hne : ∀ p ∈ r.pieces, p ≠ []) (h : ∀ u ∈ r.tokens, Fixed u) :
    ∃ ps', List.Forall₂ Settled r.pieces ps' ∧ written ps'.flatten = '\n' :: r.line := by
  obtain ⟨hfirst, hothers⟩ := List.forall_mem_cons.mp hne
  obtain ⟨ps', hsettled, hwritten⟩ := exists_settled_pieces hothers (fun u hu => h u (List.mem_append_right r.first hu))
  obtain ⟨p', hp, hp'⟩ :=
    exists_settled hfirst (fun u hu => h u (List.mem_append_left _ hu)) (isGapChar_margins r.depth)
  refine ⟨p' :: ps', .cons hp hsettled, ?_⟩
  rw [List.flatten_cons, written_append, hp', hwritten, line_eq]
  simp

theorem exists_settled_rows {rs : List Row} (hne : ∀ p ∈ piecesOf rs, p ≠ [])
    (h : ∀ u ∈ rs.flatMap Row.tokens, Fixed u) :
    ∃ ps', List.Forall₂ Settled (piecesOf rs) ps' ∧ written ps'.flatten = rowsText rs := by
  induction rs with
  | nil => exact ⟨[], .nil, rfl⟩
  | cons r rs ih =>
    rw [piecesOf, List.flatMap_cons, List.forall_mem_append] at hne
    rw [List.flatMap_cons, List.forall_mem_append] at h
    obtain ⟨qs, hsettled, hwritten⟩ := ih hne.2 h.2
    obtain ⟨ps, hrow, hline⟩ := exists_settled_row hne.1 h.1
    refine ⟨ps ++ qs, List.rel_append hrow hsettled, ?_⟩
    rw [List.flatten_append, written_append, hline, hwritten]
    rfl

theorem map_bare_eq {ps ps' : List (List Token)} (h : List.Forall₂ Settled ps ps') :
    ps'.map (List.map Token.bare) = ps.map (List.map Token.bare) := by
  induction h with
  | nil => rfl
  | cons hp _ ih => rw [List.map_cons, List.map_cons, hp.bare, ih]

theorem map_bare_flatten {ps ps' : List (List Token)} (h : List.Forall₂ Settled ps ps') :
    ps'.flatten.map Token.bare = ps.flatten.map Token.bare := by
  rw [List.map_flatten, List.map_flatten, map_bare_eq h]

theorem gap_flatten {ps ps' : List (List Token)} (h : List.Forall₂ Settled ps ps') :
    ∀ u ∈ ps'.flatten, ∀ c ∈ u.gap, isGapChar c = true := by
  induction h with
  | nil => nofun
  | cons hp _ ih => exact List.forall_mem_append.mpr ⟨hp.gap, ih⟩

theorem regapped_seamless {us vs : List Token} (hbare : vs.map Token.bare = us.map Token.bare)
    (htight : vs.map Token.isTight = us.map Token.isTight) : Regapped (seamless us) vs := by
  induction us generalizing vs with
  | nil =>
    rw [List.map_eq_nil_iff.mp hbare]
    exact .nil
  | cons u us ih =>
    obtain ⟨v, vs, rfl, hv, hvs⟩ := List.map_eq_cons_iff.mp hbare
    obtain ⟨hfirst, hrest⟩ := List.cons.inj htight
    exact .cons ⟨hv, fun _ => hfirst⟩ (ih hvs hrest)

theorem regapped_piece {p p' : List Token} (h : Settled p p') : Regapped (seamed (seamless p)) p' := by
  cases p with
  | nil =>
    rw [List.map_eq_nil_iff.mp h.bare]
    exact .nil
  | cons u us =>
    obtain ⟨v, vs, rfl, hv, hvs⟩ := List.map_eq_cons_iff.mp h.bare
    exact .cons ⟨hv, nofun⟩ (regapped_seamless hvs h.tight)

theorem regapped_pieces {ps ps' : List (List Token)} (h : List.Forall₂ Settled ps ps') :
    Regapped (pieceSlots ps) ps'.flatten := by
  induction h with
  | nil => exact .nil
  | cons hp _ ih =>
    rw [Tree.pieceSlots_cons, List.flatten_cons]
    exact List.rel_append (regapped_piece hp) ih

/-- Another gap in front of the first token is another one in front of its piece. -/
theorem exists_settled_flatten {ps ps' : List (List Token)} (h : List.Forall₂ Settled ps ps') (hne : ∀ p ∈ ps, p ≠ [])
    {v : Token} {vs : List Token} (hv : ps'.flatten = v :: vs) {g : Text} (hg : ∀ c ∈ g, isGapChar c = true) :
    ∃ qs, List.Forall₂ Settled ps qs ∧ qs.flatten = { v with gap := g } :: vs := by
  cases h with
  | nil => cases hv
  | @cons p p' ps ps' hp hrest =>
    cases p' with
    | nil => exact absurd (List.map_eq_nil_iff.mp hp.bare.symm) (hne p List.mem_cons_self)
    | cons w p' =>
      obtain ⟨rfl, rfl⟩ := List.cons.inj hv
      have hgaps := hp.gap
      rw [List.forall_mem_cons] at hgaps
      exact ⟨({ w with gap := g } :: p') :: ps', .cons ⟨hp.bare, hp.tight, hp.spelling_eq,
        List.forall_mem_cons.mpr ⟨hg, hgaps.2⟩⟩ hrest, rfl⟩

/-! ## The tokens of a block -/

theorem fixed_of_isPlain {u : Token} (hcut : WellCut u) (hplain : u.isPlain = true) (hline : OneLine u.text) : Fixed u := by
  refine ⟨hcut, fun hslashes => ?_, hline⟩
  rw [Token.isPlain, Token.isTrivia, hcut.comment hslashes] at hplain
  cases hplain

theorem lineAtEnd_of_all {ps : List (List Token)} (h : ∀ u ∈ ps.flatten, (!u.takesLine) = true) :
    lineAtEnd ps = true := by
  induction ps with
  | nil => rfl
  | cons p ps ih =>
    rw [List.flatten_cons, List.forall_mem_append] at h
    have hp : p.all (fun u => !u.takesLine) = true := List.all_eq_true.mpr h.1
    cases ps with
    | nil => exact List.all_eq_true.mpr (fun u hu => h.1 u (List.dropLast_subset p hu))
    | cons q ps =>
      rw [lineAtEnd.eq_3 p (q :: ps) (List.cons_ne_nil q ps), hp, ih h.2]
      rfl

/-- A row of such tokens may stand on one line. -/
theorem joinable_of_fixed {r : Row} (hplain : ∀ u ∈ r.tokens, u.isPlain = true) (h : ∀ u ∈ r.tokens, Fixed u) :
    r.Joinable := by
  have hkind : ∀ u ∈ r.tokens, u.kind ≠ .conditional ∧ u.kind ≠ .directive := by
    intro u hu
    have hu := hplain u hu
    constructor <;>
    · intro hk
      rw [Token.isPlain, Token.isTrivia, hk] at hu
      cases hu
  have hquiet : ∀ u ∈ r.pieces.flatten, (!u.takesLine) = true := by
    intro u hu
    have hslashes := (h u hu).noSlashes
    rwa [← List.isPrefixOf_iff_prefix, ← Token.takesLine, Bool.not_eq_true, ← Bool.not_eq_true'] at hslashes
  refine ⟨fun u hu => (hkind u hu).1, fun u hu hk => absurd hk (hkind u hu).2, lineAtEnd_of_all hquiet,
    fun u hu _ => (h u hu).oneLine⟩

theorem Regapped.of_seamsIn {us vs : List (Bool × Token)} {ws : List Token} (h : Regapped us ws)
    (hin : Tree.SeamsIn us vs) : Regapped vs ws := by
  induction h generalizing vs with
  | nil =>
    cases hin
    exact .nil
  | cons hw _ ih =>
    obtain ⟨v, vs, ⟨heq, hseam⟩, hrest, rfl⟩ := List.forall₂_cons_left_iff.mp hin
    refine .cons ⟨heq ▸ hw.1, fun hv => heq ▸ hw.2 ?_⟩ (ih hrest)
    rw [Bool.eq_false_iff]
    exact fun hu => Bool.eq_false_iff.mp hv (hseam hu)

/-- The lines of a block start with a brace, and not with a blank. -/
theorem gap_of_brace {b : Tree} (hb : b.isBlock = true) {u : Token} (hcut : WellCut u) {us : List Token} {blanks : Text}
    (h : Text.unlines b.blockLines = written (u :: us) ++ blanks) : u.gap = [] := by
  have hbrace : (Text.unlines b.blockLines).head? = some '\x7b' := by
    cases b with
    | leaf t => cases hb
    | node kind children =>
      rw [Tree.blockLines, List.cons_append, Text.unlines, Text.join_cons]
      rfl
  rw [h, written_cons] at hbrace
  cases hg : u.gap with
  | nil => rfl
  | cons c g =>
    have hc := hcut.gap c (by rw [hg]; exact List.mem_cons_self)
    rw [hg] at hbrace
    cases hbrace
    cases hc

section Laws

variable [Parser] {lex : Text → Option (List Token)} (hcover : Parser.Covering lex) (hshape : Parser.Shaped)
  (hspace : Parser.Spaced lex) {body : Text} {b : Tree} (hb : bodyBlock? body = some b)
  (hplain : ∀ u ∈ b.tokens, u.isPlain = true) (hliteral : ∀ u ∈ b.tokens, u.isLiteral = true → OneLine u.text)
include hcover hb hplain hliteral

theorem fixed_of_bodyBlock? : ∀ u ∈ b.tokens, Fixed u := by
  intro u hu
  have hcut := wellCut_of_bodyBlock? hb hcover u hu
  refine fixed_of_isPlain hcut (hplain u hu) ?_
  cases hk : u.isLiteral with
  | true => exact hliteral u hu hk
  | false => exact hcut.oneLine (hplain u hu) hk

include hshape hspace

/-- The tokens of the lines of a block are its own, settled in the pieces of its rows, and the gaps between them change at
the seams only. -/
theorem exists_lex_lines :
    ∃ us qs, lex (Text.unlines b.blockLines) = some us ∧ spelling us = Text.unlines b.blockLines ∧
      (∀ u ∈ us.head?, u.gap = []) ∧ List.Forall₂ Settled (piecesOf b.blockRows) qs ∧ us = qs.flatten ∧
      Regapped b.slots us := by
  have hblock := isBlock_of_bodyBlock? hb
  have hlines := (Tree.laidAs_rows (hshape.braced hb)).2 hblock
  have hwell := hshape.wellMade hb
  have hfixed := fixed_of_bodyBlock? hcover hb hplain hliteral
  have hrows := (Tree.tokens_rows b).2 hblock
  have hjoin : ∀ r ∈ b.blockRows, r.Joinable := by
    intro r hr
    have hmem : ∀ u ∈ r.tokens, u ∈ b.tokens := fun u hu => hrows ▸ List.mem_flatMap.mpr ⟨r, hr, hu⟩
    exact joinable_of_fixed (fun u hu => hplain u (hmem u hu)) (fun u hu => hfixed u (hmem u hu))
  have hrespaced := respaced_formatBlock hcover hshape hb hjoin
  rw [formatBlock_eq hb] at hrespaced
  obtain ⟨us, hlex, hkinds, hcode⟩ := hspace.lex_respaced hb hrespaced
  obtain ⟨blanks, htext, -, hcut⟩ := hcover.cut hlex
  obtain ⟨ps, hsettled, hwritten⟩ := exists_settled_rows (Tree.pieces_ne_nil hwell).2 (hrows ▸ hfixed)
  have hbare : us.map Token.bare = ps.flatten.map Token.bare := by
    rw [map_bare_of_code (fun u hu => Token.ne_comment_of_isPlain (hplain u hu)) hkinds hcode, map_bare_flatten hsettled,
      Tree.flatten_piecesOf, hrows]
  have hne : us ≠ [] := by
    rintro rfl
    exact hwell.tokens_ne_nil (List.map_eq_nil_iff.mp hkinds.symm)
  obtain ⟨u, us, rfl⟩ := List.exists_cons_of_ne_nil hne
  have hgap : u.gap = [] := gap_of_brace hblock (hcut u List.mem_cons_self) htext
  obtain ⟨hflatten, rfl⟩ : { u with gap := ['\n'] } :: us = ps.flatten ∧ blanks = [] := by
    have hcut' : ∀ v ∈ { u with gap := ['\n'] } :: us, WellCut v := by
      rw [List.forall_mem_cons] at hcut ⊢
      exact ⟨{ hcut.1 with gap := List.forall_mem_singleton.mpr rfl }, hcut.2⟩
    have hbare' : ({ u with gap := ['\n'] } :: us).map Token.bare = ps.flatten.map Token.bare := hbare
    refine eq_of_written_append hbare' hcut' (gap_flatten hsettled) ?_
    rw [hwritten, rowsText_eq hlines.ne_nil, ← hlines.lines_eq, htext, written_cons, written_cons, hgap]
    simp
  obtain ⟨qs, hqs, hqs'⟩ := exists_settled_flatten hsettled (Tree.pieces_ne_nil hwell).2 hflatten.symm (g := []) nofun
  have hus : u :: us = qs.flatten := by
    rw [hqs', ← hgap]
  refine ⟨u :: us, qs, hlex, ?_, by simpa using hgap, hqs, hus, ?_⟩
  · rw [htext, spelling_cons, written_cons, hgap, List.append_nil, List.nil_append]
  · exact hus ▸ (regapped_pieces hqs).of_seamsIn (hwell.seamed.block hblock)

end Laws

end CSharpDraft.Fragment
