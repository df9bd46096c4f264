import CSharpDraft.Proofs.Fragment.Lawful
import CSharpDraft.Proofs.Fragment.Settled

/-!
# Laying out lines that are laid out

The lines of a block are a body again, and the layout of this body gives the same lines.

* `Tree.rows_bare` : the rows of a tree do not depend on the gaps of its tokens;
* `map_line_eq` : their lines depend on the texts of their pieces, which are settled;
* `exists_relaid` : the block of the lines is the block of the body with other gaps;
* `formatBlock_unlines` : so its lines are the same, if the block has neither comments nor directives and none of its
  tokens has a line break in it.
-/

set_option autoImplicit false

namespace CSharpDraft.Fragment

open Text (EndsSolid StartsSolid OneLine)
open CSharpDraft.Fragment.Tree (piecesOf)

/-! ## Rows without gaps -/

def Row.bare (r : Row) : Row := ⟨r.depth, r.first.map Token.bare, r.others.map (List.map Token.bare)⟩

namespace Tree

@[simp] theorem isBlock_bare (t : Tree) : t.bare.isBlock = t.isBlock := by
  cases t with
  | leaf t => rfl
  | node kind children => cases kind <;> rfl

@[simp] theorem isStatement_bare (t : Tree) : t.bare.isStatement = t.isStatement := by
  cases t with
  | leaf t => rfl
  | node kind children => cases kind <;> rfl

@[simp] theorem isPart_bare (t : Tree) : t.bare.isPart = t.isPart := by
  cases t <;> rfl

theorem rowHoldsBlock_map_bare {cs : List Tree} (h : ∀ c ∈ cs, holdsBlock c.bare = holdsBlock c) :
    rowHoldsBlock (cs.map bare) = rowHoldsBlock cs := by
  induction cs with
  | nil => rfl
  | cons c cs ih =>
    rw [List.forall_mem_cons] at h
    rw [List.map_cons, rowHoldsBlock, rowHoldsBlock, isBlock_bare, isStatement_bare, h.1, ih h.2]

theorem holdsBlock_bare (t : Tree) : holdsBlock t.bare = holdsBlock t := by
  induction t using Tree.induct with
  | leaf t => rfl
  | node kind children ih =>
    rw [bare_node]
    exact rowHoldsBlock_map_bare ih

theorem pendingRows_map_bare (cs : List Tree) : pendingRows (cs.map bare) = (pendingRows cs).map Row.bare := by
  cases cs with
  | nil => rfl
  | cons c cs =>
    change [(⟨0, tokensOf ((c :: cs).map bare), []⟩ : Row)] = _
    rw [tokensOf_map_bare]
    rfl

theorem joinRows_map_bare (cs : List Tree) (rs : List Row) :
    joinRows (cs.map bare) (rs.map Row.bare) = (joinRows cs rs).map Row.bare := by
  cases cs with
  | nil => rfl
  | cons c cs =>
    cases rs with
    | nil => exact pendingRows_map_bare (c :: cs)
    | cons r rs =>
      change r.bare.behind (tokensOf ((c :: cs).map bare)) :: rs.map Row.bare = _
      rw [tokensOf_map_bare]
      rfl

section Rows

variable {cs : List Tree} (hstatement : ∀ c ∈ cs, statementRows c.bare = (statementRows c).map Row.bare)
include hstatement

theorem partRows_map_bare : partRows (cs.map bare) = (partRows cs).map Row.bare := by
  induction cs with
  | nil => rfl
  | cons c cs ih =>
    rw [List.forall_mem_cons] at hstatement
    rw [List.map_cons, partRows, partRows, List.map_append, ih hstatement.2, isPart_bare, hstatement.1, tokens_bare]
    congr 1
    split
    · rw [List.map_map, List.map_map]
      rfl
    · rfl

theorem brokenRows_map_bare (hblock : ∀ c ∈ cs, blockRows c.bare = (blockRows c).map Row.bare) (pending : List Tree) :
    brokenRows (cs.map bare) (pending.map bare) = (brokenRows cs pending).map Row.bare := by
  induction cs generalizing pending with
  | nil => exact pendingRows_map_bare pending
  | cons c cs ih =>
    rw [List.forall_mem_cons] at hstatement hblock
    have hrest := ih hstatement.2 hblock.2
    rw [List.map_cons, brokenRows, brokenRows, isBlock_bare, isStatement_bare, holdsBlock_bare]
    split
    · rw [List.map_append, List.map_append, pendingRows_map_bare, hblock.1]
      exact congrArg _ (hrest [])
    · split
      · rw [List.map_append, hstatement.1, joinRows_map_bare]
        exact congrArg _ (hrest [])
      · rw [← hrest, List.map_append]
        rfl

end Rows

/-- The rows of a tree do not depend on the gaps of its tokens. -/
theorem rows_bare (t : Tree) :
    statementRows t.bare = (statementRows t).map Row.bare ∧ blockRows t.bare = (blockRows t).map Row.bare := by
  induction t using Tree.induct with
  | leaf t => exact ⟨rfl, rfl⟩
  | node kind children ih =>
    have hstatement := fun c hc => (ih c hc).1
    rw [bare_node]
    constructor
    · rw [statementRows, statementRows, rowHoldsBlock_map_bare (fun c _ => holdsBlock_bare c)]
      split
      · exact brokenRows_map_bare hstatement (fun c hc => (ih c hc).2) []
      · rw [tokensOf_map_bare]
        rfl
    · exact partRows_map_bare hstatement

end Tree

/-! ## Lines -/

theorem piecesOf_map_bare (rs : List Row) :
    piecesOf (rs.map Row.bare) = (piecesOf rs).map (List.map Token.bare) := by
  rw [piecesOf, piecesOf, List.flatMap_map, List.map_flatMap]
  rfl

/-- The text of a piece on its line. -/
def pieceLine (p : List Token) : Text := Text.collapse (spelling p)

theorem Settled.pieceLine_eq {p p' : List Token} (h : Settled p p') (hcut : ∀ u ∈ p, WellCut u) :
    pieceLine p' = pieceLine p := by
  rw [pieceLine, h.spelling_eq, pieceLine]
  cases p with
  | nil => rfl
  | cons u us => exact Text.collapse_collapse ((hcut u (by simp)).startsSolid _)

theorem map_pieceLine_eq {ps ps' : List (List Token)} (h : List.Forall₂ Settled ps ps')
    (hcut : ∀ u ∈ ps.flatten, WellCut u) : ps'.map pieceLine = ps.map pieceLine := by
  induction h with
  | nil => rfl
  | cons hp _ ih =>
    rw [List.flatten_cons, List.forall_mem_append] at hcut
    rw [List.map_cons, List.map_cons, hp.pieceLine_eq hcut.1, ih hcut.2]

theorem length_others_of_bare {r r' : Row} (h : r'.bare = r.bare) : r'.others.length = r.others.length := by
  have hothers := congrArg List.length (congrArg Row.others h)
  rwa [Row.bare, Row.bare, List.length_map, List.length_map] at hothers

/-- Rows of the same form have the same lines if their pieces have the same texts. -/
theorem map_line_eq {rs rs' : List Row} (hbare : rs'.map Row.bare = rs.map Row.bare)
    (htext : (piecesOf rs').map pieceLine = (piecesOf rs).map pieceLine) : rs'.map Row.line = rs.map Row.line := by
  induction rs generalizing rs' with
  | nil => rw [List.map_eq_nil_iff.mp hbare]
  | cons r rs ih =>
    obtain ⟨r', rs', rfl, hr, hrs⟩ := List.map_eq_cons_iff.mp hbare
    rw [piecesOf, piecesOf, List.flatMap_cons, List.flatMap_cons, List.map_append, List.map_append] at htext
    have hlength : (r'.pieces.map pieceLine).length = (r.pieces.map pieceLine).length := by
      rw [List.length_map, List.length_map, Row.pieces, Row.pieces, List.length_cons, List.length_cons,
        length_others_of_bare hr]
    obtain ⟨hpieces, hrest⟩ := List.append_inj htext hlength
    have hdepth : r'.bare.depth = r.bare.depth := congrArg Row.depth hr
    have hline : r'.line = r.line := by
      change (List.replicate r'.bare.depth _).flatten ++ Text.join [' '] (r'.pieces.map pieceLine) = _
      rw [hdepth, hpieces]
      rfl
    rw [List.map_cons, List.map_cons, hline, ih hrs hrest]

/-! ## The block of the lines -/

/-- The lines of a block have no blanks around them. -/
theorem trim_unlines_blockLines {b : Tree} (hb : b.isBlock = true) :
    Text.trim (Text.unlines b.blockLines) = Text.unlines b.blockLines ∧
      (Text.unlines b.blockLines).head? = some '\x7b' := by
  cases b with
  | leaf t => cases hb
  | node kind children =>
    have hlines : (Tree.node kind children).blockLines = (['\x7b'] :: Tree.partLines children) ++ [['\x7d']] := rfl
    have hends : EndsSolid (Text.unlines (Tree.node kind children).blockLines) := by
      rw [hlines, Text.unlines_append (List.cons_ne_nil _ _) (List.cons_ne_nil _ _), Text.unlines_singleton]
      exact ((Text.endsSolid_singleton rfl).append ['\n']).append _
    obtain ⟨r, hr⟩ : ∃ r, Text.unlines (Tree.node kind children).blockLines = '\x7b' :: r := by
      rw [hlines, List.cons_append, Text.unlines, Text.join_cons]
      exact ⟨_, rfl⟩
    have htrim := Text.trim_append_blank ⟨'\x7b', r, hr, rfl⟩ hends (List.forall_mem_nil _)
    rw [List.append_nil] at htrim
    exact ⟨htrim, by rw [hr]; rfl⟩

section Laws

variable [Parser] {lex : Text → Option (List Token)} (hcover : Parser.Covering lex) (hshape : Parser.Shaped)
  (hopening : Parser.Opening) (hspace : Parser.Spaced lex) (hdetermined : Parser.Determined lex)
  {body : Text} {b : Tree} (hb : bodyBlock? body = some b)
  (hplain : ∀ u ∈ b.tokens, u.isPlain = true) (hliteral : ∀ u ∈ b.tokens, u.isLiteral = true → OneLine u.text)
include hcover hshape hopening hspace hdetermined hb hplain hliteral

/-- The block of the lines of a block is the same but for the gaps, and its pieces are settled. -/
theorem exists_relaid :
    ∃ b' qs, bodyBlock? (Text.unlines b.blockLines) = some b' ∧ b'.bare = b.bare ∧
      List.Forall₂ Settled (piecesOf b.blockRows) qs ∧ b'.tokens = qs.flatten := by
  obtain ⟨us, qs, hlex, hspelling, hgap, hqs, hus, hregapped⟩ :=
    exists_lex_lines hcover hshape hspace hb hplain hliteral
  rw [← hspelling] at hlex ⊢
  obtain ⟨b', hb', hbare⟩ := hdetermined.exists_block hb hplain hlex hregapped
  have htokens : us.map Token.bare = b'.tokens.map Token.bare := by
    rw [← Tree.tokens_bare, hbare, Tree.tokens_bare, hus, map_bare_flatten hqs, Tree.flatten_piecesOf,
      (Tree.tokens_rows b).2 (isBlock_of_bodyBlock? hb)]
  have hcut' := wellCut_of_bodyBlock? hb' hcover
  obtain ⟨htrim, hbrace⟩ := trim_unlines_blockLines (isBlock_of_bodyBlock? hb)
  rw [← hspelling] at htrim hbrace
  obtain ⟨rest, hrest⟩ := hopening.starts hb' (by rwa [htrim])
  rw [htrim, Tree.text] at hrest
  obtain ⟨u', us', hus'⟩ := List.exists_cons_of_ne_nil (hshape.wellMade hb').tokens_ne_nil
  rw [hus'] at htokens hrest hcut'
  obtain ⟨u, us, rfl, -, -⟩ := List.map_eq_cons_iff.mp htokens
  have hfirst : u.gap = [] := hgap u rfl
  have hcutUs : ∀ v ∈ u :: us, WellCut v := by
    obtain ⟨-, -, -, hcut⟩ := hcover.cut hlex
    exact hcut
  have hbare' : (u :: us).map Token.bare = ({ u' with gap := [] } :: us').map Token.bare := htokens
  have hgaps : ∀ v ∈ { u' with gap := [] } :: us', ∀ c ∈ v.gap, isGapChar c = true := by
    rw [List.forall_mem_cons] at hcut' ⊢
    exact ⟨List.forall_mem_nil _, fun v hv => (hcut'.2 v hv).gap⟩
  have htext : written (u :: us) ++ [] = written ({ u' with gap := [] } :: us') ++ rest := by
    rw [spelling_cons, spelling_cons] at hrest
    rw [written_cons, hfirst, List.nil_append, List.append_nil, hrest, written_cons, List.nil_append]
  obtain ⟨hsame, -⟩ := eq_of_written_append hbare' hcutUs hgaps htext
  obtain ⟨hu, rfl⟩ := List.cons.inj hsame
  obtain ⟨qs', hqs', hflatten⟩ := exists_settled_flatten hqs (Tree.pieces_ne_nil (hshape.wellMade hb)).2 hus.symm
    (hcut' u' List.mem_cons_self).gap
  refine ⟨b', qs', hb', hbare, hqs', ?_⟩
  rw [hus', hflatten, hu]

/-- The lines of a block are laid out as they are, if it has neither comments nor directives in it, nor literals with line
breaks. -/
theorem formatBlock_unlines : formatBlock (Text.unlines (formatBlock body)) = formatBlock body := by
  obtain ⟨b', qs, hb', hbare, hsettled, htokens⟩ :=
    exists_relaid hcover hshape hopening hspace hdetermined hb hplain hliteral
  have hrows : b'.blockRows.map Row.bare = b.blockRows.map Row.bare := by
    rw [← (Tree.rows_bare b').2, ← (Tree.rows_bare b).2, hbare]
  have hpieces : piecesOf b'.blockRows = qs := by
    refine List.eq_iff_flatten_eq.mpr ⟨?_, ?_⟩
    · rw [Tree.flatten_piecesOf, (Tree.tokens_rows b').2 (isBlock_of_bodyBlock? hb'), htokens]
    · have hmap := (piecesOf_map_bare b'.blockRows).symm.trans ((congrArg piecesOf hrows).trans (piecesOf_map_bare _))
      have hlengths := congrArg (List.map List.length) (hmap.trans (map_bare_eq hsettled).symm)
      simpa [List.map_map, Function.comp_def] using hlengths
  have hcut : ∀ u ∈ (piecesOf b.blockRows).flatten, WellCut u := by
    rw [Tree.flatten_piecesOf, (Tree.tokens_rows b).2 (isBlock_of_bodyBlock? hb)]
    exact wellCut_of_bodyBlock? hb hcover
  have hlines := map_line_eq hrows (hpieces ▸ map_pieceLine_eq hsettled hcut)
  rw [← formatBlock_eq_rows hshape hb'] at hlines
  rw [formatBlock_eq hb, hlines, ← formatBlock_eq hb, formatBlock_eq_rows hshape hb]

end Laws

/-- A body with blocks at several depths, a string with holes, and a shift. -/
def chainedBody : Text :=
  ("\x7b if (a)\n\x7b b(\"x\", c >> 2); \x7d else if (d\n?[0] != null) do e($\"\x7bf:N2\x7d \x7b g() \x7d\"); while (h);\n" ++
    " else \x7b try \x7b i(); \x7d finally \x7b ; \x7d \x7d \x7d").toList

/-- A body that is no block, but parses as the end of a method without one and as two fields. -/
def blocklessBody : Text := ";int x; int y;".toList

/-- Evaluated at once, so that the words of the grammar are taken apart only once. -/
theorem parses_bodies :
    ((bodyBlock? chainedBody).any (fun b =>
        decide ((∀ u ∈ b.tokens, u.isPlain = true) ∧ ∀ u ∈ b.tokens, u.isLiteral = true → OneLine u.text)) &&
      (parse? (wrapBody blocklessBody)).isSome &&
      (tokens? (wrapBody blocklessBody)).any (fun ts => ts.all (fun u => u.isPlain && !u.isLiteral)) &&
      formatBlock (Text.unlines (formatBlock blocklessBody)) != formatBlock blocklessBody) = true := by
  decide +kernel

theorem formatBlock_unlines_chainedBody :
    ∃ b, bodyBlock? chainedBody = some b ∧ (∀ u ∈ b.tokens, u.isPlain = true) ∧
      (∀ u ∈ b.tokens, u.isLiteral = true → OneLine u.text) ∧
      formatBlock (Text.unlines (formatBlock chainedBody)) = formatBlock chainedBody := by
  have hall := parses_bodies
  simp only [Bool.and_eq_true] at hall
  obtain ⟨b, hb, htokens⟩ := (Option.any_eq_true _ _).mp hall.1.1.1
  obtain ⟨hplain, hliteral⟩ := of_decide_eq_true htokens
  exact ⟨b, hb, hplain, hliteral, formatBlock_unlines Grammar.covering Grammar.shaped Grammar.opening Grammar.spaced
    Grammar.determined hb hplain hliteral⟩

/-- A body without a block is put on one line as it is, but the lines around it are a block. -/
theorem not_formatBlock_unlines :
    ¬ ∀ body, (parse? (wrapBody body)).isSome = true →
      (∀ ts ∈ tokens? (wrapBody body), ∀ u ∈ ts, u.isPlain = true ∧ (u.isLiteral = true → OneLine u.text)) →
      formatBlock (Text.unlines (formatBlock body)) = formatBlock body := by
  intro hall
  have hbodies := parses_bodies
  simp only [Bool.and_eq_true] at hbodies
  obtain ⟨⟨⟨-, hparse⟩, htokens⟩, hdiffers⟩ := hbodies
  refine bne_iff_ne.mp hdiffers (hall blocklessBody hparse (fun ts hts u hu => ?_))
  obtain ⟨us, hus, hplain⟩ := (Option.any_eq_true _ _).mp htokens
  obtain rfl : ts = us := Option.some.inj (hts.symm.trans hus)
  have hu := List.all_eq_true.mp hplain u hu
  rw [Bool.and_eq_true] at hu
  exact ⟨hu.1, fun hliteral => by simp [hliteral] at hu⟩

end CSharpDraft.Fragment
