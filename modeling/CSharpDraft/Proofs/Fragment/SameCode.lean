import CSharpDraft.Proofs.Fragment.Lawful
import CSharpDraft.Proofs.Fragment.Layout

/-!
# Layout keeps the code

The layout of a block joins lines of the source without looking at what stands on them.

* `Row.Joinable` : what the tokens of a row must be like for that to do no harm;
* `respaced_formatBlock` : then the lines hold the tokens of the block, with other blanks at its seams;
* `code_formatBlock` : then the lines of the block are read as the same code as the block, and each directive has a line
  of its own;
* `not_code_formatBlock` : without it they are not.
-/

set_option autoImplicit false

namespace CSharpDraft.Fragment

open Text (EndsSolid StartsSolid OneLine squeeze)
open CSharpDraft.Fragment.Tree (piecesOf pieceSlots seamed seamless)

/-! ## Rows that may be joined -/

/-- A comment that takes the rest of its line. -/
def Token.takesLine (u : Token) : Bool := ['/', '/'].isPrefixOf u.text

/-- Only the last token of the last piece takes the rest of its line. -/
def lineAtEnd : List (List Token) → Bool
  | [] => true
  | [p] => p.dropLast.all (fun u => !u.takesLine)
  | p :: ps => p.all (fun u => !u.takesLine) && lineAtEnd ps

/-- The pieces of a row may stand on one line. -/
structure Row.Joinable (r : Row) : Prop where
  /-- No directive depends on a condition. -/
  conditional : ∀ u ∈ r.tokens, u.kind ≠ .conditional
  /-- A directive is alone. -/
  directive : ∀ u ∈ r.tokens, u.kind = .directive → r.pieces = [[u]]
  /-- A comment that takes its line stands at the end. -/
  line : lineAtEnd r.pieces = true
  /-- No token other than a comment has a line break in it. -/
  oneLine : ∀ u ∈ r.tokens, u.kind ≠ .comment → OneLine u.text

instance (r : Row) : Decidable r.Joinable :=
  decidable_of_iff ((∀ u ∈ r.tokens, u.kind ≠ .conditional) ∧ (∀ u ∈ r.tokens, u.kind = .directive → r.pieces = [[u]]) ∧
      lineAtEnd r.pieces = true ∧ ∀ u ∈ r.tokens, u.kind ≠ .comment → OneLine u.text)
    ⟨fun ⟨h₁, h₂, h₃, h₄⟩ => ⟨h₁, h₂, h₃, h₄⟩, fun ⟨h₁, h₂, h₃, h₄⟩ => ⟨h₁, h₂, h₃, h₄⟩⟩

/-! ## One piece -/

theorem keeps_squeeze {u : Token} (hcut : WellCut u) (hline : u.kind ≠ .comment → OneLine u.text) :
    Keeps u (squeeze [] u.text) := by
  by_cases hk : u.kind = .comment
  · exact Or.inr ⟨hk, rfl⟩
  · have hsolid := hcut.ends (fun hslashes => hk (hcut.comment hslashes))
    exact Or.inl (Text.squeeze_of_oneLine (hline hk) hsolid Text.oneLine_nil)

/-- A token that may have others in front of it on its line. -/
structure Movable (u : Token) : Prop where
  wellCut : WellCut u
  oneLine : u.kind ≠ .comment → OneLine u.text
  directive : u.kind ≠ .directive
  conditional : u.kind ≠ .conditional

theorem Movable.standsFor {seam : Bool} {u : Token} (h : Movable u) {g t : Text} (hg : ∀ c ∈ g, isGapChar c = true)
    (hgap : g = [] → u.gap = []) (htight : u.gap = [] → g = [] ∨ seam = true)
    (hline : ['/', '/'] <+: u.text → StartsLine t) : StandsFor seam u g (squeeze [] u.text) t :=
  ⟨hg, hgap, htight, keeps_squeeze h.wellCut h.oneLine, hline, fun hk => absurd hk h.directive, h.conditional⟩

/-- The tokens of a piece may stand on one line in front of the text `t`. -/
def Joins : List Token → Text → Prop
  | [], _ => True
  | [u], t => ['/', '/'] <+: u.text → StartsLine t
  | u :: us, t => ¬ ['/', '/'] <+: u.text ∧ Joins us t

/-- The gap in front of a token becomes another one, which is empty only if it was. -/
theorem squeeze_gap {u : Token} (hcut : WellCut u) (y : Text) :
    ∃ g, squeeze [] (u.gap ++ (u.text ++ y)) = g ++ squeeze [] (u.text ++ y) ∧ (∀ c ∈ g, isGapChar c = true) ∧
      (g = [] ↔ u.gap = []) := by
  cases hgap : u.gap with
  | nil => exact ⟨[], rfl, nofun, Iff.rfl⟩
  | cons c gap =>
    have hchars : ∀ d ∈ ([] : Text) ++ c :: gap, isGapChar d = true := by simpa [hgap] using hcut.gap
    obtain ⟨g, hg, hchars, hempty⟩ := Text.squeeze_append_gap (by decide) (hcut.startsSolid y) (c :: gap) hchars
    exact ⟨g, hg, hchars, fun h => absurd (hempty h) (by simp), nofun⟩

theorem respaced_squeeze {seam : Bool} {u : Token} {us : List Token} {after : List (Bool × Token)} {g t : Text}
    (hmovable : ∀ v ∈ u :: us, Movable v) (hg : ∀ c ∈ g, isGapChar c = true) (hgap : g = [] → u.gap = [])
    (htight : u.gap = [] → g = [] ∨ seam = true) (hjoins : Joins (u :: us) t) (hrest : Respaced after t) :
    Respaced ((seam, u) :: seamless us ++ after) (g ++ (squeeze [] (u.text ++ written us) ++ t)) := by
  induction us generalizing seam u g with
  | nil =>
    rw [written_nil, List.append_nil]
    exact .cons ((hmovable u List.mem_cons_self).standsFor hg hgap htight hjoins) hrest
  | cons v us ih =>
    rw [List.forall_mem_cons] at hmovable
    obtain ⟨hslashes, hjoins⟩ := hjoins
    obtain ⟨g', hsqueeze, hg', hempty⟩ := squeeze_gap (hmovable.2 v List.mem_cons_self).wellCut (written us)
    have hrest' : Respaced ((false, v) :: seamless us ++ after) (g' ++ (squeeze [] (v.text ++ written us) ++ t)) :=
      ih hmovable.2 hg' hempty.mp (fun h => Or.inl (hempty.mpr h)) hjoins
    rw [written_cons, Text.squeeze_append (hmovable.1.wellCut.ends hslashes), hsqueeze, List.append_assoc,
      List.append_assoc]
    exact .cons (hmovable.1.standsFor hg hgap htight (fun h => absurd h hslashes)) hrest'

theorem respaced_piece {p : List Token} {after : List (Bool × Token)} {g t : Text} (hne : p ≠ [])
    (hmovable : ∀ u ∈ p, Movable u) (hg : ∀ c ∈ g, isGapChar c = true) (hgap : g ≠ []) (hjoins : Joins p t)
    (hrest : Respaced after t) :
    Respaced (seamed (seamless p) ++ after) (g ++ (Text.collapse (spelling p) ++ t)) := by
  obtain ⟨u, us, rfl⟩ := List.exists_cons_of_ne_nil hne
  rw [spelling_cons, Text.collapse_eq_squeeze ((hmovable u List.mem_cons_self).wellCut.startsSolid _)]
  exact respaced_squeeze hmovable hg (fun h => absurd h hgap) (fun _ => Or.inr rfl) hjoins hrest

/-! ## Rows -/

/-- The text of pieces that follow others on their line. -/
def piecesText (ps : List (List Token)) : Text := ps.flatMap (fun p => ' ' :: Text.collapse (spelling p))

/-- The text of rows that follow others. -/
def rowsText (rs : List Row) : Text := rs.flatMap (fun r => '\n' :: r.line)

theorem line_eq (r : Row) :
    r.line = (List.replicate r.depth Text.margin).flatten ++ (Text.collapse (spelling r.first) ++ piecesText r.others) := by
  rw [Row.line, Row.pieces, List.map_cons, Text.join_cons, List.flatMap_map]
  rfl

theorem rowsText_append (rs qs : List Row) : rowsText (rs ++ qs) = rowsText rs ++ rowsText qs := List.flatMap_append

theorem rowsText_eq {rs : List Row} (h : rs ≠ []) : rowsText rs = '\n' :: Text.unlines (rs.map Row.line) := by
  obtain ⟨r, rs, rfl⟩ := List.exists_cons_of_ne_nil h
  rw [List.map_cons, Text.unlines, Text.join_cons, List.flatMap_map, rowsText, List.flatMap_cons]
  rfl

/-- The pieces may stand on one line in front of the text `t`. -/
def JoinAll : List (List Token) → Text → Prop
  | [], _ => True
  | p :: ps, t => Joins p (piecesText ps ++ t) ∧ JoinAll ps t

theorem not_slashes {u : Token} (h : (!u.takesLine) = true) : ¬ ['/', '/'] <+: u.text := by
  intro hslashes
  rw [Token.takesLine, List.isPrefixOf_iff_prefix.mpr hslashes] at h
  cases h

theorem joins_of_dropLast {p : List Token} (h : ∀ u ∈ p.dropLast, ¬ ['/', '/'] <+: u.text) {t : Text}
    (ht : ∀ u ∈ p.getLast?, ['/', '/'] <+: u.text → StartsLine t) : Joins p t := by
  induction p with
  | nil => trivial
  | cons u us ih =>
    cases us with
    | nil => exact ht u rfl
    | cons v us =>
      rw [List.dropLast_cons_cons, List.forall_mem_cons] at h
      exact ⟨h.1, ih h.2 ht⟩

theorem joinAll_of_lineAtEnd {ps : List (List Token)} (h : lineAtEnd ps = true) {t : Text} (ht : StartsLine t) :
    JoinAll ps t := by
  induction ps with
  | nil => trivial
  | cons p ps ih =>
    cases ps with
    | nil => exact ⟨joins_of_dropLast (fun u hu => not_slashes (List.all_eq_true.mp h u hu)) (fun _ _ _ => ht), trivial⟩
    | cons q ps =>
      rw [lineAtEnd, Bool.and_eq_true] at h
      · have hquiet : ∀ u ∈ p, ¬ ['/', '/'] <+: u.text := fun u hu => not_slashes (List.all_eq_true.mp h.1 u hu)
        exact ⟨joins_of_dropLast (fun u hu => hquiet u (List.dropLast_subset p hu))
          (fun u hu hslashes => absurd hslashes (hquiet u (List.mem_of_getLast? hu))), ih h.2⟩
      · nofun

theorem isGapChar_space : ∀ c ∈ [' '], isGapChar c = true := by
  simp only [List.mem_singleton]
  rintro c rfl
  rfl

theorem respaced_pieces {ps : List (List Token)} {after : List (Bool × Token)} {t : Text} (hne : ∀ p ∈ ps, p ≠ [])
    (hmovable : ∀ u ∈ ps.flatten, Movable u) (hjoin : JoinAll ps t) (hrest : Respaced after t) :
    Respaced (pieceSlots ps ++ after) (piecesText ps ++ t) := by
  induction ps with
  | nil => exact hrest
  | cons p ps ih =>
    rw [List.forall_mem_cons] at hne
    rw [List.flatten_cons, List.forall_mem_append] at hmovable
    have hpiece := respaced_piece (g := [' ']) hne.1 hmovable.1 isGapChar_space (List.cons_ne_nil _ _) hjoin.1
      (ih hne.2 hmovable.2 hjoin.2)
    rw [Tree.pieceSlots_cons, List.append_assoc, piecesText, List.flatMap_cons, List.cons_append,
      List.cons_append, List.append_assoc]
    exact hpiece

theorem isGapChar_margins (depth : Nat) :
    ∀ c ∈ '\n' :: (List.replicate depth Text.margin).flatten, isGapChar c = true := by
  intro c hc
  rcases List.mem_cons.mp hc with rfl | hc
  · rfl
  · rw [eq_space_of_mem_margins hc]
    rfl

/-- A directive on a line of its own. -/
theorem respaced_directive {r : Row} {u : Token} {after : List (Bool × Token)} {t : Text} (hcut : WellCut u)
    (hline : OneLine u.text) (hk : u.kind = .directive) (hr : r.pieces = [[u]]) (ht : EndsLine t)
    (hrest : Respaced after t) : Respaced (pieceSlots r.pieces ++ after) ('\n' :: r.line ++ t) := by
  have hslashes : ¬ ['/', '/'] <+: u.text := by
    intro hslashes
    rw [hcut.comment hslashes] at hk
    cases hk
  have hstarts := hcut.startsSolid []
  rw [List.append_nil] at hstarts
  have hcollapse : Text.collapse (spelling [u]) = u.text := by
    rw [spelling_singleton, Text.collapse_of_oneLine hline hstarts (hcut.ends hslashes)]
  obtain ⟨hfirst, hothers⟩ := List.cons.inj hr
  have hstands : StandsFor true u ('\n' :: (List.replicate r.depth Text.margin).flatten) u.text t :=
    ⟨isGapChar_margins r.depth, nofun, fun _ => Or.inr rfl, Or.inl rfl, fun h => absurd h hslashes,
      fun _ => ⟨List.mem_cons_self, ht⟩, by rw [hk]; nofun⟩
  have hall := Respaced.cons hstands hrest
  have hslots : pieceSlots [[u]] = [(true, u)] := rfl
  rw [hr, line_eq, hfirst, hothers, hcollapse, hslots]
  simpa [piecesText] using hall

theorem respaced_row {r : Row} {after : List (Bool × Token)} {t : Text} (hjoin : r.Joinable)
    (hne : ∀ p ∈ r.pieces, p ≠ []) (hcut : ∀ u ∈ r.tokens, WellCut u) {q : Text} (ht : t = '\n' :: q)
    (hrest : Respaced after t) : Respaced (pieceSlots r.pieces ++ after) ('\n' :: r.line ++ t) := by
  by_cases hdirective : ∃ u ∈ r.tokens, u.kind = .directive
  · obtain ⟨u, hu, hk⟩ := hdirective
    refine respaced_directive (hcut u hu) (hjoin.oneLine u hu (by rw [hk]; nofun)) hk (hjoin.directive u hu hk) ?_ hrest
    exact ⟨[], q, ht, nofun⟩
  · have hmovable : ∀ u ∈ r.tokens, Movable u := fun u hu =>
      ⟨hcut u hu, hjoin.oneLine u hu, fun hk => hdirective ⟨u, hu, hk⟩, hjoin.conditional u hu⟩
    have hstarts : StartsLine t := by
      rintro c z rfl
      exact Or.inl (List.cons.inj ht).1
    have hall := joinAll_of_lineAtEnd hjoin.line hstarts
    rw [Row.pieces, List.forall_mem_cons] at hne
    rw [Row.tokens, Row.pieces, List.flatten_cons, List.forall_mem_append] at hmovable
    have hothers := respaced_pieces hne.2 hmovable.2 hall.2 hrest
    have hpiece := respaced_piece hne.1 hmovable.1 (isGapChar_margins r.depth) (List.cons_ne_nil _ _) hall.1 hothers
    rw [Row.pieces, Tree.pieceSlots_cons, List.append_assoc, line_eq]
    simpa using hpiece

theorem respaced_rows {rs : List Row} {after : List (Bool × Token)} {t : Text} (hjoin : ∀ r ∈ rs, r.Joinable)
    (hne : ∀ p ∈ piecesOf rs, p ≠ []) (hcut : ∀ u ∈ rs.flatMap Row.tokens, WellCut u) {q : Text} (ht : t = '\n' :: q)
    (hrest : Respaced after t) : Respaced (pieceSlots (piecesOf rs) ++ after) (rowsText rs ++ t) := by
  induction rs with
  | nil => exact hrest
  | cons r rs ih =>
    rw [List.forall_mem_cons] at hjoin
    rw [piecesOf, List.flatMap_cons, List.forall_mem_append] at hne
    rw [List.flatMap_cons, List.forall_mem_append] at hcut
    have htail : ∃ q, rowsText rs ++ t = '\n' :: q := by
      cases rs with
      | nil => exact ⟨q, ht⟩
      | cons r' rs => exact ⟨r'.line ++ rowsText rs ++ t, by simp [rowsText]⟩
    obtain ⟨q', hq'⟩ := htail
    have hrow := respaced_row hjoin.1 hne.1 hcut.1 hq' (ih hjoin.2 hne.2 hcut.2)
    rw [piecesOf, List.flatMap_cons, Tree.pieceSlots_append, List.append_assoc, rowsText, List.flatMap_cons,
      List.append_assoc]
    exact hrow

/-! ## Blocks -/

theorem Respaced.of_seamsIn {us vs : List (Bool × Token)} {t : Text} (h : Respaced us t) (hin : Tree.SeamsIn us vs) :
    Respaced vs t := by
  induction h generalizing vs with
  | nil hb =>
    cases hin
    exact .nil hb
  | cons hstands _ ih =>
    obtain ⟨v, vs, ⟨heq, hseam⟩, hrest, rfl⟩ := List.forall₂_cons_left_iff.mp hin
    obtain ⟨seam, v⟩ := v
    obtain rfl : _ = v := heq
    exact .cons { hstands with tight := fun hgap => (hstands.tight hgap).imp_right hseam } (ih hrest)

/-- The lines of a block hold its tokens with other blanks, if its rows may be joined. -/
theorem respaced_blockLines {b : Tree} (hblock : b.isBlock = true) (hbraced : b.BlocksBraced) (hwell : b.WellMade)
    (hcut : ∀ u ∈ b.tokens, WellCut u) (hjoin : ∀ r ∈ b.blockRows, r.Joinable) :
    Respaced b.slots ('\n' :: Text.unlines b.blockLines) := by
  have hlaid := (Tree.laidAs_rows hbraced).2 hblock
  rw [hlaid.lines_eq, ← rowsText_eq hlaid.ne_nil]
  refine Respaced.of_seamsIn ?_ (hwell.seamed.block hblock)
  have hne := (Tree.pieces_ne_nil hwell).2
  rw [← (Tree.tokens_rows b).2 hblock] at hcut
  cases hbraced with
  | leaf t => cases hblock
  | @node kind children hbraced _ =>
    cases kind with
    | statement | clause | conditional | other => cases hblock
    | block =>
      obtain ⟨opening, closing, parts, rfl, hopening, hclosing, -⟩ := hbraced rfl
      rw [Tree.blockRows, Tree.partRows_braced hopening hclosing] at hne hcut hjoin ⊢
      rw [List.forall_mem_append] at hjoin
      rw [Tree.piecesOf_append, List.forall_mem_append] at hne
      rw [List.flatMap_append, List.forall_mem_append] at hcut
      have hbrace : Text.collapse ['\x7d'] = ['\x7d'] := by decide
      have htext := Token.text_of_isSymbol hclosing
      have hkind := Token.kind_of_isSymbol hclosing
      have hstands : StandsFor true closing ['\n'] ['\x7d'] [] := {
        blank := isGapChar_margins 0
        gap := fun h => absurd h (List.cons_ne_nil _ _)
        tight := fun _ => Or.inr rfl
        keeps := Or.inl htext.symm
        line := fun _ c q h => absurd h.symm (List.cons_ne_nil c q)
        directive := fun h => absurd (hkind.symm.trans h) (by decide)
        conditional := by
          rw [hkind]
          decide }
      have hlast : rowsText [⟨0, [closing], []⟩] = ['\n', '\x7d'] := by
        rw [rowsText, List.flatMap_singleton, Row.line_single, spelling_singleton, htext, hbrace]
      have hrest : Respaced (pieceSlots [[closing]]) (rowsText [⟨0, [closing], []⟩]) := by
        rw [hlast]
        exact .cons hstands (.nil (List.forall_mem_nil _))
      have hrows := respaced_rows hjoin.1 hne.1 hcut.1 hlast hrest
      rw [Tree.piecesOf_append, Tree.pieceSlots_append, rowsText_append]
      exact hrows

/-- A directive that is alone in its row is alone on its line. -/
theorem trim_line_of_directive {r : Row} {u : Token} (hcut : WellCut u) (hjoin : r.Joinable) (hu : u ∈ r.tokens)
    (hk : u.kind = .directive) : Text.trim r.line = u.text := by
  have hsolid : EndsSolid u.text := hcut.ends (fun hslashes => by rw [hcut.comment hslashes] at hk; cases hk)
  have hline : OneLine u.text := hjoin.oneLine u hu (by rw [hk]; nofun)
  have hcollapse : Text.collapse (spelling [u]) = u.text := by
    have hstarts := hcut.startsSolid []
    rw [List.append_nil] at hstarts
    rw [spelling_singleton, Text.collapse_of_oneLine hline hstarts hsolid]
  obtain ⟨hfirst, hothers⟩ := List.cons.inj (hjoin.directive u hu hk)
  have hmargins : ∀ c ∈ (List.replicate r.depth Text.margin).flatten, Text.isBlankChar c = true := by
    intro c hc
    rw [eq_space_of_mem_margins hc]
    rfl
  obtain ⟨c, y, hx, hc⟩ := hcut.starts
  have hleft : Text.trimLeft r.line = u.text := by
    rw [line_eq, hfirst, hothers, hcollapse, Text.trimLeft, List.dropWhile_append_of_pos hmargins, hx]
    simp [piecesText, isBlankChar_of_not_isStop hc]
  rw [Text.trim, hleft, Text.trimRight_of_endsSolid hsolid]

section Laws

variable [Parser] {lex : Text → Option (List Token)} (hcover : Parser.Covering lex) (hshape : Parser.Shaped)
  {body : Text} {b : Tree} (hb : bodyBlock? body = some b)
include hshape hb

theorem formatBlock_eq_rows : formatBlock body = b.blockRows.map Row.line := by
  rw [formatBlock_eq hb, ((Tree.laidAs_rows (hshape.braced hb)).2 (isBlock_of_bodyBlock? hb)).lines_eq]

variable (hjoin : ∀ r ∈ b.blockRows, r.Joinable)
include hcover hjoin

/-- The lines of a body hold the tokens of its block with other blanks, if the rows of the block may be joined. -/
theorem respaced_formatBlock : Respaced b.slots ('\n' :: Text.unlines (formatBlock body)) := by
  rw [formatBlock_eq hb]
  exact respaced_blockLines (isBlock_of_bodyBlock? hb) (hshape.braced hb) (hshape.wellMade hb)
    (wellCut_of_bodyBlock? hb hcover) hjoin

/-- The lines of a block are read as the code that the block is read as in its file, and its directives stand on lines of
their own, if its rows may be joined. -/
theorem code_formatBlock (hspace : Parser.Spaced lex) :
    ∃ front back laid, lex (wrapBody body) = some (front ++ b.tokens ++ back) ∧
      lex (Text.unlines (formatBlock body)) = some laid ∧ code laid = code b.tokens ∧
      ∀ u ∈ laid, u.kind = .directive ∨ u.kind = .conditional → ∃ l ∈ formatBlock body, Text.trim l = u.text := by
  obtain ⟨front, back, hfile⟩ := exists_lex_wrapBody hb hcover
  obtain ⟨laid, hlaid, -, hcode⟩ := hspace.lex_respaced hb (respaced_formatBlock hcover hshape hb hjoin)
  refine ⟨front, back, laid, hfile, hlaid, hcode, fun u hu hk => ?_⟩
  have hcomment : u.kind ≠ .comment := by
    rcases hk with hk | hk <;> simp [hk]
  have hmem := mem_code hu hcomment
  rw [hcode] at hmem
  obtain ⟨v, hv, hkind, htext⟩ := exists_mem_of_mem_code hmem
  have hcut := wellCut_of_bodyBlock? hb hcover v hv
  rw [← (Tree.tokens_rows b).2 (isBlock_of_bodyBlock? hb)] at hv
  obtain ⟨r, hr, hv⟩ := List.mem_flatMap.mp hv
  rw [← hkind] at hk
  rcases hk with hk | hk
  · refine ⟨r.line, ?_, htext ▸ trim_line_of_directive hcut (hjoin r hr) hv hk⟩
    rw [formatBlock_eq_rows hshape hb]
    exact List.mem_map_of_mem hr
  · exact absurd hk ((hjoin r hr).conditional v hv)

end Laws

/-- A body with comments of both forms, a string that looks like one, a string with a hole, and directives. -/
def commentedBody : Text :=
  ("\x7b if (a) \x7b b(\"x  // y\"); \x7d else c(); // why\n#region r\n d($\"\x7be:N2\x7d f\"); /* g\n h */\n" ++
    "#endregion\n\x7d").toList

/-- A body with a comment in the middle of a statement. -/
def interruptedBody : Text := "\x7b if (a) // why\n b(); \x7d".toList

/-- Evaluated at once, so that the words of the grammar are taken apart only once. -/
theorem bodyBlock?_bodies :
    ((bodyBlock? commentedBody).any (fun b => decide (∀ r ∈ b.blockRows, r.Joinable)) &&
      (bodyBlock? interruptedBody).any (fun b =>
        (tokens? (Text.unlines b.blockLines)).map code != some (code b.tokens))) = true := by
  decide +kernel

theorem code_formatBlock_commentedBody :
    ∃ b, bodyBlock? commentedBody = some b ∧ (∀ r ∈ b.blockRows, r.Joinable) ∧
      ∃ front back laid, tokens? (wrapBody commentedBody) = some (front ++ b.tokens ++ back) ∧
        tokens? (Text.unlines (formatBlock commentedBody)) = some laid ∧ code laid = code b.tokens ∧
        ∀ u ∈ laid, u.kind = .directive ∨ u.kind = .conditional →
          ∃ l ∈ formatBlock commentedBody, Text.trim l = u.text := by
  obtain ⟨b, hb, hjoin⟩ := (Option.any_eq_true _ _).mp (Bool.and_eq_true_iff.mp bodyBlock?_bodies).1
  have hrows : ∀ r ∈ b.blockRows, r.Joinable := of_decide_eq_true hjoin
  exact ⟨b, hb, hrows, code_formatBlock Grammar.covering Grammar.shaped hb hrows Grammar.spaced⟩

/-- Where a comment takes its line in the middle of a row, the layout moves the code behind it into the comment. -/
theorem not_code_formatBlock :
    ¬ ∀ body b, bodyBlock? body = some b →
      (tokens? (Text.unlines (formatBlock body))).map code = some (code b.tokens) := by
  intro hall
  obtain ⟨b, hb, hdiffers⟩ := (Option.any_eq_true _ _).mp (Bool.and_eq_true_iff.mp bodyBlock?_bodies).2
  have hsame := hall interruptedBody b hb
  rw [formatBlock_eq hb] at hsame
  exact bne_iff_ne.mp hdiffers hsame

end CSharpDraft.Fragment
