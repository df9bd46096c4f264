import CSharpDraft.Proofs.Fragment.Seams
import CSharpDraft.Proofs.Fragment.Steady
import CSharpDraft.Proofs.Fragment.Trial

/-!
# The laws of the parser that runs

The parser of this library does what is asked of a parser.

* `Grammar.covering`, `Grammar.shaped`, `Grammar.opening` : it finds tokens and blocks where they are;
* `bracketsMatch_append` : tokens that close what they open match on their own, whatever brackets are around them;
* `tokens?_wrapBody` : the file around a text that is read as a block;
* `Grammar.spaced`, `Grammar.determined` : it does not look at the blanks at the seams of a block.
-/

set_option autoImplicit false

namespace CSharpDraft.Fragment

open Text (StartsSolid EndsSolid)

/-! ## Where tokens and blocks are -/

theorem Grammar.covering : Parser.Covering tokens? where
  cut h := by
    obtain ⟨blanks, hblanks, hreads⟩ := tokens?_eq_some_iff.mp h
    exact ⟨blanks, hreads.text_eq, hblanks, hreads.wellCut⟩
  leaves h := by
    obtain ⟨ts, row, rest, htokens, -, hmatch, rfl⟩ := exists_match_of_parse? h
    rw [Tree.tokens, Tree.tokensOf_append, Tree.tokensOf_leaves, ← hmatch.tokens_eq]
    exact htokens

theorem Grammar.shaped : Parser.Shaped where
  braced hb := (readAsBlock_of_bodyBlock? hb).nests.blocksBraced
  wellMade hb := (readAsBlock_of_bodyBlock? hb).wellMade

theorem Grammar.opening : Parser.Opening where
  starts := exists_rest_of_brace

/-! ## What the tokens of a block open and close -/

namespace Tree

theorem nestAll?_tokensOf {cs : List Tree}
    (hmem : ∀ c ∈ cs, ∀ s s', Nests c s s' → nestAll? (tokens c) s = some s') {s s' : List Opened}
    (h : RowNests cs s s') : nestAll? (tokensOf cs) s = some s' := by
  induction cs generalizing s with
  | nil =>
    cases h
    rfl
  | cons c cs ih =>
    rw [List.forall_mem_cons] at hmem
    obtain ⟨m, hc, hcs⟩ := h
    rw [tokensOf, nestAll?_append, hmem.1 s m hc]
    exact ih hmem.2 hcs

theorem nestAll?_tokens {t : Tree} {s s' : List Opened} (h : Nests t s s') : nestAll? (tokens t) s = some s' := by
  induction t using Tree.induct generalizing s s' with
  | leaf t => exact nestAll?_cons.mpr ⟨s', h, rfl⟩
  | node kind children ih =>
    obtain ⟨rfl, -, -, hrow⟩ := h
    exact nestAll?_around (nestAll?_tokensOf (fun c hc _ _ => ih c hc) hrow) s'

/-- The parts of a block close what they open. -/
theorem nestAll?_parts {parts : List Tree} (hparts : ∀ c ∈ parts, c.isPart = true) {s s' : List Opened}
    (h : RowNests parts s s') : nestAll? (tokensOf parts) [] = some [] := by
  induction parts generalizing s with
  | nil => rfl
  | cons c cs ih =>
    rw [List.forall_mem_cons] at hparts
    obtain ⟨m, hc, hcs⟩ := h
    have hfirst : nestAll? (tokens c) [] = some [] := by
      cases c with
      | leaf t => exact nestAll?_cons.mpr ⟨[], nest?_of_isTrivia hparts.1 [], rfl⟩
      | node kind children => exact nestAll?_tokensOf (fun c _ _ _ => nestAll?_tokens) hc.2.2.2
    rw [tokensOf, nestAll?_append, hfirst]
    exact ih hparts.2 hcs

end Tree

/-! ## Brackets that match -/

theorem bracketsMatch_congr {us us' : List Token} (h : us'.map Token.bare = us.map Token.bare) (due : List Text) :
    bracketsMatch due us' = bracketsMatch due us := by
  induction us generalizing us' due with
  | nil => rw [List.map_eq_nil_iff.mp h]
  | cons u us ih =>
    obtain ⟨u', us', rfl, hu, hus⟩ := List.map_eq_cons_iff.mp h
    obtain ⟨hkind, htext⟩ := Token.bare_eq_iff.mp hu
    simp only [bracketsMatch, hkind, htext, ih hus]

/-- The closing bracket that is due for an opening one. -/
def closingOf (x : Text) : Text := if x == ['('] then [')'] else if x == ['['] then [']'] else ['\x7d']

/-- The closing brackets that are due behind a token, if it closes no other. -/
def dueAfter? (t : Token) (due : List Text) : Option (List Text) :=
  if t.opens then some (closingOf t.text :: due)
  else if t.closes then (if due.head? == some t.text then some due.tail else none)
  else some due

theorem bracketsMatch_cons (due : List Text) (t : Token) (ts : List Token) :
    bracketsMatch due (t :: ts) = (dueAfter? t due).any (bracketsMatch · ts) := by
  rw [bracketsMatch, dueAfter?, Token.opens, Token.closes]
  by_cases hk : t.kind = .symbol
  · by_cases hopens : openingBrackets.contains t.text = true
    · have hmem := List.contains_iff_mem.mp hopens
      simp only [openingBrackets, List.mem_cons, List.not_mem_nil, or_false] at hmem
      rcases hmem with ht | ht | ht <;> rw [hk, ht] <;> rfl
    · have hnot : t.text ≠ ['('] ∧ t.text ≠ ['['] ∧ t.text ≠ ['\x7b'] := by
        simpa [openingBrackets] using hopens
      have hlist : [[')'], [']'], ['\x7d']].contains t.text = closingBrackets.contains t.text := rfl
      simp only [hk, hnot, hopens, hlist, bne_self_eq_false, beq_self_eq_true, beq_iff_eq, Bool.true_and, if_false]
      cases closingBrackets.contains t.text with
      | false => rfl
      | true => by_cases hdue : due.head? = some t.text <;> simp [hdue]
  · simp [hk]

theorem exists_bracketsMatch_of_append {due : List Text} {us vs : List Token} (h : bracketsMatch due (us ++ vs) = true) :
    ∃ due', bracketsMatch due' vs = true := by
  induction us generalizing due with
  | nil => exact ⟨due, h⟩
  | cons u us ih =>
    rw [List.cons_append, bracketsMatch_cons] at h
    obtain ⟨due', -, hrest⟩ := (Option.any_eq_true _ _).mp h
    exact ih hrest

theorem not_closes_of_opens {t : Token} (h : t.opens = true) : t.closes = false := by
  rw [Token.opens, Bool.and_eq_true] at h
  rw [Token.closes, closingBrackets_of_opening h.2, Bool.and_false]

theorem length_dueAfter? {t : Token} {due due' : List Text} (h : dueAfter? t due = some due') :
    due.length + [t].countP Token.opens = due'.length + [t].countP Token.closes := by
  rw [List.countP_singleton, List.countP_singleton]
  unfold dueAfter? at h
  split at h
  · next hopens =>
    cases h
    rw [hopens, not_closes_of_opens hopens]
    rfl
  · next hopens =>
    rw [if_neg hopens]
    split at h
    · next hcloses =>
      rw [if_pos hcloses]
      split at h
      · next hdue =>
        cases h
        cases due with
        | nil => cases hdue
        | cons x due => rfl
      · cases h
    · next hcloses =>
      cases h
      rw [if_neg hcloses]

theorem dueAfter?_append {t : Token} {due : List Text} (h : t.closes = true → due ≠ []) (d : List Text) :
    dueAfter? t (due ++ d) = (dueAfter? t due).map (· ++ d) := by
  unfold dueAfter?
  split
  · rfl
  · split
    · next hcloses =>
      obtain ⟨x, due, rfl⟩ := List.exists_cons_of_ne_nil (h hcloses)
      rw [List.cons_append, List.head?_cons, List.head?_cons]
      split <;> rfl
    · rfl

/-- Tokens that close what they open match on their own. -/
theorem bracketsMatch_append {us more : List Token} {s : List Opened} (h : nestAll? us s = some []) {e : List Text}
    (he : e.length = s.count .bracket) (d : List Text) :
    bracketsMatch (e ++ d) (us ++ more) = (bracketsMatch e us && bracketsMatch d more) := by
  induction us generalizing s e with
  | nil =>
    cases h
    obtain rfl := List.length_eq_zero_iff.mp he
    rfl
  | cons u us ih =>
    obtain ⟨m, hu, hus⟩ := nestAll?_cons.mp h
    have hcount := count_of_nest? hu
    have happend : dueAfter? u (e ++ d) = (dueAfter? u e).map (· ++ d) := by
      refine dueAfter?_append (fun hcloses hnil => ?_) d
      have hopens : u.opens = false := by
        by_contra hopens
        rw [not_closes_of_opens (by simpa using hopens)] at hcloses
        cases hcloses
      rw [List.countP_singleton, List.countP_singleton, hopens, hcloses, ← he, hnil] at hcount
      simp at hcount
    rw [List.cons_append, bracketsMatch_cons, bracketsMatch_cons, happend]
    cases hdue : dueAfter? u e with
    | none => rfl
    | some e' =>
      have hlength := length_dueAfter? hdue
      exact ih hus (by omega)

/-- The brackets of the parts of a block match on their own. -/
theorem bracketsMatch_inside {body : Text} {b : Tree} (hb : bodyBlock? body = some b) {opening closing : Token}
    {us : List Token} (htokens : b.tokens = opening :: (us ++ [closing])) (hopening : opening.isSymbol ['\x7b'] = true)
    (hnest : nestAll? us [] = some []) : bracketsMatch [] us = true := by
  obtain ⟨ts, -, -, hts, hbrackets, -⟩ := exists_match_of_bodyBlock? hb
  obtain ⟨front, back, hfile⟩ := exists_lex_wrapBody hb Grammar.covering
  obtain rfl : ts = front ++ b.tokens ++ back := Option.some.inj (hts.symm.trans hfile)
  rw [List.append_assoc] at hbrackets
  obtain ⟨due, hinside⟩ := exists_bracketsMatch_of_append hbrackets
  have hopens : dueAfter? opening due = some (['\x7d'] :: due) := by
    rw [dueAfter?, Token.opens, Token.kind_of_isSymbol hopening, Token.text_of_isSymbol hopening]
    rfl
  rw [htokens, List.cons_append, bracketsMatch_cons, hopens, Option.any_some, List.append_assoc] at hinside
  rw [← List.nil_append (['\x7d'] :: due), bracketsMatch_append hnest rfl, Bool.and_eq_true] at hinside
  exact hinside.1

/-- So they do in the file around other tokens that are the same but for the gaps. -/
theorem bracketsMatch_bodyFront {us us' : List Token} {closing : Token} (hmatch : bracketsMatch [] us = true)
    (hnest : nestAll? us [] = some []) (hbare : us'.map Token.bare = us.map Token.bare)
    (hclosing : closing.isSymbol ['\x7d'] = true) :
    bracketsMatch [] (bodyFront ++ (us' ++ [closing] ++ [fileClosing])) = true := by
  rw [Token.isSymbol, Bool.and_eq_true] at hclosing
  have hback : bracketsMatch [['\x7d'], ['\x7d']] [closing, fileClosing] = true := by
    have hsame : [closing, fileClosing].map Token.bare = [fileClosing, fileClosing].map Token.bare := by
      simp [Token.bare, eq_of_beq hclosing.1, eq_of_beq hclosing.2, fileClosing]
    rw [bracketsMatch_congr hsame]
    decide
  have hsame : (us' ++ [closing, fileClosing]).map Token.bare = (us ++ [closing, fileClosing]).map Token.bare := by
    rw [List.map_append, List.map_append, hbare]
  have hfront : bracketsMatch [] (bodyFront ++ (us' ++ [closing] ++ [fileClosing])) =
      bracketsMatch ([] ++ [['\x7d'], ['\x7d']]) (us' ++ [closing, fileClosing]) := by
    rw [List.append_assoc]
    rfl
  rw [hfront, bracketsMatch_congr hsame, bracketsMatch_append hnest rfl, hmatch, hback]
  rfl

/-! ## Reading the lines of a block as a body -/

theorem after_stop (hole : Hole) (x : Text) {c : Char} (hc : isStop c = true) (r : Text) :
    hole.after x (c :: r) = hole.after x [] := by
  have hne : ('.' == c) = false ∧ ('[' == c) = false := by
    constructor <;>
    · refine beq_eq_false_iff_ne.mpr ?_
      rintro rfl
      exact absurd hc (by decide)
  unfold Hole.after
  simp [List.isPrefixOf, hne]

/-- Tokens are read as they are where more stands behind them, if it starts with a blank. -/
theorem Reads.behind {hs hs' : List Hole} {t r : Text} {us : List Token} (h : Reads hs t us hs' r)
    (hplain : ∀ u ∈ us, u.isPlain = true) {c : Char} (hc : isStop c = true) (w : Text) :
    Reads hs (t ++ c :: w) us hs' (r ++ c :: w) := by
  induction h with
  | done hs t => exact .done hs _
  | @next hs hs' hs'' t r r' u us hgap hnext _ ih =>
    rw [List.forall_mem_cons] at hplain
    have hcut := wellCut_of_nextToken hgap hnext
    have hstep := nextToken_stable hnext
    have hfollows : Follows hs u.kind u.text r (r ++ c :: w) := by
      refine ⟨?_, fun hslashes => ?_, fun hk => ?_, fun _ => holesBehind_congr (fun hole => ?_)⟩
      · simpa using (covers_stop hc [] w).append r
      · have hu := hplain.1
        rw [Token.isPlain, Token.isTrivia, hcut.comment hslashes] at hu
        cases hu
      · have hu := hplain.1
        rw [Token.isPlain, Token.isTrivia, hk] at hu
        cases hu
      · cases r with
        | nil => exact after_stop hole u.text hc w
        | cons d r => exact after_congr u.text rfl
    have hagain := hstep.again _ hfollows
    rw [← List.append_assoc, ← hstep.text] at hagain
    rw [List.append_assoc]
    exact .next hgap hagain (ih hplain.2)

theorem Reads.trans {hs hs' hs'' : List Hole} {t r r' : Text} {us vs : List Token} (h : Reads hs t us hs' r)
    (h' : Reads hs' r vs hs'' r') : Reads hs t (us ++ vs) hs'' r' := by
  induction h with
  | done => exact h'
  | next hgap hnext _ ih => exact .next hgap hnext (ih h')

theorem reads_fileClosing : Reads [] [' ', '\x7d'] [fileClosing] [] [] :=
  .next (u := fileClosing) (t := ['\x7d']) (List.forall_mem_singleton.mpr rfl) rfl (.done [] [])

/-- The file around a text that is read as a block. -/
theorem tokens?_wrapBody {t : Text} {opening closing : Token} {us : List Token}
    (h : Reads [] t (opening :: (us ++ [closing])) [] []) (hgap : opening.gap = [])
    (hopening : opening.text = ['\x7b']) (hclosing : closing.text = ['\x7d'])
    (hplain : ∀ u ∈ us ++ [closing], u.isPlain = true) :
    tokens? (wrapBody t) = some (bodyFront ++ (us ++ [closing] ++ [fileClosing])) := by
  have htrim : Text.trim t = t := by
    have htext := h.text_eq
    rw [written_cons, hgap, hopening, List.append_nil] at htext
    have hstarts : StartsSolid t := ⟨'\x7b', _, htext, rfl⟩
    have hends : EndsSolid t := by
      rw [htext, written_append, written_cons, hclosing, written_nil]
      exact ⟨'\x7b' :: (written us ++ closing.gap), '\x7d', by simp, rfl⟩
    have hrun : ∀ c ∈ ([] : Text), Text.isBlankChar c = true := nofun
    simpa using Text.trim_append_blank hstarts hends hrun
  cases h with
  | @next _ hs _ t y _ _ _ _ hnext hrest =>
    rw [hgap, List.nil_append] at htrim ⊢
    have hy := (nextToken_stable hnext).text
    rw [hopening] at hy
    subst hy
    rw [List.singleton_append, nextToken_brace] at hnext
    obtain rfl : [] = hs := (Prod.mk.inj (Prod.mk.inj (Option.some.inj hnext)).2).2
    refine tokens?_eq_some_iff.mpr ⟨[], nofun, ?_⟩
    have hinside := (hrest.behind hplain (c := ' ') rfl ['\x7d']).trans reads_fileClosing
    have hfile := (reads_bodyFront (y ++ [' ', '\x7d'])).trans hinside
    have hend : wrapperEnd = [' ', '\x7d'] := rfl
    unfold wrapBody
    rw [htrim, hend, List.append_assoc, List.append_assoc, List.singleton_append]
    exact hfile

/-! ## Parsing the tokens of a block again -/

/-- A block is parsed where its parts are parsed between braces. -/
theorem parse_block {opening closing : Token} {us rest : List Token} {parts : List Tree}
    (hopening : opening.isSymbol ['\x7b'] = true) (hclosing : closing.isSymbol ['\x7d'] = true)
    (hparts : (Pattern.many (.rule .statement)).parse (us ++ closing :: rest) = some (parts, closing :: rest)) :
    Grammar.block.parse (opening :: (us ++ closing :: rest)) =
      some ([.node .block (.leaf opening :: parts ++ [.leaf closing])], rest) := by
  have hopen : (Pattern.symbol "\x7b").parse (opening :: (us ++ closing :: rest)) =
      some ([.leaf opening], us ++ closing :: rest) :=
    (Pattern.parse_token _).trans ((takeToken_cons (Token.isPlain_of_isSymbol hopening) _).trans (if_pos hopening))
  have hclose : (Pattern.symbol "\x7d").parse (closing :: rest) = some ([.leaf closing], rest) :=
    (Pattern.parse_token _).trans ((takeToken_cons (Token.isPlain_of_isSymbol hclosing) _).trans (if_pos hclosing))
  have hinner : (Pattern.both (.many (.rule .statement)) (Pattern.symbol "\x7d")).parse (us ++ closing :: rest) =
      some (parts ++ [.leaf closing], rest) :=
    (Pattern.parse_both_eq_some rfl).mpr ⟨_, _, _, hparts, hclose, rfl⟩
  have hbraces : (Pattern.inBraces (.many (.rule .statement))).parse (opening :: (us ++ closing :: rest)) =
      some (.leaf opening :: parts ++ [.leaf closing], rest) :=
    (Pattern.parse_both_eq_some rfl).mpr ⟨_, _, _, hopen, hinner, rfl⟩
  have hsolid : (Tree.leaf opening).isTrivia = false := Token.isTrivia_of_isPlain (Token.isPlain_of_isSymbol hopening)
  rw [Grammar.block, Pattern.parse_node _ rfl, hbraces]
  simp [Tree.group, hsolid]

/-- Statements are parsed from tokens that are alike as the same statements. -/
theorem exists_parse_alike {us rest rest' : List Token} {closing closing' : Token} {parts : List Tree}
    (hparse : (Pattern.many (.rule .statement)).parse (Tree.tokensOf parts ++ closing :: rest) =
      some (parts, closing :: rest))
    (halike : Alike [] (Tree.tokensOf parts ++ closing :: rest) (us ++ closing' :: rest'))
    (hbare : us.map Token.bare = (Tree.tokensOf parts).map Token.bare) :
    ∃ parts', (Pattern.many (.rule .statement)).parse (us ++ closing' :: rest') = some (parts', closing' :: rest') ∧
      parts'.map Tree.bare = parts.map Tree.bare ∧ Tree.tokensOf parts' = us := by
  have hleads : (Pattern.many (.rule .statement)).Leads [] [] := ⟨rfl, rfl, rfl, Pattern.fitsBehind_nil _⟩
  have hresult := parse_alike (z := []) halike rfl hleads rfl
  rw [hparse] at hresult
  generalize hparsed : (Pattern.many (.rule .statement)).parse (us ++ closing' :: rest') = parsed at hresult
  cases hresult with
  | @some _ parts' _ left hrow _ _ =>
    have htokens := (matches_of_run hparsed).tokens_eq
    have hlength : us.length = (Tree.tokensOf parts').length := by
      have hparts := congrArg List.length (Tree.tokensOf_map_bare parts')
      rw [hrow, Tree.tokensOf_map_bare, ← hbare, List.length_map, List.length_map] at hparts
      exact hparts
    obtain ⟨rfl, rfl⟩ := List.append_inj htokens hlength
    exact ⟨parts', rfl, hrow, rfl⟩

theorem isPlain_of_map_bare {us us' : List Token} (h : us'.map Token.bare = us.map Token.bare)
    (hplain : ∀ u ∈ us, u.isPlain = true) : ∀ u ∈ us', u.isPlain = true := by
  intro u' hu'
  obtain ⟨u, hu, hbare⟩ := List.mem_map.mp (h ▸ List.mem_map_of_mem hu')
  exact (Token.isPlain_congr hbare.symm).trans (hplain u hu)

/-- The parts of the block of a body, which close what they open. -/
theorem ReadAsBlock.nestAll?_parts {opening closing : Token} {parts : List Tree}
    (h : ReadAsBlock (.node .block (.leaf opening :: parts ++ [.leaf closing]))) :
    nestAll? (Tree.tokensOf parts) [] = some [] := by
  obtain ⟨-, -, hbraced, hrow⟩ := h.nests
  obtain ⟨opening', closing', parts', heq, -, -, hparts⟩ := hbraced rfl
  obtain ⟨rfl, -⟩ := List.append_inj' (List.cons.inj heq).2 rfl
  obtain ⟨m, -, hrest⟩ := hrow
  obtain ⟨n, hrow, -⟩ := Tree.rowNests_append.mp hrest
  exact Tree.nestAll?_parts hparts hrow

/-- A tree whose tokens were cut from a text has no blank leaf. -/
theorem Tree.WellMade.solid {t : Tree} (h : t.WellMade) (hcut : ∀ u ∈ t.tokens, WellCut u) : t.Solid := by
  induction h with
  | leaf t =>
    have hstarts := (hcut t List.mem_cons_self).startsSolid []
    rw [List.append_nil] at hstarts
    exact .leaf (Text.isBlank_of_startsSolid hstarts)
  | node hne _ _ ih => exact .node hne (fun c hc => ih c hc (fun u hu => hcut u (mem_tokensOf.mpr ⟨c, hc, hu⟩)))

/-- A line break in front of a text is none of its tokens. -/
theorem Reads.of_newline {t : Text} {u : Token} {us : List Token} {hs : List Hole} {r : Text}
    (h : Reads [] ('\n' :: t) (u :: us) hs r) : ∃ g, Reads [] t ({ u with gap := g } :: us) hs r := by
  generalize htext : '\n' :: t = text at h
  cases h with
  | next hgap hnext hrest =>
    cases hu : u.gap with
    | nil =>
      obtain ⟨hcut, ⟨c, y, hx, hc⟩, -, -⟩ := nextToken_stable hnext
      rw [hu, List.nil_append, hcut, hx] at htext
      obtain ⟨rfl, -⟩ := List.cons.inj htext
      cases hc
    | cons c g =>
      rw [hu, List.cons_append] at htext
      obtain ⟨rfl, rfl⟩ := List.cons.inj htext
      rw [hu, List.forall_mem_cons] at hgap
      exact ⟨g, .next (u := { u with gap := g }) hgap.2 hnext hrest⟩

/-- A block that stands in a text is read again with other blanks at its seams. -/
theorem exists_tokens_of_respaced {b : Tree} (hblock : ReadAsBlock b) {holes hs : List Hole} {t r : Text}
    (hreads : Reads holes t b.tokens hs r) {text : Text} (h : Respaced b.slots ('\n' :: text)) :
    ∃ us, tokens? text = some us ∧ us.map Token.kind = b.tokens.map Token.kind ∧ code us = code b.tokens := by
  have hisBlock : b.isBlock = true := by
    obtain ⟨-, -, -, -, rfl⟩ := hblock
    rfl
  have hrefits := h.refits (hblock.nests.slotsNest hisBlock)
  rw [Tree.map_snd_slots] at hrefits
  obtain ⟨vs, blanks, hblanks, hvs, hkinds, hcode⟩ := hrefits.reads (tracks_nil holes) hreads
  obtain ⟨opening, inner, closing, htokens, -⟩ := hblock.exists_tokens
  cases vs with
  | nil =>
    rw [htokens] at hkinds
    cases hkinds
  | cons v vs =>
    obtain ⟨g, hagain⟩ := hvs.of_newline
    have hsame : code ({ v with gap := g } :: vs) = code (v :: vs) := code_cons_of_ne rfl (fun _ => rfl) rfl
    exact ⟨_, tokens?_eq_some_iff.mpr ⟨blanks, hblanks, hagain⟩, hkinds, hsame.trans hcode⟩

theorem Grammar.spaced : Parser.Spaced tokens? where
  lex_respaced hb hrespaced := by
    obtain ⟨front, back, hfile⟩ := exists_lex_wrapBody hb Grammar.covering
    obtain ⟨blanks, -, hreads⟩ := tokens?_eq_some_iff.mp hfile
    obtain ⟨hs, t, hfront, -⟩ := reads_append hreads
    obtain ⟨holes, text, -, hblock⟩ := reads_append hfront
    exact exists_tokens_of_respaced (readAsBlock_of_bodyBlock? hb) hblock hrespaced

/-! ## The tree of a block -/

theorem exists_of_forall₂_concat {α β : Type} {R : α → β → Prop} {xs : List α} {x : α} {ys : List β}
    (h : List.Forall₂ R (xs ++ [x]) ys) : ∃ ys' y, ys = ys' ++ [y] ∧ List.Forall₂ R xs ys' ∧ R x y := by
  induction xs generalizing ys with
  | nil =>
    obtain ⟨y, _, hxy, hnil, rfl⟩ := List.forall₂_cons_left_iff.mp h
    obtain rfl := List.forall₂_nil_left_iff.mp hnil
    exact ⟨[], y, rfl, .nil, hxy⟩
  | cons x' xs ih =>
    obtain ⟨y', _, hxy, hrest, rfl⟩ := List.forall₂_cons_left_iff.mp h
    obtain ⟨ys', y, rfl, hys, hy⟩ := ih hrest
    exact ⟨y' :: ys', y, rfl, .cons hxy hys, hy⟩

/-- A text that is the spelling of its own tokens has no blanks around it. -/
theorem reads_spelling {u : Token} {us : List Token} (h : tokens? (spelling (u :: us)) = some (u :: us)) :
    u.gap = [] ∧ Reads [] (spelling (u :: us)) (u :: us) [] [] := by
  obtain ⟨blanks, -, hreads⟩ := tokens?_eq_some_iff.mp h
  have hlength := congrArg List.length hreads.text_eq
  rw [spelling_cons, written_cons] at hlength
  simp only [List.length_append] at hlength
  have hgap : u.gap = [] := List.length_eq_zero_iff.mp (by omega)
  obtain rfl : blanks = [] := List.length_eq_zero_iff.mp (by omega)
  exact ⟨hgap, hreads⟩

/-- The slots of the parts of a block. -/
def partSlots (parts : List Tree) : List (Bool × Token) := parts.flatMap (fun c => Tree.seamed c.slots)

theorem map_snd_partSlots (parts : List Tree) : (partSlots parts).map Prod.snd = Tree.tokensOf parts := by
  rw [partSlots, ← Tree.rowSlots_inBlock parts false]
  exact Tree.map_snd_rowSlots (fun c _ => Tree.map_snd_slots c) true false

theorem slots_braced (opening closing : Token) (parts : List Tree) :
    (Tree.node .block (.leaf opening :: parts ++ [.leaf closing])).slots =
      (true, opening) :: (partSlots parts ++ [(true, closing)]) := by
  change Tree.rowSlots true false _ = _
  rw [Tree.rowSlots_inBlock, List.cons_append, List.flatMap_cons, List.flatMap_append, List.flatMap_singleton]
  rfl

/-- The parts of a block are parsed again from tokens with other gaps at the seams. -/
theorem exists_parse_of_regapped {opening closing closing' : Token} {parts : List Tree} {rest vs : List Token}
    (hblock : ReadAsBlock (.node .block (.leaf opening :: parts ++ [.leaf closing])))
    (hclosing : closing.isSymbol ['\x7d'] = true) (hplain : ∀ u ∈ Tree.tokensOf parts, u.isPlain = true)
    (hparse : (Pattern.many (.rule .statement)).parse (Tree.tokensOf parts ++ closing :: rest) =
      some (parts, closing :: rest))
    (h : Regapped (partSlots parts ++ [(true, closing)]) (vs ++ [closing'])) (rest' : List Token) :
    ∃ parts', (Pattern.many (.rule .statement)).parse (vs ++ closing' :: rest') = some (parts', closing' :: rest') ∧
      parts'.map Tree.bare = parts.map Tree.bare ∧ Tree.tokensOf parts' = vs := by
  have hloose : SlotsLoose (partSlots parts ++ [(true, closing)]) [opening] := by
    have hall := (Tree.looseSeams hblock.nests.blocksBraced hblock.calm).block rfl []
    rw [slots_braced] at hall
    exact hall.2
  have hslots := map_snd_partSlots parts
  have halike := alike_of_regapped hclosing hloose h (hslots ▸ hplain) (hslots ▸ hblock.nestAll?_parts) rest rest'
  have hbare := h.map_bare
  rw [List.map_append, List.map_append, List.map_append, hslots] at hbare
  obtain ⟨hbare, -⟩ := List.append_inj' hbare rfl
  rw [hslots] at halike
  exact exists_parse_alike hparse halike hbare

theorem Grammar.determined : Parser.Determined tokens? where
  exists_block {body b us} hb hplain hlex hregapped := by
    have hblock := readAsBlock_of_bodyBlock? hb
    obtain ⟨opening, parts, closing, rest, rfl, hopening, hclosing, hparse⟩ :=
      exists_parse_of_bodyBlock? hb (fun u hu => Token.isTrivia_of_isPlain (hplain u hu))
    have htokens : (Tree.node .block (.leaf opening :: parts ++ [.leaf closing])).tokens =
        opening :: (Tree.tokensOf parts ++ [closing]) := by
      simp [Tree.tokens, Tree.tokensOf]
    rw [htokens, List.forall_mem_cons, List.forall_mem_append] at hplain
    rw [slots_braced] at hregapped
    obtain ⟨opening', _, rfl, hopening', -, hregapped⟩ := regapped_cons.mp hregapped
    obtain ⟨vs, closing', rfl, hvs, hclosing'⟩ := exists_of_forall₂_concat hregapped
    obtain ⟨parts', hparse', hparts, htokens'⟩ :=
      exists_parse_of_regapped hblock hclosing hplain.2.1 hparse hregapped [fileClosing]
    have hblind : ∀ x, Token.Blind (Token.isSymbol · x) := fun _ _ => rfl
    have hopens := ((hblind _).congr hopening').trans hopening
    have hcloses := ((hblind _).congr hclosing'.1).trans hclosing
    have hbare := Regapped.map_bare hvs
    rw [map_snd_partSlots] at hbare
    have hplain' : ∀ u ∈ vs ++ [closing'], u.isPlain = true :=
      List.forall_mem_append.mpr ⟨isPlain_of_map_bare hbare hplain.2.1,
        List.forall_mem_singleton.mpr (Token.isPlain_of_isSymbol hcloses)⟩
    obtain ⟨hgap, hreads⟩ := reads_spelling hlex
    have hfile := tokens?_wrapBody hreads hgap (Token.text_of_isSymbol hopens) (Token.text_of_isSymbol hcloses) hplain'
    have hfileOpening : fileOpening.isSymbol ['\x7b'] = true := rfl
    have hparsed := parse_block hfileOpening hcloses hparse'
    have hnest := hblock.nestAll?_parts
    have hbrackets := bracketsMatch_bodyFront (bracketsMatch_inside hb htokens hopening hnest) hnest hbare hcloses
    refine ⟨_, bodyBlock?_eq_some hfile hbrackets rfl (by simpa using hparsed), ?_⟩
    have hfirst : fileOpening.bare = opening.bare :=
      Token.bare_eq_iff.mpr ⟨(Token.kind_of_isSymbol hopening).symm, (Token.text_of_isSymbol hopening).symm⟩
    simp [Tree.bare, Tree.bareRow_eq, hfirst, hparts, hclosing'.1]

end CSharpDraft.Fragment
