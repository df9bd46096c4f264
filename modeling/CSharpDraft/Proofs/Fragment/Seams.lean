import CSharpDraft.Proofs.Fragment.Alike
import CSharpDraft.Proofs.Fragment.Calm
import CSharpDraft.Proofs.Fragment.Reading

/-!
# The seams of a block

At a seam no string is the innermost thing open, and no gap there makes a difference to what the tokens around it are.

* `SlotsNest` : what tokens do to what is open, and what is open at their seams (`Tree.slotsNest`);
* `SlotsLoose` : no gap at their seams matters (`Tree.slotsLoose`);
* `Respaced.refits` : so a text with other blanks at the seams is one with other blanks;
* `alike_of_regapped` : and tokens with other gaps at the seams are alike.
-/

set_option autoImplicit false

namespace CSharpDraft.Fragment

/-! ## What is open at seams -/

/-- The tokens fit behind what is open, and at their seams no string is the innermost thing open. -/
def SlotsNest : List (Bool × Token) → List Opened → List Opened → Prop
  | [], s, s' => s' = s
  | (seam, u) :: us, s, s' => (seam = true → Firm s) ∧ (s ≠ [] ∨ u.text = ['\x7b']) ∧
      ∃ between, nest? u.kind u.text s = some between ∧ SlotsNest us between s'

theorem slotsNest_append {us vs : List (Bool × Token)} {s s' : List Opened} :
    SlotsNest (us ++ vs) s s' ↔ ∃ between, SlotsNest us s between ∧ SlotsNest vs between s' := by
  induction us generalizing s with
  | nil => simp [SlotsNest]
  | cons u us ih =>
    simp only [List.cons_append, SlotsNest, ih]
    constructor
    · rintro ⟨hfirm, hopen, m, hu, n, hus, hvs⟩
      exact ⟨n, ⟨hfirm, hopen, m, hu, hus⟩, hvs⟩
    · rintro ⟨n, ⟨hfirm, hopen, m, hu, hus⟩, hvs⟩
      exact ⟨hfirm, hopen, m, hu, n, hus, hvs⟩

theorem SlotsNest.seamed {us : List (Bool × Token)} {s s' : List Opened} (h : SlotsNest us s s') (hfirm : Firm s) :
    SlotsNest (Tree.seamed us) s s' := by
  cases us with
  | nil => exact h
  | cons u us => exact ⟨fun _ => hfirm, h.2⟩

theorem TokensNest.slotsNest {us : List Token} {s s' : List Opened} (h : TokensNest us s s') :
    SlotsNest (Tree.seamless us) s s' := by
  induction us generalizing s with
  | nil => exact h
  | cons u us ih =>
    obtain ⟨hopen, m, hu, hus⟩ := h
    exact ⟨nofun, hopen, m, hu, ih hus⟩

theorem nest?_of_isSymbol {t : Token} {x : Text} (h : t.isSymbol x = true) (s : List Opened) :
    nest? t.kind t.text s = nestSymbol? x s := by
  rw [Token.kind_of_isSymbol h, Token.text_of_isSymbol h]
  rfl

namespace Tree

theorem exists_nests_of_mem {cs : List Tree} {s s' : List Opened} (h : RowNests cs s s') :
    ∀ c ∈ cs, ∃ x y, Nests c x y := by
  induction cs generalizing s with
  | nil => simp
  | cons c cs ih =>
    obtain ⟨m, hc, hcs⟩ := h
    exact List.forall_mem_cons.mpr ⟨⟨s, m, hc⟩, ih hcs⟩

theorem Nests.blocksBraced {t : Tree} {s s' : List Opened} (h : Nests t s s') : BlocksBraced t := by
  induction t using Tree.induct generalizing s s' with
  | leaf t => exact .leaf t
  | node kind children ih =>
    obtain ⟨-, -, hbraced, hrow⟩ := h
    refine .node hbraced (fun c hc => ?_)
    obtain ⟨x, y, hnests⟩ := exists_nests_of_mem hrow c hc
    exact ih c hc hnests

theorem tokensNest_of_rowNests {cs : List Tree} {x y z : List Opened}
    (hmem : ∀ c ∈ cs, ∀ {x y : List Opened}, Nests c x y → TokensNest (tokens c) (x ++ z) (y ++ z))
    (h : RowNests cs x y) : TokensNest (tokensOf cs) (x ++ z) (y ++ z) := by
  induction cs generalizing x with
  | nil =>
    cases h
    rfl
  | cons c cs ih =>
    obtain ⟨m, hc, hcs⟩ := h
    exact tokensNest_append.mpr ⟨m ++ z, hmem c List.mem_cons_self hc,
      ih (fun d hd => hmem d (List.mem_cons_of_mem c hd)) hcs⟩

theorem Nests.tokensNest {t : Tree} {x y z : List Opened} (h : Nests t x y) (hz : z ≠ []) :
    TokensNest (tokens t) (x ++ z) (y ++ z) := by
  induction t using Tree.induct generalizing x y z with
  | leaf t => exact ⟨Or.inl (by simp [hz]), y ++ z, nest?_append h z, rfl⟩
  | node kind children ih =>
    obtain ⟨rfl, -, -, hrow⟩ := h
    have hne : y ++ z ≠ [] := by simp [hz]
    exact tokensNest_of_rowNests (x := []) (y := []) (z := y ++ z) (fun c hc _ _ hnests => ih c hc hnests hne) hrow

/-- A part of a block changes nothing that is open, and may stand anywhere among statements. -/
theorem Nests.of_isPart {c : Tree} (hpart : c.isPart = true) {s s' : List Opened} (h : Nests c s s') :
    s' = s ∧ Nests c [] [] := by
  cases c with
  | leaf t =>
    have hsame := nest?_of_isTrivia hpart
    rw [Nests, hsame] at h
    exact ⟨(Option.some.inj h).symm, hsame []⟩
  | node kind children =>
    obtain ⟨rfl, -, hrest⟩ := h
    exact ⟨rfl, rfl, fun _ => firm_nil, hrest⟩

theorem Nests.of_isLaidOut {c : Tree} (hc : c.isLaidOut = true) {s s' : List Opened} (h : Nests c s s') :
    s' = s ∧ Firm s := by
  cases c with
  | leaf t => cases hc
  | node kind children =>
    obtain ⟨rfl, hfirm, -⟩ := h
    refine ⟨rfl, hfirm ?_⟩
    rintro rfl
    cases hc

/-- What is open at the seams of a tree that is laid out, as a statement and as a block. -/
structure SlotsFirm (t : Tree) : Prop where
  statement : ∀ {x y z : List Opened}, Nests t x y → z ≠ [] → Firm (x ++ z) → SlotsNest (slots t) (x ++ z) (y ++ z)
  block : t.isBlock = true → ∀ {x y z : List Opened}, Nests t x y → Firm z → SlotsNest (slots t) z z

theorem slotsNest_row {cs : List Tree} (hmem : ∀ c ∈ cs, SlotsFirm c) {x y z : List Opened} (hz : z ≠ []) (hfirm : Firm z)
    (h : RowNests cs x y) {behind : Bool} (hbehind : behind = true → Firm x) :
    SlotsNest (rowSlots false behind cs) (x ++ z) (y ++ z) := by
  induction cs generalizing x behind with
  | nil =>
    cases h
    rfl
  | cons c cs ih =>
    rw [List.forall_mem_cons] at hmem
    obtain ⟨m, hnests, hcs⟩ := h
    rw [rowSlots, Bool.false_or]
    refine slotsNest_append.mpr ⟨m ++ z, ?_, ih hmem.2 hcs (fun hc => ?_)⟩
    · split
      · next hc =>
        obtain ⟨rfl, hx⟩ := hnests.of_isLaidOut hc
        exact (hmem.1.statement hnests hz (hx.append hfirm)).seamed (hx.append hfirm)
      · have htokens := (hnests.tokensNest hz).slotsNest
        split
        · next hseam => exact htokens.seamed ((hbehind hseam).append hfirm)
        · exact htokens
    · obtain ⟨rfl, hx⟩ := hnests.of_isLaidOut hc
      exact hx

theorem slotsNest_parts {parts : List Tree} (hparts : ∀ c ∈ parts, c.isPart = true) (hmem : ∀ c ∈ parts, SlotsFirm c)
    {s s' z : List Opened} (hz : z ≠ []) (hfirm : Firm z) (h : RowNests parts s s') :
    SlotsNest (parts.flatMap (fun c => seamed (slots c))) z z := by
  induction parts generalizing s with
  | nil => rfl
  | cons c cs ih =>
    rw [List.forall_mem_cons] at hparts hmem
    obtain ⟨m, hnests, hcs⟩ := h
    have hpart := (hmem.1.statement (hnests.of_isPart hparts.1).2 hz hfirm).seamed hfirm
    rw [List.flatMap_cons]
    exact slotsNest_append.mpr ⟨z, hpart, ih hparts.2 hmem.2 hcs⟩

theorem slotsNest_block {children : List Tree} (hbraced : Braced children) (hmem : ∀ c ∈ children, SlotsFirm c)
    {s s' z : List Opened} (hfirm : Firm z) (h : RowNests children s s') : SlotsNest (slots (node .block children)) z z := by
  obtain ⟨opening, closing, parts, rfl, hopening, hclosing, hparts⟩ := hbraced
  obtain ⟨m, -, hrow⟩ := h
  obtain ⟨n, hrow, -⟩ := rowNests_append.mp hrow
  have hopens : SlotsNest (seamed (slots (leaf opening))) z (.bracket :: z) :=
    ⟨fun _ => hfirm, Or.inr (Token.text_of_isSymbol hopening), .bracket :: z, nest?_of_isSymbol hopening z, rfl⟩
  have hcloses : SlotsNest (seamed (slots (leaf closing))) (.bracket :: z) z :=
    ⟨fun _ => firm_bracket z, Or.inl (List.cons_ne_nil _ _), z, nest?_of_isSymbol hclosing (.bracket :: z), rfl⟩
  have hinner := slotsNest_parts hparts (fun c hc => hmem c (by simp [hc])) (List.cons_ne_nil .bracket z)
    (firm_bracket z) hrow
  change SlotsNest (rowSlots true false _) z z
  rw [rowSlots_inBlock, List.cons_append, List.flatMap_cons, List.flatMap_append, List.flatMap_singleton]
  exact slotsNest_append.mpr ⟨_, hopens, slotsNest_append.mpr ⟨_, hinner, hcloses⟩⟩

theorem slotsFirm (t : Tree) : SlotsFirm t := by
  induction t using induct with
  | leaf t => exact ⟨fun h hz _ => (h.tokensNest hz).slotsNest, nofun⟩
  | node kind children ih =>
    refine ⟨@fun x y z h hz hfirm => ?_, @fun hblock _ _ z h hfirm => ?_⟩
    · obtain ⟨rfl, -, hbraced, hrow⟩ := h
      have hne : y ++ z ≠ [] := List.append_ne_nil_of_right_ne_nil y hz
      by_cases hkind : kind = .block
      · subst hkind
        exact slotsNest_block (hbraced rfl) ih hfirm hrow
      · rw [slots, beq_eq_false_iff_ne.mpr hkind]
        exact slotsNest_row (x := []) (y := []) ih hne hfirm hrow nofun
    · cases kind with
      | block =>
        obtain ⟨-, -, hbraced, hrow⟩ := h
        exact slotsNest_block (hbraced rfl) ih hfirm hrow
      | statement | clause | conditional | other => cases hblock

theorem Nests.slotsNest {t : Tree} (h : Nests t [] []) (hblock : t.isBlock = true) : SlotsNest (slots t) [] [] :=
  (slotsFirm t).block hblock h firm_nil

end Tree

/-- A text with other blanks at the seams is one with other blanks where no string is the innermost thing open. -/
theorem Respaced.refits {us : List (Bool × Token)} {t : Text} (h : Respaced us t) {s : List Opened}
    (hnest : SlotsNest us s []) : Refits s (us.map Prod.snd) t := by
  induction h generalizing s with
  | nil hb =>
    cases hnest
    exact .nil hb
  | cons hstands _ ih =>
    obtain ⟨hfirm, hopen, m, hu, hus⟩ := hnest
    exact .cons hu hopen hstands.blank hstands.gap (fun hgap => (hstands.tight hgap).imp_right hfirm) hstands.keeps
      hstands.line (fun hk => (hstands.directive hk).2) (ih hus)

/-! ## Gaps at seams -/

/-- A gap between the last token and the first one behind it does not matter. -/
def Loose (us vs : List Token) : Prop :=
  ∀ u ∈ us.getLast?, ∀ v ∈ vs.head?, u.kind = .symbol → v.sticksTo u.text = false

/-- No gap at a seam matters. -/
def SlotsLoose : List (Bool × Token) → List Token → Prop
  | [], _ => True
  | (seam, u) :: us, before => (seam = true → Loose before [u]) ∧ SlotsLoose us (before ++ [u])

theorem EndsCalm.loose {us : List Token} (h : EndsCalm us) (vs : List Token) : Loose us vs := by
  intro u hu v _ hk
  have hcalm := h u hu
  simp only [Token.isCalm, Token.isSymbol, hk, beq_self_eq_true, Bool.true_and, Bool.not_eq_true', Bool.or_eq_false_iff]
    at hcalm
  rw [Token.sticksTo, hcalm.1, hcalm.2]
  rfl

theorem loose_brace {t : Token} {x : Text} (h : t.isSymbol x = true) (hx : x = ['\x7b'] ∨ x = ['\x7d'])
    (us : List Token) : Loose us [t] := by
  rintro u - v hv -
  cases hv
  have htext := Token.text_of_isSymbol h
  rcases hx with rfl | rfl <;> simp [Token.sticksTo, Token.isSymbol, htext]

theorem slotsLoose_append {us vs : List (Bool × Token)} {before : List Token} :
    SlotsLoose (us ++ vs) before ↔ SlotsLoose us before ∧ SlotsLoose vs (before ++ us.map Prod.snd) := by
  induction us generalizing before with
  | nil => simp [SlotsLoose]
  | cons u us ih => simp only [List.cons_append, SlotsLoose, ih, List.map_cons, List.append_assoc, and_assoc,
      List.nil_append]

theorem SlotsLoose.seamed {us : List (Bool × Token)} {before : List Token} (h : SlotsLoose us before)
    (hcalm : EndsCalm before) : SlotsLoose (Tree.seamed us) before := by
  cases us with
  | nil => trivial
  | cons u us => exact ⟨fun _ => hcalm.loose _, h.2⟩

theorem slotsLoose_seamless (us before : List Token) : SlotsLoose (Tree.seamless us) before := by
  induction us generalizing before with
  | nil => trivial
  | cons u us ih => exact ⟨nofun, ih _⟩

namespace Tree

theorem RowCalm.behind {cs : List Tree} {us vs : List Token} (h : RowCalm cs vs) (hus : EndsCalm us) :
    RowCalm cs (us ++ vs) := by
  induction cs generalizing vs with
  | nil => trivial
  | cons c cs ih =>
    obtain ⟨hc, hcalm, hcs⟩ := h
    refine ⟨fun hstatement => hus.append (hc hstatement), hcalm, ?_⟩
    rw [List.append_assoc]
    exact ih hcs

theorem Calm.lastCalm {c : Tree} (h : c.Calm) (hc : c.isLaidOut = true) : LastCalm (tokens c) := by
  cases c with
  | leaf t => cases hc
  | node kind children =>
    refine h.1 ?_
    rintro rfl
    cases hc

/-- No gap at a seam of the tree matters, as a statement and as a block. -/
structure LooseSeams (t : Tree) : Prop where
  statement : ∀ {us : List Token}, EndsCalm us → SlotsLoose (seamed (slots t)) us
  block : t.isBlock = true → ∀ us, SlotsLoose (seamed (slots t)) us

theorem slotsLoose_row {cs : List Tree} (hmem : ∀ c ∈ cs, LooseSeams c) {us : List Token} (h : RowCalm cs us)
    {behind : Bool} (hbehind : behind = true → EndsCalm us) : SlotsLoose (rowSlots false behind cs) us := by
  induction cs generalizing us behind with
  | nil => trivial
  | cons c cs ih =>
    rw [List.forall_mem_cons] at hmem
    obtain ⟨hc, hcalm, hcs⟩ := h
    have hrest := ih hmem.2 hcs (fun hlaid => (hcalm.lastCalm hlaid).endsCalm us)
    rw [rowSlots, Bool.false_or, slotsLoose_append]
    split
    · next hlaid =>
      rw [map_snd_seamed, map_snd_slots]
      refine ⟨?_, hrest⟩
      rw [isLaidOut, Bool.or_eq_true] at hlaid
      rcases hlaid with hblock | hstatement
      · exact hmem.1.block hblock us
      · exact hmem.1.statement (hc hstatement)
    · have htokens := slotsLoose_seamless (tokens c) us
      split
      · next hseam =>
        rw [map_snd_seamed, map_snd_seamless]
        exact ⟨htokens.seamed (hbehind hseam), hrest⟩
      · rw [map_snd_seamless]
        exact ⟨htokens, hrest⟩

theorem slotsLoose_parts {parts : List Tree} (hmem : ∀ c ∈ parts, LooseSeams c)
    (hlast : ∀ c ∈ parts, LastCalm (tokens c)) {us : List Token} (hus : EndsCalm us) :
    SlotsLoose (parts.flatMap (fun c => seamed (slots c))) us := by
  induction parts generalizing us with
  | nil => trivial
  | cons c cs ih =>
    rw [List.forall_mem_cons] at hmem hlast
    rw [List.flatMap_cons, slotsLoose_append, map_snd_seamed, map_snd_slots]
    exact ⟨hmem.1.statement hus, ih hmem.2 hlast.2 (hlast.1.endsCalm us)⟩

/-- No gap at a seam matters. -/
theorem looseSeams {t : Tree} (hbraced : t.BlocksBraced) (hcalm : t.Calm) : LooseSeams t := by
  induction hbraced with
  | leaf t => exact ⟨fun hus => ⟨fun _ => hus.loose _, trivial⟩, nofun⟩
  | @node kind children hbraced _ ih =>
    obtain ⟨-, hends, hrow⟩ := hcalm
    have hmem : ∀ c ∈ children, LooseSeams c := fun c hc => ih c hc (hrow.calm c hc)
    have hblock : kind = .block → ∀ us, SlotsLoose (seamed (slots (node kind children))) us := by
      rintro rfl us
      obtain ⟨opening, closing, parts, rfl, hopening, hclosing, -⟩ := hbraced rfl
      have hlast := hends rfl
      have hopens : EndsCalm (us ++ [opening]) := (hlast (leaf opening) (by simp)).endsCalm us
      have hparts : SlotsLoose (parts.flatMap (fun c => seamed (slots c))) (us ++ [opening]) :=
        slotsLoose_parts (fun c hc => hmem c (by simp [hc])) (fun c hc => hlast c (by simp [hc])) hopens
      change SlotsLoose (seamed (rowSlots true false _)) us
      rw [rowSlots_inBlock, List.cons_append, List.flatMap_cons, List.flatMap_append, List.flatMap_singleton]
      refine ⟨fun _ => loose_brace hopening (Or.inl rfl) us, ?_⟩
      change SlotsLoose (parts.flatMap (fun c => seamed (slots c)) ++ seamed (slots (leaf closing))) (us ++ [opening])
      exact slotsLoose_append.mpr ⟨hparts, fun _ => loose_brace hclosing (Or.inr rfl) _, trivial⟩
    refine ⟨@fun us hus => ?_, fun hkind => hblock (by cases kind <;> first | rfl | cases hkind)⟩
    by_cases hkind : kind = .block
    · exact hblock hkind us
    · rw [slots, beq_eq_false_iff_ne.mpr hkind]
      have hrow' : RowCalm children us := by simpa using hrow.behind hus
      exact (slotsLoose_row hmem hrow' Bool.noConfusion).seamed hus

end Tree

/-! ## Tokens with other gaps -/

theorem regapped_cons {seam : Bool} {u : Token} {us : List (Bool × Token)} {vs : List Token} :
    Regapped ((seam, u) :: us) vs ↔ ∃ v rest, vs = v :: rest ∧ v.bare = u.bare ∧
      (seam = false → v.isTight = u.isTight) ∧ Regapped us rest := by
  rw [Regapped, List.forall₂_cons_left_iff]
  constructor
  · rintro ⟨v, rest, ⟨hbare, htight⟩, hrest, rfl⟩
    exact ⟨v, rest, rfl, hbare, htight, hrest⟩
  · rintro ⟨v, rest, rfl, hbare, htight, hrest⟩
    exact ⟨v, rest, ⟨hbare, htight⟩, hrest, rfl⟩

theorem Regapped.map_bare {us : List (Bool × Token)} {vs : List Token} (h : Regapped us vs) :
    vs.map Token.bare = (us.map Prod.snd).map Token.bare := by
  induction h with
  | nil => rfl
  | cons h _ ih => rw [List.map_cons, List.map_cons, List.map_cons, h.1, ih]

/-- If a gap in front of the next token matters, it is as it was. -/
theorem sameGap_of_regapped {u : Token} {us : List (Bool × Token)} {before vs : List Token} (hk : u.kind = .symbol)
    (hloose : SlotsLoose us (before ++ [u])) (h : Regapped us vs) : SameGap u.text (us.map Prod.snd) vs := by
  cases us with
  | nil => exact fun _ hv => absurd hv (Option.not_mem_none _)
  | cons slot us =>
    obtain ⟨seam, v⟩ := slot
    obtain ⟨v', rest, rfl, -, htight, -⟩ := regapped_cons.mp h
    rintro w hw w' hw' hsticks
    cases hw
    cases hw'
    cases seam with
    | false => exact htight rfl
    | true =>
      have hfalse := hloose.1 rfl u (by simp) v rfl hk
      rw [hfalse] at hsticks
      cases hsticks

theorem SameGap.append {x : Text} {us vs : List Token} (h : SameGap x us vs) (hne : us ≠ []) (hne' : vs ≠ [])
    (rest rest' : List Token) : SameGap x (us ++ rest) (vs ++ rest') := by
  obtain ⟨u, us, rfl⟩ := List.exists_cons_of_ne_nil hne
  obtain ⟨v, vs, rfl⟩ := List.exists_cons_of_ne_nil hne'
  exact h

/-- Up to the end of a block, tokens with other gaps at the seams are alike. -/
theorem alike_of_regapped {us : List (Bool × Token)} {closing closing' : Token} {vs before : List Token}
    (hclosing : closing.isSymbol ['\x7d'] = true) (hloose : SlotsLoose (us ++ [(true, closing)]) before)
    (h : Regapped (us ++ [(true, closing)]) (vs ++ [closing'])) {s : List Opened}
    (hplain : ∀ u ∈ us.map Prod.snd, u.isPlain = true) (hnest : nestAll? (us.map Prod.snd) s = some [])
    (rest rest' : List Token) :
    Alike s (us.map Prod.snd ++ closing :: rest) (vs ++ closing' :: rest') := by
  induction us generalizing vs before s with
  | nil =>
    obtain ⟨v, vs', hvs, hbare, -, hrest⟩ := regapped_cons.mp h
    obtain rfl := List.forall₂_nil_left_iff.mp hrest
    obtain ⟨rfl, hlast⟩ := List.append_inj' (hvs.trans (List.nil_append _).symm) rfl
    cases hlast
    cases hnest
    exact .close rest rest' hclosing hbare
  | cons slot us ih =>
    obtain ⟨seam, u⟩ := slot
    obtain ⟨v, vs', hvs, hbare, -, hregapped⟩ := regapped_cons.mp h
    obtain ⟨m, hu, hus⟩ := nestAll?_cons.mp hnest
    rw [List.map_cons, List.forall_mem_cons] at hplain
    cases vs with
    | nil =>
      obtain ⟨rfl, rfl⟩ := List.cons.inj hvs
      have hnil := List.forall₂_nil_right_iff.mp hregapped
      simp at hnil
    | cons w ws =>
      obtain ⟨rfl, rfl⟩ := List.cons.inj hvs
      refine .cons hplain.1 hbare hu (fun hk => ?_) (ih hloose.2 hregapped hplain.2 hus)
      have hgap := (sameGap_of_regapped hk hloose.2 hregapped).append (by simp) (by simp) rest rest'
      simpa using hgap

end CSharpDraft.Fragment
