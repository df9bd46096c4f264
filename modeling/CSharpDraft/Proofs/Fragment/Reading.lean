import CSharpDraft.Proofs.Fragment.Nesting

/-!
# Reading tokens with other blanks between them

* `Reads` : the relation behind `tokens?`, over a text, its first tokens and what is behind them;
* `Refits s us t` : the text `t` holds the tokens `us` with other blanks between them, behind the brackets and strings
  `s`. New blanks stand only where no string is the innermost thing open, and no blanks are dropped altogether;
* `Refits.reads` : such a text is read as the same code, wherever the tokens stood before.
-/

set_option autoImplicit false

namespace CSharpDraft.Fragment

open Text (EndsSolid StartsSolid OneLine squeeze settle)

/-! ## Words, numbers and symbols -/

theorem stopless_of_scanName {t x r : Text} (h : scanName t = some (x, r)) : ∀ c ∈ x, isStop c = false := by
  cases t with
  | nil => cases h
  | cons c q =>
    rw [scanName] at h
    split at h
    · have hcut := Option.some.inj h
      exact fun d hd => isStop_of_isNameRest d ((scanWhile_eq_iff.mp hcut).2.1 d hd)
    · cases h

theorem find?_of_scanInside {holes hs : List Hole} {t x r : Text}
    (h : nextToken.scanInside holes t = some (.symbol, (x, r), hs)) :
    symbols.find? (fun s => s.isPrefixOf t) = some x := by
  cases holes with
  | nil =>
    rw [nextToken.scanInside] at h
    exact (scanSymbol_eq_some.mp h).2.2.1
  | cons hole outer =>
    rw [nextToken.scanInside] at h
    split at h
    · rcases closeHole_cases h with ⟨hk, -⟩ | ⟨hk, -⟩ <;> cases hk
    · exact (scanSymbol_eq_some.mp h).2.2.1

/-- Words, numbers and symbols have no blanks in them. -/
theorem stopless_of_nextToken {holes hs : List Hole} {t x r : Text} {k : TokenKind}
    (h : nextToken holes t = some (k, (x, r), hs)) (hk : k = .word ∨ k = .escapedWord ∨ k = .number ∨ k = .symbol) :
    ∀ c ∈ x, isStop c = false := by
  have hother : ∀ kind, k = kind → kind = .word ∨ kind = .escapedWord ∨ kind = .number ∨ kind = .symbol := by
    rintro kind rfl
    exact hk
  have hopening : ∀ e, k ≠ openingKind e := by
    rintro e rfl
    cases e <;> simp [openingKind] at hk
  cases t with
  | nil => cases h
  | cons c q =>
    cases form_cons c q with
    | line q => exact absurd (hother _ (line_of_nextToken h).1) (by decide)
    | comment q => exact absurd (hother _ (kind_of_map h)) (by decide)
    | directive =>
      change (scanDirective q).map (fun s => (s.1, Cut.prepend ['#'] s.2, holes)) = _ at h
      obtain ⟨⟨k', y⟩, hcut, heq⟩ := Option.map_eq_some_iff.mp h
      cases heq
      rcases scanDirective_kind hcut with rfl | rfl <;> simp at hk
    | character => exact absurd (hother _ (kind_of_map h)) (by decide)
    | quoted => exact absurd (hother _ (kind_of_map h)) (by decide)
    | verbatim q => exact absurd (hother _ (kind_of_map h)) (by decide)
    | verbatimInterpolated q =>
      change openString .verbatim ['@', '$', '"'] holes q = _ at h
      obtain ⟨e, he⟩ := kind_of_openString h
      exact absurd he (hopening e)
    | interpolated =>
      obtain ⟨e, he⟩ := kind_of_scanInterpolated h
      exact absurd he (hopening e)
    | escaped _ hquote hdollar =>
      rw [nextToken.eq_9 holes q hquote hdollar] at h
      obtain ⟨cut, hname, heq⟩ := Option.map_eq_some_iff.mp h
      obtain ⟨⟨y, z⟩, hcut, rfl⟩ := Option.map_eq_some_iff.mp hname
      cases heq
      exact List.forall_mem_cons.mpr ⟨by decide, stopless_of_scanName hcut⟩
    | ordinary _ _ hord =>
      rw [nextToken_ordinary holes hord] at h
      split at h
      · cases hcut : scanNumber (c :: q) with
        | mk y z =>
        rw [hcut] at h
        cases h
        exact (steady_scanNumber _ _ _ hcut).2.1
      · split at h
        · obtain ⟨⟨y, z⟩, hcut, heq⟩ := Option.map_eq_some_iff.mp h
          cases heq
          exact stopless_of_scanName hcut
        · rcases kind_of_scanInside h with rfl | ⟨e, he⟩
          · exact not_isStop_of_mem_symbols _ (List.mem_of_find?_eq_some (find?_of_scanInside h))
          · subst he
            cases e <;> exact absurd hk (by decide)

/-! ## Reading -/

/-- In the holes `hs` the text starts with the tokens `us`; the holes `hs'` and the text `r` are behind them. -/
inductive Reads : List Hole → Text → List Token → List Hole → Text → Prop where
  | done (hs : List Hole) (t : Text) : Reads hs t [] hs t
  | next {hs hs' hs'' : List Hole} {t r r' : Text} {u : Token} {us : List Token} :
    (∀ c ∈ u.gap, isGapChar c = true) → nextToken hs t = some (u.kind, (u.text, r), hs') → Reads hs' r us hs'' r' →
    Reads hs (u.gap ++ t) (u :: us) hs'' r'

theorem reads_of_tokensFrom {fuel : Nat} {hs : List Hole} {t : Text} {us : List Token}
    (h : tokensFrom fuel hs t = some us) : ∃ b, (∀ c ∈ b, isGapChar c = true) ∧ Reads hs t us [] b := by
  induction fuel generalizing hs t us with
  | zero => cases h
  | succ fuel ih =>
    cases hcut : scanWhile isGapChar t with
    | mk gap rest =>
    obtain ⟨rfl, hgap, -⟩ := scanWhile_eq_iff.mp hcut
    rw [tokensFrom] at h
    simp only [hcut] at h
    split at h
    · next hrest =>
      split at h
      · next hholes =>
        cases h
        rw [List.isEmpty_iff.mp hrest, List.isEmpty_iff.mp hholes, List.append_nil]
        exact ⟨gap, hgap, .done [] gap⟩
      · cases h
    · split at h
      · cases h
      · next kind taken left hs' hnext =>
        obtain ⟨us', hus', rfl⟩ := Option.map_eq_some_iff.mp h
        obtain ⟨b, hb, hreads⟩ := ih hus'
        exact ⟨b, hb, .next (u := ⟨kind, gap, taken⟩) hgap hnext hreads⟩

/-- What was read is read again in front of whatever is read behind it. -/
theorem tokensFrom_append {hs hs' : List Hole} {t r : Text} {us : List Token} (h : Reads hs t us hs' r) (fuel : Nat) :
    tokensFrom (fuel + us.length) hs t = (tokensFrom fuel hs' r).map (us ++ ·) := by
  induction h with
  | done hs t => exact Option.map_id'.symm
  | @next hs hs' hs'' t r r' u us hgap hnext _ ih =>
    obtain ⟨rfl, ⟨c, y, hx, hc⟩, -, -⟩ := nextToken_stable hnext
    have hcut : scanWhile isGapChar (u.gap ++ (u.text ++ r)) = (u.gap, u.text ++ r) := by
      refine scanWhile_eq_iff.mpr ⟨rfl, hgap, fun d q hd => ?_⟩
      rw [hx] at hd
      obtain ⟨rfl, -⟩ := List.cons.inj hd
      exact isGapChar_of_not_isStop hc
    rw [List.length_cons, ← Nat.add_assoc, tokensFrom]
    simp only [hcut, hnext, ih, Option.map_map]
    rw [if_neg (by simp [hx])]
    rfl

theorem Reads.length_le {hs hs' : List Hole} {t r : Text} {us : List Token} (h : Reads hs t us hs' r) :
    us.length ≤ t.length := by
  induction h with
  | done hs t => exact Nat.zero_le _
  | next hgap hnext _ ih =>
    obtain ⟨rfl, ⟨c, y, hx, -⟩, -, -⟩ := nextToken_stable hnext
    simp only [hx, List.length_append, List.length_cons]
    omega

theorem tokens?_eq_some_iff {t : Text} {us : List Token} :
    tokens? t = some us ↔ ∃ b, (∀ c ∈ b, isGapChar c = true) ∧ Reads [] t us [] b := by
  constructor
  · exact reads_of_tokensFrom
  · rintro ⟨b, hb, hreads⟩
    obtain ⟨fuel, hfuel⟩ := Nat.exists_eq_add_of_le' hreads.length_le
    have hcut : scanWhile isGapChar b = (b, []) := scanWhile_eq_iff.mpr ⟨by simp, hb, nofun⟩
    rw [tokens?, show t.length + 1 = fuel + 1 + us.length by omega, tokensFrom_append hreads]
    simp [tokensFrom, hcut]

/-- Where a text starts with tokens, these are the first of its tokens. -/
theorem exists_tokens_of_reads {t r : Text} {us ts : List Token} (h : Reads [] t us [] r) (hts : tokens? t = some ts) :
    ∃ vs b, ts = us ++ vs ∧ Reads [] r vs [] b := by
  obtain ⟨fuel, hfuel⟩ := Nat.exists_eq_add_of_le' h.length_le
  rw [tokens?, show t.length + 1 = fuel + 1 + us.length by omega, tokensFrom_append h, Option.map_eq_some_iff] at hts
  obtain ⟨vs, hvs, rfl⟩ := hts
  obtain ⟨b, -, hreads⟩ := reads_of_tokensFrom hvs
  exact ⟨vs, b, rfl, hreads⟩

theorem reads_append {hs hs' : List Hole} {t r : Text} {us vs : List Token} :
    Reads hs t (us ++ vs) hs' r → ∃ hs₁ t₁, Reads hs t us hs₁ t₁ ∧ Reads hs₁ t₁ vs hs' r := by
  intro h
  induction us generalizing hs t with
  | nil => exact ⟨hs, t, .done hs t, h⟩
  | cons u us ih =>
    cases h with
    | next hgap hnext hreads =>
      obtain ⟨hs₁, t₁, hus, hvs⟩ := ih hreads
      exact ⟨hs₁, t₁, .next hgap hnext hus, hvs⟩

theorem Reads.text_eq {hs hs' : List Hole} {t r : Text} {us : List Token} (h : Reads hs t us hs' r) :
    t = written us ++ r := by
  induction h with
  | done hs t => rfl
  | next hgap hnext _ ih =>
    rw [(nextToken_stable hnext).text, ih]
    simp

theorem wellCut_of_nextToken {holes hs : List Hole} {t r : Text} {u : Token}
    (hgap : ∀ c ∈ u.gap, isGapChar c = true) (h : nextToken holes t = some (u.kind, (u.text, r), hs)) : WellCut u := by
  obtain ⟨htext, hstarts, hends, -⟩ := nextToken_stable h
  refine ⟨hgap, hstarts, hends, ?_, fun hplain hliteral => ?_⟩
  · rintro ⟨y, hy⟩
    rw [htext, ← hy] at h
    exact (line_of_nextToken h).1
  · have hk : u.kind = .word ∨ u.kind = .escapedWord ∨ u.kind = .number ∨ u.kind = .symbol := by
      cases hk : u.kind <;> simp_all [Token.isLiteral, Token.isPlain, Token.isTrivia]
    have hstopless := stopless_of_nextToken h hk
    exact fun c hc => Text.isLineBreak_of_solid (isBlankChar_of_not_isStop (hstopless c hc))

theorem Reads.wellCut {hs hs' : List Hole} {t r : Text} {us : List Token} (h : Reads hs t us hs' r) :
    ∀ u ∈ us, WellCut u := by
  induction h with
  | done hs t => simp
  | next hgap hnext _ ih =>
    intro v hv
    rcases List.mem_cons.mp hv with rfl | hv
    · exact wellCut_of_nextToken hgap hnext
    · exact ih v hv

/-! ## Comments on one line -/

/-- A text with other blanks in it may take the place of the text. -/
theorem Covers.squeeze {x r r' : Text} (h : Covers r r') (hend : EndsSolid x ∨ ∀ c q, r' = c :: q → isStop c = true) :
    Covers (x ++ r) (squeeze [] x ++ r') := by
  induction x with
  | nil => exact h
  | cons c x ih =>
    cases hc : Text.isBlankChar c with
    | true =>
      rw [Text.squeeze, if_pos hc, List.nil_append]
      rcases Text.squeeze_run (List.cons_ne_nil c []) (by simpa using hc) x with hnil | ⟨b, t, hcons, hb⟩
      · rcases hend with hend | hstop
        · rcases hend.of_cons with ⟨-, hc'⟩ | hx
          · rw [hc] at hc'
            cases hc'
          · exact absurd hnil (Text.squeeze_ne_nil hx [c])
        · rw [hnil]
          cases r' with
          | nil => exact covers_nil _
          | cons d r' => exact covers_stop (hstop d r' rfl) _ _
      · rw [hcons]
        exact covers_stop (by rw [isStop, hb, Bool.or_true]) _ _
    | false =>
      rw [Text.squeeze_cons_solid hc]
      have hrest : Covers (x ++ r) (Text.squeeze [] x ++ r') := by
        rcases hend with hend | hstop
        · rcases hend.of_cons with ⟨rfl, -⟩ | hx
          · exact h
          · exact ih (Or.inl hx)
        · exact ih (Or.inr hstop)
      exact hrest.append [c]

theorem scanComment_cons {c : Char} {t : Text} (h : c = '*' → t.head? ≠ some '/') :
    scanComment (c :: t) = (scanComment t).map (Cut.prepend [c]) := by
  rw [scanComment.eq_2]
  rintro r hc rfl
  exact h hc rfl

theorem scanComment_blanks {run : Text} (h : ∀ c ∈ run, Text.isBlankChar c = true) (t : Text) :
    scanComment (run ++ t) = (scanComment t).map (Cut.prepend run) := by
  induction run with
  | nil =>
    rw [List.nil_append]
    cases scanComment t <;> rfl
  | cons c run ih =>
    have hc : c ≠ '*' := by
      rintro rfl
      exact absurd (h '*' List.mem_cons_self) (by decide)
    rw [List.cons_append, scanComment_cons (fun heq => absurd heq hc), ih (fun d hd => h d (List.mem_cons_of_mem c hd)),
      Option.map_map]
    rfl

theorem scanComment_squeeze {q r : Text} (h : scanComment (q ++ r) = some (q, r)) {run : Text}
    (hrun : ∀ c ∈ run, Text.isBlankChar c = true) (r' : Text) :
    scanComment (squeeze run q ++ r') = some (squeeze run q, r') := by
  induction q generalizing run with
  | nil =>
    obtain ⟨-, ⟨z, c, hz, -⟩, -⟩ := stableAt_scanComment _ _ _ h
    simp at hz
  | cons c q ih =>
    have hsettle : ∀ d ∈ settle run, Text.isBlankChar d = true := by
      intro d hd
      rcases Text.mem_settle hd with rfl | hd
      · rfl
      · exact hrun d hd
    by_cases hmark : c = '*' ∧ (q ++ r).head? = some '/'
    · obtain ⟨rfl, hhead⟩ := hmark
      obtain ⟨z, hz⟩ := List.head?_eq_some_iff.mp hhead
      rw [List.cons_append, hz, scanComment] at h
      cases h
      change scanComment (settle run ++ ['*', '/'] ++ r') = some (settle run ++ ['*', '/'], r')
      rw [List.append_assoc, scanComment_blanks hsettle]
      rfl
    · rw [List.cons_append, scanComment_cons (fun hc hhead => hmark ⟨hc, hhead⟩)] at h
      have hq : scanComment (q ++ r) = some (q, r) := by
        obtain ⟨⟨y, z⟩, hy, heq⟩ := Option.map_eq_some_iff.mp h
        obtain ⟨htake, rfl⟩ := Prod.mk.inj heq
        rw [hy, ← (List.cons.inj htake).2]
        rfl
      rw [squeeze]
      split
      · next hc =>
        refine ih hq (fun d hd => ?_)
        rcases List.mem_append.mp hd with hd | hd
        · exact hrun d hd
        · rw [List.mem_singleton.mp hd]
          exact hc
      · have hnext : c = '*' → (squeeze [] q ++ r').head? ≠ some '/' := by
          intro hc hhead
          obtain ⟨-, hsolid, -⟩ := stableAt_scanComment _ _ _ hq
          cases hsqueeze : squeeze [] q with
          | nil => exact Text.squeeze_ne_nil hsolid [] hsqueeze
          | cons d z =>
            rw [hsqueeze] at hhead
            cases hhead
            have hslash : Text.isBlankChar '/' = false := rfl
            have hstart : ['/'] <+: squeeze [] q := by
              rw [hsqueeze]
              exact ⟨z, rfl⟩
            obtain ⟨w, rfl⟩ := Text.prefix_of_prefix_squeeze (by simp [hslash]) hstart
            exact hmark ⟨hc, rfl⟩
        have hrest : scanComment (squeeze [] q ++ r') = some (squeeze [] q, r') :=
          ih hq (fun _ hc => absurd hc List.not_mem_nil)
        rw [List.append_assoc, scanComment_blanks hsettle, List.cons_append, scanComment_cons hnext, hrest]
        rfl

/-- A comment is read as a comment when its blanks change, up to its end mark or, for one that takes its line, up to the
end of the line. -/
theorem nextToken_squeeze {holes hs : List Hole} {t x r : Text}
    (h : nextToken holes t = some (.comment, (x, r), hs)) {r' : Text}
    (hline : ['/', '/'] <+: x → ∀ c q, r' = c :: q → c = '\n' ∨ c = '\r') :
    nextToken holes (squeeze [] x ++ r') = some (.comment, (squeeze [] x, r'), hs) := by
  cases triviaForm_of_nextToken h (Or.inl rfl) with
  | line q =>
    cases hcut : scanWhile (fun c => c != '\n' && c != '\r') q with
    | mk y z =>
    change some (TokenKind.comment, Cut.prepend ['/', '/'] (scanWhile (fun c => c != '\n' && c != '\r') q), holes) = _ at h
    rw [hcut] at h
    cases h
    obtain ⟨-, hy, -⟩ := scanWhile_eq_iff.mp hcut
    have hsqueeze : squeeze [] ('/' :: '/' :: y) = '/' :: '/' :: squeeze [] y := by
      rw [Text.squeeze_cons_solid (by decide), Text.squeeze_cons_solid (by decide)]
    have hcut' : scanWhile (fun c => c != '\n' && c != '\r') (squeeze [] y ++ r') = (squeeze [] y, r') := by
      refine scanWhile_eq_iff.mpr ⟨rfl, fun c hc => ?_, fun c q' hq' => ?_⟩
      · rcases Text.mem_squeeze hc with rfl | hc | hc
        · rfl
        · cases hc
        · exact hy c hc
      · rcases hline ⟨y, rfl⟩ c q' hq' with rfl | rfl <;> rfl
    change nextToken holes (squeeze [] ('/' :: '/' :: y) ++ r') = some (.comment, (squeeze [] ('/' :: '/' :: y), r'), holes)
    rw [hsqueeze]
    change some (TokenKind.comment, Cut.prepend ['/', '/'] (scanWhile _ (squeeze [] y ++ r')), holes) = _
    rw [hcut']
    rfl
  | comment q =>
    change ((scanComment q).map (Cut.prepend ['/', '*'])).map (fun c => (TokenKind.comment, c, holes)) = _ at h
    cases hcut : scanComment q with
    | none =>
      rw [hcut] at h
      cases h
    | some cut =>
      obtain ⟨y, z⟩ := cut
      rw [hcut] at h
      cases h
      have hq := (stableAt_scanComment q y z hcut).1
      rw [hq] at hcut
      have hsqueeze : squeeze [] ('/' :: '*' :: y) = '/' :: '*' :: squeeze [] y := by
        rw [Text.squeeze_cons_solid (by decide), Text.squeeze_cons_solid (by decide)]
      change nextToken holes (squeeze [] ('/' :: '*' :: y) ++ r') = some (.comment, (squeeze [] ('/' :: '*' :: y), r'), holes)
      rw [hsqueeze]
      have hrest : scanComment (squeeze [] y ++ r') = some (squeeze [] y, r') :=
        scanComment_squeeze hcut (fun _ hc => absurd hc List.not_mem_nil) r'
      change ((scanComment (squeeze [] y ++ r')).map (Cut.prepend ['/', '*'])).map _ = _
      rw [hrest]
      rfl
  | directive q =>
    change (scanDirective q).map (fun s => (s.1, Cut.prepend ['#'] s.2, holes)) = _ at h
    obtain ⟨⟨k, y⟩, hcut, heq⟩ := Option.map_eq_some_iff.mp h
    cases heq
    rcases scanDirective_kind hcut with hk | hk <;> cases hk

/-! ## Other blanks -/

/-- The text holds the tokens with other blanks between them. The brackets and strings `s` are open in front of the
tokens, and none behind them. -/
inductive Refits : List Opened → List Token → Text → Prop where
  | nil {b : Text} : (∀ c ∈ b, isGapChar c = true) → Refits [] [] b
  | cons {s s' : List Opened} {u : Token} {us : List Token} {g x t : Text} :
    nest? u.kind u.text s = some s' → (s ≠ [] ∨ u.text = ['\x7b']) →
    (∀ c ∈ g, isGapChar c = true) → (g = [] → u.gap = []) → (u.gap = [] → g = [] ∨ Firm s) → Keeps u x →
    (['/', '/'] <+: u.text → StartsLine t) → (u.kind = .directive → EndsLine t) →
    Refits s' us t → Refits s (u :: us) (g ++ (x ++ t))


theorem endsSolid_or_line {holes hs : List Hole} {t x r : Text} {k : TokenKind}
    (h : nextToken holes t = some (k, (x, r), hs)) : EndsSolid x ∨ ['/', '/'] <+: x := by
  by_cases hx : ['/', '/'] <+: x
  · exact Or.inr hx
  · exact Or.inl ((nextToken_stable h).ends hx)

/-- The new text may take the place of the old one. -/
theorem Refits.covers {s : List Opened} {us : List Token} {t : Text} (h : Refits s us t) {holes hs : List Hole}
    {t₀ r : Text} (hreads : Reads holes t₀ us hs r) : Covers t₀ t := by
  induction h generalizing holes t₀ with
  | @nil b hb =>
    cases b with
    | nil => exact covers_nil _
    | cons c b => exact covers_stop (isStop_of_isGapChar (hb c List.mem_cons_self)) _ _
  | @cons s s' u us g x t _ _ hg htight _ hkeeps hline _ _ ih =>
    cases hreads with
    | next hgap hnext hreads =>
      cases g with
      | cons c g => exact covers_stop (isStop_of_isGapChar (hg c List.mem_cons_self)) _ _
      | nil =>
        have hrest := ih hreads
        rw [htight rfl, (nextToken_stable hnext).text, List.nil_append, List.nil_append]
        rcases hkeeps with rfl | ⟨-, rfl⟩
        · exact hrest.append u.text
        · refine hrest.squeeze ?_
          rcases endsSolid_or_line hnext with hsolid | hslashes
          · exact Or.inl hsolid
          · refine Or.inr (fun c q hcq => ?_)
            rcases hline hslashes c q hcq with rfl | rfl <;> rfl

/-- The new text starts as the old one did, or both start with a blank, or there is a bracket around the place. -/
theorem Refits.head {s : List Opened} {us : List Token} {t : Text} (h : Refits s us t) {holes hs : List Hole}
    {t₀ r : Text} (hreads : Reads holes t₀ us hs r) :
    Firm s ∨ t.head? = t₀.head? ∨ ∃ c z c₀ z₀, t = c :: z ∧ t₀ = c₀ :: z₀ ∧ isStop c = true ∧ isStop c₀ = true := by
  cases h with
  | nil hb => exact Or.inl (fun h => by cases h)
  | @cons s s' u us g x t _ _ hg htight hfirm hkeeps _ _ _ =>
    cases hreads with
    | next hgap hnext hreads =>
      obtain ⟨rfl, ⟨c, y, hx, hc⟩, -, -⟩ := nextToken_stable hnext
      cases hold : u.gap with
      | nil =>
        rcases hfirm hold with rfl | hfirm
        · refine Or.inr (Or.inl ?_)
          rcases hkeeps with rfl | ⟨-, rfl⟩
          · simp [hx]
          · simp [hx, Text.squeeze_cons_solid (isBlankChar_of_not_isStop hc)]
        · exact Or.inl hfirm
      | cons d gap =>
        cases g with
        | nil => exact absurd (htight rfl) (by simp [hold])
        | cons e g =>
          refine Or.inr (Or.inr ⟨e, _, d, _, rfl, rfl, ?_, ?_⟩)
          · exact isStop_of_isGapChar (hg e List.mem_cons_self)
          · exact isStop_of_isGapChar (hgap d (by simp [hold]))

theorem holesBehind_congr {holes : List Hole} {x r r' : Text} (h : ∀ hole : Hole, hole.after x r' = hole.after x r) :
    holesBehind holes x r' = holesBehind holes x r := by
  cases holes with
  | nil => rfl
  | cons hole outer => exact congrArg (· :: outer) (h hole)

/-- A text with other blanks is read as the same code, also without the holes around the old text. -/
theorem Refits.reads {s : List Opened} {us : List Token} {t : Text} (h : Refits s us t) {inner holes hs : List Hole}
    {t₀ r : Text} (htracks : Tracks s inner holes) (hreads : Reads holes t₀ us hs r) :
    ∃ vs b, (∀ c ∈ b, isGapChar c = true) ∧ Reads inner t vs [] b ∧ vs.map Token.kind = us.map Token.kind ∧
      code vs = code us := by
  induction h generalizing inner holes t₀ with
  | @nil b hb =>
    refine ⟨[], b, hb, ?_, rfl, rfl⟩
    rw [htracks.eq_nil]
    exact .done [] b
  | @cons s s' u us g x t hnest hopen hg htight hfirm hkeeps hline hdirective hrest ih =>
    cases hreads with
    | @next _ hs' _ _ r' _ _ _ hgap hnext hreads =>
      obtain ⟨inner', hinner, htracks'⟩ := htracks.nextToken hnext hnest hopen
      obtain ⟨vs, b, hb, hvs, hkinds, hcode⟩ := ih htracks' hreads
      have hfollows : Follows inner u.kind u.text r' t := by
        refine ⟨hrest.covers hreads, hline, hdirective, fun hk => ?_⟩
        rw [hk] at hnest
        rcases hrest.head hreads with hfirm | hhead | ⟨c, z, c₀, z₀, rfl, rfl, hc, hc₀⟩
        · exact htracks.holesBehind_eq hnest hfirm _ _
        · exact holesBehind_congr (fun hole => after_congr u.text hhead)
        · exact holesBehind_congr (fun hole => after_stops u.text hc₀ hc _ _)
      have hnew : nextToken inner (x ++ t) = some (u.kind, (x, t), inner') := by
        rcases hkeeps with rfl | ⟨hk, rfl⟩
        · exact (nextToken_stable hinner).again t hfollows
        · rw [hk] at hinner ⊢
          exact nextToken_squeeze hinner hline
      refine ⟨⟨u.kind, g, x⟩ :: vs, b, hb, .next (u := ⟨u.kind, g, x⟩) hg hnew hvs,
        by rw [List.map_cons, List.map_cons, hkinds], ?_⟩
      refine code_cons_of_ne rfl (fun hk => ?_) hcode
      rcases hkeeps with rfl | ⟨hk', -⟩
      · rfl
      · exact absurd hk' hk

end CSharpDraft.Fragment
