import CSharpDraft.Proofs.Fragment.Scan

/-!
# The next token and what stands behind it

-/

set_option autoImplicit false

namespace CSharpDraft.Fragment

open Text (EndsSolid endsSolid_singleton isNameStart trimRight_append_solid)

/-! ## Parts of interpolated strings -/

/-- A step that takes `w` and a stretch behind it, with a kind and with holes that depend on how the stretch ends. -/
def stretchStep (quote : Quote) (kind : StretchEnd → TokenKind) (holes : StretchEnd → List Hole) (w t : Text) :
    Option Step :=
  (stretch quote t).map (fun s => (kind s.2.1, (w ++ s.1, s.2.2), holes s.2.1))

/-- The holes behind a stretch. -/
def holesAfter (quote : Quote) (holes : List Hole) : StretchEnd → List Hole
  | .close => holes
  | .hole => ⟨quote, 0, 0⟩ :: holes

def openingKind : StretchEnd → TokenKind
  | .close => .interpolated .whole
  | .hole => .interpolated .opening

def resumingKind : StretchEnd → TokenKind
  | .close => .interpolated .closing
  | .hole => .interpolated .middle

theorem openString_eq (quote : Quote) (w : Text) (holes : List Hole) (t : Text) :
    openString quote w holes t = stretchStep quote openingKind (holesAfter quote holes) w t := by
  unfold openString stretchStep
  cases stretch quote t with
  | none => rfl
  | some s =>
    obtain ⟨x, e, r⟩ := s
    cases e <;> rfl

theorem resumeString_eq (quote : Quote) (w : Text) (holes : List Hole) (t : Text) :
    resumeString quote w holes t = stretchStep quote resumingKind (holesAfter quote holes) w t := by
  unfold resumeString stretchStep
  cases stretch quote t with
  | none => rfl
  | some s =>
    obtain ⟨x, e, r⟩ := s
    cases e <;> rfl

theorem stretchStep_stable {quote : Quote} {kind : StretchEnd → TokenKind} {holes : StretchEnd → List Hole}
    {w t x r : Text} {k : TokenKind} {hs : List Hole} (h : stretchStep quote kind holes w t = some (k, (x, r), hs)) :
    ∃ y, x = w ++ y ∧ t = y ++ r ∧ EndsSolid y ∧
      ∀ r', Covers r r' → stretchStep quote kind holes w (y ++ r') = some (k, (x, r'), hs) := by
  unfold stretchStep at h
  cases hstretch : stretch quote t with
  | none =>
    rw [hstretch] at h
    cases h
  | some s =>
    obtain ⟨y, e, r⟩ := s
    rw [hstretch] at h
    cases h
    obtain ⟨rfl, hy, hnew⟩ := stretch_stable hstretch
    exact ⟨y, rfl, rfl, hy, fun r' hc => by rw [stretchStep, hnew r' hc]; rfl⟩

/-- A string that opens a hole or ends is cut the same way in front of any text that does not continue it. -/
theorem openString_stable {quote : Quote} {w t x r : Text} {holes hs : List Hole} {k : TokenKind}
    (h : openString quote w holes t = some (k, (x, r), hs)) :
    ∃ y, x = w ++ y ∧ t = y ++ r ∧ EndsSolid y ∧
      ∀ r', Covers r r' → openString quote w holes (y ++ r') = some (k, (x, r'), hs) := by
  simp only [openString_eq] at h ⊢
  exact stretchStep_stable h

/-! ## The end of a hole -/

/-- The format in front of the end of a hole. -/
def scanFormat : Text → Cut
  | ':' :: r => Cut.prepend [':'] (scanWhile (fun c => c != '\x7d' && c != '"' && c != '\n') r)
  | t => ([], t)

theorem scanFormat_of_head_ne {t : Text} (h : t.head? ≠ some ':') : scanFormat t = ([], t) := by
  unfold scanFormat
  split
  · exact absurd rfl h
  · rfl

theorem scanFormat_append {t x r r' : Text} (h : scanFormat t = (x, r)) (hhead : r'.head? = r.head?) :
    t = x ++ r ∧ scanFormat (x ++ r') = (x, r') := by
  unfold scanFormat at h
  split at h
  · next q =>
    cases hcut : scanWhile (fun c => c != '\x7d' && c != '"' && c != '\n') q with
    | mk y q' =>
    rw [hcut] at h
    cases h
    refine ⟨congrArg (':' :: ·) (scanWhile_eq_iff.mp hcut).1, ?_⟩
    rw [List.singleton_append, List.cons_append, scanFormat, scanWhile_append_of_head hcut hhead]
    rfl
  · next hno =>
    cases h
    refine ⟨rfl, scanFormat_of_head_ne ?_⟩
    rw [List.nil_append, hhead]
    intro hcolon
    cases t with
    | nil => cases hcolon
    | cons c q =>
      cases hcolon
      exact hno q rfl

theorem closeHole_eq (hole : Hole) (holes : List Hole) (t : Text) :
    closeHole hole holes t =
      if hole.quote.closing.isPrefixOf (scanFormat t).2 then
        resumeString hole.quote ((scanFormat t).1 ++ hole.quote.closing) holes
          ((scanFormat t).2.drop hole.quote.closing.length)
      else none := by
  by_cases hcolon : t.head? = some ':'
  · obtain ⟨r, rfl⟩ := List.head?_eq_some_iff.mp hcolon
    rfl
  · rw [scanFormat_of_head_ne hcolon]
    unfold closeHole
    split
    next format rest heq =>
      split at heq
      · exact absurd rfl hcolon
      · cases heq
        rfl

theorem closeHole_stable {hole : Hole} {holes hs : List Hole} {t x r : Text} {k : TokenKind}
    (h : closeHole hole holes t = some (k, (x, r), hs)) :
    t = x ++ r ∧ EndsSolid x ∧ ∀ r', Covers r r' → closeHole hole holes (x ++ r') = some (k, (x, r'), hs) := by
  cases hformat : scanFormat t with
  | mk format rest =>
  rw [closeHole_eq, hformat] at h
  split at h
  · next hclosing =>
    obtain ⟨q, rfl⟩ := List.isPrefixOf_iff_prefix.mp hclosing
    rw [List.drop_left, resumeString_eq] at h
    obtain ⟨y, rfl, rfl, hy, hnew⟩ := stretchStep_stable h
    have hhead : ∀ r', (hole.quote.closing ++ (y ++ r')).head? = (hole.quote.closing ++ (y ++ r)).head? := by
      intro r'
      rw [← List.append_assoc, ← List.append_assoc]
      exact (hy.append hole.quote.closing).head?_append r r'
    refine ⟨?_, hy.append _, fun r' hc => ?_⟩
    · rw [(scanFormat_append hformat rfl).1]
      simp
    · have htext : format ++ hole.quote.closing ++ y ++ r' = format ++ (hole.quote.closing ++ (y ++ r')) := by simp
      rw [htext, closeHole_eq, (scanFormat_append hformat (hhead r')).2, if_pos, List.drop_left, resumeString_eq,
        hnew r' hc]
      exact List.isPrefixOf_iff_prefix.mpr (List.prefix_append _ _)
  · cases h

/-! ## Symbols -/

theorem not_isStop_of_mem_symbols : ∀ s ∈ symbols, ∀ c ∈ s, isStop c = false := by
  have hall : symbols.all (fun s => !s.any isStop) = true := by decide
  intro s hs
  exact stopless (by simpa using List.all_eq_true.mp hall s hs)

theorem endsSolid_of_mem_symbols {s : Text} (h : s ∈ symbols) : EndsSolid s := by
  cases s with
  | nil => exact absurd h (by decide)
  | cons c s => exact endsSolid_of_stopless (not_isStop_of_mem_symbols _ h)

/-- The longest symbol stays the longest one. -/
theorem find?_symbols_append {s r r' : Text} (h : symbols.find? (fun u => u.isPrefixOf (s ++ r)) = some s)
    (hc : Covers r r') : symbols.find? (fun u => u.isPrefixOf (s ++ r')) = some s := by
  rw [List.find?_eq_some_iff_append] at h ⊢
  obtain ⟨-, front, back, hsymbols, hfront⟩ := h
  refine ⟨List.isPrefixOf_iff_prefix.mpr (List.prefix_append s r'), front, back, hsymbols, fun u hu => ?_⟩
  have hstops := not_isStop_of_mem_symbols u (hsymbols ▸ List.mem_append_left _ hu)
  have hold := hfront u hu
  rw [Bool.not_eq_true', ← Bool.not_eq_true, List.isPrefixOf_iff_prefix] at hold ⊢
  exact fun hnew => hold (hc.append s u hstops hnew)

/-- The holes behind a symbol. -/
def holesBehind (holes : List Hole) (s rest : Text) : List Hole :=
  match holes with
  | [] => []
  | hole :: outer => hole.after s rest :: outer

theorem scanSymbol_eq_some {holes hs : List Hole} {t x r : Text} {k : TokenKind} :
    scanSymbol holes t = some (k, (x, r), hs) ↔
      k = .symbol ∧ t = x ++ r ∧ symbols.find? (fun s => s.isPrefixOf t) = some x ∧ hs = holesBehind holes x r := by
  unfold scanSymbol
  cases hfind : symbols.find? (fun s => s.isPrefixOf t) with
  | none => simp
  | some s =>
    have hs : s.isPrefixOf t = true := by simpa using List.find?_some hfind
    obtain ⟨q, rfl⟩ := List.isPrefixOf_iff_prefix.mp hs
    simp only [List.drop_left, Option.some.injEq, Prod.mk.injEq]
    constructor
    · rintro ⟨rfl, ⟨rfl, rfl⟩, rfl⟩
      exact ⟨rfl, rfl, rfl, by cases holes <;> rfl⟩
    · rintro ⟨rfl, htext, rfl, rfl⟩
      exact ⟨rfl, ⟨rfl, List.append_cancel_left htext⟩, by rw [List.append_cancel_left htext]; cases holes <;> rfl⟩

theorem scanSymbol_stable {holes hs : List Hole} {t x r : Text} {k : TokenKind}
    (h : scanSymbol holes t = some (k, (x, r), hs)) :
    t = x ++ r ∧ EndsSolid x ∧ ∀ r', Covers r r' → holesBehind holes x r' = holesBehind holes x r →
      scanSymbol holes (x ++ r') = some (k, (x, r'), hs) := by
  obtain ⟨rfl, rfl, hfind, rfl⟩ := scanSymbol_eq_some.mp h
  refine ⟨rfl, endsSolid_of_mem_symbols (List.mem_of_find?_eq_some hfind), fun r' hc hholes => ?_⟩
  exact scanSymbol_eq_some.mpr ⟨rfl, rfl, find?_symbols_append hfind hc, hholes.symm⟩

/-! ## Directives -/

theorem isStop_of_isAlpha : ∀ c, Char.isAlpha c = true → isStop c = false := not_isStop (by decide)

theorem isAlpha_of_isStop {c : Char} (h : isStop c = true) : c.isAlpha = false := by
  cases halpha : c.isAlpha with
  | false => rfl
  | true =>
    rw [isStop_of_isAlpha c halpha] at h
    cases h

theorem ne_nil_of_conditional {w : Text} (h : conditionalDirectives.contains w = true) : w ≠ [] := by
  rintro rfl
  exact absurd h (by decide)

theorem ne_nil_of_lineDirective {w : Text} (h : lineDirectives.contains w = true) : w ≠ [] := by
  rintro rfl
  exact absurd h (by decide)

section Directive

variable {blanks word : Text} (hblank : ∀ c ∈ blanks, (c == ' ' || c == '\t') = true)
  (halpha : ∀ c ∈ word, Char.isAlpha c = true)

include halpha in
theorem endsSolid_directive (hne : word ≠ []) : EndsSolid (blanks ++ word) := by
  cases word with
  | nil => exact absurd rfl hne
  | cons c word => exact (endsSolid_of_stopless (fun d hd => isStop_of_isAlpha d (halpha d hd))).append blanks

include hblank halpha

theorem not_newline_directive : ∀ c ∈ blanks ++ word, (c != '\n') = true := by
  intro c hc
  rw [bne_iff_ne]
  rintro rfl
  rcases List.mem_append.mp hc with hc | hc
  · exact absurd (hblank _ hc) (by decide)
  · exact absurd (halpha _ hc) (by decide)

/-- The blanks and the word of a directive are found, whatever stands behind them. -/
theorem scanWhile_directive (hne : word ≠ []) {z : Text} (hz : ∀ c y, z = c :: y → c.isAlpha = false) :
    scanWhile (fun c => c == ' ' || c == '\t') (blanks ++ word ++ z) = (blanks, word ++ z) ∧
      scanWhile (fun c => c.isAlpha) (word ++ z) = (word, z) := by
  refine ⟨scanWhile_eq_iff.mpr ⟨List.append_assoc blanks word z, hblank, ?_⟩, scanWhile_eq_iff.mpr ⟨rfl, halpha, hz⟩⟩
  intro c y hcy
  cases word with
  | nil => exact absurd rfl hne
  | cons d word =>
    obtain ⟨rfl, -⟩ := List.cons.inj hcy
    have hstop := isStop_of_isAlpha d (halpha d List.mem_cons_self)
    rw [Bool.or_eq_false_iff, beq_eq_false_iff_ne, beq_eq_false_iff_ne]
    constructor
    · rintro rfl
      cases hstop
    · rintro rfl
      cases hstop

theorem scanDirective_conditional (hconditional : conditionalDirectives.contains word = true) {r : Text}
    (hr : ∀ c y, r = c :: y → c.isAlpha = false) :
    scanDirective (blanks ++ word ++ r) = some (.conditional, (blanks ++ word, r)) := by
  obtain ⟨hfirst, hsecond⟩ := scanWhile_directive hblank halpha (ne_nil_of_conditional hconditional) hr
  unfold scanDirective
  simp only [hfirst, hsecond, if_pos hconditional]
  rfl

/-- A directive takes the rest of its line but the blanks at the end. -/
theorem scanDirective_line (hconditional : ¬ conditionalDirectives.contains word = true)
    (hline : lineDirectives.contains word = true) {tail : Text} (hhead : ∀ c y, tail = c :: y → c.isAlpha = false)
    (hfeed : ∀ c ∈ tail, (c != '\n') = true) {r : Text} (hr : EndsLine r) :
    scanDirective (blanks ++ word ++ Text.trimRight tail ++ r) =
      some (.directive, (blanks ++ word ++ Text.trimRight tail, r)) := by
  have hne := ne_nil_of_lineDirective hline
  obtain ⟨b, hb, -⟩ := Text.exists_trimRight tail
  obtain ⟨b', q, rfl, hb'⟩ := hr
  have hblank' : ∀ c ∈ b', Text.isBlankChar c = true := fun c hc => (hb' c hc).1
  have hz : ∀ c y, Text.trimRight tail ++ (b' ++ '\n' :: q) = c :: y → c.isAlpha = false := by
    intro c y hcy
    cases hkept : Text.trimRight tail with
    | cons d kept =>
      rw [hkept] at hcy hb
      obtain ⟨rfl, -⟩ := List.cons.inj hcy
      exact hhead d _ hb
    | nil =>
      rw [hkept, List.nil_append] at hcy
      cases b' with
      | nil =>
        obtain ⟨rfl, -⟩ := List.cons.inj hcy
        rfl
      | cons d b' =>
        obtain ⟨rfl, -⟩ := List.cons.inj hcy
        exact isAlpha_of_isStop (by simp [isStop, hblank' d List.mem_cons_self])
  obtain ⟨hfirst, hsecond⟩ := scanWhile_directive hblank halpha hne hz
  have hcut : scanWhile (fun c => c != '\n') (blanks ++ word ++ (Text.trimRight tail ++ (b' ++ '\n' :: q))) =
      (blanks ++ word ++ Text.trimRight tail ++ b', '\n' :: q) := by
    refine scanWhile_eq_iff.mpr ⟨by simp, fun c hc => ?_, fun c y hcy => ?_⟩
    · rcases List.mem_append.mp hc with hc | hc
      · rcases List.mem_append.mp hc with hc | hc
        · exact not_newline_directive hblank halpha c hc
        · exact hfeed c (Text.trimRight_subset tail hc)
      · exact bne_iff_ne.mpr (hb' c hc).2
    · obtain ⟨rfl, -⟩ := List.cons.inj hcy
      rfl
  have htrim : Text.trimRight (blanks ++ word ++ Text.trimRight tail ++ b') = blanks ++ word ++ Text.trimRight tail := by
    rw [Text.trimRight_append_blank hblank', trimRight_append_solid (endsSolid_directive halpha hne),
      Text.trimRight_trimRight]
  rw [List.append_assoc (blanks ++ word)]
  unfold scanDirective
  simp only [hfirst, hsecond, if_neg hconditional, if_pos hline, hcut, htrim]
  rw [if_neg (by simp), ← List.append_assoc (blanks ++ word), List.drop_left]

end Directive

theorem scanDirective_stable {t x r : Text} {k : TokenKind} (h : scanDirective t = some (k, (x, r))) :
    t = x ++ r ∧ EndsSolid x ∧ (k = .directive → EndsLine r) ∧ ∀ r', Covers r r' → (k = .directive → EndsLine r') →
      scanDirective (x ++ r') = some (k, (x, r')) := by
  cases hblanks : scanWhile (fun c => c == ' ' || c == '\t') t with
  | mk blanks q =>
  cases hword : scanWhile (fun c => c.isAlpha) q with
  | mk word rest =>
  obtain ⟨rfl, hblank, -⟩ := scanWhile_eq_iff.mp hblanks
  obtain ⟨rfl, halpha, hrest⟩ := scanWhile_eq_iff.mp hword
  unfold scanDirective at h
  simp only [hblanks, hword] at h
  split at h
  · next hconditional =>
    cases h
    exact ⟨(List.append_assoc blanks word rest).symm,
      endsSolid_directive halpha (ne_nil_of_conditional hconditional), nofun, fun r' hc _ =>
        scanDirective_conditional hblank halpha hconditional (hc.head_not isStop_of_isAlpha hrest)⟩
  · next hconditional =>
    split at h
    · next hline =>
      have hsolid : EndsSolid (blanks ++ word) := endsSolid_directive halpha (ne_nil_of_lineDirective hline)
      cases htail : scanWhile (fun c => c != '\n') rest with
      | mk tail after =>
      obtain ⟨rfl, htailfeed, hafter⟩ := scanWhile_eq_iff.mp htail
      have hcut : scanWhile (fun c => c != '\n') (blanks ++ (word ++ (tail ++ after))) =
          (blanks ++ word ++ tail, after) := by
        refine scanWhile_eq_iff.mpr ⟨by simp, fun c hc => ?_, hafter⟩
        rcases List.mem_append.mp hc with hc | hc
        · exact not_newline_directive hblank halpha c hc
        · exact htailfeed c hc
      simp only [hcut, trimRight_append_solid hsolid] at h
      split at h
      · cases h
      · next hfeed =>
        cases h
        obtain ⟨b, hb, hbare⟩ := Text.exists_trimRight tail
        have htext : blanks ++ (word ++ (tail ++ after)) = blanks ++ word ++ Text.trimRight tail ++ (b ++ after) := by
          rw [List.append_assoc _ (Text.trimRight tail), ← List.append_assoc (Text.trimRight tail), ← hb]
          simp
        refine ⟨?_, ?_, fun _ => ?_, fun r' _ hr' => ?_⟩
        · rw [htext, List.drop_left]
        · rcases Text.trimRight_eq_nil_or tail with hnil | hsolid'
          · rw [hnil, List.append_nil]
            exact hsolid
          · exact hsolid'.append _
        · rw [htext, List.drop_left]
          cases after with
          | nil => exact absurd rfl hfeed
          | cons c after =>
            have hc : c = '\n' := by simpa using hafter c after rfl
            subst hc
            refine ⟨b, after, rfl, fun d hd => ⟨hbare d hd, bne_iff_ne.mp (htailfeed d ?_)⟩⟩
            rw [hb]
            exact List.mem_append_right _ hd
        · refine scanDirective_line hblank halpha hconditional hline (fun c y hcy => ?_) htailfeed (hr' rfl)
          exact hrest c (y ++ after) (by rw [hcy]; rfl)
    · cases h

/-! ## Interpolated strings -/

section Interpolated

variable {dollars : Text} (hdollars : ∀ c ∈ dollars, (c == '$') = true) (holes : List Hole)
include hdollars

theorem scanInterpolated_verbatim (q : Text) :
    scanInterpolated holes (dollars ++ '@' :: '"' :: q) = openString .verbatim (dollars ++ ['@', '"']) holes q := by
  have hcut : scanWhile (· == '$') (dollars ++ '@' :: '"' :: q) = (dollars, '@' :: '"' :: q) :=
    scanWhile_eq_iff.mpr ⟨rfl, hdollars, fun c y h => by obtain ⟨rfl, -⟩ := List.cons.inj h; rfl⟩
  unfold scanInterpolated
  simp only [hcut]

theorem scanInterpolated_raw {quotes : Text} (hquotes : ∀ c ∈ quotes, (c == '"') = true) (hlen : 3 ≤ quotes.length)
    {q : Text} (hq : ∀ c y, q = c :: y → (c == '"') = false) :
    scanInterpolated holes (dollars ++ (quotes ++ q)) =
      openString (.raw quotes.length dollars.length) (dollars ++ quotes) holes q := by
  match quotes, hlen with
  | a :: b :: c :: quotes, _ =>
    obtain ⟨rfl, rfl, rfl⟩ : a = '"' ∧ b = '"' ∧ c = '"' := by
      simp only [List.mem_cons, beq_iff_eq] at hquotes
      exact ⟨hquotes a (by simp), hquotes b (by simp), hquotes c (by simp)⟩
    have hcut : scanWhile (· == '$') (dollars ++ '"' :: '"' :: '"' :: (quotes ++ q)) =
        (dollars, '"' :: '"' :: '"' :: (quotes ++ q)) :=
      scanWhile_eq_iff.mpr ⟨rfl, hdollars, fun c y h => by obtain ⟨rfl, -⟩ := List.cons.inj h; rfl⟩
    have hcut' : scanWhile (· == '"') ('"' :: '"' :: '"' :: (quotes ++ q)) = ('"' :: '"' :: '"' :: quotes, q) :=
      scanWhile_eq_iff.mpr ⟨rfl, hquotes, hq⟩
    change scanInterpolated holes (dollars ++ '"' :: '"' :: '"' :: (quotes ++ q)) = _
    unfold scanInterpolated
    simp only [hcut, hcut']

theorem scanInterpolated_regular {q : Text} (hq : ¬ List.replicate 3 '"' <+: '"' :: q) :
    scanInterpolated holes (dollars ++ '"' :: q) = openString .regular (dollars ++ ['"']) holes q := by
  have hcut : scanWhile (· == '$') (dollars ++ '"' :: q) = (dollars, '"' :: q) :=
    scanWhile_eq_iff.mpr ⟨rfl, hdollars, fun c y h => by obtain ⟨rfl, -⟩ := List.cons.inj h; rfl⟩
  unfold scanInterpolated
  simp only [hcut]
  split
  · next h => cases h
  · next q' h =>
    cases h
    exact absurd ⟨q', rfl⟩ hq
  · next q' _ h =>
    cases h
    rfl
  · next h => exact absurd rfl (h q)

end Interpolated

theorem scanInterpolated_stable {holes hs : List Hole} {t x r : Text} {k : TokenKind}
    (h : scanInterpolated holes t = some (k, (x, r), hs)) :
    t = x ++ r ∧ EndsSolid x ∧ ∀ r', Covers r r' → scanInterpolated holes (x ++ r') = some (k, (x, r'), hs) := by
  cases hcut : scanWhile (· == '$') t with
  | mk dollars q =>
  obtain ⟨rfl, hdollars, -⟩ := scanWhile_eq_iff.mp hcut
  unfold scanInterpolated at h
  simp only [hcut] at h
  split at h
  · next q =>
    obtain ⟨y, rfl, rfl, hy, hnew⟩ := openString_stable h
    refine ⟨by simp, hy.append _, fun r' hc => ?_⟩
    have hstep := scanInterpolated_verbatim hdollars holes (y ++ r')
    rw [hnew r' hc] at hstep
    simpa using hstep
  · next q =>
    cases hquotes : scanWhile (· == '"') ('"' :: '"' :: '"' :: q) with
    | mk quotes q' =>
    obtain ⟨htext, hall, hq'⟩ := scanWhile_eq_iff.mp hquotes
    have hfirst : ('"' :: '"' :: '"' :: q).takeWhile (· == '"') = quotes := congrArg Prod.fst hquotes
    have hlen : 3 ≤ quotes.length := by
      rw [← hfirst]
      exact le_length_takeWhile.mpr ⟨q, rfl⟩
    simp only [hquotes] at h
    obtain ⟨y, rfl, rfl, hy, hnew⟩ := openString_stable h
    refine ⟨by rw [htext]; simp, hy.append _, fun r' hc => ?_⟩
    have hq'' : ∀ c z, y ++ r' = c :: z → (c == '"') = false := by
      intro c z hcz
      have hhead := hy.head?_append r r'
      rw [hcz, List.head?_cons, eq_comm, List.head?_eq_some_iff] at hhead
      obtain ⟨z', hz'⟩ := hhead
      exact hq' c z' hz'
    have hstep := scanInterpolated_raw hdollars holes hall hlen hq''
    rw [hnew r' hc] at hstep
    simpa using hstep
  · next q hno =>
    have hfew : ¬ List.replicate 3 '"' <+: '"' :: q := by
      rintro ⟨z, hz⟩
      exact hno z (List.cons.inj hz).2.symm
    obtain ⟨y, rfl, rfl, hy, hnew⟩ := openString_stable h
    refine ⟨by simp, hy.append _, fun r' hc => ?_⟩
    have hfew' : ¬ List.replicate 3 '"' <+: '"' :: (y ++ r') := fun hthree =>
      hfew (hc.append ('"' :: y) _ (stopless rfl) hthree)
    have hstep := scanInterpolated_regular hdollars holes hfew'
    rw [hnew r' hc] at hstep
    simpa using hstep
  · cases h

/-! ## Tokens by their first characters -/

/-- Whether a text starts with a number. -/
def startsNumber : Text → Bool
  | c :: d :: _ => c.isDigit || (c == '.' && d.isDigit)
  | [c] => c.isDigit
  | [] => false

/-- The first character is none of those that start a token of a special form. -/
structure Ordinary (c : Char) (r : Text) : Prop where
  mark : c ∉ ['#', '\'', '"', '@', '$']
  slash : c = '/' → r.head? ≠ some '/' ∧ r.head? ≠ some '*'

theorem nextToken_ordinary (holes : List Hole) {c : Char} {r : Text} (h : Ordinary c r) :
    nextToken holes (c :: r) =
      if startsNumber (c :: r) then some (.number, scanNumber (c :: r), holes)
      else if isNameStart c then (scanName (c :: r)).map (fun x => (.word, x, holes))
      else nextToken.scanInside holes (c :: r) := by
  obtain ⟨hmark, hslash⟩ := h
  simp only [List.mem_cons, List.not_mem_nil, or_false, not_or] at hmark
  obtain ⟨hsharp, happle, hquote, hat, hdollar⟩ := hmark
  cases r with
  | nil =>
    exact nextToken.eq_11 holes c [] (fun _ _ h => by cases h) (fun _ _ h => by cases h) hsharp happle hquote
      (fun _ h _ => hat h) (fun _ h _ => hat h) hdollar hat (fun _ _ h => by cases h)
  | cons d r =>
    exact nextToken.eq_10 holes c d r (fun hc hd => (hslash hc).1 (by rw [hd]; rfl))
      (fun hc hd => (hslash hc).2 (by rw [hd]; rfl)) hsharp happle hquote (fun h _ => hat h) (fun _ h _ _ => hat h)
      hdollar hat

/-- The forms of texts that the lexer tells apart by their first characters. -/
inductive Form : Text → Prop where
  | line (q : Text) : Form ('/' :: '/' :: q)
  | comment (q : Text) : Form ('/' :: '*' :: q)
  | directive (q : Text) : Form ('#' :: q)
  | character (q : Text) : Form ('\'' :: q)
  | quoted (q : Text) : Form ('"' :: q)
  | verbatim (q : Text) : Form ('@' :: '"' :: q)
  | verbatimInterpolated (q : Text) : Form ('@' :: '$' :: '"' :: q)
  | interpolated (q : Text) : Form ('$' :: q)
  | escaped (q : Text) : (∀ z, q = '"' :: z → False) → (∀ z, q = '$' :: '"' :: z → False) → Form ('@' :: q)
  | ordinary (c : Char) (q : Text) : Ordinary c q → Form (c :: q)

theorem form_cons (c : Char) (q : Text) : Form (c :: q) := by
  by_cases hmark : c ∈ ['#', '\'', '"', '@', '$']
  · simp only [List.mem_cons, List.not_mem_nil, or_false] at hmark
    rcases hmark with rfl | rfl | rfl | rfl | rfl
    · exact .directive q
    · exact .character q
    · exact .quoted q
    · by_cases hquote : ∃ z, q = '"' :: z
      · obtain ⟨z, rfl⟩ := hquote
        exact .verbatim z
      · by_cases hdollar : ∃ z, q = '$' :: '"' :: z
        · obtain ⟨z, rfl⟩ := hdollar
          exact .verbatimInterpolated z
        · exact .escaped q (fun z hz => hquote ⟨z, hz⟩) (fun z hz => hdollar ⟨z, hz⟩)
    · exact .interpolated q
  · by_cases hslash : c = '/' ∧ (q.head? = some '/' ∨ q.head? = some '*')
    · obtain ⟨rfl, hq | hq⟩ := hslash
      · obtain ⟨z, rfl⟩ := List.head?_eq_some_iff.mp hq
        exact .line z
      · obtain ⟨z, rfl⟩ := List.head?_eq_some_iff.mp hq
        exact .comment z
    · exact .ordinary c q ⟨hmark, fun hc => ⟨fun hq => hslash ⟨hc, .inl hq⟩, fun hq => hslash ⟨hc, .inr hq⟩⟩⟩

/-- What has to hold for a text that takes the place of the one behind a token. -/
structure Follows (holes : List Hole) (k : TokenKind) (x r r' : Text) : Prop where
  covers : Covers r r'
  /-- A comment that takes its line ends with the line. -/
  line : ['/', '/'] <+: x → ∀ c q, r' = c :: q → c = '\n' ∨ c = '\r'
  /-- So does a directive. -/
  directive : k = .directive → EndsLine r'
  /-- A question mark opens a conditional here as it did there. -/
  holes : k = .symbol → holesBehind holes x r' = holesBehind holes x r

/-- What the lexer does with a token: the token starts with no stop, it ends with no blank unless it is a comment that
takes its line, and it is found again in front of other texts. -/
structure StableStep (holes : List Hole) (t : Text) (k : TokenKind) (x r : Text) (hs : List Hole) : Prop where
  text : t = x ++ r
  starts : ∃ c y, x = c :: y ∧ isStop c = false
  ends : ¬ ['/', '/'] <+: x → EndsSolid x
  again : ∀ r', Follows holes k x r r' → nextToken holes (x ++ r') = some (k, (x, r'), hs)

/-- A token that a scanner `g` takes from behind its first characters `w`. -/
theorem stableStep_front {holes hs : List Hole} {g : Text → Option Cut} (kind : TokenKind) {k : TokenKind} {c : Char}
    {w q x r : Text} (hc : isStop c = false) (hg : StableAt g q)
    (hnext : ∀ q', q'.head? = q.head? →
      nextToken holes (c :: w ++ q') = (g q').map (fun y => (kind, Cut.prepend (c :: w) y, holes)))
    (h : nextToken holes (c :: w ++ q) = some (k, (x, r), hs)) : StableStep holes (c :: w ++ q) k x r hs := by
  rw [hnext q rfl] at h
  cases hq : g q with
  | none =>
    rw [hq] at h
    cases h
  | some cut =>
    obtain ⟨y, r⟩ := cut
    rw [hq] at h
    cases h
    obtain ⟨rfl, hy, hnew⟩ := hg y r hq
    refine ⟨(List.append_assoc _ y r).symm, ⟨c, w ++ y, rfl, hc⟩, fun _ => hy.append (c :: w), fun r' hr' => ?_⟩
    change nextToken holes (c :: w ++ y ++ r') = _
    rw [List.append_assoc, hnext _ (hy.head?_append r r'), hnew r' hr'.covers]
    rfl

/-- A token that is known by its first character. -/
theorem stableStep_whole {holes hs : List Hole} {f : Text → Option Cut} (kind : TokenKind) {k : TokenKind} {c : Char}
    {q x r : Text} (hc : isStop c = false) (hf : StableAt f (c :: q))
    (hnext : ∀ q', nextToken holes (c :: q') = (f (c :: q')).map (fun y => (kind, y, holes)))
    (h : nextToken holes (c :: q) = some (k, (x, r), hs)) : StableStep holes (c :: q) k x r hs := by
  rw [hnext] at h
  cases hcut : f (c :: q) with
  | none =>
    rw [hcut] at h
    cases h
  | some cut =>
    obtain ⟨y, r⟩ := cut
    rw [hcut] at h
    cases h
    obtain ⟨ht, hx, hnew⟩ := hf x r hcut
    cases x with
    | nil =>
      obtain ⟨z, d, hz, -⟩ := hx
      simp at hz
    | cons d y =>
      obtain ⟨rfl, rfl⟩ := List.cons.inj ht
      refine ⟨rfl, ⟨c, y, rfl, hc⟩, fun _ => hx, fun r' hr' => ?_⟩
      rw [List.cons_append, hnext, ← List.cons_append, hnew r' hr'.covers]
      rfl

/-- The first character stays ordinary in front of a text that shows no more. -/
theorem Ordinary.of_covers {c : Char} {q q' : Text} (h : Ordinary c q) (hc : Covers q q') : Ordinary c q' := by
  have hhead : ∀ d, isStop d = false → q'.head? = some d → q.head? = some d := by
    intro d hd hq'
    obtain ⟨z, rfl⟩ := List.head?_eq_some_iff.mp hq'
    obtain ⟨z', rfl, -⟩ := hc.cons hd
    rfl
  refine ⟨h.mark, fun hslash => ⟨fun hq' => (h.slash hslash).1 (hhead '/' rfl hq'), fun hq' => ?_⟩⟩
  exact (h.slash hslash).2 (hhead '*' rfl hq')

theorem startsNumber_of_covers {c : Char} {q q' : Text} (hc : Covers q q') (h : startsNumber (c :: q') = true) :
    startsNumber (c :: q) = true := by
  cases hdigit : c.isDigit with
  | true => cases q <;> simp [startsNumber, hdigit]
  | false =>
    cases q' with
    | nil => simp [startsNumber, hdigit] at h
    | cons d q' =>
      simp only [startsNumber, hdigit, Bool.false_or, Bool.and_eq_true] at h
      obtain ⟨z, rfl, -⟩ := hc.cons (isStop_of_isDigit d h.2)
      simp [startsNumber, h.1, h.2]

theorem ordinary_of_isNameStart {c : Char} (h : isNameStart c = true) (q : Text) : Ordinary c q := by
  refine ⟨fun hmem => ?_, ?_⟩
  · simp only [List.mem_cons, List.not_mem_nil, or_false] at hmem
    rcases hmem with rfl | rfl | rfl | rfl | rfl <;> exact absurd h (by decide +kernel)
  · rintro rfl
    exact absurd h (by decide +kernel)

theorem scanDecimal_takes {t w f x r r₁ r₂ : Text} (hw : scanDigits Char.isDigit t = (w, r₁))
    (hf : scanFraction r₁ = (f, r₂)) (h : scanNumber.scanDecimal t = (x, r)) : ∃ z, x = w ++ f ++ z := by
  unfold scanNumber.scanDecimal at h
  simp only [hw, hf] at h
  split at h
  · exact ⟨_, (congrArg Prod.fst h).symm.trans (List.append_assoc ..)⟩
  · exact ⟨_, (congrArg Prod.fst h).symm.trans (List.append_assoc ..)⟩

/-- The characters by which a number is known are in it. -/
theorem scanNumber_takes {c : Char} {q x r : Text} (h : startsNumber (c :: q) = true) (hx : scanNumber (c :: q) = (x, r)) :
    ∃ y, x = c :: y ∧ (c.isDigit = false → c = '.' ∧ ∃ d z, y = d :: z ∧ d.isDigit = true) := by
  by_cases hradix : ∃ y p q', c :: q = '0' :: y :: q' ∧ Radix y p
  · obtain ⟨y, p, q', hq, hy⟩ := hradix
    obtain ⟨rfl, rfl⟩ := List.cons.inj hq
    rw [scanNumber_radix hy] at hx
    exact ⟨_, (congrArg Prod.fst hx).symm, fun hdigit => absurd hdigit (by decide)⟩
  · rw [scanNumber_decimal (fun y p q' hq hy => hradix ⟨y, p, q', hq, hy⟩)] at hx
    cases hdigit : c.isDigit with
    | true =>
      obtain ⟨w, r₁, hw⟩ := scanDigits_cons hdigit q
      obtain ⟨z, rfl⟩ := scanDecimal_takes hw rfl hx
      exact ⟨w ++ (scanFraction r₁).1 ++ z, rfl, fun h => by cases h⟩
    | false =>
      cases q with
      | nil => simp [startsNumber, hdigit] at h
      | cons d q =>
        simp only [startsNumber, hdigit, Bool.false_or, Bool.and_eq_true, beq_iff_eq] at h
        obtain ⟨rfl, hd⟩ := h
        obtain ⟨y, r₂, hy⟩ := scanDigits_cons hd q
        have hfraction : scanFraction ('.' :: d :: q) = ('.' :: d :: y, r₂) := by
          rw [scanFraction, if_pos hd, hy]
          rfl
        obtain ⟨z, rfl⟩ := scanDecimal_takes (w := []) rfl hfraction hx
        exact ⟨d :: y ++ z, rfl, fun _ => ⟨rfl, d, y ++ z, rfl, hd⟩⟩

theorem stableStep_number {holes hs : List Hole} {k : TokenKind} {c : Char} {q x r : Text} (hord : Ordinary c q)
    (hnumber : startsNumber (c :: q) = true) (h : nextToken holes (c :: q) = some (k, (x, r), hs)) :
    StableStep holes (c :: q) k x r hs := by
  rw [nextToken_ordinary holes hord, if_pos hnumber] at h
  cases hcut : scanNumber (c :: q) with
  | mk y z =>
  rw [hcut] at h
  cases h
  obtain ⟨ht, hstops, hnew⟩ := steady_scanNumber _ _ _ hcut
  obtain ⟨y, rfl, hpoint⟩ := scanNumber_takes hnumber hcut
  obtain ⟨-, rfl⟩ := List.cons.inj ht
  refine ⟨rfl, ⟨c, y, rfl, hstops c List.mem_cons_self⟩, fun _ => endsSolid_of_stopless hstops, fun r' hr' => ?_⟩
  have hord' : Ordinary c (y ++ r') := hord.of_covers (hr'.covers.append y)
  have hnumber' : startsNumber (c :: (y ++ r')) = true := by
    cases hdigit : c.isDigit with
    | true => cases hy : y ++ r' <;> simp [startsNumber, hdigit]
    | false =>
      obtain ⟨rfl, d, z, rfl, hd⟩ := hpoint hdigit
      simp [startsNumber, hd]
  rw [List.cons_append, nextToken_ordinary holes hord', if_pos hnumber', ← List.cons_append, hnew r' hr'.covers]

theorem startsNumber_of_isNameStart {c : Char} (h : isNameStart c = true) (q : Text) : startsNumber (c :: q) = false := by
  have hdigit : c.isDigit = false := by
    cases hdigit : c.isDigit with
    | false => rfl
    | true =>
      have hcode : c.toNat ∈ List.range' 48 10 := by
        rw [Char.isDigit, Bool.and_eq_true, decide_eq_true_eq, decide_eq_true_eq] at hdigit
        rw [List.mem_range'_1]
        exact ⟨hdigit.1, Nat.lt_succ_of_le hdigit.2⟩
      have hcodes : ∀ n ∈ List.range' 48 10, isNameStart (Char.ofNat n) = false := by decide +kernel
      rw [eq_false_of_codes hcodes hcode] at h
      cases h
  have hpoint : (c == '.') = false := by
    rw [beq_eq_false_iff_ne]
    rintro rfl
    exact absurd h (by decide +kernel)
  cases q <;> simp [startsNumber, hdigit, hpoint]

theorem stableStep_word {holes hs : List Hole} {k : TokenKind} {c : Char} {q x r : Text} (hname : isNameStart c = true)
    (h : nextToken holes (c :: q) = some (k, (x, r), hs)) : StableStep holes (c :: q) k x r hs := by
  have hstop := isStop_of_isNameRest c (isNameRest_of_isNameStart hname)
  have hnext : ∀ q', nextToken holes (c :: q') = (scanName (c :: q')).map (fun y => (.word, y, holes)) := by
    intro q'
    rw [nextToken_ordinary holes (ordinary_of_isNameStart hname q'), startsNumber_of_isNameStart hname, if_neg (by simp),
      if_pos hname]
  exact stableStep_whole .word hstop (stableAt_scanName _) hnext h

/-! ## Symbols and ends of holes -/

theorem endsAt_iff {hole : Hole} {t : Text} :
    hole.endsAt t = true ↔
      hole.depth = 0 ∧ (['\x7d'] <+: t ∨ ([':'] <+: t ∧ ¬ [':', ':'] <+: t ∧ hole.questions = 0)) := by
  unfold Hole.endsAt
  rw [Bool.and_eq_true, beq_iff_eq]
  refine and_congr_right (fun _ => ?_)
  split
  · simp
  · simp
  · next r hno =>
    cases r with
    | nil => simp
    | cons d r =>
      have hd : ¬ ':' = d := fun hd => hno r (by rw [hd])
      simp [hd]
  · next h₁ h₂ h₃ =>
    cases t with
    | nil => simp
    | cons c t =>
      have hbrace : ¬ '\x7d' = c := fun hc => h₁ t (by rw [hc])
      have hcolon : ¬ ':' = c := fun hc => h₃ t (by rw [hc])
      simp [hbrace, hcolon]

theorem prefix_append_of_endsSolid {c : Char} {x r : Text} (hx : EndsSolid x) (h : [c] <+: x ++ r) (r' : Text) :
    [c] <+: x ++ r' := by
  cases x with
  | nil =>
    obtain ⟨z, d, hz, -⟩ := hx
    simp at hz
  | cons d x =>
    rw [List.cons_append, List.cons_prefix_cons] at h ⊢
    exact ⟨h.1, List.nil_prefix⟩

/-- A hole that ends here ends here, and one that goes on goes on. -/
theorem endsAt_append {hole : Hole} {x r r' : Text} (hx : EndsSolid x) (hc : Covers r r')
    (hends : hole.endsAt (x ++ r) = true) : hole.endsAt (x ++ r') = true := by
  rw [endsAt_iff] at hends ⊢
  obtain ⟨hdepth, hbrace | ⟨hcolon, hpair, hquestions⟩⟩ := hends
  · exact ⟨hdepth, Or.inl (prefix_append_of_endsSolid hx hbrace r')⟩
  · refine ⟨hdepth, Or.inr ⟨prefix_append_of_endsSolid hx hcolon r', fun hpair' => hpair ?_, hquestions⟩⟩
    exact hc.append x _ (stopless rfl) hpair'

theorem endsAt_append_symbol {hole : Hole} {x r r' : Text}
    (hfind : symbols.find? (fun s => s.isPrefixOf (x ++ r)) = some x) (hc : Covers r r')
    (hends : ¬ hole.endsAt (x ++ r) = true) : ¬ hole.endsAt (x ++ r') = true := by
  rw [endsAt_iff] at hends ⊢
  rintro ⟨hdepth, hbrace | ⟨hcolon, hpair, hquestions⟩⟩
  · exact hends ⟨hdepth, Or.inl (hc.append x _ (stopless rfl) hbrace)⟩
  · refine hends ⟨hdepth, Or.inr ⟨hc.append x _ (stopless rfl) hcolon, ?_, hquestions⟩⟩
    rintro ⟨z, hz⟩
    rw [← hz] at hfind
    have hx : x = [':', ':'] := by
      have hpair : symbols.find? (fun s => s.isPrefixOf ([':', ':'] ++ z)) = some [':', ':'] := rfl
      rw [hpair] at hfind
      exact (Option.some.inj hfind).symm
    rw [hx] at hpair
    exact hpair (List.prefix_append _ r')

theorem scanInside_stable {holes hs : List Hole} {t x r : Text} {k : TokenKind}
    (h : nextToken.scanInside holes t = some (k, (x, r), hs)) :
    t = x ++ r ∧ EndsSolid x ∧ (∀ c y, x = c :: y → isStop c = false) ∧ ∀ r', Covers r r' →
      (k = .symbol → holesBehind holes x r' = holesBehind holes x r) →
      nextToken.scanInside holes (x ++ r') = some (k, (x, r'), hs) := by
  have hsymbol : ∀ {holes}, scanSymbol holes t = some (k, (x, r), hs) → t = x ++ r ∧ EndsSolid x ∧
      (∀ c y, x = c :: y → isStop c = false) ∧ ∀ r', Covers r r' →
        (k = .symbol → holesBehind holes x r' = holesBehind holes x r) →
        scanSymbol holes (x ++ r') = some (k, (x, r'), hs) := by
    intro holes h
    obtain ⟨hk, -, hfind, -⟩ := scanSymbol_eq_some.mp h
    obtain ⟨ht, hx, hnew⟩ := scanSymbol_stable h
    refine ⟨ht, hx, ?_, fun r' hc hholes => hnew r' hc (hholes hk)⟩
    rintro c y rfl
    exact not_isStop_of_mem_symbols _ (List.mem_of_find?_eq_some hfind) c List.mem_cons_self
  match holes with
  | [] => exact hsymbol h
  | hole :: outer =>
    by_cases hends : hole.endsAt t = true
    · rw [nextToken.scanInside, if_pos hends] at h
      obtain ⟨rfl, hx, hnew⟩ := closeHole_stable h
      refine ⟨rfl, hx, ?_, fun r' hc _ => ?_⟩
      · rintro c y rfl
        obtain ⟨-, hbrace | ⟨hcolon, -⟩⟩ := endsAt_iff.mp hends
        · rw [← (List.cons_prefix_cons.mp hbrace).1]
          rfl
        · rw [← (List.cons_prefix_cons.mp hcolon).1]
          rfl
      · rw [nextToken.scanInside, if_pos (endsAt_append hx hc hends), hnew r' hc]
    · rw [nextToken.scanInside, if_neg hends] at h
      obtain ⟨-, -, hfind, -⟩ := scanSymbol_eq_some.mp h
      obtain ⟨rfl, hx, hstop, hnew⟩ := hsymbol h
      refine ⟨rfl, hx, hstop, fun r' hc hholes => ?_⟩
      rw [nextToken.scanInside, if_neg (endsAt_append_symbol hfind hc hends), hnew r' hc hholes]

theorem stableStep_inside {holes hs : List Hole} {k : TokenKind} {c : Char} {q x r : Text} (hord : Ordinary c q)
    (hnumber : ¬ startsNumber (c :: q) = true) (hname : ¬ isNameStart c = true)
    (h : nextToken holes (c :: q) = some (k, (x, r), hs)) : StableStep holes (c :: q) k x r hs := by
  rw [nextToken_ordinary holes hord, if_neg hnumber, if_neg hname] at h
  obtain ⟨ht, hx, hstop, hnew⟩ := scanInside_stable h
  cases x with
  | nil =>
    obtain ⟨z, d, hz, -⟩ := hx
    simp at hz
  | cons d y =>
    obtain ⟨rfl, rfl⟩ := List.cons.inj ht
    refine ⟨rfl, ⟨c, y, rfl, hstop c y rfl⟩, fun _ => hx, fun r' hr' => ?_⟩
    have hcover := hr'.covers.append y
    rw [List.cons_append, nextToken_ordinary holes (hord.of_covers hcover),
      if_neg (fun hnew => hnumber (startsNumber_of_covers hcover hnew)), if_neg hname, ← List.cons_append,
      hnew r' hr'.covers hr'.holes]

/-! ## All tokens -/

theorem stableStep_line {holes hs : List Hole} {k : TokenKind} {q x r : Text}
    (h : nextToken holes ('/' :: '/' :: q) = some (k, (x, r), hs)) : StableStep holes ('/' :: '/' :: q) k x r hs := by
  cases hcut : scanWhile (fun c => c != '\n' && c != '\r') q with
  | mk y z =>
  have hnext : nextToken holes ('/' :: '/' :: q) = some (.comment, ('/' :: '/' :: y, z), holes) := by
    change some (TokenKind.comment, Cut.prepend ['/', '/'] (scanWhile (fun c => c != '\n' && c != '\r') q), holes) = _
    rw [hcut]
    rfl
  rw [hnext] at h
  cases h
  obtain ⟨rfl, hy, -⟩ := scanWhile_eq_iff.mp hcut
  refine ⟨rfl, ⟨'/', '/' :: y, rfl, rfl⟩, fun hno => absurd ⟨y, rfl⟩ hno, fun r' hr' => ?_⟩
  have hcut' : scanWhile (fun c => c != '\n' && c != '\r') (y ++ r') = (y, r') := by
    refine scanWhile_eq_iff.mpr ⟨rfl, hy, fun c q' hq' => ?_⟩
    rcases hr'.line ⟨y, rfl⟩ c q' hq' with rfl | rfl <;> rfl
  change some (TokenKind.comment, Cut.prepend ['/', '/'] (scanWhile _ (y ++ r')), holes) = _
  rw [hcut']
  rfl

theorem stableStep_directive {holes hs : List Hole} {k : TokenKind} {q x r : Text}
    (h : nextToken holes ('#' :: q) = some (k, (x, r), hs)) : StableStep holes ('#' :: q) k x r hs := by
  change (scanDirective q).map (fun s => (s.1, Cut.prepend ['#'] s.2, holes)) = _ at h
  cases hcut : scanDirective q with
  | none =>
    rw [hcut] at h
    cases h
  | some cut =>
    obtain ⟨kind, y, z⟩ := cut
    rw [hcut] at h
    cases h
    obtain ⟨rfl, hy, -, hnew⟩ := scanDirective_stable hcut
    refine ⟨rfl, ⟨'#', y, rfl, rfl⟩, fun _ => hy.append ['#'], fun r' hr' => ?_⟩
    change (scanDirective (y ++ r')).map (fun s => (s.1, Cut.prepend ['#'] s.2, holes)) = _
    rw [hnew r' hr'.covers hr'.directive]
    rfl

theorem stableStep_interpolated {holes hs : List Hole} {k : TokenKind} {q x r : Text}
    (h : nextToken holes ('$' :: q) = some (k, (x, r), hs)) : StableStep holes ('$' :: q) k x r hs := by
  change scanInterpolated holes ('$' :: q) = _ at h
  obtain ⟨ht, hx, hnew⟩ := scanInterpolated_stable h
  cases x with
  | nil =>
    obtain ⟨z, d, hz, -⟩ := hx
    simp at hz
  | cons d y =>
    obtain ⟨rfl, rfl⟩ := List.cons.inj ht
    exact ⟨rfl, ⟨'$', y, rfl, rfl⟩, fun _ => hx, fun r' hr' => hnew r' hr'.covers⟩

theorem stableStep_verbatimInterpolated {holes hs : List Hole} {k : TokenKind} {q x r : Text}
    (h : nextToken holes ('@' :: '$' :: '"' :: q) = some (k, (x, r), hs)) :
    StableStep holes ('@' :: '$' :: '"' :: q) k x r hs := by
  change openString .verbatim ['@', '$', '"'] holes q = _ at h
  obtain ⟨y, rfl, rfl, hy, hnew⟩ := openString_stable h
  exact ⟨rfl, ⟨'@', '$' :: '"' :: y, rfl, rfl⟩, fun _ => hy.append ['@', '$', '"'], fun r' hr' => hnew r' hr'.covers⟩

theorem stableStep_escaped {holes hs : List Hole} {k : TokenKind} {q x r : Text}
    (hquote : ∀ z, q = '"' :: z → False) (hdollar : ∀ z, q = '$' :: '"' :: z → False)
    (h : nextToken holes ('@' :: q) = some (k, (x, r), hs)) : StableStep holes ('@' :: q) k x r hs := by
  have hnext : ∀ q', (∀ z, q' = '"' :: z → False) → (∀ z, q' = '$' :: '"' :: z → False) →
      nextToken holes ('@' :: q') = (scanName q').map (fun y => (.escapedWord, Cut.prepend ['@'] y, holes)) := by
    intro q' h₁ h₂
    rw [nextToken.eq_9 holes q' h₁ h₂]
    exact Option.map_map ..
  cases q with
  | nil =>
    rw [hnext [] hquote hdollar] at h
    cases h
  | cons d q =>
    by_cases hd : isNameStart d = true
    · refine stableStep_front .escapedWord (w := []) rfl (stableAt_scanName (d :: q)) (fun q' hq' => ?_) h
      cases q' with
      | nil => cases hq'
      | cons e q' =>
        obtain rfl : e = d := Option.some.inj hq'
        refine hnext (e :: q') ?_ ?_
        · intro z hz
          obtain ⟨rfl, -⟩ := List.cons.inj hz
          exact hquote q rfl
        · intro z hz
          obtain ⟨rfl, -⟩ := List.cons.inj hz
          exact absurd hd (by decide +kernel)
    · rw [hnext _ hquote hdollar, scanName, if_neg hd] at h
      cases h

theorem stableStep_ordinary {holes hs : List Hole} {k : TokenKind} {c : Char} {q x r : Text} (hord : Ordinary c q)
    (h : nextToken holes (c :: q) = some (k, (x, r), hs)) : StableStep holes (c :: q) k x r hs := by
  by_cases hnumber : startsNumber (c :: q) = true
  · exact stableStep_number hord hnumber h
  · by_cases hname : isNameStart c = true
    · exact stableStep_word hname h
    · exact stableStep_inside hord hnumber hname h

/-- A token is found again wherever what follows does not continue it. -/
theorem nextToken_stable {holes hs : List Hole} {t x r : Text} {k : TokenKind}
    (h : nextToken holes t = some (k, (x, r), hs)) : StableStep holes t k x r hs := by
  cases t with
  | nil => cases h
  | cons c q =>
    cases form_cons c q with
    | line q => exact stableStep_line h
    | comment q =>
      exact stableStep_front .comment (w := ['*']) rfl (stableAt_scanComment q) (fun _ _ => Option.map_map ..) h
    | directive => exact stableStep_directive h
    | character =>
      exact stableStep_front .character (w := []) rfl (stableAt_scanCharacter q) (fun _ _ => Option.map_map ..) h
    | quoted => exact stableStep_whole .string rfl (stableAt_scanQuoted q) (fun _ => rfl) h
    | verbatim q =>
      have hscan : StableAt (fun q => (scanVerbatim q).map Cut.withBytesMark) q :=
        StableAt.withBytesMark (w := []) (stableAt_scanVerbatim q) (fun _ _ => rfl)
      refine stableStep_front .string (w := ['"']) rfl hscan (fun q' _ => ?_) h
      change ((scanVerbatim q').map _).map _ = ((scanVerbatim q').map _).map _
      rw [Option.map_map, Option.map_map]
      rfl
    | verbatimInterpolated q => exact stableStep_verbatimInterpolated h
    | interpolated => exact stableStep_interpolated h
    | escaped _ hquote hdollar => exact stableStep_escaped hquote hdollar h
    | ordinary _ _ hord => exact stableStep_ordinary hord h

/-! ## Comments and directives -/

theorem scanDirective_kind {t : Text} {k : TokenKind} {c : Cut} (h : scanDirective t = some (k, c)) :
    k = .conditional ∨ k = .directive := by
  unfold scanDirective at h
  dsimp only at h
  split at h
  · cases h
    exact Or.inl rfl
  · split at h
    · split at h
      · cases h
      · cases h
        exact Or.inr rfl
    · cases h

/-- The first characters of a comment or a directive. -/
inductive TriviaForm : Text → Prop where
  | line (q : Text) : TriviaForm ('/' :: '/' :: q)
  | comment (q : Text) : TriviaForm ('/' :: '*' :: q)
  | directive (q : Text) : TriviaForm ('#' :: q)

theorem kind_of_map {kind k : TokenKind} {holes hs : List Hole} {o : Option Cut} {c : Cut}
    (h : o.map (fun c => (kind, c, holes)) = some (k, c, hs)) : k = kind := by
  obtain ⟨cut, -, heq⟩ := Option.map_eq_some_iff.mp h
  cases heq
  rfl

theorem kind_of_stretchStep {quote : Quote} {kind : StretchEnd → TokenKind} {holes : StretchEnd → List Hole}
    {w t : Text} {k : TokenKind} {c : Cut} {hs : List Hole} (h : stretchStep quote kind holes w t = some (k, c, hs)) :
    ∃ e, k = kind e := by
  obtain ⟨stretched, -, h⟩ := Option.map_eq_some_iff.mp h
  cases h
  exact ⟨_, rfl⟩

theorem kind_of_openString {quote : Quote} {w t : Text} {holes hs : List Hole} {k : TokenKind} {c : Cut}
    (h : openString quote w holes t = some (k, c, hs)) : ∃ e, k = openingKind e := by
  rw [openString_eq] at h
  exact kind_of_stretchStep h

theorem kind_of_scanInterpolated {holes hs : List Hole} {t : Text} {k : TokenKind} {c : Cut}
    (h : scanInterpolated holes t = some (k, c, hs)) : ∃ e, k = openingKind e := by
  unfold scanInterpolated at h
  dsimp only at h
  split at h
  · exact kind_of_openString h
  · exact kind_of_openString h
  · exact kind_of_openString h
  · cases h

theorem kind_of_scanInside {holes hs : List Hole} {t : Text} {k : TokenKind} {c : Cut}
    (h : nextToken.scanInside holes t = some (k, c, hs)) : k = .symbol ∨ ∃ e, k = resumingKind e := by
  have hsymbol : ∀ holes, scanSymbol holes t = some (k, c, hs) → k = .symbol :=
    fun _ h => (scanSymbol_eq_some.mp h).1
  cases holes with
  | nil => exact Or.inl (hsymbol [] h)
  | cons hole outer =>
    rw [nextToken.scanInside] at h
    split at h
    · rw [closeHole_eq] at h
      split at h
      · rw [resumeString_eq] at h
        exact Or.inr (kind_of_stretchStep h)
      · cases h
    · exact Or.inl (hsymbol _ h)

/-- A comment or a directive is known by its first characters. -/
theorem triviaForm_of_nextToken {holes hs : List Hole} {t : Text} {k : TokenKind} {c : Cut}
    (h : nextToken holes t = some (k, c, hs)) (hk : k = .comment ∨ k = .directive) : TriviaForm t := by
  have hopening : ∀ e, k ≠ openingKind e := by
    rintro e rfl
    cases e <;> simp [openingKind] at hk
  have hplain : ∀ kind, k = kind → kind = .comment ∨ kind = .directive := by
    rintro kind rfl
    exact hk
  cases t with
  | nil => cases h
  | cons c q =>
    cases form_cons c q with
    | line q => exact .line q
    | comment q => exact .comment q
    | directive => exact .directive q
    | character => simpa using hplain _ (kind_of_map h)
    | quoted => simpa using hplain _ (kind_of_map h)
    | verbatim q => simpa using hplain _ (kind_of_map h)
    | verbatimInterpolated q =>
      change openString .verbatim ['@', '$', '"'] holes q = _ at h
      obtain ⟨e, he⟩ := kind_of_openString h
      exact absurd he (hopening e)
    | interpolated =>
      obtain ⟨e, he⟩ := kind_of_scanInterpolated h
      exact absurd he (hopening e)
    | escaped _ hquote hdollar =>
      rw [nextToken.eq_9 holes q hquote hdollar] at h
      simpa using hplain _ (kind_of_map h)
    | ordinary _ _ hord =>
      rw [nextToken_ordinary holes hord] at h
      split at h
      · cases h
        simp at hk
      · split at h
        · simpa using hplain _ (kind_of_map h)
        · rcases kind_of_scanInside h with hsymbol | ⟨e, he⟩
          · simpa using hplain _ hsymbol
          · subst he
            cases e <;> simp [resumingKind] at hk

theorem line_of_nextToken {holes hs : List Hole} {q x r : Text} {k : TokenKind}
    (h : nextToken holes ('/' :: '/' :: q) = some (k, (x, r), hs)) :
    k = .comment ∧ hs = holes ∧ ∀ c z, r = c :: z → c = '\n' ∨ c = '\r' := by
  cases h
  refine ⟨rfl, rfl, fun c z hcz => ?_⟩
  have hcut : scanWhile (fun c => c != '\n' && c != '\r') q = (_, _) := rfl
  have := (scanWhile_eq_iff.mp hcut).2.2 c z hcz
  by_cases hc : c = '\n'
  · exact Or.inl hc
  · simp [hc] at this
    exact Or.inr this

end CSharpDraft.Fragment
