import CSharpDraft.Proofs.Fragment.NextToken
import CSharpDraft.Proofs.Fragment.Opened

/-!
# Brackets, strings and holes

A block may stand in a hole of an interpolated string. Its own text is read without the holes around it, and gives the
same tokens.

* `Tracks s inner holes` : behind the brackets and strings `s` the lexer has the holes `inner` if it started without any,
  and `holes` if it started in some;
* `Tracks.nextToken` : it finds the same token in both.
-/

set_option autoImplicit false

namespace CSharpDraft.Fragment

/-! ## Holes below a place -/

/-- A step that leaves the holes `base` around it alone. -/
def Step.under (base : List Hole) (s : Step) : Step := (s.1, s.2.1, s.2.2 ++ base)

theorem stretchStep_under (quote : Quote) (kind : StretchEnd → TokenKind) (inner base : List Hole) (w t : Text) :
    stretchStep quote kind (holesAfter quote (inner ++ base)) w t =
      (stretchStep quote kind (holesAfter quote inner) w t).map (Step.under base) := by
  unfold stretchStep
  cases stretch quote t with
  | none => rfl
  | some s =>
    obtain ⟨x, e, r⟩ := s
    cases e <;> rfl

theorem openString_under (quote : Quote) (w : Text) (inner base : List Hole) (t : Text) :
    openString quote w (inner ++ base) t = (openString quote w inner t).map (Step.under base) := by
  rw [openString_eq, openString_eq, stretchStep_under]

theorem resumeString_under (quote : Quote) (w : Text) (inner base : List Hole) (t : Text) :
    resumeString quote w (inner ++ base) t = (resumeString quote w inner t).map (Step.under base) := by
  rw [resumeString_eq, resumeString_eq, stretchStep_under]

theorem closeHole_under (hole : Hole) (inner base : List Hole) (t : Text) :
    closeHole hole (inner ++ base) t = (closeHole hole inner t).map (Step.under base) := by
  rw [closeHole_eq, closeHole_eq, resumeString_under]
  split <;> rfl

theorem scanSymbol_under (hole : Hole) (inner base : List Hole) (t : Text) :
    scanSymbol (hole :: inner ++ base) t = (scanSymbol (hole :: inner) t).map (Step.under base) := by
  unfold scanSymbol
  cases symbols.find? (fun s => s.isPrefixOf t) <;> rfl

theorem scanInterpolated_under (inner base : List Hole) (t : Text) :
    scanInterpolated (inner ++ base) t = (scanInterpolated inner t).map (Step.under base) := by
  unfold scanInterpolated
  simp only [openString_under]
  split <;> rfl

theorem scanInside_under (hole : Hole) (inner base : List Hole) (t : Text) :
    nextToken.scanInside (hole :: inner ++ base) t =
      (nextToken.scanInside (hole :: inner) t).map (Step.under base) := by
  simp only [List.cons_append, nextToken.scanInside]
  split
  · exact closeHole_under hole inner base t
  · exact scanSymbol_under hole inner base t

/-- What a token that is no symbol and ends no hole does: it changes nothing that is open, or it opens a string. -/
inductive Outside : TokenKind → List Hole → Prop where
  | flat {k : TokenKind} : (∀ x s, nest? k x s = some s) → Outside k []
  | opening (quote : Quote) : Outside (.interpolated .opening) [⟨quote, 0, 0⟩]

theorem outside_of_stretchStep {quote : Quote} {w t : Text} {s : Step}
    (h : stretchStep quote openingKind (holesAfter quote []) w t = some s) : Outside s.1 s.2.2 := by
  unfold stretchStep at h
  cases hstretch : stretch quote t with
  | none =>
    rw [hstretch] at h
    cases h
  | some stretched =>
    obtain ⟨x, e, r⟩ := stretched
    rw [hstretch] at h
    cases h
    cases e with
    | close => exact .flat (fun _ _ => rfl)
    | hole => exact .opening quote

/-- The forms of tokens that do not look at the holes around them. -/
def Free (t : Text) : Prop :=
  ∃ o : Option Step, (∀ holes, nextToken holes t = o.map (Step.under holes)) ∧ ∀ s, o = some s → Outside s.1 s.2.2

theorem free_of_plain {t : Text} (kind : TokenKind) (hkind : ∀ x s, nest? kind x s = some s) (c : Option Cut)
    (h : ∀ holes, nextToken holes t = c.map (fun c => (kind, c, holes))) : Free t := by
  refine ⟨c.map (fun c => (kind, c, [])), fun holes => ?_, fun s hs => ?_⟩
  · rw [h holes, Option.map_map]
    rfl
  · cases c with
    | none => cases hs
    | some c =>
      cases hs
      exact .flat hkind

theorem outside_of_scanInterpolated {t : Text} {s : Step} (h : scanInterpolated [] t = some s) : Outside s.1 s.2.2 := by
  unfold scanInterpolated at h
  simp only [openString_eq] at h
  split at h
  · exact outside_of_stretchStep h
  · exact outside_of_stretchStep h
  · exact outside_of_stretchStep h
  · cases h

theorem free_directive (q : Text) : Free ('#' :: q) := by
  refine ⟨(scanDirective q).map (fun p => (p.1, Cut.prepend ['#'] p.2, [])), fun holes => ?_, fun s hs => ?_⟩
  · rw [Option.map_map]
    rfl
  · cases hscan : scanDirective q with
    | none =>
      rw [hscan] at hs
      cases hs
    | some p =>
      obtain ⟨k, c⟩ := p
      rw [hscan] at hs
      cases hs
      rcases scanDirective_kind hscan with rfl | rfl
      · exact .flat (fun _ _ => rfl)
      · exact .flat (fun _ _ => rfl)

theorem free_or_inside (t : Text) : Free t ∨ ∀ holes, nextToken holes t = nextToken.scanInside holes t := by
  cases t with
  | nil => exact Or.inl (free_of_plain .word (fun _ _ => rfl) none (fun _ => rfl))
  | cons c q =>
    cases form_cons c q with
    | line q =>
      exact Or.inl (free_of_plain .comment (fun _ _ => rfl)
        (some (Cut.prepend ['/', '/'] (scanWhile (fun c => c != '\n' && c != '\r') q))) (fun _ => rfl))
    | comment q => exact Or.inl (free_of_plain .comment (fun _ _ => rfl) _ (fun _ => rfl))
    | directive => exact Or.inl (free_directive q)
    | character => exact Or.inl (free_of_plain .character (fun _ _ => rfl) _ (fun _ => rfl))
    | quoted => exact Or.inl (free_of_plain .string (fun _ _ => rfl) _ (fun _ => rfl))
    | verbatim q => exact Or.inl (free_of_plain .string (fun _ _ => rfl) _ (fun _ => rfl))
    | verbatimInterpolated q =>
      refine Or.inl ⟨openString .verbatim ['@', '$', '"'] [] q, fun holes => ?_, fun s hs => ?_⟩
      · exact openString_under .verbatim ['@', '$', '"'] [] holes q
      · rw [openString_eq] at hs
        exact outside_of_stretchStep hs
    | interpolated =>
      refine Or.inl ⟨scanInterpolated [] ('$' :: q), fun holes => ?_, fun s hs => ?_⟩
      · exact scanInterpolated_under [] holes ('$' :: q)
      · exact outside_of_scanInterpolated hs
    | escaped _ hquote hdollar =>
      exact Or.inl (free_of_plain .escapedWord (fun _ _ => rfl) _ (fun holes => nextToken.eq_9 holes q hquote hdollar))
    | ordinary _ _ hord =>
      have hnext := fun holes => nextToken_ordinary holes hord
      by_cases hnumber : startsNumber (c :: q) = true
      · simp only [if_pos hnumber] at hnext
        exact Or.inl (free_of_plain .number (fun _ _ => rfl) (some (scanNumber (c :: q))) hnext)
      · by_cases hname : Text.isNameStart c = true
        · simp only [if_neg hnumber, if_pos hname] at hnext
          exact Or.inl (free_of_plain .word (fun _ _ => rfl) (scanName (c :: q)) hnext)
        · simp only [if_neg hnumber, if_neg hname] at hnext
          exact Or.inr hnext

/-- In a hole, a token does the same whatever holes are around that hole. -/
theorem nextToken_under (hole : Hole) (inner base : List Hole) (t : Text) :
    nextToken (hole :: inner ++ base) t = (nextToken (hole :: inner) t).map (Step.under base) := by
  rcases free_or_inside t with ⟨o, ho, -⟩ | hinside
  · rw [ho, ho, Option.map_map]
    cases o with
    | none => rfl
    | some s => simp [Step.under]
  · rw [hinside, hinside, scanInside_under]

/-! ## What a token does to the holes -/

/-- How many brackets are open behind a symbol. -/
def depthAfter (x : Text) (n : Nat) : Nat :=
  if openingBrackets.contains x then n + 1 else if closingBrackets.contains x then n - 1 else n

theorem depthAfter_mono (x : Text) {m n : Nat} (h : m ≤ n) : depthAfter x m ≤ depthAfter x n := by
  unfold depthAfter
  split
  · omega
  · split <;> omega

/-- A symbol that fits changes the number of brackets in the innermost string, or around all strings. -/
theorem nestSymbol?_replicate {x : Text} {n : Nat} {z s : List Opened} (hz : z.head? ≠ some .bracket)
    (h : nestSymbol? x (List.replicate n .bracket ++ z) = some s) :
    s = List.replicate (depthAfter x n) .bracket ++ z := by
  unfold nestSymbol? at h
  unfold depthAfter
  split at h
  · next hopen =>
    cases h
    rw [if_pos hopen]
    rfl
  · next hopen =>
    rw [if_neg hopen]
    split at h
    · next hclose =>
      rw [if_pos hclose]
      cases n with
      | succ n =>
        cases h
        rfl
      | zero =>
        cases z with
        | nil => cases h
        | cons o z =>
          cases o with
          | bracket => exact absurd rfl hz
          | string => cases h
    · next hclose =>
      cases h
      rw [if_neg hclose]

theorem depth_after (hole : Hole) (x rest : Text) : (hole.after x rest).depth = depthAfter x hole.depth := by
  unfold Hole.after depthAfter openingBrackets closingBrackets
  split
  · rfl
  · split
    · rfl
    · split
      · rfl
      · split
        · rfl
        · split <;> rfl

theorem closeHole_cases {hole : Hole} {outer hs : List Hole} {t : Text} {k : TokenKind} {c : Cut}
    (h : closeHole hole outer t = some (k, c, hs)) :
    (k = .interpolated .closing ∧ hs = outer) ∨
      (k = .interpolated .middle ∧ hs = ⟨hole.quote, 0, 0⟩ :: outer) := by
  rw [closeHole_eq, resumeString_eq, stretchStep] at h
  split at h
  · cases hstretch : stretch hole.quote ((scanFormat t).2.drop hole.quote.closing.length) with
    | none =>
      rw [hstretch] at h
      cases h
    | some s =>
      obtain ⟨x, e, r⟩ := s
      rw [hstretch] at h
      cases h
      cases e with
      | close => exact Or.inl ⟨rfl, rfl⟩
      | hole => exact Or.inr ⟨rfl, rfl⟩
  · cases h

/-- In a hole, a token that looks at the hole ends it or is a symbol. -/
theorem scanInside_cases {hole : Hole} {outer hs : List Hole} {t x r : Text} {k : TokenKind}
    (h : nextToken.scanInside (hole :: outer) t = some (k, (x, r), hs)) :
    (hole.depth = 0 ∧ k = .interpolated .closing ∧ hs = outer) ∨
      (hole.depth = 0 ∧ k = .interpolated .middle ∧ hs = ⟨hole.quote, 0, 0⟩ :: outer) ∨
      (k = .symbol ∧ hs = hole.after x r :: outer) := by
  rw [nextToken.scanInside] at h
  split at h
  · next hends =>
    have hdepth := (endsAt_iff.mp hends).1
    rcases closeHole_cases h with ⟨hk, hhs⟩ | ⟨hk, hhs⟩
    · exact Or.inl ⟨hdepth, hk, hhs⟩
    · exact Or.inr (Or.inl ⟨hdepth, hk, hhs⟩)
  · obtain ⟨hk, -, -, hhs⟩ := scanSymbol_eq_some.mp h
    exact Or.inr (Or.inr ⟨hk, hhs⟩)

/-! ## What a symbol says about the text behind it -/

/-- Only at a question mark in no further bracket does the text behind a symbol matter to the hole around it. -/
theorem after_eq {hole : Hole} {x : Text} (h : x = ['?'] → hole.depth ≠ 0) (r r' : Text) :
    hole.after x r' = hole.after x r := by
  unfold Hole.after
  by_cases hx : x = ['?']
  · simp [hx, h hx]
  · simp [hx]

theorem after_congr {hole : Hole} (x : Text) {r r' : Text} (h : r'.head? = r.head?) :
    hole.after x r' = hole.after x r := by
  have hdot : ∀ c : Char, [c].isPrefixOf r' = [c].isPrefixOf r := by
    intro c
    cases r with
    | nil => rw [List.head?_eq_none_iff.mp h]
    | cons d r =>
      obtain ⟨z, rfl⟩ := List.head?_eq_some_iff.mp h
      simp [List.isPrefixOf]
  unfold Hole.after
  rw [hdot, hdot]

theorem after_stops {hole : Hole} (x : Text) {c c' : Char} (hc : isStop c = true) (hc' : isStop c' = true) (r r' : Text) :
    hole.after x (c' :: r') = hole.after x (c :: r) := by
  have hne : ∀ {c : Char}, isStop c = true → ('.' == c) = false ∧ ('[' == c) = false := by
    intro c hc
    constructor <;>
    · refine beq_eq_false_iff_ne.mpr ?_
      rintro rfl
      exact absurd hc (by decide)
  unfold Hole.after
  simp [List.isPrefixOf, hne hc, hne hc']

/-! ## With and without the holes around a place -/

/-- Behind the brackets and strings `s`, the holes `inner` of a reading that started in no hole and those of a reading that
started in some. Each string has its hole, whose depth counts the brackets in it. The brackets that are in no string are
counted by the hole around the start, if there is one. -/
inductive Tracks : List Opened → List Hole → List Hole → Prop where
  | outer (n : Nat) (base : List Hole) :
    (∀ hole outer, base = hole :: outer → n ≤ hole.depth) → Tracks (List.replicate n .bracket) [] base
  | hole (h : Hole) {s : List Opened} {inner holes : List Hole} :
    Tracks s inner holes → Tracks (List.replicate h.depth .bracket ++ .string :: s) (h :: inner) (h :: holes)

theorem tracks_nil (base : List Hole) : Tracks [] [] base := Tracks.outer 0 base (fun _ _ _ => Nat.zero_le _)

theorem Tracks.eq_nil {inner holes : List Hole} (h : Tracks [] inner holes) : inner = [] := by
  generalize hs : ([] : List Opened) = s at h
  cases h with
  | outer n base hbase => rfl
  | hole hole h => simp at hs

theorem Tracks.exists_append {s : List Opened} {inner holes : List Hole} (h : Tracks s inner holes) :
    ∃ base, holes = inner ++ base := by
  induction h with
  | outer n base hbase => exact ⟨base, rfl⟩
  | hole hole _ ih =>
    obtain ⟨base, rfl⟩ := ih
    exact ⟨base, rfl⟩

/-- The same token is found in both readings, unless the hole around the start would end: there must be a bracket open,
or the token must open one. -/
theorem Tracks.nextToken {s s' : List Opened} {inner holes hs : List Hole} {t x r : Text} {k : TokenKind}
    (htracks : Tracks s inner holes) (h : nextToken holes t = some (k, (x, r), hs)) (hnest : nest? k x s = some s')
    (hopen : s ≠ [] ∨ x = ['\x7b']) :
    ∃ inner', Fragment.nextToken inner t = some (k, (x, r), inner') ∧ Tracks s' inner' hs := by
  rcases free_or_inside t with ⟨o, ho, houtside⟩ | hinside
  · rw [ho] at h
    cases o with
    | none => cases h
    | some step =>
      obtain ⟨k, c, pushed⟩ := step
      cases h
      refine ⟨pushed ++ inner, by rw [ho]; rfl, ?_⟩
      cases houtside _ rfl with
      | flat hflat =>
        rw [hflat] at hnest
        cases hnest
        exact htracks
      | opening quote =>
        cases hnest
        exact Tracks.hole ⟨quote, 0, 0⟩ htracks
  · have htext := (nextToken_stable h).text
    rw [hinside] at h
    cases htracks with
    | outer n _ hbase =>
      have hsymbol : scanSymbol holes t = some (k, (x, r), hs) := by
        cases holes with
        | nil => exact h
        | cons hole outer =>
          have hstays : ¬ hole.endsAt t = true := fun hends => by
            obtain ⟨hdepth, hstart⟩ := endsAt_iff.mp hends
            have hn : n = 0 := Nat.le_zero.mp (hdepth ▸ hbase hole outer rfl)
            subst hn
            obtain hs | rfl := hopen
            · exact hs rfl
            · rw [htext] at hstart
              rcases hstart with hbrace | ⟨hcolon, -, -⟩
              · exact absurd (List.cons_prefix_cons.mp hbrace).1 (by decide)
              · exact absurd (List.cons_prefix_cons.mp hcolon).1 (by decide)
          rw [nextToken.scanInside, if_neg hstays] at h
          exact h
      obtain ⟨rfl, ht, hfind, rfl⟩ := scanSymbol_eq_some.mp hsymbol
      have hempty : ∀ o : Opened, ([] : List Opened).head? ≠ some o := fun o h => by cases h
      rw [nest?, ← List.append_nil (List.replicate n _)] at hnest
      rw [nestSymbol?_replicate (hempty _) hnest, List.append_nil]
      refine ⟨[], ?_, Tracks.outer _ _ ?_⟩
      · rw [hinside]
        change scanSymbol [] t = _
        exact scanSymbol_eq_some.mpr ⟨rfl, ht, hfind, rfl⟩
      · intro hole outer hholes
        cases holes with
        | nil => cases hholes
        | cons hole' outer' =>
          obtain ⟨rfl, -⟩ := List.cons.inj hholes
          rw [depth_after]
          exact depthAfter_mono x (hbase hole' outer' rfl)
    | @hole hole s inner holes htracks =>
      obtain ⟨base, rfl⟩ := htracks.exists_append
      have hunder := nextToken_under hole inner base t
      rw [hinside, hinside] at hunder
      rw [List.cons_append] at hunder
      rw [hunder] at h
      cases hstep : nextToken.scanInside (hole :: inner) t with
      | none =>
        rw [hstep] at h
        cases h
      | some step =>
        obtain ⟨k, ⟨x, r⟩, inner'⟩ := step
        rw [hstep] at h
        cases h
        refine ⟨inner', by rw [hinside, hstep], ?_⟩
        rcases scanInside_cases hstep with ⟨hdepth, rfl, rfl⟩ | ⟨hdepth, rfl, rfl⟩ | ⟨rfl, rfl⟩
        · rw [hdepth] at hnest
          cases hnest
          exact htracks
        · rw [hdepth] at hnest
          cases hnest
          exact Tracks.hole ⟨hole.quote, 0, 0⟩ htracks
        · rw [nestSymbol?_replicate (by simp) hnest, ← depth_after hole x r]
          exact Tracks.hole (hole.after x r) htracks

/-- Where a bracket is the innermost thing open, or nothing is, a symbol may have any text behind it. -/
theorem Tracks.holesBehind_eq {s s' : List Opened} {inner holes : List Hole} {x : Text} (htracks : Tracks s inner holes)
    (hnest : nest? .symbol x s = some s') (hfirm : Firm s') (r r' : Text) :
    holesBehind inner x r' = holesBehind inner x r := by
  cases htracks with
  | outer n _ _ => rfl
  | hole hole htracks =>
    refine congrArg (· :: _) (after_eq (fun hx hdepth => ?_) r r')
    subst hx
    rw [hdepth] at hnest
    cases hnest
    exact hfirm rfl

end CSharpDraft.Fragment
