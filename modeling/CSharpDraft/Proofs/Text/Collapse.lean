import CSharpDraft.Proofs.Text.Lines

/-!
# One line, character by character

`collapse` splits a text into lines and joins what is left of them. Read from left to right, it replaces each run of
blanks that holds a line break by one space, keeps the other runs, and drops the blanks at both ends.

* `squeeze run t` : the text `t` behind the blanks `run`, changed in this way;
* `collapse_eq_squeeze` : the two definitions agree on texts that start with a character that is not blank;
* `squeeze_append`, `squeeze_of_oneLine`, `squeeze_append_gap` : what happens to the parts of a text that is put together
  from solid parts with gaps between them;
* `exists_collapse_append` : two texts in a row on one line are what the two become, with blanks between them.
-/

set_option autoImplicit false

namespace CSharpDraft.Text

/-- What stands for a run of blanks on one line. -/
def settle (run : Text) : Text := if run.any isLineBreak then [' '] else run

/-- The text behind the blanks `run`, with each run of blanks settled and without the blanks at its end. -/
def squeeze (run : Text) : Text → Text
  | [] => []
  | c :: r => if isBlankChar c then squeeze (run ++ [c]) r else settle run ++ c :: squeeze [] r

/-- The text starts with a character that is not blank. -/
def StartsSolid (t : Text) : Prop := ∃ c r, t = c :: r ∧ isBlankChar c = false

/-- The text ends with a character that is not blank. -/
def EndsSolid (t : Text) : Prop := ∃ r c, t = r ++ [c] ∧ isBlankChar c = false

theorem StartsSolid.append {s : Text} (h : StartsSolid s) (t : Text) : StartsSolid (s ++ t) := by
  obtain ⟨c, r, rfl, hc⟩ := h
  exact ⟨c, r ++ t, rfl, hc⟩

theorem EndsSolid.append {t : Text} (s : Text) (h : EndsSolid t) : EndsSolid (s ++ t) := by
  obtain ⟨r, c, rfl, hc⟩ := h
  exact ⟨s ++ r, c, (List.append_assoc s r [c]).symm, hc⟩

/-- A solid text has a first character, whatever stands behind it. -/
theorem EndsSolid.head?_append {t : Text} (h : EndsSolid t) (r r' : Text) : (t ++ r').head? = (t ++ r).head? := by
  obtain ⟨s, c, rfl, -⟩ := h
  simp [List.head?_append]

theorem endsSolid_singleton {c : Char} (h : isBlankChar c = false) : EndsSolid [c] := ⟨[], c, rfl, h⟩

theorem EndsSolid.of_cons {c : Char} {t : Text} (h : EndsSolid (c :: t)) :
    (t = [] ∧ isBlankChar c = false) ∨ EndsSolid t := by
  obtain ⟨r, d, heq, hd⟩ := h
  cases r with
  | nil =>
    obtain ⟨rfl, rfl⟩ := List.cons.inj heq
    exact Or.inl ⟨rfl, hd⟩
  | cons e r =>
    obtain ⟨-, rfl⟩ := List.cons.inj heq
    exact Or.inr ⟨r, d, rfl, hd⟩

theorem isLineBreak_of_solid {c : Char} (h : isBlankChar c = false) : isLineBreak c = false := by
  cases hbreak : isLineBreak c with
  | false => rfl
  | true =>
    rw [isBlankChar_of_isLineBreak hbreak] at h
    cases h

theorem oneLine_singleton {c : Char} (h : isBlankChar c = false) : OneLine [c] := by
  simp [isLineBreak_of_solid h]

theorem any_isLineBreak {t : Text} : t.any isLineBreak = true ↔ ¬ OneLine t := by
  simp [OneLine]

theorem settle_of_oneLine {run : Text} (h : OneLine run) : settle run = run := by
  rw [settle, if_neg (fun hany => any_isLineBreak.mp hany h)]

theorem settle_of_not_oneLine {run : Text} (h : ¬ OneLine run) : settle run = [' '] := by
  rw [settle, if_pos (any_isLineBreak.mpr h)]

theorem mem_settle {run : Text} {c : Char} (h : c ∈ settle run) : c = ' ' ∨ c ∈ run := by
  unfold settle at h
  split at h
  · exact Or.inl (List.mem_singleton.mp h)
  · exact Or.inr h

theorem settle_eq_nil {run : Text} (h : settle run = []) : run = [] := by
  unfold settle at h
  split at h
  · cases h
  · exact h

/-- A text with a line break, cut at its first one. -/
theorem exists_break {t : Text} (h : ¬ OneLine t) : ∃ a b r, t = a ++ b :: r ∧ OneLine a ∧ isLineBreak b = true := by
  induction t with
  | nil => exact absurd oneLine_nil h
  | cons c t ih =>
    cases hc : isLineBreak c with
    | true => exact ⟨[], c, t, rfl, oneLine_nil, hc⟩
    | false =>
      obtain ⟨a, b, r, rfl, ha, hb⟩ := ih (fun ht => h ((oneLine_cons c t).mpr ⟨hc, ht⟩))
      exact ⟨c :: a, b, r, rfl, (oneLine_cons c a).mpr ⟨hc, ha⟩, hb⟩

/-! ## Lines that are not blank -/

/-- The lines of a text that are not blank, trimmed. -/
def solidLines (t : Text) : List Text := ((lines t).map trim).filter (fun l => !l.isEmpty)

theorem collapse_eq_join (t : Text) : collapse t = join [' '] (solidLines t) := rfl

theorem trimRight_append_blank {run : Text} (h : ∀ c ∈ run, isBlankChar c = true) (u : Text) :
    trimRight (u ++ run) = trimRight u := by
  have hrev : ∀ c ∈ run.reverse, isBlankChar c = true := fun c hc => h c (List.mem_reverse.mp hc)
  rw [trimRight, List.reverse_append, List.dropWhile_append_of_pos hrev, trimRight]

theorem trimRight_of_endsSolid {u : Text} (h : EndsSolid u) : trimRight u = u := by
  obtain ⟨r, c, rfl, hc⟩ := h
  rw [trimRight, List.reverse_append, List.reverse_singleton, List.singleton_append,
    List.dropWhile_cons_of_neg (by simp [hc]), List.reverse_cons, List.reverse_reverse]

/-- What trimming cuts off at the end. -/
theorem exists_trimRight (t : Text) : ∃ b, t = trimRight t ++ b ∧ ∀ c ∈ b, isBlankChar c = true := by
  refine ⟨(t.reverse.takeWhile isBlankChar).reverse, ?_, fun c hc => ?_⟩
  · rw [trimRight, ← List.reverse_append, List.takeWhile_append_dropWhile, List.reverse_reverse]
  · exact List.all_eq_true.mp List.all_takeWhile c (List.mem_reverse.mp hc)

theorem trimRight_eq_nil_or (t : Text) : trimRight t = [] ∨ EndsSolid (trimRight t) := by
  unfold trimRight
  cases h : t.reverse.dropWhile isBlankChar with
  | nil => exact Or.inl rfl
  | cons c r =>
    have hc := List.head?_dropWhile_not isBlankChar t.reverse
    rw [h] at hc
    exact Or.inr ⟨r.reverse, c, List.reverse_cons, by simpa using hc⟩

theorem trimRight_trimRight (t : Text) : trimRight (trimRight t) = trimRight t := by
  rcases trimRight_eq_nil_or t with hnil | hsolid
  · rw [hnil]
    rfl
  · exact trimRight_of_endsSolid hsolid

theorem trimRight_append_solid {u : Text} (hu : EndsSolid u) (v : Text) : trimRight (u ++ v) = u ++ trimRight v := by
  obtain ⟨b, hv, hb⟩ := exists_trimRight v
  have htext : u ++ v = (u ++ trimRight v) ++ b := by rw [List.append_assoc, ← hv]
  rw [htext, trimRight_append_blank hb]
  rcases trimRight_eq_nil_or v with hnil | hsolid
  · rw [hnil, List.append_nil, trimRight_of_endsSolid hu]
  · rw [trimRight_of_endsSolid (hsolid.append u)]

theorem trim_append_blank {u run : Text} (hs : StartsSolid u) (he : EndsSolid u)
    (h : ∀ c ∈ run, isBlankChar c = true) : trim (u ++ run) = u := by
  have hleft : trimLeft (u ++ run) = u ++ run := by
    obtain ⟨c, r, rfl, hc⟩ := hs
    exact List.dropWhile_cons_of_neg (by simp [hc])
  rw [trim, hleft, trimRight_append_blank h, trimRight_of_endsSolid he]

theorem solidLines_of_lines_cons {t l : Text} {ls : List Text} (h : lines t = l :: ls) :
    solidLines t = (if trim l = [] then [] else [trim l]) ++ (ls.map trim).filter (fun l => !l.isEmpty) := by
  unfold solidLines
  rw [h, List.map_cons]
  by_cases hl : trim l = []
  · simp [hl]
  · simp [hl]

/-- A line break ends a line; a carriage return takes the line feed after it along. -/
theorem lines_cons_break {b : Char} (hb : isLineBreak b = true) (y : Text) :
    ∃ rest, lines (b :: y) = [] :: rest ∧ (rest.map trim).filter (fun l => !l.isEmpty) = solidLines y := by
  by_cases hreturn : b = '\r' ∧ ∃ r, y = '\n' :: r
  · obtain ⟨rfl, r, rfl⟩ := hreturn
    refine ⟨lines r, by rw [lines], ?_⟩
    rw [solidLines_of_lines_cons (lines_newline r)]
    rfl
  · refine ⟨lines y, ?_, rfl⟩
    rw [lines.eq_3 b y (fun r hbr hy => hreturn ⟨hbr, r, hy⟩)]
    simp [hb]

theorem lines_append_break {x : Text} (hx : OneLine x) {b : Char} (hb : isLineBreak b = true) (y : Text) :
    ∃ rest, lines (x ++ b :: y) = x :: rest ∧ (rest.map trim).filter (fun l => !l.isEmpty) = solidLines y := by
  induction x with
  | nil => exact lines_cons_break hb y
  | cons c x ih =>
    rw [oneLine_cons] at hx
    obtain ⟨rest, hlines, hrest⟩ := ih hx.2
    refine ⟨rest, ?_, hrest⟩
    rw [List.cons_append, lines_cons_of_not_break hx.1, hlines]
    rfl

theorem lines_of_oneLine {x : Text} (hx : OneLine x) (hne : x ≠ []) : lines x = [x] := by
  induction x with
  | nil => exact absurd rfl hne
  | cons c x ih =>
    rw [oneLine_cons] at hx
    rw [lines_cons_of_not_break hx.1]
    cases x with
    | nil => rfl
    | cons d x => rw [ih hx.2 (List.cons_ne_nil d x)]; rfl

theorem solidLines_cons_blank {b : Char} (hb : isBlankChar b = true) (y : Text) :
    solidLines (b :: y) = solidLines y := by
  by_cases hbreak : isLineBreak b = true
  · obtain ⟨rest, hlines, hrest⟩ := lines_cons_break hbreak y
    rw [solidLines_of_lines_cons hlines, hrest]
    rfl
  · have hlines : lines (b :: y) = consLine b (lines y) := lines_cons_of_not_break (by simpa using hbreak) y
    have htrim : ∀ l : Text, trim (b :: l) = trim l := by
      intro l
      rw [trim, trimLeft, List.dropWhile_cons_of_pos hb]
      rfl
    unfold solidLines
    rw [hlines]
    cases lines y with
    | nil =>
      rw [consLine, List.map_singleton, htrim []]
      rfl
    | cons l ls => simp [consLine, htrim]

theorem solidLines_blank_append {run : Text} (h : ∀ c ∈ run, isBlankChar c = true) (y : Text) :
    solidLines (run ++ y) = solidLines y := by
  induction run with
  | nil => rfl
  | cons c run ih =>
    rw [List.cons_append, solidLines_cons_blank (h c List.mem_cons_self),
      ih (fun d hd => h d (List.mem_cons_of_mem c hd))]

/-- Blanks with a line break among them end the line of what stands in front of them. -/
theorem solidLines_append_run {u run : Text} (hline : OneLine u) (hs : StartsSolid u) (he : EndsSolid u)
    (hblank : ∀ c ∈ run, isBlankChar c = true) (hrun : ¬ OneLine run) (y : Text) :
    solidLines (u ++ run ++ y) = u :: solidLines y := by
  obtain ⟨a, b, r, rfl, ha, hb⟩ := exists_break hrun
  have hua : OneLine (u ++ a) := (oneLine_append u a).mpr ⟨hline, ha⟩
  have htrim : trim (u ++ a) = u := trim_append_blank hs he (fun c hc => hblank c (List.mem_append_left _ hc))
  have hr : ∀ c ∈ r, isBlankChar c = true :=
    fun c hc => hblank c (List.mem_append_right _ (List.mem_cons_of_mem b hc))
  have hne : u ≠ [] := by
    obtain ⟨c, w, rfl, -⟩ := hs
    exact List.cons_ne_nil c w
  obtain ⟨rest, hlines, hrest⟩ := lines_append_break hua hb (r ++ y)
  have htext : u ++ (a ++ b :: r) ++ y = (u ++ a) ++ b :: (r ++ y) := by simp
  rw [htext, solidLines_of_lines_cons hlines, htrim, if_neg hne, hrest, solidLines_blank_append hr]
  rfl

/-! ## From left to right -/

/-- The line so far is solid, and the blanks behind it wait for what follows. -/
theorem collapse_append_run (t : Text) {u run : Text} (hline : OneLine u) (hs : StartsSolid u) (he : EndsSolid u)
    (hblank : ∀ c ∈ run, isBlankChar c = true) : collapse (u ++ run ++ t) = u ++ squeeze run t := by
  have hne : u ≠ [] := by
    obtain ⟨c, w, rfl, -⟩ := hs
    exact List.cons_ne_nil c w
  induction t generalizing u run with
  | nil =>
    rw [squeeze, List.append_nil, List.append_nil, collapse_eq_join]
    by_cases hrun : OneLine run
    · have hlines := lines_of_oneLine ((oneLine_append u run).mpr ⟨hline, hrun⟩) (by simp [hne])
      rw [solidLines_of_lines_cons hlines, trim_append_blank hs he hblank, if_neg hne]
      simp [join]
    · have hsolid := solidLines_append_run hline hs he hblank hrun []
      rw [List.append_nil] at hsolid
      rw [hsolid]
      simp [solidLines, lines, join]
  | cons c t ih =>
    cases hc : isBlankChar c with
    | true =>
      have hmore : ∀ d ∈ run ++ [c], isBlankChar d = true := by
        intro d hd
        rcases List.mem_append.mp hd with hd | hd
        · exact hblank d hd
        · rw [List.mem_singleton.mp hd]
          exact hc
      have htext : u ++ run ++ c :: t = u ++ (run ++ [c]) ++ t := by simp
      rw [squeeze, if_pos hc, htext, ih hline hs he hmore hne]
    | false =>
      rw [squeeze, if_neg (by simp [hc])]
      by_cases hrun : OneLine run
      · have htext : u ++ run ++ c :: t = (u ++ run ++ [c]) ++ [] ++ t := by simp
        have hnext : OneLine (u ++ run ++ [c]) := by simp [hline, hrun, isLineBreak_of_solid hc]
        rw [htext, ih hnext ((hs.append run).append [c]) ((endsSolid_singleton hc).append _) (by simp) (by simp),
          settle_of_oneLine hrun]
        simp
      · have htail : collapse (c :: t) = c :: squeeze [] t :=
          ih (oneLine_singleton hc) ⟨c, [], rfl, hc⟩ (endsSolid_singleton hc) (fun _ h => absurd h List.not_mem_nil)
            (List.cons_ne_nil c [])
        rw [collapse_eq_join] at htail
        rw [collapse_eq_join, solidLines_append_run hline hs he hblank hrun, settle_of_not_oneLine hrun, join]
        cases hlines : solidLines (c :: t) with
        | nil =>
          rw [hlines] at htail
          cases htail
        | cons l ls =>
          rw [hlines, join] at htail
          rw [List.intercalate_cons_cons, htail, List.append_assoc]

/-- The two ways to put a text on one line. -/
theorem collapse_eq_squeeze {t : Text} (h : StartsSolid t) : collapse t = squeeze [] t := by
  obtain ⟨c, r, rfl, hc⟩ := h
  rw [squeeze, if_neg (by simp [hc])]
  exact collapse_append_run r (oneLine_singleton hc) ⟨c, [], rfl, hc⟩ (endsSolid_singleton hc)
    (fun _ h => absurd h List.not_mem_nil)

/-! ## Texts put together from parts -/

theorem mem_squeeze {c : Char} {run t : Text} (h : c ∈ squeeze run t) : c = ' ' ∨ c ∈ run ∨ c ∈ t := by
  induction t generalizing run with
  | nil => cases h
  | cons d t ih =>
    rw [squeeze] at h
    split at h
    · rcases ih h with rfl | hc | hc
      · exact Or.inl rfl
      · rcases List.mem_append.mp hc with hc | hc
        · exact Or.inr (Or.inl hc)
        · rw [List.mem_singleton.mp hc]
          exact Or.inr (Or.inr List.mem_cons_self)
      · exact Or.inr (Or.inr (List.mem_cons_of_mem d hc))
    · rcases List.mem_append.mp h with hc | hc
      · rcases mem_settle hc with rfl | hc
        · exact Or.inl rfl
        · exact Or.inr (Or.inl hc)
      · rcases List.mem_cons.mp hc with rfl | hc
        · exact Or.inr (Or.inr List.mem_cons_self)
        · rcases ih hc with rfl | hc | hc
          · exact Or.inl rfl
          · cases hc
          · exact Or.inr (Or.inr (List.mem_cons_of_mem d hc))

theorem squeeze_ne_nil {x : Text} (h : EndsSolid x) (run : Text) : squeeze run x ≠ [] := by
  induction x generalizing run with
  | nil =>
    obtain ⟨r, c, heq, -⟩ := h
    simp at heq
  | cons c x ih =>
    rw [squeeze]
    split
    · next hblank =>
      rcases h.of_cons with ⟨-, hc⟩ | hx
      · rw [hblank] at hc
        cases hc
      · exact ih hx _
    · simp

theorem squeeze_eq_nil_or (run t : Text) : squeeze run t = [] ∨ EndsSolid (squeeze run t) := by
  induction t generalizing run with
  | nil => exact Or.inl rfl
  | cons c t ih =>
    rw [squeeze]
    split
    · exact ih _
    · next hc =>
      rw [← List.singleton_append, ← List.append_assoc]
      refine Or.inr ?_
      rcases ih [] with hnil | hsolid
      · rw [hnil, List.append_nil]
        exact (endsSolid_singleton (by simpa using hc)).append _
      · exact hsolid.append _

/-- The line of a text that starts with a character that is not blank starts and ends with one. -/
theorem solid_collapse {t : Text} (h : StartsSolid t) : StartsSolid (collapse t) ∧ EndsSolid (collapse t) := by
  rw [collapse_eq_squeeze h]
  obtain ⟨c, r, rfl, hc⟩ := h
  have hstarts : StartsSolid (squeeze [] (c :: r)) := ⟨c, squeeze [] r, by simp [squeeze, hc, settle], hc⟩
  refine ⟨hstarts, (squeeze_eq_nil_or [] (c :: r)).resolve_left ?_⟩
  obtain ⟨d, q, hq, -⟩ := hstarts
  rw [hq]
  exact List.cons_ne_nil d q

/-- What trimming cuts off at the start. -/
theorem exists_trimLeft (t : Text) : ∃ b, t = b ++ trimLeft t ∧ ∀ c ∈ b, isBlankChar c = true :=
  ⟨t.takeWhile isBlankChar, List.takeWhile_append_dropWhile.symm, List.all_eq_true.mp List.all_takeWhile⟩

theorem trimLeft_eq_nil_or (t : Text) : trimLeft t = [] ∨ StartsSolid (trimLeft t) := by
  unfold trimLeft
  cases h : t.dropWhile isBlankChar with
  | nil => exact Or.inl rfl
  | cons c r =>
    have hc := List.head?_dropWhile_not isBlankChar t
    rw [h] at hc
    exact Or.inr ⟨c, r, rfl, by simpa using hc⟩

theorem trim_eq_nil_or (t : Text) : trim t = [] ∨ StartsSolid (trim t) := by
  rw [trim]
  rcases trimLeft_eq_nil_or t with hnil | ⟨c, r, hcons, hc⟩
  · rw [hnil]
    exact Or.inl rfl
  · rw [hcons]
    exact Or.inr ⟨c, trimRight r, trimRight_append_solid (endsSolid_singleton hc) r, hc⟩

theorem isBlank_of_startsSolid {t : Text} (h : StartsSolid t) : isBlank t = false := by
  obtain ⟨c, r, rfl, hc⟩ := h
  simp [isBlank, hc]

/-- The blanks around a solid end are settled on their own. -/
theorem squeeze_append {x : Text} (h : EndsSolid x) (run y : Text) :
    squeeze run (x ++ y) = squeeze run x ++ squeeze [] y := by
  induction x generalizing run with
  | nil =>
    obtain ⟨r, c, heq, -⟩ := h
    simp at heq
  | cons c x ih =>
    rw [List.cons_append, squeeze, squeeze]
    rcases h.of_cons with ⟨rfl, hc⟩ | hx
    · simp [hc, squeeze]
    · split
      · exact ih hx _
      · rw [ih hx, List.append_assoc, List.cons_append]

/-- A text without line breaks stays as it is. -/
theorem squeeze_of_oneLine {x : Text} (hline : OneLine x) (he : EndsSolid x) {run : Text} (hrun : OneLine run) :
    squeeze run x = run ++ x := by
  induction x generalizing run with
  | nil =>
    obtain ⟨r, c, h, -⟩ := he
    simp at h
  | cons c x ih =>
    rw [oneLine_cons] at hline
    rw [squeeze]
    cases hc : isBlankChar c with
    | true =>
      rcases he.of_cons with ⟨-, hsolid⟩ | hx
      · rw [hc] at hsolid
        cases hsolid
      · rw [if_pos rfl, ih hline.2 hx ((oneLine_append run [c]).mpr ⟨hrun, by simp [hline.1]⟩)]
        simp
    | false =>
      rw [if_neg (by simp), settle_of_oneLine hrun]
      rcases he.of_cons with ⟨rfl, -⟩ | hx
      · rfl
      · rw [ih hline.2 hx oneLine_nil]
        rfl

theorem collapse_of_oneLine {t : Text} (hline : OneLine t) (hstarts : StartsSolid t) (hends : EndsSolid t) :
    collapse t = t := by
  rw [collapse_eq_squeeze hstarts, squeeze_of_oneLine hline hends oneLine_nil, List.nil_append]

/-- A line that is collapsed stays as it is. -/
theorem collapse_collapse {t : Text} (h : StartsSolid t) : collapse (collapse t) = collapse t := by
  obtain ⟨hstarts, hends⟩ := solid_collapse h
  exact collapse_of_oneLine (oneLine_collapse t) hstarts hends

/-- A gap in front of a solid part becomes another gap, which is empty only if the first is. -/
theorem squeeze_append_gap {p : Char → Bool} (hspace : p ' ' = true) {y : Text} (hy : StartsSolid y) (g : Text)
    {run : Text} (hp : ∀ c ∈ run ++ g, p c = true) :
    ∃ g', squeeze run (g ++ y) = g' ++ squeeze [] y ∧ (∀ c ∈ g', p c = true) ∧ (g' = [] → run ++ g = []) := by
  induction g generalizing run with
  | nil =>
    obtain ⟨c, r, rfl, hc⟩ := hy
    refine ⟨settle run, ?_, ?_, fun h => by rw [settle_eq_nil h, List.append_nil]⟩
    · rw [List.nil_append, squeeze, if_neg (by simp [hc]), squeeze, if_neg (by simp [hc])]
      rfl
    · intro c hc
      rcases mem_settle hc with rfl | hc
      · exact hspace
      · exact hp c (List.mem_append_left _ hc)
  | cons c g ih =>
    have hsplit : run ++ c :: g = (run ++ [c]) ++ g := by simp
    rw [hsplit] at hp ⊢
    rw [List.cons_append, squeeze]
    cases hc : isBlankChar c with
    | true =>
      rw [if_pos rfl]
      exact ih hp
    | false =>
      have hg : ∀ d ∈ ([] : Text) ++ g, p d = true := fun d hd => hp d (List.mem_append_right _ hd)
      obtain ⟨g', hsqueeze, hg', -⟩ := ih hg
      refine ⟨settle run ++ c :: g', ?_, ?_, by simp⟩
      · rw [if_neg (by simp), hsqueeze]
        simp
      · intro d hd
        rcases List.mem_append.mp hd with hd | hd
        · rcases mem_settle hd with rfl | hd
          · exact hspace
          · exact hp d (by simp [hd])
        · rcases List.mem_cons.mp hd with rfl | hd
          · exact hp d (by simp)
          · exact hg' d hd

theorem squeeze_cons_solid {c : Char} (hc : isBlankChar c = false) (y : Text) :
    squeeze [] (c :: y) = c :: squeeze [] y := by
  rw [squeeze, if_neg (by simp [hc])]
  rfl

/-- Behind blanks, a squeezed text starts with a blank, unless nothing else follows. -/
theorem squeeze_run {run : Text} (hne : run ≠ []) (hblank : ∀ c ∈ run, isBlankChar c = true) (y : Text) :
    squeeze run y = [] ∨ ∃ b t, squeeze run y = b :: t ∧ isBlankChar b = true := by
  induction y generalizing run with
  | nil => exact Or.inl rfl
  | cons c y ih =>
    rw [squeeze]
    cases hc : isBlankChar c with
    | true =>
      rw [if_pos rfl]
      refine ih (by simp) (fun d hd => ?_)
      rcases List.mem_append.mp hd with hd | hd
      · exact hblank d hd
      · rw [List.mem_singleton.mp hd]
        exact hc
    | false =>
      rw [if_neg (by simp)]
      cases hsettle : settle run with
      | nil => exact absurd (settle_eq_nil hsettle) hne
      | cons b t =>
        refine Or.inr ⟨b, _, rfl, ?_⟩
        have hb : b ∈ settle run := by simp [hsettle]
        rcases mem_settle hb with rfl | hb
        · rfl
        · exact hblank b hb

/-- What a squeezed text starts with, up to the first blank, the text itself starts with. -/
theorem prefix_of_prefix_squeeze {s y : Text} (hs : ∀ c ∈ s, isBlankChar c = false) (h : s <+: squeeze [] y) :
    s <+: y := by
  induction s generalizing y with
  | nil => exact List.nil_prefix
  | cons c s ih =>
    have hc := hs c List.mem_cons_self
    cases y with
    | nil => exact h
    | cons d y =>
      cases hd : isBlankChar d with
      | true =>
        rw [squeeze, if_pos hd, List.nil_append] at h
        rcases squeeze_run (List.cons_ne_nil d []) (by simpa using hd) y with hnil | ⟨b, t, hcons, hb⟩
        · rw [hnil, List.prefix_nil] at h
          cases h
        · rw [hcons, List.cons_prefix_cons] at h
          rw [h.1, hb] at hc
          cases hc
      | false =>
        rw [squeeze_cons_solid hd, List.cons_prefix_cons] at h
        exact List.cons_prefix_cons.mpr ⟨h.1, ih (fun e he => hs e (List.mem_cons_of_mem c he)) h.2⟩

/-! ## Texts in a row -/

theorem collapse_blank_append {w : Text} (h : ∀ c ∈ w, isBlankChar c = true) (t : Text) :
    collapse (w ++ t) = collapse t := by
  rw [collapse_eq_join, solidLines_blank_append h, collapse_eq_join]

theorem collapse_of_blank {w : Text} (h : ∀ c ∈ w, isBlankChar c = true) : collapse w = [] := by
  have hempty := collapse_blank_append h []
  rwa [List.append_nil] at hempty

theorem squeeze_of_blank {w : Text} (h : ∀ c ∈ w, isBlankChar c = true) (run : Text) : squeeze run w = [] := by
  induction w generalizing run with
  | nil => rfl
  | cons c w ih =>
    rw [squeeze, if_pos (h c List.mem_cons_self)]
    exact ih (fun d hd => h d (List.mem_cons_of_mem c hd)) _

theorem collapse_trimLeft (t : Text) : collapse (trimLeft t) = collapse t := by
  obtain ⟨b, ht, hb⟩ := exists_trimLeft t
  conv => rhs; rw [ht]
  exact (collapse_blank_append hb _).symm

theorem squeeze_trimLeft (t : Text) : squeeze [] (trimLeft t) = collapse t := by
  rw [← collapse_trimLeft]
  rcases trimLeft_eq_nil_or t with hnil | hsolid
  · rw [hnil]
    rfl
  · exact (collapse_eq_squeeze hsolid).symm

/-- Behind other text, the blanks in front of a text do not go away. -/
theorem exists_squeeze_eq (t : Text) : ∃ g, (∀ c ∈ g, isBlankChar c = true) ∧ squeeze [] t = g ++ collapse t := by
  obtain ⟨b, ht, hb⟩ := exists_trimLeft t
  rw [← squeeze_trimLeft t]
  rcases trimLeft_eq_nil_or t with hnil | hsolid
  · rw [hnil, List.append_nil] at ht
    rw [hnil, ht, squeeze_of_blank hb]
    exact ⟨[], fun _ h => absurd h List.not_mem_nil, rfl⟩
  · have hrun : ∀ c ∈ [] ++ b, isBlankChar c = true := hb
    obtain ⟨g, hsqueeze, hg, -⟩ := squeeze_append_gap rfl hsolid b hrun
    rw [← ht] at hsqueeze
    exact ⟨g, hg, hsqueeze⟩

/-- Trimming at the start leaves a solid end alone, and what stands behind it. -/
theorem EndsSolid.trimLeft_append {x : Text} (h : EndsSolid x) (y : Text) :
    EndsSolid (trimLeft x) ∧ trimLeft (x ++ y) = trimLeft x ++ y := by
  obtain ⟨r, c, rfl, hc⟩ := h
  have hcons (z : Text) : (c :: z).dropWhile isBlankChar = c :: z := List.dropWhile_cons_of_neg (by simp [hc])
  rw [List.append_assoc, List.singleton_append, trimLeft, trimLeft, List.dropWhile_append, List.dropWhile_append, hcons,
    hcons]
  split
  · exact ⟨endsSolid_singleton hc, rfl⟩
  · exact ⟨(endsSolid_singleton hc).append _, by simp⟩

theorem collapse_trimRight (t : Text) : collapse (trimRight t) = collapse t := by
  obtain ⟨b, ht, hb⟩ := exists_trimRight t
  conv => rhs; rw [ht]
  rcases trimRight_eq_nil_or t with hnil | hends
  · rw [hnil, List.nil_append, collapse_of_blank hb]
    rfl
  · obtain ⟨hsolid, htrim⟩ := hends.trimLeft_append b
    rw [← squeeze_trimLeft (trimRight t ++ b), htrim, squeeze_append hsolid, squeeze_of_blank hb, List.append_nil,
      squeeze_trimLeft]

theorem collapse_trim (t : Text) : collapse (trim t) = collapse t := by
  rw [trim, collapse_trimRight, collapse_trimLeft]

theorem collapse_append_blank {w : Text} (h : ∀ c ∈ w, isBlankChar c = true) (t : Text) :
    collapse (t ++ w) = collapse t := by
  rw [← collapse_trimRight, trimRight_append_blank h, collapse_trimRight]

/-- Texts in a row on one line: blanks between them are all there is besides what each of them becomes. -/
theorem exists_collapse_append (x y : Text) :
    ∃ g, (∀ c ∈ g, isBlankChar c = true) ∧ collapse (x ++ y) = collapse x ++ g ++ collapse y := by
  obtain ⟨b, hx, hb⟩ := exists_trimRight x
  rw [← collapse_trimRight x]
  rcases trimRight_eq_nil_or x with hnil | hends
  · rw [hnil, List.nil_append] at hx
    rw [hnil, hx, collapse_blank_append hb]
    exact ⟨[], fun _ h => absurd h List.not_mem_nil, rfl⟩
  · obtain ⟨hsolid, htrim⟩ := hends.trimLeft_append (b ++ y)
    obtain ⟨g, hg, hsqueeze⟩ := exists_squeeze_eq (b ++ y)
    rw [collapse_blank_append hb] at hsqueeze
    refine ⟨g, hg, ?_⟩
    conv => lhs; rw [hx]
    rw [List.append_assoc, ← squeeze_trimLeft, htrim, squeeze_append hsolid, hsqueeze, squeeze_trimLeft,
      List.append_assoc]

/-- A text on one line starts and ends with characters that are not blank, if there is anything on the line. -/
theorem collapse_eq_nil_or (t : Text) : collapse t = [] ∨ StartsSolid (collapse t) ∧ EndsSolid (collapse t) := by
  obtain ⟨b, ht, hb⟩ := exists_trimLeft t
  rcases trimLeft_eq_nil_or t with hnil | hsolid
  · rw [hnil, List.append_nil] at ht
    rw [ht]
    exact Or.inl (collapse_of_blank hb)
  · rw [ht, collapse_blank_append hb]
    exact Or.inr (solid_collapse hsolid)

/-- A text on one line starts as the text does behind the blanks in front of it. -/
theorem head?_collapse (t : Text) : (collapse t).head? = (trim t).head? := by
  rw [← squeeze_trimLeft, trim]
  rcases trimLeft_eq_nil_or t with hnil | ⟨c, r, hcons, hc⟩
  · rw [hnil]
    rfl
  · rw [hcons, squeeze_cons_solid hc, ← List.singleton_append (l := r), trimRight_append_solid (endsSolid_singleton hc)]
    rfl

theorem trimLeft_collapse (t : Text) : trimLeft (collapse t) = collapse t := by
  rcases collapse_eq_nil_or t with hnil | ⟨⟨c, r, hcons, hc⟩, -⟩
  · rw [hnil]
    rfl
  · rw [hcons]
    exact List.dropWhile_cons_of_neg (by simp [hc])

theorem trimRight_collapse (t : Text) : trimRight (collapse t) = collapse t := by
  rcases collapse_eq_nil_or t with hnil | ⟨-, hends⟩
  · rw [hnil]
    rfl
  · exact trimRight_of_endsSolid hends

end CSharpDraft.Text
