import CSharpDraft.Proofs.Text.Lines

/-!
# Lines of code and lines of comment

A line whose first characters, blanks apart, are `///` is a comment. `codeLines` leaves these lines out, and the lemmas
say how the other lines go through joining and indenting, whatever line breaks the texts have.

* `codeRows` : the lines of code of a text that a line feed follows; texts that are joined to lines keep theirs
  (`codeRows_unlines`);
* `Headed` : the first line of the text is not empty, so indenting moves this line as it moves the others
  (`Headed.lines_indent`, `Headed.codeRows_indent`);
* `codeLines_eq_codeRows` : a line feed after a last line that is not empty makes no difference.
-/

set_option autoImplicit false

namespace CSharpDraft.Text

def isComment (l : Text) : Bool := "///".toList.isPrefixOf (trimLeft l)

def codeLines (t : Text) : List Text := (lines t).filter (fun l => !isComment l)

/-- The lines of code of a text that a line feed follows. -/
def codeRows (t : Text) : List Text := codeLines (t ++ ['\n'])

/-- The first line of the text is not empty. -/
def Headed : Text → Prop
  | [] => False
  | c :: _ => isLineBreak c = false

instance : DecidablePred Headed
  | [] => inferInstanceAs (Decidable False)
  | c :: _ => inferInstanceAs (Decidable (isLineBreak c = false))

/-! ## Texts with a first line -/

theorem Headed.append {s : Text} (h : Headed s) (t : Text) : Headed (s ++ t) := by
  cases s with
  | nil => exact h.elim
  | cons c s => exact h

theorem Headed.ne_nil {t : Text} (h : Headed t) : t ≠ [] := by
  rintro rfl
  exact h

theorem Headed.join {l : Text} (h : Headed l) (separator : Text) (ls : List Text) :
    Headed (join separator (l :: ls)) := by
  rw [join_cons]
  exact h.append _

theorem Headed.unlines {l : Text} (h : Headed l) (ls : List Text) : Headed (unlines (l :: ls)) := h.join ['\n'] ls

theorem OneLine.headed {t : Text} (h : OneLine t) (hne : t ≠ []) : Headed t := by
  cases t with
  | nil => exact absurd rfl hne
  | cons c r => exact h c List.mem_cons_self

/-! ## Splitting behind a line feed -/

/-- A line break ends its line, unless the line feed after it does so. -/
theorem lines_cons {c : Char} {r : Text} (h : c = '\r' → r.head? ≠ some '\n') :
    lines (c :: r) = if isLineBreak c then [] :: lines r else consLine c (lines r) :=
  lines.eq_3 c r (fun _ hc hr => h hc (by rw [hr]; rfl))

theorem consLine_append {c : Char} {ls : List Text} (h : ls ≠ []) (ms : List Text) :
    consLine c (ls ++ ms) = consLine c ls ++ ms := by
  cases ls with
  | nil => exact absurd rfl h
  | cons l ls => rfl

theorem lines_ne_nil {t : Text} (h : t ≠ []) : lines t ≠ [] := by
  fun_cases lines t with
  | case1 => exact absurd rfl h
  | case2 r => simp
  | case3 c r _ hc => simp
  | case4 c r _ hc =>
    cases lines r with
    | nil => simp [consLine]
    | cons l ls => simp [consLine]

theorem lines_append_newline_cons (s r : Text) : lines (s ++ '\n' :: r) = lines (s ++ ['\n']) ++ lines r := by
  induction s using lines.induct with
  | case1 => simp [lines]
  | case2 s ih => simp only [List.cons_append, lines, ih]
  | case3 c s hcr hc ih =>
    by_cases hs : s = []
    · subst hs
      by_cases hr : c = '\r'
      · subst hr
        simp [lines]
      · simp [lines_cons (r := '\n' :: r) (fun h => absurd h hr), lines_cons (r := ['\n']) (fun h => absurd h hr), hc,
          lines]
    · have hhead (t : Text) (hreturn : c = '\r') : (s ++ '\n' :: t).head? ≠ some '\n' := by
        obtain ⟨d, s, rfl⟩ := List.exists_cons_of_ne_nil hs
        rintro h
        exact hcr s hreturn (by simpa using h)
      rw [List.cons_append, List.cons_append, lines_cons (hhead r), lines_cons (hhead []), if_pos hc, if_pos hc, ih]
      rfl
  | case4 c s _ hc ih =>
    have hc : isLineBreak c = false := by simpa using hc
    rw [List.cons_append, List.cons_append, lines_cons_of_not_break hc, lines_cons_of_not_break hc, ih,
      consLine_append (lines_ne_nil (by simp))]

/-- A line feed behind a last line that is not empty starts no further line. -/
theorem lines_append_newline_of_getLast? {t : Text} {c : Char} (ht : t.getLast? = some c) (hc : isLineBreak c = false) :
    lines (t ++ ['\n']) = lines t := by
  obtain ⟨s, rfl⟩ := List.getLast?_eq_some_iff.mp ht
  induction s using lines.induct with
  | case1 => rw [List.nil_append, List.singleton_append, lines_cons_of_not_break hc, lines_cons_of_not_break hc]; rfl
  | case2 s ih => simpa only [List.cons_append, lines, List.cons.injEq, true_and] using ih (by simp)
  | case3 d s hds hd ih =>
    have hhead (t : Text) (hreturn : d = '\r') : (s ++ c :: t).head? ≠ some '\n' := by
      cases s with
      | nil =>
        rintro h
        rw [List.nil_append, List.head?_cons, Option.some.injEq] at h
        subst h
        exact absurd hc (by decide)
      | cons e s =>
        rintro h
        exact hds s hreturn (by simpa using h)
    have hs := ih (by simp)
    rw [List.append_assoc, List.singleton_append] at hs ⊢
    rw [List.cons_append, List.cons_append, lines_cons (hhead ['\n']), lines_cons (hhead []), if_pos hd, if_pos hd, hs]
  | case4 d s _ hd ih =>
    have hd : isLineBreak d = false := by simpa using hd
    rw [List.cons_append, List.cons_append, lines_cons_of_not_break hd, lines_cons_of_not_break hd, ih (by simp)]

theorem codeLines_eq_codeRows {t : Text} {c : Char} (ht : t.getLast? = some c) (hc : isLineBreak c = false) :
    codeLines t = codeRows t := by rw [codeRows, codeLines, codeLines, lines_append_newline_of_getLast? ht hc]

/-! ## Lines of code of joined texts -/

theorem codeRows_append_newline_cons (s r : Text) : codeRows (s ++ '\n' :: r) = codeRows s ++ codeRows r := by
  rw [codeRows, codeLines, List.append_assoc, List.cons_append, lines_append_newline_cons, List.filter_append]
  rfl

/-- Texts that are joined to lines keep their lines of code. -/
theorem codeRows_unlines {ts : List Text} (h : ts ≠ []) : codeRows (unlines ts) = ts.flatMap codeRows := by
  induction ts with
  | nil => exact absurd rfl h
  | cons t ts ih =>
    by_cases hts : ts = []
    · simp [hts]
    · rw [unlines_cons hts, codeRows_append_newline_cons, ih hts, List.flatMap_cons]

theorem codeRows_of_isComment {l : Text} (h : OneLine l) (hl : isComment l = true) : codeRows l = [] := by
  rw [codeRows, codeLines, lines_append_newline h]
  simp [hl, lines]

theorem getLast?_unlines_concat (ls : List Text) {l : Text} (h : l ≠ []) :
    (unlines (ls ++ [l])).getLast? = l.getLast? := by
  by_cases hls : ls = []
  · simp [hls]
  · obtain ⟨c, l, rfl⟩ := List.exists_cons_of_ne_nil h
    rw [unlines_append hls (by simp), unlines_singleton, List.getLast?_append, List.getLast?_cons_cons]
    simp [List.getLast?_cons]

/-! ## Lines of code of indented texts -/

theorem isComment_indentLine (l : Text) : isComment (indentLine l) = isComment l := by
  unfold indentLine
  split
  · next h => rw [List.isEmpty_iff.mp h]
  · rfl

theorem oneLine_indentLine {l : Text} (h : OneLine l) : OneLine (indentLine l) := by
  unfold indentLine
  split
  · exact oneLine_nil
  · rw [oneLine_append]
    exact ⟨by decide, h⟩

theorem Headed.exists_lines {t : Text} (h : Headed t) : ∃ l ls, lines (t ++ ['\n']) = l :: ls ∧ l ≠ [] := by
  cases t with
  | nil => exact h.elim
  | cons c r =>
    rw [List.cons_append, lines_cons_of_not_break h]
    obtain ⟨l, ls, hl⟩ := List.exists_cons_of_ne_nil (lines_ne_nil (t := r ++ ['\n']) (by simp))
    exact ⟨c :: l, ls, by rw [hl]; rfl, by simp⟩

theorem Headed.indent {t : Text} (h : Headed t) : Headed (indent t) := by
  obtain ⟨l, ls, hls, -⟩ := h.exists_lines
  have hl : Headed (margin ++ l) := rfl
  rw [Text.indent, hls]
  exact hl.unlines _

/-- A text with a first line is indented line by line. -/
theorem Headed.lines_indent {t : Text} (h : Headed t) :
    lines (Text.indent t ++ ['\n']) = (lines (t ++ ['\n'])).map indentLine := by
  obtain ⟨l, ls, hls, hl⟩ := h.exists_lines
  have hone : ∀ k ∈ (lines (t ++ ['\n'])).map indentLine, OneLine k := by
    intro k hk
    obtain ⟨m, hm, rfl⟩ := List.mem_map.mp hk
    exact oneLine_indentLine (oneLine_of_mem_lines _ m hm)
  rw [← lines_unlines (by simp [hls]) hone, Text.indent, hls]
  simp [indentLine, hl]

theorem Headed.codeRows_indent {t : Text} (h : Headed t) : codeRows (Text.indent t) = (codeRows t).map indentLine := by
  rw [codeRows, codeLines, h.lines_indent, List.filter_map]
  simp only [Function.comp_def, isComment_indentLine]
  rfl

end CSharpDraft.Text
