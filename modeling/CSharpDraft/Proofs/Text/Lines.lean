import CSharpDraft.Text.Basic

/-!
# Lines and indentation

Texts without a line break, and what splitting, joining and indenting do to them.

* `Text.OneLine` : the text has no line break (`oneLine_append`, `oneLine_join`, `oneLine_collapse`);
* `lines_unlines` : lines that are `OneLine` are found again in the text that they make;
* `HaveLines` : texts of several lines each make the text of all their lines (`HaveLines.unlines_eq`);
* `indent_unlines` : indenting a text that starts with a non-empty line indents each of its lines.
-/

set_option autoImplicit false

namespace CSharpDraft.Text

/-! ## Texts without line breaks -/

def OneLine (t : Text) : Prop := ∀ c ∈ t, isLineBreak c = false

instance (t : Text) : Decidable (OneLine t) := List.decidableBAll (fun c => isLineBreak c = false) t

@[simp] theorem oneLine_nil : OneLine [] := fun c hc => by simp at hc

@[simp] theorem oneLine_cons (c : Char) (t : Text) : OneLine (c :: t) ↔ isLineBreak c = false ∧ OneLine t := by
  simp [OneLine]

@[simp] theorem oneLine_append (s t : Text) : OneLine (s ++ t) ↔ OneLine s ∧ OneLine t := by
  simp only [OneLine, List.mem_append]
  constructor
  · intro h
    exact ⟨fun c hc => h c (Or.inl hc), fun c hc => h c (Or.inr hc)⟩
  · rintro ⟨hs, ht⟩ c (hc | hc)
    · exact hs c hc
    · exact ht c hc

theorem OneLine.of_subset {s t : Text} (h : OneLine t) (hs : s ⊆ t) : OneLine s := fun c hc => h c (hs hc)

theorem oneLine_replicate_space (n : Nat) : OneLine (List.replicate n ' ') := by
  intro c hc
  rw [List.eq_of_mem_replicate hc]
  decide

theorem oneLine_join {separator : Text} {ts : List Text} (hs : OneLine separator) (h : ∀ t ∈ ts, OneLine t) :
    OneLine (join separator ts) := by
  unfold join
  induction ts with
  | nil => simp
  | cons t ts ih =>
    have ht : OneLine t := h t List.mem_cons_self
    have hts := ih (fun u hu => h u (List.mem_cons_of_mem t hu))
    cases ts with
    | nil => simpa using ht
    | cons u us =>
      rw [List.intercalate_cons_cons, oneLine_append, oneLine_append]
      exact ⟨⟨ht, hs⟩, hts⟩

/-! ## Trimming -/

theorem trimLeft_subset (t : Text) : trimLeft t ⊆ t := (List.dropWhile_suffix isBlankChar).subset

theorem trimRight_subset (t : Text) : trimRight t ⊆ t := by
  intro c hc
  have h : c ∈ t.reverse := (List.dropWhile_suffix isBlankChar).subset (List.mem_reverse.mp hc)
  exact List.mem_reverse.mp h

theorem trim_subset (t : Text) : trim t ⊆ t := fun _ hc => trimLeft_subset t (trimRight_subset _ hc)

theorem dropLeading_subset (c : Char) (t : Text) : dropLeading c t ⊆ t := by
  cases t with
  | nil => simp [dropLeading]
  | cons d r =>
    rw [dropLeading]
    by_cases h : d = c
    · rw [if_pos h]
      exact List.subset_cons_self d r
    · rw [if_neg h]
      exact List.Subset.refl _

theorem dropTrailing_subset (c : Char) (t : Text) : dropTrailing c t ⊆ t := by
  intro d hd
  have h : d ∈ t.reverse := dropLeading_subset c t.reverse (List.mem_reverse.mp hd)
  exact List.mem_reverse.mp h

/-! ## Joining lines -/

theorem join_cons (separator l : Text) (ls : List Text) :
    join separator (l :: ls) = l ++ ls.flatMap (separator ++ ·) := by
  induction ls generalizing l with
  | nil => simp [join]
  | cons m ls ih =>
    have hm := ih m
    unfold join at hm ⊢
    rw [List.intercalate_cons_cons, hm, List.flatMap_cons, List.append_assoc, List.append_assoc]

theorem join_append {separator : Text} {ls ms : List Text} (hl : ls ≠ []) (hm : ms ≠ []) :
    join separator (ls ++ ms) = join separator ls ++ separator ++ join separator ms := by
  obtain ⟨l, ls, rfl⟩ := List.exists_cons_of_ne_nil hl
  obtain ⟨m, ms, rfl⟩ := List.exists_cons_of_ne_nil hm
  rw [List.cons_append, join_cons, join_cons, join_cons, List.flatMap_append, List.flatMap_cons]
  simp only [List.append_assoc]

@[simp] theorem unlines_singleton (l : Text) : unlines [l] = l := by simp [unlines, join]

theorem unlines_cons {l : Text} {ls : List Text} (h : ls ≠ []) : unlines (l :: ls) = l ++ '\n' :: unlines ls := by
  simp [unlines, join, List.intercalate_cons_of_ne_nil h]

theorem unlines_append {ls ms : List Text} (hl : ls ≠ []) (hm : ms ≠ []) :
    unlines (ls ++ ms) = unlines ls ++ '\n' :: unlines ms := by
  rw [unlines, join_append hl hm, List.append_assoc]
  rfl

/-- Texts of several lines each make the text of all their lines. -/
theorem unlines_map_unlines {ps : List (List Text)} (h : ∀ p ∈ ps, p ≠ []) :
    unlines (ps.map unlines) = unlines ps.flatten := by
  induction ps with
  | nil => rfl
  | cons p ps ih =>
    have hp : p ≠ [] := h p List.mem_cons_self
    have hps := ih (fun q hq => h q (List.mem_cons_of_mem p hq))
    cases ps with
    | nil => simp
    | cons q qs =>
      have hq : q ≠ [] := h q (List.mem_cons_of_mem p List.mem_cons_self)
      have hf : (q :: qs).flatten ≠ [] := by simp [hq]
      rw [List.map_cons, unlines_cons (by simp), hps, ← unlines_append hp hf]
      rfl

/-- The texts have these lines, one text after the other, and each text has at least one of them. -/
def HaveLines (ts ls : List Text) : Prop :=
  ∃ ps : List (List Text), (∀ p ∈ ps, p ≠ []) ∧ ts = ps.map unlines ∧ ls = ps.flatten

theorem HaveLines.nil : HaveLines [] [] := ⟨[], by simp, rfl, rfl⟩

theorem HaveLines.single {ls : List Text} (h : ls ≠ []) : HaveLines [unlines ls] ls :=
  ⟨[ls], by simpa using h, rfl, by simp⟩

theorem HaveLines.append {ts us ls ms : List Text} (ht : HaveLines ts ls) (hu : HaveLines us ms) :
    HaveLines (ts ++ us) (ls ++ ms) := by
  obtain ⟨ps, hps, rfl, rfl⟩ := ht
  obtain ⟨qs, hqs, rfl, rfl⟩ := hu
  refine ⟨ps ++ qs, fun p hp => ?_, by rw [List.map_append], by rw [List.flatten_append]⟩
  rcases List.mem_append.mp hp with hp | hp
  · exact hps p hp
  · exact hqs p hp

/-- Each line is a text of one line. -/
theorem HaveLines.self (ls : List Text) : HaveLines ls ls := by
  induction ls with
  | nil => exact HaveLines.nil
  | cons l ls ih =>
    have hl := HaveLines.single (List.cons_ne_nil l [])
    rw [unlines_singleton] at hl
    exact hl.append ih

theorem HaveLines.unlines_eq {ts ls : List Text} (h : HaveLines ts ls) : unlines ts = unlines ls := by
  obtain ⟨ps, hps, rfl, rfl⟩ := h
  exact unlines_map_unlines hps

/-! ## Splitting into lines -/

theorem lines_cons_of_not_break {c : Char} (h : isLineBreak c = false) (r : Text) :
    lines (c :: r) = consLine c (lines r) := by
  have hr : c ≠ '\r' := by
    rintro rfl
    exact absurd h (by decide)
  rw [lines.eq_3 c r (fun _ hc => absurd hc hr)]
  simp [h]

@[simp] theorem lines_newline (r : Text) : lines ('\n' :: r) = [] :: lines r := by
  rw [lines.eq_3 '\n' r (fun _ h => absurd h (by decide))]
  rfl

/-- A text without a line break is the first line of what it starts. -/
theorem lines_append_newline {l : Text} (h : OneLine l) (r : Text) : lines (l ++ '\n' :: r) = l :: lines r := by
  induction l with
  | nil => simp
  | cons c l ih =>
    rw [oneLine_cons] at h
    rw [List.cons_append, lines_cons_of_not_break h.1, ih h.2]
    rfl

/-- Lines without a line break are found again in the text that they make. -/
theorem lines_unlines {ls : List Text} (hne : ls ≠ []) (h : ∀ l ∈ ls, OneLine l) :
    lines (unlines ls ++ ['\n']) = ls := by
  induction ls with
  | nil => exact absurd rfl hne
  | cons l ls ih =>
    have hl : OneLine l := h l List.mem_cons_self
    cases ls with
    | nil =>
      rw [unlines_singleton, lines_append_newline hl]
      rfl
    | cons m ms =>
      have hms := ih (List.cons_ne_nil m ms) (fun k hk => h k (List.mem_cons_of_mem l hk))
      rw [unlines_cons (List.cons_ne_nil m ms), List.append_assoc, List.cons_append, lines_append_newline hl, hms]

theorem oneLine_of_mem_consLine {c : Char} {ls : List Text} (hc : isLineBreak c = false) (h : ∀ l ∈ ls, OneLine l) :
    ∀ l ∈ consLine c ls, OneLine l := by
  intro l hl
  cases ls with
  | nil =>
    rw [consLine, List.mem_singleton] at hl
    subst hl
    simp [hc]
  | cons m ms =>
    rcases List.mem_cons.mp hl with rfl | hl
    · rw [oneLine_cons]
      exact ⟨hc, h m List.mem_cons_self⟩
    · exact h l (List.mem_cons_of_mem m hl)

/-- No line of a text has a line break. -/
theorem oneLine_of_mem_lines (t : Text) : ∀ l ∈ lines t, OneLine l := by
  fun_induction lines t with
  | case1 => simp
  | case2 r ih =>
    intro l hl
    rcases List.mem_cons.mp hl with rfl | hl
    · exact oneLine_nil
    · exact ih l hl
  | case3 c r _ hc ih =>
    intro l hl
    rcases List.mem_cons.mp hl with rfl | hl
    · exact oneLine_nil
    · exact ih l hl
  | case4 c r _ hc ih => exact oneLine_of_mem_consLine (by simpa using hc) ih

theorem oneLine_collapse (t : Text) : OneLine (collapse t) := by
  unfold collapse
  refine oneLine_join (by decide) (fun l hl => ?_)
  obtain ⟨m, hm, rfl⟩ := List.mem_map.mp (List.mem_filter.mp hl).1
  exact (oneLine_of_mem_lines t m hm).of_subset (trim_subset m)

/-! ## Indentation -/

/-- Indenting a text of lines that starts with a non-empty line indents each of them. -/
theorem indent_unlines {l : Text} {ls : List Text} (hl : l ≠ []) (h : ∀ k ∈ l :: ls, OneLine k) :
    indent (unlines (l :: ls)) = unlines ((l :: ls).map indentLine) := by
  unfold indent
  rw [lines_unlines (List.cons_ne_nil l ls) h]
  have : indentLine l = margin ++ l := by simp [indentLine, hl]
  rw [List.map_cons, this]

end CSharpDraft.Text
