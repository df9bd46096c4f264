import CSharpDraft.Proofs.Render.Parts

/-!
# Lines of members

The lines of a member are its rows at depth 0, and moving them as a text moves each of them.

* `Solid` : rows that survive being moved as a text (`Solid.indent`);
* `FieldDecl.lines_eq`, … : the lines of a member are those of its rows;
* `Member.Sound` : the lines of a member end with a brace exactly if it is `closed`;
* `haveLines_memberTexts` : the texts of members inside a type have the lines of their rows.
-/

set_option autoImplicit false

namespace CSharpDraft

open Text (OneLine HaveLines)

/-! ## Lines of rows -/

namespace Row

@[simp] theorem line_zero (t : Text) : line ⟨0, t⟩ = t := by
  unfold line
  split
  · next h => exact (List.isEmpty_iff.mp h).symm
  · simp

theorem line_one {t : Text} (h : t ≠ []) : line ⟨1, t⟩ = Text.margin ++ t := by
  simp [line, h, Text.margin, List.replicate]

theorem line_ne_nil {r : Row} (h : r.text ≠ []) : r.line ≠ [] := by simp [line, h]

theorem line_deeper (r : Row) : r.deeper.line = Text.indentLine r.line := by
  obtain ⟨depth, t⟩ := r
  by_cases h : t = []
  · subst h
    rfl
  · have hn : line ⟨depth, t⟩ ≠ [] := line_ne_nil h
    have hspaces : List.replicate (4 * (depth + 1)) ' ' = Text.margin ++ List.replicate (4 * depth) ' ' := by
      rw [show 4 * (depth + 1) = 4 + 4 * depth by omega, ← List.replicate_append_replicate]
      rfl
    rw [Text.indentLine, if_neg (by simpa using hn)]
    simp [line, h, hspaces]

theorem oneLine_line {r : Row} (h : OneLine r.text) : OneLine r.line := by
  unfold line
  split
  · exact Text.oneLine_nil
  · rw [Text.oneLine_append]
    exact ⟨Text.oneLine_replicate_space _, h⟩

end Row

@[simp] theorem map_line_map_mk_zero (ts : List Text) : (ts.map (Row.mk 0)).map Row.line = ts := by
  simp [Function.comp_def]

theorem map_line_map_mk_one {ts : List Text} (h : ∀ t ∈ ts, t ≠ []) :
    (ts.map (Row.mk 1)).map Row.line = ts.map (Text.margin ++ ·) := by
  rw [List.map_map]
  exact List.map_congr_left (fun t ht => Row.line_one (h t ht))

@[simp] theorem map_line_summaryRows (s : Option Text) : (summaryRows 0 s).map Row.line = summaryLines s :=
  map_line_map_mk_zero _

/-! ## Rows that can be moved as a text -/

/-- None of the rows has a line break, and the first is not empty. -/
structure Solid (rs : List Row) : Prop where
  oneLine : ∀ r ∈ rs, OneLine r.text
  head : ∃ r rest, rs = r :: rest ∧ r.text ≠ []

theorem Solid.ne_nil {rs : List Row} (h : Solid rs) : rs ≠ [] := by
  obtain ⟨r, rest, rfl, -⟩ := h.head
  exact List.cons_ne_nil r rest

theorem Solid.indent {rs : List Row} (h : Solid rs) :
    Text.indent (Text.unlines (rs.map Row.line)) = Text.unlines ((rs.map Row.deeper).map Row.line) := by
  obtain ⟨r, rest, rfl, hr⟩ := h.head
  have hlines : ∀ l ∈ r.line :: rest.map Row.line, OneLine l := by
    intro l hl
    rw [← List.map_cons] at hl
    obtain ⟨q, hq, rfl⟩ := List.mem_map.mp hl
    exact Row.oneLine_line (h.oneLine q hq)
  have hdeeper : ((r :: rest).map Row.deeper).map Row.line = ((r :: rest).map Row.line).map Text.indentLine := by
    simp [Function.comp_def, Row.line_deeper]
  rw [hdeeper, List.map_cons]
  exact Text.indent_unlines (Row.line_ne_nil hr) hlines

theorem oneLine_brace : OneLine ['{'] := by decide

theorem oneLine_closingBrace : OneLine ['}'] := by decide

/-- The rows of most declarations are a summary, a header that is not empty, and the rest. -/
theorem Solid.of_summary {depth : Nat} {s : Option Text} {header : Text} {rest : List Row} (hh : OneLine header)
    (hne : header ≠ []) (hrest : ∀ r ∈ rest, OneLine r.text) :
    Solid (summaryRows depth s ++ ⟨depth, header⟩ :: rest) := by
  constructor
  · intro r hr
    rcases List.mem_append.mp hr with hr | hr
    · exact oneLine_of_mem_summaryRows depth s r hr
    · rcases List.mem_cons.mp hr with rfl | hr
      · exact hh
      · exact hrest r hr
  · cases s with
    | none => exact ⟨_, rest, rfl, hne⟩
    | some s =>
      have hsummary : "/// <summary>".toList ≠ [] := by decide
      exact ⟨_, _, rfl, hsummary⟩

/-! ## Fields -/

theorem FieldDecl.lines_eq (f : FieldDecl) : f.lines = (f.rows 0).map Row.line := by
  simp [FieldDecl.lines, FieldDecl.rows]

theorem FieldDecl.solid {f : FieldDecl} (h : ∀ t ∈ f.parts, OneLine t) (depth : Nat) : Solid (f.rows depth) := by
  refine Solid.of_summary ?_ (by simp) (by simp)
  have hangle : OneLine (angleList f.typeArguments) :=
    oneLine_angleList (fun t ht => h t (List.mem_cons_of_mem _ (List.mem_cons_of_mem _ ht)))
  rw [Text.oneLine_append]
  refine ⟨oneLine_phraseOf (fun w hw => ?_), by decide⟩
  simp only [List.mem_cons, List.not_mem_nil, or_false] at hw
  rcases hw with rfl | rfl | rfl | rfl
  · exact oneLine_access f.access
  · exact oneLine_wordIf (by decide) f.isReadonly
  · rw [Text.oneLine_append]
    exact ⟨h _ (List.mem_cons_of_mem _ List.mem_cons_self), hangle⟩
  · exact h _ List.mem_cons_self

/-! ## Properties -/

theorem join_ne_nil {separator : Text} {ts : List Text} (h : ∃ t ∈ ts, t ≠ []) : Text.join separator ts ≠ [] := by
  obtain ⟨t, ht, hne⟩ := h
  unfold Text.join
  induction ts with
  | nil => simp at ht
  | cons u us ih =>
    cases us with
    | nil =>
      rw [List.mem_singleton.mp ht] at hne
      simpa using hne
    | cons v vs =>
      rw [List.intercalate_cons_cons]
      rcases List.mem_cons.mp ht with rfl | ht
      · simp [hne]
      · simp only [ne_eq, List.append_eq_nil_iff, not_and]
        exact fun _ => ih ht

theorem phraseOf_ne_nil {words : List Text} (h : ∃ w ∈ words, w ≠ []) : phraseOf words ≠ [] := by
  obtain ⟨w, hw, hne⟩ := h
  exact join_ne_nil ⟨w, List.mem_filter.mpr ⟨hw, by simpa using hne⟩, hne⟩

theorem PropertyDecl.header_ne_nil {p : PropertyDecl} (h : p.name ≠ []) : p.header ≠ [] :=
  phraseOf_ne_nil ⟨p.name, by simp, h⟩

theorem Accessor.ne_nil_of_mem_lines [Fragment.Parser] {words : Text} (h : words ≠ []) (a : Accessor) :
    ∀ l ∈ a.lines words, l ≠ [] := by
  intro l hl
  cases a with
  | auto =>
    rw [Accessor.lines, List.mem_singleton] at hl
    simp [hl]
  | custom body =>
    rw [Accessor.lines] at hl
    split at hl
    · rcases List.mem_cons.mp hl with rfl | hl
      · exact h
      · exact (Fragment.line_of_mem_formatBlock _ l hl).2
    · simp [List.mem_singleton.mp hl]

theorem map_line_accessorRows [Fragment.Parser] {words : Text} (h : words ≠ []) (a : Option Accessor) :
    (accessorRows 1 words a).map Row.line = accessorLines words a := by
  cases a with
  | none => rfl
  | some a => rw [accessorRows, accessorLines, Accessor.rows_eq, map_line_map_mk_one (a.ne_nil_of_mem_lines h)]

theorem setterWords_ne_nil (a : Text) : phraseOf [a, "set".toList] ≠ [] :=
  phraseOf_ne_nil ⟨"set".toList, by simp, by decide⟩

theorem oneLine_setterWords (a : Option Access) : OneLine (phraseOf [(a.map Access.text).getD [], "set".toList]) := by
  refine oneLine_phraseOf (fun w hw => ?_)
  simp only [List.mem_cons, List.not_mem_nil, or_false] at hw
  rcases hw with rfl | rfl
  · cases a with
    | none => exact Text.oneLine_nil
    | some a => exact oneLine_access a
  · decide

theorem PropertyDecl.lines_eq [Fragment.Parser] (p : PropertyDecl) : p.lines = (p.rows 0).map Row.line := by
  unfold PropertyDecl.lines PropertyDecl.rows
  rw [List.map_append, map_line_summaryRows]
  congr 1
  split
  · simp
  · simp only [List.map_append, List.map_cons, List.map_nil, Row.line_zero]
    rw [map_line_accessorRows (by decide), map_line_accessorRows (setterWords_ne_nil _)]

theorem PropertyDecl.solid [Fragment.Parser] {p : PropertyDecl} (h : ∀ t ∈ p.parts, OneLine t) (hn : p.name ≠ [])
    (depth : Nat) :
    Solid (p.rows depth) := by
  unfold PropertyDecl.rows
  have hheader := PropertyDecl.oneLine_header h
  have hinitializer := p.oneLine_initializer
  split
  · refine Solid.of_summary ?_ (by simp [PropertyDecl.header_ne_nil hn]) (by simp)
    rw [Text.oneLine_append]
    refine ⟨hheader, ?_⟩
    split
    · decide
    · exact hinitializer
  · simp only [List.append_assoc, List.cons_append, List.nil_append]
    refine Solid.of_summary hheader (PropertyDecl.header_ne_nil hn) (fun r hr => ?_)
    simp only [List.mem_cons, List.mem_append, List.not_mem_nil, or_false] at hr
    rcases hr with rfl | hr | hr | rfl
    · exact oneLine_brace
    · exact oneLine_of_mem_accessorRows (by decide) p.getter r hr
    · exact oneLine_of_mem_accessorRows (oneLine_setterWords p.setterAccess) p.setter r hr
    · rw [Text.oneLine_cons]
      exact ⟨by decide, hinitializer⟩

/-! ## Constructors and members of enumerations -/

theorem ParameterDecl.lines_eq (p : ParameterDecl) : p.lines = (p.rows 1).map Row.line := by
  unfold ParameterDecl.lines ParameterDecl.rows
  cases p.receiver with
  | none => rfl
  | some receiver =>
    dsimp only
    split
    · rfl
    · simp [Row.line_one]

theorem ConstructorDecl.lines_eq (c : ConstructorDecl) : c.lines = (c.rows 0).map Row.line := by
  have hparameters : c.parameters.flatMap ParameterDecl.lines =
      (c.parameters.flatMap (ParameterDecl.rows 1)).map Row.line := by
    rw [List.map_flatMap, funext ParameterDecl.lines_eq]
  simp [ConstructorDecl.lines, ConstructorDecl.rows, hparameters]

theorem ConstructorDecl.solid {c : ConstructorDecl} (h : ∀ t ∈ c.parts, OneLine t) (depth : Nat) :
    Solid (c.rows depth) := by
  have hne : c.header ≠ [] := by
    unfold ConstructorDecl.header
    dsimp only
    refine List.append_ne_nil_of_left_ne_nil (phraseOf_ne_nil ⟨_, List.mem_cons_of_mem _ (List.mem_cons_of_mem _
      List.mem_cons_self), ?_⟩) _
    simp
  unfold ConstructorDecl.rows
  simp only [List.append_assoc, List.cons_append, List.nil_append]
  refine Solid.of_summary (ConstructorDecl.oneLine_header h) hne (fun r hr => ?_)
  simp only [List.mem_cons, List.mem_append, List.mem_flatMap, List.not_mem_nil, or_false] at hr
  rcases hr with rfl | ⟨p, hp, hr⟩ | rfl
  · exact oneLine_brace
  · have hparts : ∀ t ∈ p.parts, OneLine t := fun t ht =>
      h t (List.mem_cons_of_mem _ (List.mem_append_left _ (List.mem_flatMap.mpr ⟨p, hp, ht⟩)))
    unfold ParameterDecl.rows at hr
    split at hr
    · simp at hr
    · next receiver hreceiver =>
      split at hr
      · simp at hr
      · have hr' : OneLine receiver := hparts _ (by simp [ParameterDecl.parts, hreceiver])
        rw [List.mem_singleton.mp hr]
        simp only [Text.oneLine_append]
        exact ⟨⟨⟨hr', by decide⟩, hparts _ List.mem_cons_self⟩, by decide⟩
  · exact oneLine_closingBrace

theorem EnumMemberDecl.lines_eq (m : EnumMemberDecl) : m.lines = (m.rows 0).map Row.line := by
  unfold EnumMemberDecl.lines EnumMemberDecl.rows
  cases hv : m.value with
  | none => simp
  | some v => simp

theorem EnumMemberDecl.solid {m : EnumMemberDecl} (h : ∀ t ∈ m.parts, OneLine t) (depth : Nat) :
    Solid (m.rows depth) := by
  refine Solid.of_summary ?_ (by simp) (by simp)
  have hvalue : OneLine (m.value.elim [] (fun v => " = ".toList ++ (toString v).toList)) := by
    cases m.value with
    | none => exact Text.oneLine_nil
    | some v =>
      rw [Option.elim_some, Text.oneLine_append]
      exact ⟨by decide, oneLine_toString v⟩
  simp only [Text.oneLine_append]
  exact ⟨⟨h _ List.mem_cons_self, hvalue⟩, by decide⟩

/-! ## Members of types -/

/-- The rows of a member can be moved, and its last line ends with a brace exactly if it is closed. -/
structure Member.Sound (m : Member) : Prop where
  solid : Solid m.rows
  closed : endsWithBrace (m.rows.map Row.line) = m.closed

theorem endsWithBrace_append (ls : List Text) (l : Text) : endsWithBrace (ls ++ [l]) = (l.getLast? == some '}') := by
  simp [endsWithBrace]

theorem FieldDecl.member_sound {f : FieldDecl} (h : ∀ t ∈ f.parts, OneLine t) : (f.member 0).Sound := by
  refine ⟨FieldDecl.solid h 0, ?_⟩
  change endsWithBrace ((f.rows 0).map Row.line) = false
  rw [← FieldDecl.lines_eq, FieldDecl.lines, endsWithBrace_append, List.getLast?_concat]
  rfl

theorem ConstructorDecl.member_sound {c : ConstructorDecl} (h : ∀ t ∈ c.parts, OneLine t) : (c.member 0).Sound := by
  refine ⟨ConstructorDecl.solid h 0, ?_⟩
  change endsWithBrace ((c.rows 0).map Row.line) = true
  rw [← ConstructorDecl.lines_eq, ConstructorDecl.lines, endsWithBrace_append]
  rfl

theorem PropertyDecl.getLast?_append_initializer {p : PropertyDecl} {v : Text} (h : p.defaultValue = some v) (t : Text) :
    (t ++ p.initializer).getLast? = some ';' := by
  unfold PropertyDecl.initializer
  rw [h]
  dsimp only
  rw [← List.append_assoc, List.getLast?_concat]

theorem PropertyDecl.endsWithBrace_lines [Fragment.Parser] (p : PropertyDecl) :
    endsWithBrace p.lines = ((p.getter.isSome || p.setter.isSome) && p.defaultValue.isNone) := by
  unfold PropertyDecl.lines
  split
  · next h =>
    rw [Bool.and_eq_true, Option.isNone_iff_eq_none, Option.isNone_iff_eq_none] at h
    rw [h.1, h.2, endsWithBrace_append]
    cases hd : p.defaultValue with
    | none => simp
    | some v =>
      have hlast := PropertyDecl.getLast?_append_initializer hd p.header
      simp [hlast]
  · next h =>
    have hsome : (p.getter.isSome || p.setter.isSome) = true := by
      cases hg : p.getter with
      | none => simpa [hg, Option.isSome_iff_ne_none] using h
      | some g => rfl
    rw [← List.append_assoc, endsWithBrace_append, hsome]
    cases hd : p.defaultValue with
    | none => simp [PropertyDecl.initializer, hd]
    | some v =>
      rw [PropertyDecl.getLast?_append_initializer hd]
      rfl

theorem PropertyDecl.member_sound [Fragment.Parser] {p : PropertyDecl} (h : ∀ t ∈ p.parts, OneLine t)
    (hn : p.name ≠ []) :
    (p.member 0).Sound := by
  refine ⟨PropertyDecl.solid h hn 0, ?_⟩
  change endsWithBrace ((p.rows 0).map Row.line) = _
  rw [← PropertyDecl.lines_eq, PropertyDecl.endsWithBrace_lines]
  rfl

theorem haveLines_memberTexts (afterBrace : Bool) {ms : List Member} (h : ∀ m ∈ ms, m.Sound) :
    HaveLines (memberTexts afterBrace (ms.map (fun m => m.rows.map Row.line)))
      ((memberRows 1 afterBrace (ms.map Member.deeper)).map Row.line) := by
  induction ms generalizing afterBrace with
  | nil => exact HaveLines.nil
  | cons m ms ih =>
    have hm := h m List.mem_cons_self
    have htext : HaveLines [Text.indent (Text.unlines (m.rows.map Row.line))] ((m.deeper).rows.map Row.line) := by
      rw [hm.solid.indent]
      exact HaveLines.single (by simp [hm.solid.ne_nil])
    have hrest := ih m.closed (fun k hk => h k (List.mem_cons_of_mem m hk))
    have hblank : HaveLines (if afterBrace then [[]] else [])
        ((if afterBrace then [(⟨1, []⟩ : Row)] else []).map Row.line) := by
      cases afterBrace
      · exact HaveLines.nil
      · exact HaveLines.self [[]]
    simp only [List.map_cons, memberTexts, memberRows, List.map_append, hm.closed]
    exact (hblank.append htext).append hrest

end CSharpDraft
