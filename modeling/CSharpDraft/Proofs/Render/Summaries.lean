import CSharpDraft.Fragment.Grammar
import CSharpDraft.Proofs.Draft.Legal
import CSharpDraft.Proofs.Render.Layout
import CSharpDraft.Proofs.Text.Collapse
import CSharpDraft.Proofs.Text.Comment

/-!
# Summaries are comments and nothing else

A summary is a text of any characters. It is cut into lines, and the lines are joined, split and moved again with the
declaration below them. Whatever the summaries are, the lines of code of a text are those of the same declaration without
them.

* `Decl.withoutSummaries` : the declaration without the summaries of it and of all that it holds;
* `Summarized` : lines below a summary; `SameCode` : texts with the same lines of code, which both can be indented;
* `FieldDecl.summarized`, …, `ClassDecl.sameCode`, … : from the members to the types and the namespace;
* `codeLines_render_eq` : the statement for whatever was built.
-/

set_option autoImplicit false

namespace CSharpDraft

open Text (OneLine Headed codeRows codeLines)

/-! ## Declarations without summaries -/

def FieldDecl.withoutSummary (f : FieldDecl) : FieldDecl := { f with summary := none }

def PropertyDecl.withoutSummary (p : PropertyDecl) : PropertyDecl := { p with summary := none }

def ConstructorDecl.withoutSummary (c : ConstructorDecl) : ConstructorDecl := { c with summary := none }

def EnumMemberDecl.withoutSummary (m : EnumMemberDecl) : EnumMemberDecl := { m with summary := none }

def ClassDecl.withoutSummaries (c : ClassDecl) : ClassDecl :=
  { c with summary := none
           fields := c.fields.map FieldDecl.withoutSummary
           properties := c.properties.map PropertyDecl.withoutSummary
           constructors := c.constructors.map ConstructorDecl.withoutSummary }

def StructDecl.withoutSummaries (s : StructDecl) : StructDecl :=
  { s with summary := none
           fields := s.fields.map FieldDecl.withoutSummary
           properties := s.properties.map PropertyDecl.withoutSummary
           constructors := s.constructors.map ConstructorDecl.withoutSummary }

def InterfaceDecl.withoutSummaries (i : InterfaceDecl) : InterfaceDecl :=
  { i with summary := none, properties := i.properties.map PropertyDecl.withoutSummary }

def EnumDecl.withoutSummaries (e : EnumDecl) : EnumDecl :=
  { e with summary := none, members := e.members.map EnumMemberDecl.withoutSummary }

def NamespaceDecl.withoutSummaries (n : NamespaceDecl) : NamespaceDecl :=
  { n with classes := n.classes.map ClassDecl.withoutSummaries
           structs := n.structs.map StructDecl.withoutSummaries
           interfaces := n.interfaces.map InterfaceDecl.withoutSummaries
           enums := n.enums.map EnumDecl.withoutSummaries }

/-- The declaration without the summaries of it and of all that it holds. -/
def Decl.withoutSummaries : Decl → Decl
  | ofField f => ofField f.withoutSummary
  | ofProperty p => ofProperty p.withoutSummary
  | ofConstructor c => ofConstructor c.withoutSummary
  | ofClass c => ofClass c.withoutSummaries
  | ofStruct s => ofStruct s.withoutSummaries
  | ofInterface i => ofInterface i.withoutSummaries
  | ofEnumMember m => ofEnumMember m.withoutSummary
  | ofEnum e => ofEnum e.withoutSummaries
  | ofNamespace n => ofNamespace n.withoutSummaries
  | d => d

/-! ## Names -/

def FieldDecl.names (f : FieldDecl) : List Text := [f.name, f.typeName]

def PropertyDecl.names (p : PropertyDecl) : List Text := [p.name, p.typeName]

/-- The names that the members of a type give. -/
def memberNames (fields : List FieldDecl) (constructors : List ConstructorDecl) (properties : List PropertyDecl) :
    List Text :=
  fields.flatMap FieldDecl.names ++ constructors.map (·.className) ++ properties.flatMap PropertyDecl.names

def ClassDecl.names (c : ClassDecl) : List Text := c.name :: memberNames c.fields c.constructors c.properties

def StructDecl.names (s : StructDecl) : List Text := s.name :: memberNames s.fields s.constructors s.properties

def InterfaceDecl.names (i : InterfaceDecl) : List Text := i.name :: i.properties.flatMap PropertyDecl.names

def EnumDecl.names (e : EnumDecl) : List Text := e.name :: e.members.map (·.name)

def NamespaceDecl.names (n : NamespaceDecl) : List Text :=
  n.name :: (n.interfaces.flatMap InterfaceDecl.names ++ n.enums.flatMap EnumDecl.names ++
    n.structs.flatMap StructDecl.names ++ n.classes.flatMap ClassDecl.names)

/-- The names in a declaration and the type names of its fields and properties. Names of type parameters and of
parameters of constructors are not among them, nor are `using` directives, bases, constraints and arguments: what is said
of the names leaves them free. -/
def Decl.names : Decl → List Text
  | bare => []
  | ofTypeParameter t => [t.name]
  | ofField f => f.names
  | ofProperty p => p.names
  | ofParameter p => [p.name]
  | ofConstructor c => [c.className]
  | ofClass c => c.names
  | ofStruct s => s.names
  | ofInterface i => i.names
  | ofEnumMember m => [m.name]
  | ofEnum e => e.names
  | ofNamespace n => n.names

/-! ## Texts with the same lines of code -/

/-- Texts with the same lines of code, which both have a first line and so can be indented. -/
structure SameCode (s t : Text) : Prop where
  rows : codeRows s = codeRows t
  headed : Headed s
  headed' : Headed t

theorem SameCode.indent {s t : Text} (h : SameCode s t) : SameCode (Text.indent s) (Text.indent t) where
  rows := by rw [h.headed.codeRows_indent, h.headed'.codeRows_indent, h.rows]
  headed := h.headed.indent
  headed' := h.headed'.indent

theorem flatMap_codeRows_congr {ss ts : List Text} (h : List.Forall₂ SameCode ss ts) :
    ss.flatMap codeRows = ts.flatMap codeRows := by
  induction h with
  | nil => rfl
  | cons hst _ ih => rw [List.flatMap_cons, List.flatMap_cons, hst.rows, ih]

/-! ## Lines below a summary -/

theorem isComment_of_mem_summaryLines (s : Option Text) : ∀ l ∈ summaryLines s, Text.isComment l = true := by
  have hmark : Text.EndsSolid "///".toList := ⟨"//".toList, '/', rfl, by decide⟩
  have hline (l : Text) : Text.isComment (Text.trimRight ("/// ".toList ++ l)) = true := by
    change Text.isComment (Text.trimRight ("///".toList ++ (' ' :: l))) = true
    rw [Text.trimRight_append_solid hmark]
    rfl
  intro l hl
  cases s with
  | none => simp [summaryLines] at hl
  | some s =>
    simp only [summaryLines, List.mem_append, List.mem_singleton, List.mem_map] at hl
    rcases hl with (rfl | ⟨m, -, rfl⟩) | rfl
    · decide
    · exact hline m
    · decide

/-- A summary has no line of code. -/
theorem flatMap_codeRows_summaryLines (s : Option Text) : (summaryLines s).flatMap codeRows = [] :=
  List.flatMap_eq_nil_iff.mpr (fun l hl =>
    Text.codeRows_of_isComment (oneLine_of_mem_summaryLines s l hl) (isComment_of_mem_summaryLines s l hl))

/-- A summary above a first line makes no difference, and neither does what adds no line of code behind it. -/
theorem SameCode.of_summary (s : Option Text) {l : Text} (hl : Headed l) {ls ms : List Text}
    (h : ls.flatMap codeRows = ms.flatMap codeRows) :
    SameCode (Text.unlines (summaryLines s ++ l :: ls)) (Text.unlines (l :: ms)) where
  rows := by
    rw [Text.codeRows_unlines (by simp), Text.codeRows_unlines (by simp), List.flatMap_append,
      flatMap_codeRows_summaryLines, List.nil_append, List.flatMap_cons, List.flatMap_cons, h]
  headed := by
    cases s with
    | none => exact hl.unlines ls
    | some s =>
      have hmark : Headed "/// <summary>".toList := by decide
      exact hmark.unlines _
  headed' := hl.unlines ms

/-- The lines are the other lines below a summary, and the first of these is a first line. -/
def Summarized (ms ls : List Text) : Prop :=
  ∃ (s : Option Text) (l : Text) (rest : List Text), ls = l :: rest ∧ Headed l ∧ ms = summaryLines s ++ ls

theorem Summarized.sameCode {ms ls : List Text} (h : Summarized ms ls) : SameCode (Text.unlines ms) (Text.unlines ls) := by
  obtain ⟨s, l, rest, rfl, hl, rfl⟩ := h
  exact SameCode.of_summary s hl rfl

theorem Summarized.endsWithBrace {ms ls : List Text} (h : Summarized ms ls) :
    endsWithBrace ms = CSharpDraft.endsWithBrace ls := by
  obtain ⟨s, l, rest, rfl, -, rfl⟩ := h
  rw [CSharpDraft.endsWithBrace, CSharpDraft.endsWithBrace, List.getLast?_append, List.getLast?_cons, Option.some_or]

/-! ## Members -/

theorem headed_access (a : Access) : a.text = [] ∨ Headed a.text := by cases a <;> decide

theorem headed_wordIf {word : String} (h : Headed word.toList) (condition : Bool) :
    wordIf condition word = [] ∨ Headed (wordIf condition word) := by
  cases condition
  · exact Or.inl rfl
  · exact Or.inr h

/-- A phrase of words that all have a first line or are empty has one, unless there is no word. -/
theorem headed_phraseOf {words : List Text} (h : ∀ w ∈ words, w = [] ∨ Headed w) (hne : ∃ w ∈ words, w ≠ []) :
    Headed (phraseOf words) := by
  obtain ⟨w, hw, hwne⟩ := hne
  have hmem : w ∈ words.filter (fun w => !w.isEmpty) := List.mem_filter.mpr ⟨hw, by simpa using hwne⟩
  obtain ⟨v, vs, hvs⟩ := List.exists_cons_of_ne_nil (List.ne_nil_of_mem hmem)
  have hv : v ∈ words ∧ v ≠ [] := by
    have hv : v ∈ words.filter (fun w => !w.isEmpty) := by simp [hvs]
    simpa using List.mem_filter.mp hv
  rw [phraseOf, hvs]
  exact ((h v hv.1).resolve_left hv.2).join [' '] vs

theorem FieldDecl.summarized {f : FieldDecl} (h : ∀ t ∈ f.names, Headed t) :
    Summarized f.lines f.withoutSummary.lines := by
  have hname : Headed f.name := h _ (by simp [FieldDecl.names])
  have htype : Headed (f.typeName ++ angleList f.typeArguments) := (h _ (by simp [FieldDecl.names])).append _
  have hheader : Headed (phraseOf [f.access.text, wordIf f.isReadonly "readonly",
      f.typeName ++ angleList f.typeArguments, f.name]) := by
    refine headed_phraseOf (fun w hw => ?_) ⟨f.name, by simp, hname.ne_nil⟩
    simp only [List.mem_cons, List.not_mem_nil, or_false] at hw
    rcases hw with rfl | rfl | rfl | rfl
    · exact headed_access f.access
    · exact headed_wordIf (by decide) f.isReadonly
    · exact Or.inr htype
    · exact Or.inr hname
  exact ⟨f.summary, _, [], rfl, hheader.append [';'], rfl⟩

theorem PropertyDecl.headed_header {p : PropertyDecl} (h : ∀ t ∈ p.names, Headed t) : Headed p.header := by
  have hname : Headed p.name := h _ (by simp [PropertyDecl.names])
  have htype : Headed (p.typeName ++ angleList p.typeArguments) := (h _ (by simp [PropertyDecl.names])).append _
  refine headed_phraseOf (fun w hw => ?_) ⟨p.name, by simp, hname.ne_nil⟩
  simp only [List.mem_cons, List.not_mem_nil, or_false] at hw
  rcases hw with rfl | rfl | rfl | rfl
  · exact headed_access p.access
  · exact headed_wordIf (by decide) p.isStatic
  · exact Or.inr htype
  · exact Or.inr hname

theorem PropertyDecl.summarized [Fragment.Parser] {p : PropertyDecl} (h : ∀ t ∈ p.names, Headed t) :
    Summarized p.lines p.withoutSummary.lines := by
  have hheader := PropertyDecl.headed_header h
  by_cases hn : (p.getter.isNone && p.setter.isNone) = true
  · exact ⟨p.summary, _, [], if_pos hn, hheader.append _, rfl⟩
  · exact ⟨p.summary, _, _, if_neg hn, hheader, rfl⟩

theorem ConstructorDecl.headed_header {c : ConstructorDecl} (h : Headed c.className) : Headed c.header := by
  have hcall (parameters : Text) : Headed (c.className ++ ['('] ++ parameters ++ [')']) :=
    ((h.append _).append _).append _
  unfold ConstructorDecl.header
  refine Headed.append (headed_phraseOf (fun w hw => ?_) ⟨_, List.mem_cons_of_mem _ (List.mem_cons_of_mem _
    List.mem_cons_self), (hcall _).ne_nil⟩) _
  simp only [List.mem_cons, List.not_mem_nil, or_false] at hw
  rcases hw with rfl | rfl | rfl
  · split
    · exact Or.inl rfl
    · exact headed_access c.access
  · exact headed_wordIf (by decide) c.isStatic
  · exact Or.inr (hcall _)

theorem ConstructorDecl.summarized {c : ConstructorDecl} (h : Headed c.className) :
    Summarized c.lines c.withoutSummary.lines := by
  refine ⟨c.summary, _, _, rfl, ConstructorDecl.headed_header h, ?_⟩
  simp only [ConstructorDecl.lines, List.append_assoc]
  rfl

theorem EnumMemberDecl.summarized {m : EnumMemberDecl} (h : Headed m.name) :
    Summarized m.lines m.withoutSummary.lines := by
  obtain ⟨name, _ | v, summary⟩ := m
  · exact ⟨summary, _, [], rfl, h.append [','], rfl⟩
  · exact ⟨summary, _, [], rfl, ((h.append _).append _).append [','], rfl⟩

/-! ## Types -/

theorem flatMap_codeRows_memberTexts {ms ns : List (List Text)} (h : List.Forall₂ Summarized ms ns)
    (afterBrace : Bool) :
    (memberTexts afterBrace ms).flatMap codeRows = (memberTexts afterBrace ns).flatMap codeRows := by
  induction h generalizing afterBrace with
  | nil => rfl
  | cons hmn _ ih =>
    have htext := hmn.sameCode.indent.rows
    simp only [memberTexts, List.flatMap_append, List.flatMap_cons, hmn.endsWithBrace, htext, ih]

/-- The summaries of a type and of its members add no line of code. -/
theorem renderType_sameCode {ms ns : List (List Text)} (h : List.Forall₂ Summarized ms ns) (s : Option Text)
    {header : Text} (hheader : Headed header) (constraints : Text) :
    SameCode (renderType s header constraints ms) (renderType none header constraints ns) := by
  unfold renderType
  simp only [List.append_assoc, List.singleton_append]
  refine SameCode.of_summary s hheader ?_
  simp only [List.append_eq, List.flatMap_append, List.flatMap_cons, flatMap_codeRows_memberTexts h]

theorem forall₂_map_map {α β : Type} {R : β → β → Prop} {f g : α → β} {as : List α} (h : ∀ a ∈ as, R (f a) (g a)) :
    List.Forall₂ R (as.map f) (as.map g) :=
  List.forall₂_map_left_iff.mpr (List.forall₂_map_right_iff.mpr (List.forall₂_same.mpr h))

theorem headed_typeHeader {access : Access} {words : List Text} {name : Text} {parameters : List TypeParameterDecl}
    {bases : List Text} (hwords : ∀ w ∈ words, w = [] ∨ Headed w) (hname : Headed name) :
    Headed (typeHeader access words name parameters bases) := by
  have hlast : Headed (name ++ angleList parameters) := hname.append _
  refine Headed.append (headed_phraseOf (fun w hw => ?_) ⟨_, by simp, hlast.ne_nil⟩) _
  simp only [List.mem_append, List.mem_singleton] at hw
  rcases hw with (rfl | hw) | rfl
  · exact headed_access access
  · exact hwords w hw
  · exact Or.inr hlast

theorem summarized_members [Fragment.Parser] {fs : List FieldDecl} {cs : List ConstructorDecl} {ps : List PropertyDecl}
    (h : ∀ t ∈ memberNames fs cs ps, Headed t) :
    List.Forall₂ Summarized
      (fs.map FieldDecl.lines ++ cs.map ConstructorDecl.lines ++ ps.map PropertyDecl.lines)
      ((fs.map FieldDecl.withoutSummary).map FieldDecl.lines ++
        (cs.map ConstructorDecl.withoutSummary).map ConstructorDecl.lines ++
        (ps.map PropertyDecl.withoutSummary).map PropertyDecl.lines) := by
  simp only [memberNames, List.mem_append, List.mem_flatMap, List.mem_map] at h
  have hfields : ∀ f ∈ fs, ∀ t ∈ f.names, Headed t := fun f hf t ht => h t (Or.inl (Or.inl ⟨f, hf, ht⟩))
  have hconstructors : ∀ c ∈ cs, Headed c.className := fun c hc => h _ (Or.inl (Or.inr ⟨c, hc, rfl⟩))
  have hproperties : ∀ p ∈ ps, ∀ t ∈ p.names, Headed t := fun p hp t ht => h t (Or.inr ⟨p, hp, ht⟩)
  simp only [List.map_map]
  exact List.rel_append (List.rel_append (forall₂_map_map (fun f hf => FieldDecl.summarized (hfields f hf)))
    (forall₂_map_map (fun c hc => ConstructorDecl.summarized (hconstructors c hc))))
    (forall₂_map_map (fun p hp => PropertyDecl.summarized (hproperties p hp)))

theorem ClassDecl.sameCode [Fragment.Parser] {c : ClassDecl} (h : ∀ t ∈ c.names, Headed t) :
    SameCode c.render c.withoutSummaries.render := by
  have hmembers := summarized_members (fun t ht => h t (List.mem_cons_of_mem _ ht))
  have hwords : ∀ w ∈ [wordIf c.isStatic "static", "class".toList], w = [] ∨ Headed w := by
    intro w hw
    simp only [List.mem_cons, List.not_mem_nil, or_false] at hw
    rcases hw with rfl | rfl
    · exact headed_wordIf (by decide) c.isStatic
    · decide
  exact renderType_sameCode hmembers c.summary (headed_typeHeader hwords (h _ List.mem_cons_self)) _

theorem StructDecl.sameCode [Fragment.Parser] {s : StructDecl} (h : ∀ t ∈ s.names, Headed t) :
    SameCode s.render s.withoutSummaries.render := by
  have hmembers := summarized_members (fun t ht => h t (List.mem_cons_of_mem _ ht))
  exact renderType_sameCode hmembers s.summary (headed_typeHeader (by decide) (h _ List.mem_cons_self)) _

theorem InterfaceDecl.sameCode [Fragment.Parser] {i : InterfaceDecl} (h : ∀ t ∈ i.names, Headed t) :
    SameCode i.render i.withoutSummaries.render := by
  have hmembers := @summarized_members _ [] [] i.properties (fun t ht => h t (List.mem_cons_of_mem _ ht))
  exact renderType_sameCode hmembers i.summary (headed_typeHeader (by decide) (h _ List.mem_cons_self)) _

theorem EnumDecl.sameCode {e : EnumDecl} (h : ∀ t ∈ e.names, Headed t) :
    SameCode e.render e.withoutSummaries.render := by
  have hheader : Headed e.header := by
    have hname : Headed e.name := h _ List.mem_cons_self
    refine headed_phraseOf (fun w hw => ?_) ⟨e.name, by simp, hname.ne_nil⟩
    simp only [List.mem_cons, List.not_mem_nil, or_false] at hw
    rcases hw with rfl | rfl | rfl
    · exact headed_access e.access
    · exact Or.inr (by decide)
    · exact Or.inr hname
  have hmembers : (e.members.map (fun m => Text.indent (Text.unlines m.lines))).flatMap codeRows =
      ((e.members.map EnumMemberDecl.withoutSummary).map
        (fun m => Text.indent (Text.unlines m.lines))).flatMap codeRows := by
    rw [List.map_map]
    exact flatMap_codeRows_congr (forall₂_map_map (fun m hm => (EnumMemberDecl.summarized (h _
      (List.mem_cons_of_mem _ (List.mem_map_of_mem hm)))).sameCode.indent))
  have hrest (ls : List Text) : (ls ++ e.members.map (fun m => Text.indent (Text.unlines m.lines)) ++
      [['}']]).flatMap codeRows = (ls ++ (e.members.map EnumMemberDecl.withoutSummary).map
        (fun m => Text.indent (Text.unlines m.lines)) ++ [['}']]).flatMap codeRows := by
    simp only [List.flatMap_append, hmembers]
  have hflags : e.withoutSummaries.isFlags = e.isFlags := rfl
  unfold EnumDecl.render
  rw [hflags]
  simp only [List.append_assoc]
  have hmark : Headed "[System.Flags]".toList := by decide
  by_cases hf : e.isFlags = true
  · simp only [if_pos hf]
    exact SameCode.of_summary e.summary hmark (hrest [e.header, ['{']])
  · simp only [if_neg hf]
    exact SameCode.of_summary e.summary hheader (hrest [['{']])

/-! ## Namespaces -/

theorem flatMap_codeRows_spaced {ss ts : List Text} (h : List.Forall₂ SameCode ss ts) :
    (spaced (ss.map Text.indent)).flatMap codeRows = (spaced (ts.map Text.indent)).flatMap codeRows := by
  induction h with
  | nil => rfl
  | cons hst hrest ih =>
    have htext := hst.indent.rows
    cases hrest with
    | nil => simp only [List.map_cons, List.map_nil, spaced, List.flatMap_cons, htext]
    | cons _ _ => simpa only [List.map_cons, spaced, List.flatMap_cons, htext, List.append_cancel_left_eq] using ih

theorem NamespaceDecl.sameCode [Fragment.Parser] {n : NamespaceDecl} (h : ∀ t ∈ n.names, Headed t) :
    codeRows n.render = codeRows n.withoutSummaries.render := by
  simp only [NamespaceDecl.names, List.mem_cons, List.mem_append, List.mem_flatMap] at h
  have htypes : List.Forall₂ SameCode
      (n.interfaces.map InterfaceDecl.render ++ n.enums.map EnumDecl.render ++ n.structs.map StructDecl.render ++
        n.classes.map ClassDecl.render)
      ((n.interfaces.map InterfaceDecl.withoutSummaries).map InterfaceDecl.render ++
        (n.enums.map EnumDecl.withoutSummaries).map EnumDecl.render ++
        (n.structs.map StructDecl.withoutSummaries).map StructDecl.render ++
        (n.classes.map ClassDecl.withoutSummaries).map ClassDecl.render) := by
    simp only [List.map_map]
    exact List.rel_append (List.rel_append (List.rel_append
      (forall₂_map_map (fun i hi => InterfaceDecl.sameCode (fun t ht => h t (by grind))))
      (forall₂_map_map (fun e he => EnumDecl.sameCode (fun t ht => h t (by grind)))))
      (forall₂_map_map (fun s hs => StructDecl.sameCode (fun t ht => h t (by grind)))))
      (forall₂_map_map (fun c hc => ClassDecl.sameCode (fun t ht => h t (by grind))))
  unfold NamespaceDecl.render
  rw [Text.codeRows_unlines (by simp), Text.codeRows_unlines (by simp)]
  simp only [List.flatMap_append, flatMap_codeRows_spaced htypes]
  rfl

/-! ## Ends of texts -/

theorem codeLines_unlines_concat (ls : List Text) {l : Text} {c : Char} (hl : l.getLast? = some c)
    (hc : Text.isLineBreak c = false) : codeLines (Text.unlines (ls ++ [l])) = codeRows (Text.unlines (ls ++ [l])) := by
  have hne : l ≠ [] := by
    rintro rfl
    simp at hl
  exact Text.codeLines_eq_codeRows ((Text.getLast?_unlines_concat ls hne).trans hl) hc

theorem PropertyDecl.codeLines_eq [Fragment.Parser] (p : PropertyDecl) :
    codeLines (Text.unlines p.lines) = codeRows (Text.unlines p.lines) := by
  have hend (t : Text) (v : Text) (hv : p.defaultValue = some v) : (t ++ p.initializer).getLast? = some ';' :=
    PropertyDecl.getLast?_append_initializer hv t
  unfold PropertyDecl.lines
  split
  · cases hv : p.defaultValue with
    | none => exact codeLines_unlines_concat _ List.getLast?_concat (by decide)
    | some v => exact codeLines_unlines_concat _ (hend p.header v hv) (by decide)
  · rw [← List.append_assoc]
    cases hv : p.defaultValue with
    | none =>
      refine codeLines_unlines_concat _ ?_ (by decide : Text.isLineBreak '}' = false)
      simp [PropertyDecl.initializer, hv]
    | some v => exact codeLines_unlines_concat _ (hend ['}'] v hv) (by decide)

/-- The last line of a text is not empty, so that it makes no difference whether a line feed follows. -/
theorem codeLines_of_render_eq_ok [Fragment.Parser] {d : Decl} {t : Text} (h : d.render = .ok t) :
    codeLines t = codeRows t := by
  have hbrace (ls : List Text) : codeLines (Text.unlines (ls ++ [['}']])) = codeRows (Text.unlines (ls ++ [['}']])) :=
    codeLines_unlines_concat ls rfl (by decide)
  cases d with
  | ofField f =>
    cases h
    exact codeLines_unlines_concat _ List.getLast?_concat (by decide)
  | ofProperty p =>
    cases h
    exact p.codeLines_eq
  | ofClass c => cases h; exact hbrace _
  | ofStruct s => cases h; exact hbrace _
  | ofInterface i => cases h; exact hbrace _
  | ofEnum e => cases h; exact hbrace _
  | ofNamespace n => cases h; exact hbrace _
  | bare => cases h
  | ofTypeParameter t => cases h
  | ofParameter p => cases h
  | ofConstructor c => cases h
  | ofEnumMember m => cases h

/-- Whatever its summaries are, a declaration with these names has the lines of code that it has without them. -/
theorem map_codeLines_render [Fragment.Parser] {d : Decl} (h : ∀ t ∈ d.names, Headed t) :
    d.render.map codeLines = d.withoutSummaries.render.map codeLines := by
  have hrows {s t : Text} (hs : d.render = .ok s) (ht : d.withoutSummaries.render = .ok t)
      (hst : codeRows s = codeRows t) : d.render.map codeLines = d.withoutSummaries.render.map codeLines := by
    rw [hs, ht, Except.map, Except.map, codeLines_of_render_eq_ok hs, codeLines_of_render_eq_ok ht, hst]
  cases d with
  | ofNamespace n => exact hrows rfl rfl (NamespaceDecl.sameCode h)
  | ofClass c => exact hrows rfl rfl (ClassDecl.sameCode h).rows
  | ofStruct s => exact hrows rfl rfl (StructDecl.sameCode h).rows
  | ofInterface i => exact hrows rfl rfl (InterfaceDecl.sameCode h).rows
  | ofEnum e => exact hrows rfl rfl (EnumDecl.sameCode h).rows
  | ofField f => exact hrows rfl rfl (FieldDecl.summarized h).sameCode.rows
  | ofProperty p => exact hrows rfl rfl (PropertyDecl.summarized h).sameCode.rows
  | bare => rfl
  | ofTypeParameter t => rfl
  | ofParameter p => rfl
  | ofConstructor c => rfl
  | ofEnumMember m => rfl

/-! ## Declarations that were built -/

theorem memberNames_withoutSummary (fs : List FieldDecl) (cs : List ConstructorDecl) (ps : List PropertyDecl) :
    memberNames (fs.map FieldDecl.withoutSummary) (cs.map ConstructorDecl.withoutSummary)
      (ps.map PropertyDecl.withoutSummary) = memberNames fs cs ps := by
  simp only [memberNames, List.flatMap_map, List.map_map]
  rfl

theorem ClassDecl.names_withoutSummaries (c : ClassDecl) : c.withoutSummaries.names = c.names :=
  congrArg (c.name :: ·) (memberNames_withoutSummary _ _ _)

theorem StructDecl.names_withoutSummaries (s : StructDecl) : s.withoutSummaries.names = s.names :=
  congrArg (s.name :: ·) (memberNames_withoutSummary _ _ _)

theorem InterfaceDecl.names_withoutSummaries (i : InterfaceDecl) : i.withoutSummaries.names = i.names := by
  simp only [InterfaceDecl.names, InterfaceDecl.withoutSummaries, List.flatMap_map]
  rfl

theorem EnumDecl.names_withoutSummaries (e : EnumDecl) : e.withoutSummaries.names = e.names := by
  simp only [EnumDecl.names, EnumDecl.withoutSummaries, List.map_map]
  rfl

theorem NamespaceDecl.names_withoutSummaries (n : NamespaceDecl) : n.withoutSummaries.names = n.names := by
  simp only [NamespaceDecl.names, NamespaceDecl.withoutSummaries, List.flatMap_map,
    ClassDecl.names_withoutSummaries, StructDecl.names_withoutSummaries, InterfaceDecl.names_withoutSummaries,
    EnumDecl.names_withoutSummaries]

theorem Decl.names_withoutSummaries (d : Decl) : d.withoutSummaries.names = d.names := by
  cases d with
  | ofClass c => exact c.names_withoutSummaries
  | ofStruct s => exact s.names_withoutSummaries
  | ofInterface i => exact i.names_withoutSummaries
  | ofEnum e => exact e.names_withoutSummaries
  | ofNamespace n => exact n.names_withoutSummaries
  | bare => rfl
  | ofTypeParameter t => rfl
  | ofField f => rfl
  | ofProperty p => rfl
  | ofParameter p => rfl
  | ofConstructor c => rfl
  | ofEnumMember m => rfl

theorem ne_nil_of_mem_flatMap {α β : Type} {R : α → β → Prop} {as : List α} {bs : List β} {names : β → List Text}
    (h : List.Forall₂ R as bs) (hR : ∀ {a : α} {b : β}, R a b → ∀ t ∈ names b, t ≠ []) :
    ∀ t ∈ bs.flatMap names, t ≠ [] := by
  intro t ht
  obtain ⟨b, hb, htb⟩ := List.mem_flatMap.mp ht
  obtain ⟨a, -, hab⟩ := forall₂_exists_left h b hb
  exact hR hab t htb

theorem FieldDraft.Builds.names_ne_nil {d : Plan.Field} {f : FieldDecl} (h : FieldDraft.Builds d f) :
    ∀ t ∈ f.names, t ≠ [] := by
  simp [FieldDecl.names, h.name.ne_nil, h.typeName.ne_nil]

theorem PropertyDraft.Builds.names_ne_nil {inInterface : Bool} {d : Plan.Property} {p : PropertyDecl}
    (h : PropertyDraft.Builds inInterface d p) : ∀ t ∈ p.names, t ≠ [] := by
  simp [PropertyDecl.names, h.name.ne_nil, h.typeName.ne_nil]

/-- The constructors of a type have the name of the type, which is not empty. -/
theorem memberNames_ne_nil {owner : Text} {static : Bool} {fields : List Plan.Field}
    {constructors : List ConstructorDraft} {properties : List Plan.Property} {fs : List FieldDecl}
    {cs : List ConstructorDecl} {ps : List PropertyDecl} (howner : owner ≠ [])
    (hf : List.Forall₂ FieldDraft.Builds fields fs)
    (hc : List.Forall₂ (ConstructorDraft.Builds owner static) constructors cs)
    (hp : List.Forall₂ (PropertyDraft.Builds false) properties ps) : ∀ t ∈ memberNames fs cs ps, t ≠ [] := by
  intro t ht
  rcases List.mem_append.mp ht with ht | ht
  · rcases List.mem_append.mp ht with ht | ht
    · exact ne_nil_of_mem_flatMap hf FieldDraft.Builds.names_ne_nil t ht
    · obtain ⟨c, hcs, rfl⟩ := List.mem_map.mp ht
      obtain ⟨d, -, hd⟩ := forall₂_exists_left hc c hcs
      rwa [hd.className]
  · exact ne_nil_of_mem_flatMap hp PropertyDraft.Builds.names_ne_nil t ht

theorem ClassDraft.Builds.names_ne_nil {d : Plan.Class} {c : ClassDecl} (h : ClassDraft.Builds d c) :
    ∀ t ∈ c.names, t ≠ [] :=
  List.forall_mem_cons.mpr ⟨h.name.ne_nil, memberNames_ne_nil h.name.ne_nil h.fields h.constructors h.properties⟩

theorem StructDraft.Builds.names_ne_nil {d : Plan.Struct} {s : StructDecl} (h : StructDraft.Builds d s) :
    ∀ t ∈ s.names, t ≠ [] :=
  List.forall_mem_cons.mpr ⟨h.name.ne_nil, memberNames_ne_nil h.name.ne_nil h.fields h.constructors h.properties⟩

theorem InterfaceDraft.Builds.names_ne_nil {d : Plan.Interface} {i : InterfaceDecl} (h : InterfaceDraft.Builds d i) :
    ∀ t ∈ i.names, t ≠ [] :=
  List.forall_mem_cons.mpr ⟨h.name.ne_nil, ne_nil_of_mem_flatMap h.properties PropertyDraft.Builds.names_ne_nil⟩

theorem EnumDraft.Builds.names_ne_nil {d : Plan.Enum} {e : EnumDecl} (h : EnumDraft.Builds d e) :
    ∀ t ∈ e.names, t ≠ [] := by
  obtain ⟨ms, hms, -, hmembers⟩ := h.members
  refine List.forall_mem_cons.mpr ⟨h.name.ne_nil, fun t ht => ?_⟩
  rw [hmembers, map_withFlags (fun _ _ => rfl)] at ht
  obtain ⟨m, hm, rfl⟩ := List.mem_map.mp ht
  obtain ⟨b, -, hb⟩ := forall₂_exists_left hms m hm
  exact hb.name.ne_nil

theorem NamespaceDraft.Builds.names_ne_nil {d : Plan.Namespace} {n : NamespaceDecl} (h : NamespaceDraft.Builds d n) :
    ∀ t ∈ n.names, t ≠ [] := by
  have hinterfaces := ne_nil_of_mem_flatMap h.interfaces InterfaceDraft.Builds.names_ne_nil
  have henums := ne_nil_of_mem_flatMap h.enums EnumDraft.Builds.names_ne_nil
  have hstructs := ne_nil_of_mem_flatMap h.structs StructDraft.Builds.names_ne_nil
  have hclasses := ne_nil_of_mem_flatMap h.classes ClassDraft.Builds.names_ne_nil
  intro t ht
  simp only [NamespaceDecl.names, List.mem_cons, List.mem_append] at ht
  rcases ht with rfl | ((ht | ht) | ht) | ht
  · exact h.name.ne_nil
  · exact hinterfaces t ht
  · exact henums t ht
  · exact hstructs t ht
  · exact hclasses t ht

/-- The names in a declaration that was built are not empty. A constructor on its own is left out: it is built for a
type of any name. -/
theorem Workspace.Builds.names_ne_nil {w : Workspace} {r : Ref} {purpose : Workspace.Purpose} {d : Decl}
    (h : w.Builds r purpose d) (hd : ∀ c, d ≠ .ofConstructor c) : ∀ t ∈ d.names, t ≠ [] := by
  cases d with
  | ofNamespace n => obtain ⟨d, -, hd⟩ := h; exact hd.names_ne_nil
  | ofClass c => obtain ⟨d, -, hd⟩ := h; exact hd.names_ne_nil
  | ofStruct s => obtain ⟨d, -, hd⟩ := h; exact hd.names_ne_nil
  | ofInterface i => obtain ⟨d, -, hd⟩ := h; exact hd.names_ne_nil
  | ofEnum e => obtain ⟨d, -, hd⟩ := h; exact hd.names_ne_nil
  | ofField f => obtain ⟨d, -, hd⟩ := h; exact hd.names_ne_nil
  | ofProperty p => obtain ⟨d, -, hd⟩ := h; exact hd.names_ne_nil
  | ofEnumMember m => obtain ⟨d, -, hd⟩ := h; simp [Decl.names, hd.name.ne_nil]
  | ofTypeParameter t => obtain ⟨d, -, hd⟩ := h; simp [Decl.names, hd.name.ne_nil]
  | ofConstructor c => exact absurd rfl (hd c)
  | ofParameter p => exact h.elim
  | bare => exact h.elim

/-- Summaries cannot get into the code: with any summaries, of any characters, in the place of those with which it was
built, a declaration has the lines of code that it has without summaries. -/
theorem codeLines_render_eq [Fragment.Parser] {w : Workspace} {r : Ref} {purpose : Workspace.Purpose} {d : Decl}
    (hb : w.build r purpose = .ok d) (ho : ∀ t ∈ d.names, OneLine t) {d' : Decl}
    (h : d'.withoutSummaries = d.withoutSummaries) :
    d'.render.map codeLines = d.withoutSummaries.render.map codeLines := by
  have hnames : d'.names = d.names := by rw [← d'.names_withoutSummaries, h, d.names_withoutSummaries]
  by_cases hc : ∀ c, d ≠ .ofConstructor c
  · have hne := (Workspace.builds_of_build_eq_ok hb).names_ne_nil hc
    rw [← h]
    refine map_codeLines_render (fun t ht => ?_)
    rw [hnames] at ht
    exact (ho t ht).headed (hne t ht)
  · obtain ⟨c, hc⟩ := not_forall.mp hc
    rw [not_not] at hc
    subst hc
    cases d' with
    | ofConstructor c' => rfl
    | _ => cases h

theorem codeLines_render_eq_account :
    accountWorkspace.build ⟨3⟩ {} = .ok (.ofNamespace accountNamespace) ∧
      (∀ t ∈ (Decl.ofNamespace accountNamespace).names, OneLine t) ∧
      (Decl.ofNamespace { accountNamespace with
          classes := accountNamespace.classes.map (fun c =>
            { c with summary := some "Open.\u2028int x;\r\n\u0085\x0bint y; ".toList }) }).render.map codeLines =
        (Decl.ofNamespace accountNamespace).withoutSummaries.render.map codeLines := by
  have hb : accountWorkspace.build ⟨3⟩ {} = .ok (.ofNamespace accountNamespace) := rfl
  have ho : ∀ t ∈ (Decl.ofNamespace accountNamespace).names, OneLine t := by decide
  exact ⟨hb, ho, codeLines_render_eq hb ho rfl⟩

end CSharpDraft
