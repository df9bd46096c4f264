import CSharpDraft.Fragment.Grammar
import CSharpDraft.Proofs.Draft.Plans
import CSharpDraft.Proofs.Render.Member

/-!
# Rendering writes the rows

The text of a declaration is made from the inside out: the lines of a member become a text, which is split and moved
inside its type, and the text of the type is split and moved again inside a namespace. For declarations whose parts have
no line break that comes to the same as writing each row at its depth from the start.

* `ClassDecl.render_eq`, …, `NamespaceDecl.render_eq` : the text is the lines of the rows at depth 0.
-/

set_option autoImplicit false

namespace CSharpDraft

open Text (OneLine HaveLines)

/-! ## Types -/

theorem renderType_eq {ms : List Member} (h : ∀ m ∈ ms, m.Sound) (s : Option Text) (header constraints : Text) :
    renderType s header constraints (ms.map (fun m => m.rows.map Row.line)) =
      Text.unlines ((typeRows 0 s header constraints (ms.map Member.deeper)).map Row.line) := by
  have hconstraints : HaveLines (if constraints.isEmpty then [] else [Text.margin ++ constraints])
      ((if constraints.isEmpty then [] else [(⟨1, constraints⟩ : Row)]).map Row.line) := by
    split
    · exact HaveLines.nil
    · next hc =>
      rw [List.map_singleton, Row.line_one (by simpa using hc)]
      exact HaveLines.self _
  unfold renderType typeRows
  simp only [List.map_append, List.map_cons, List.map_nil, Row.line_zero, map_line_summaryRows, Nat.zero_add]
  refine HaveLines.unlines_eq ?_
  exact ((((HaveLines.self _).append (HaveLines.self _)).append hconstraints).append (HaveLines.self _)).append
    (haveLines_memberTexts false h) |>.append (HaveLines.self _)

theorem map_lines_typeMembers [Fragment.Parser] (fields : List FieldDecl) (constructors : List ConstructorDecl)
    (properties : List PropertyDecl) :
    (typeMembers 0 fields constructors properties).map (fun m => m.rows.map Row.line) =
      fields.map FieldDecl.lines ++ constructors.map ConstructorDecl.lines ++ properties.map PropertyDecl.lines := by
  rw [funext FieldDecl.lines_eq, funext ConstructorDecl.lines_eq, funext PropertyDecl.lines_eq]
  simp only [typeMembers, List.map_append, List.map_map]
  rfl

/-- What is asked of the members of a type: their parts have no line break, and its properties have names. -/
structure Orderly (fs : List FieldDecl) (cs : List ConstructorDecl) (ps : List PropertyDecl) : Prop where
  fields : ∀ t ∈ fs.flatMap FieldDecl.parts, OneLine t
  constructors : ∀ t ∈ cs.flatMap ConstructorDecl.parts, OneLine t
  properties : ∀ t ∈ ps.flatMap PropertyDecl.parts, OneLine t
  named : ∀ p ∈ ps, p.name ≠ []

theorem Orderly.sound [Fragment.Parser] {fields : List FieldDecl} {constructors : List ConstructorDecl}
    {properties : List PropertyDecl}
    (h : Orderly fields constructors properties) : ∀ m ∈ typeMembers 0 fields constructors properties, m.Sound := by
  intro m hm
  rcases List.mem_append.mp hm with hm | hm
  · rcases List.mem_append.mp hm with hm | hm
    · obtain ⟨f, hf, rfl⟩ := List.mem_map.mp hm
      exact FieldDecl.member_sound (oneLine_of_mem_flatMap h.fields hf)
    · obtain ⟨c, hc, rfl⟩ := List.mem_map.mp hm
      exact ConstructorDecl.member_sound (oneLine_of_mem_flatMap h.constructors hc)
  · obtain ⟨p, hp, rfl⟩ := List.mem_map.mp hm
    exact PropertyDecl.member_sound (oneLine_of_mem_flatMap h.properties hp) (h.named p hp)

/-- The text of a type with fields, constructors and properties. -/
theorem Orderly.renderType_eq [Fragment.Parser] {fields : List FieldDecl} {constructors : List ConstructorDecl}
    {properties : List PropertyDecl} (h : Orderly fields constructors properties) (s : Option Text)
    (header constraints : Text) :
    renderType s header constraints
        (fields.map FieldDecl.lines ++ constructors.map ConstructorDecl.lines ++ properties.map PropertyDecl.lines) =
      Text.unlines ((typeRows 0 s header constraints (typeMembers 1 fields constructors properties)).map Row.line) := by
  rw [← map_lines_typeMembers, CSharpDraft.renderType_eq h.sound, ← typeMembers_succ]

theorem oneLine_of_mem_memberRows {depth : Nat} {afterBrace : Bool} {ms : List Member}
    (h : ∀ m ∈ ms, ∀ r ∈ m.rows, OneLine r.text) : ∀ r ∈ memberRows depth afterBrace ms, OneLine r.text := by
  induction ms generalizing afterBrace with
  | nil => simp [memberRows]
  | cons m ms ih =>
    intro r hr
    rw [memberRows, List.mem_append, List.mem_append] at hr
    rcases hr with (hr | hr) | hr
    · cases afterBrace
      · simp at hr
      · rw [if_pos rfl, List.mem_singleton] at hr
        rw [hr]
        exact Text.oneLine_nil
    · exact h m List.mem_cons_self r hr
    · exact ih (fun k hk => h k (List.mem_cons_of_mem m hk)) r hr

theorem typeRows_solid {s : Option Text} {header constraints : Text} {ms : List Member} (hheader : OneLine header)
    (hne : header ≠ []) (hconstraints : OneLine constraints) (hms : ∀ m ∈ ms, m.Sound) :
    Solid (typeRows 0 s header constraints (ms.map Member.deeper)) := by
  have hmembers : ∀ m ∈ ms.map Member.deeper, ∀ r ∈ m.rows, OneLine r.text := by
    intro m hm r hr
    obtain ⟨k, hk, rfl⟩ := List.mem_map.mp hm
    obtain ⟨q, hq, rfl⟩ := List.mem_map.mp hr
    exact (hms k hk).solid.oneLine q hq
  unfold typeRows
  simp only [List.append_assoc, List.cons_append, List.nil_append]
  refine Solid.of_summary hheader hne (fun r hr => ?_)
  rw [List.mem_append, List.mem_cons, List.mem_append, List.mem_singleton] at hr
  rcases hr with hr | rfl | hr | rfl
  · split at hr
    · simp at hr
    · rw [List.mem_singleton.mp hr]
      exact hconstraints
  · exact oneLine_brace
  · exact oneLine_of_mem_memberRows hmembers r hr
  · exact oneLine_closingBrace

theorem typeHeader_ne_nil {access : Access} {words : List Text} {name : Text} {parameters : List TypeParameterDecl}
    {bases : List Text} (h : ∃ w ∈ words, w ≠ []) : typeHeader access words name parameters bases ≠ [] := by
  obtain ⟨w, hw, hne⟩ := h
  exact List.append_ne_nil_of_left_ne_nil (phraseOf_ne_nil ⟨w, by simp [hw], hne⟩) _

/-! ## Classes, structures and interfaces -/

theorem ClassDecl.orderly {c : ClassDecl} (h : ∀ t ∈ c.parts, OneLine t) (hn : ∀ p ∈ c.properties, p.name ≠ []) :
    Orderly c.fields c.constructors c.properties where
  fields t ht := h t (by simp only [ClassDecl.parts, List.mem_cons, List.mem_append, ht, true_or, or_true])
  constructors t ht := h t (by simp only [ClassDecl.parts, List.mem_cons, List.mem_append, ht, true_or, or_true])
  properties t ht := h t (by simp only [ClassDecl.parts, List.mem_cons, List.mem_append, ht, or_true])
  named := hn

theorem ClassDecl.render_eq [Fragment.Parser] {c : ClassDecl} (h : ∀ t ∈ c.parts, OneLine t)
    (hn : ∀ p ∈ c.properties, p.name ≠ []) :
    c.render = Text.unlines ((c.rows 0).map Row.line) :=
  (ClassDecl.orderly h hn).renderType_eq c.summary c.header (constraintClauses c.typeParameters)

theorem ClassDecl.solid [Fragment.Parser] {c : ClassDecl} (h : ∀ t ∈ c.parts, OneLine t)
    (hn : ∀ p ∈ c.properties, p.name ≠ []) :
    Solid (c.rows 0) := by
  have hparameters : ∀ t ∈ c.typeParameters.flatMap TypeParameterDecl.parts, OneLine t := fun t ht =>
    h t (by simp only [ClassDecl.parts, List.mem_cons, List.mem_append, ht, true_or, or_true])
  have hwords : ∀ w ∈ [wordIf c.isStatic "static", "class".toList], OneLine w := by
    intro w hw
    simp only [List.mem_cons, List.not_mem_nil, or_false] at hw
    rcases hw with rfl | rfl
    · exact oneLine_wordIf (by decide) c.isStatic
    · decide
  have hbases : ∀ b ∈ (c.baseClass.filter (fun b => !b.isEmpty)).toList ++ c.interfaces, OneLine b := by
    intro b hb
    rcases List.mem_append.mp hb with hb | hb
    · have hb' : c.baseClass = some b := (Option.filter_eq_some_iff.mp (Option.mem_toList.mp hb)).1
      exact h b (by simp [ClassDecl.parts, hb'])
    · exact h b (by simp only [ClassDecl.parts, List.mem_cons, List.mem_append, hb, true_or, or_true])
  unfold ClassDecl.rows
  rw [typeMembers_succ]
  exact typeRows_solid (oneLine_typeHeader hwords (h _ List.mem_cons_self) hparameters hbases)
    (typeHeader_ne_nil ⟨"class".toList, by simp, by decide⟩) (oneLine_constraintClauses hparameters)
    (ClassDecl.orderly h hn).sound

theorem StructDecl.orderly {s : StructDecl} (h : ∀ t ∈ s.parts, OneLine t) (hn : ∀ p ∈ s.properties, p.name ≠ []) :
    Orderly s.fields s.constructors s.properties where
  fields t ht := h t (by simp only [StructDecl.parts, List.mem_cons, List.mem_append, ht, true_or, or_true])
  constructors t ht := h t (by simp only [StructDecl.parts, List.mem_cons, List.mem_append, ht, true_or, or_true])
  properties t ht := h t (by simp only [StructDecl.parts, List.mem_cons, List.mem_append, ht, or_true])
  named := hn

theorem StructDecl.render_eq [Fragment.Parser] {s : StructDecl} (h : ∀ t ∈ s.parts, OneLine t)
    (hn : ∀ p ∈ s.properties, p.name ≠ []) :
    s.render = Text.unlines ((s.rows 0).map Row.line) :=
  (StructDecl.orderly h hn).renderType_eq s.summary s.header (constraintClauses s.typeParameters)

theorem StructDecl.solid [Fragment.Parser] {s : StructDecl} (h : ∀ t ∈ s.parts, OneLine t)
    (hn : ∀ p ∈ s.properties, p.name ≠ []) :
    Solid (s.rows 0) := by
  have hparameters : ∀ t ∈ s.typeParameters.flatMap TypeParameterDecl.parts, OneLine t := fun t ht =>
    h t (by simp only [StructDecl.parts, List.mem_cons, List.mem_append, ht, true_or, or_true])
  have hbases : ∀ b ∈ s.interfaces, OneLine b := fun b hb =>
    h b (by simp only [StructDecl.parts, List.mem_cons, List.mem_append, hb, true_or, or_true])
  unfold StructDecl.rows
  rw [typeMembers_succ]
  exact typeRows_solid (oneLine_typeHeader (by decide) (h _ List.mem_cons_self) hparameters hbases)
    (typeHeader_ne_nil ⟨"struct".toList, by simp, by decide⟩) (oneLine_constraintClauses hparameters)
    (StructDecl.orderly h hn).sound

theorem InterfaceDecl.orderly {i : InterfaceDecl} (h : ∀ t ∈ i.parts, OneLine t)
    (hn : ∀ p ∈ i.properties, p.name ≠ []) : Orderly [] [] i.properties where
  fields := by simp
  constructors := by simp
  properties t ht := h t (by simp only [InterfaceDecl.parts, List.mem_cons, List.mem_append, ht, or_true])
  named := hn

theorem InterfaceDecl.render_eq [Fragment.Parser] {i : InterfaceDecl} (h : ∀ t ∈ i.parts, OneLine t)
    (hn : ∀ p ∈ i.properties, p.name ≠ []) : i.render = Text.unlines ((i.rows 0).map Row.line) :=
  (InterfaceDecl.orderly h hn).renderType_eq i.summary i.header (constraintClauses i.typeParameters)

theorem InterfaceDecl.solid [Fragment.Parser] {i : InterfaceDecl} (h : ∀ t ∈ i.parts, OneLine t)
    (hn : ∀ p ∈ i.properties, p.name ≠ []) : Solid (i.rows 0) := by
  have hparameters : ∀ t ∈ i.typeParameters.flatMap TypeParameterDecl.parts, OneLine t := fun t ht =>
    h t (by simp only [InterfaceDecl.parts, List.mem_cons, List.mem_append, ht, true_or, or_true])
  have hbases : ∀ b ∈ i.interfaces, OneLine b := fun b hb =>
    h b (by simp only [InterfaceDecl.parts, List.mem_cons, List.mem_append, hb, true_or, or_true])
  unfold InterfaceDecl.rows
  rw [typeMembers_succ]
  exact typeRows_solid (oneLine_typeHeader (by decide) (h _ List.mem_cons_self) hparameters hbases)
    (typeHeader_ne_nil ⟨"interface".toList, by simp, by decide⟩) (oneLine_constraintClauses hparameters)
    (InterfaceDecl.orderly h hn).sound

/-! ## Enumerations -/

theorem haveLines_enumMembers {ms : List EnumMemberDecl} (h : ∀ t ∈ ms.flatMap EnumMemberDecl.parts, OneLine t) :
    HaveLines (ms.map (fun m => Text.indent (Text.unlines m.lines)))
      ((ms.flatMap (EnumMemberDecl.rows 1)).map Row.line) := by
  induction ms with
  | nil => exact HaveLines.nil
  | cons m ms ih =>
    have hm := EnumMemberDecl.solid (oneLine_of_mem_flatMap h List.mem_cons_self) 0
    have hrest := ih (fun t ht => h t (by simp only [List.flatMap_cons, List.mem_append, ht, or_true]))
    rw [List.map_cons, List.flatMap_cons, List.map_append, EnumMemberDecl.lines_eq, hm.indent,
      ← EnumMemberDecl.rows_succ]
    have hne : (m.rows 1).map Row.line ≠ [] := by simp [EnumMemberDecl.rows]
    exact (HaveLines.single hne).append hrest

theorem EnumDecl.render_eq {e : EnumDecl} (h : ∀ t ∈ e.parts, OneLine t) :
    e.render = Text.unlines ((e.rows 0).map Row.line) := by
  have hflags : (if e.isFlags then [(⟨0, "[System.Flags]".toList⟩ : Row)] else []).map Row.line =
      if e.isFlags then ["[System.Flags]".toList] else [] := by
    split
    · rfl
    · rfl
  unfold EnumDecl.render EnumDecl.rows
  simp only [List.map_append, List.map_cons, List.map_nil, Row.line_zero, map_line_summaryRows, hflags, Nat.zero_add]
  refine HaveLines.unlines_eq ?_
  exact ((HaveLines.self _).append (haveLines_enumMembers (fun t ht => h t (List.mem_cons_of_mem _ ht)))).append
    (HaveLines.self _)

theorem EnumDecl.solid {e : EnumDecl} (h : ∀ t ∈ e.parts, OneLine t) : Solid (e.rows 0) := by
  have hheader : OneLine e.header := by
    refine oneLine_phraseOf (fun w hw => ?_)
    simp only [List.mem_cons, List.not_mem_nil, or_false] at hw
    rcases hw with rfl | rfl | rfl
    · exact oneLine_access e.access
    · decide
    · exact h _ List.mem_cons_self
  have hne : e.header ≠ [] := phraseOf_ne_nil ⟨"enum".toList, by simp, by decide⟩
  have hrest : ∀ r ∈ (⟨0, ['{']⟩ : Row) :: (e.members.flatMap (EnumMemberDecl.rows 1) ++ [⟨0, ['}']⟩]),
      OneLine r.text := by
    intro r hr
    simp only [List.mem_cons, List.mem_append, List.mem_flatMap, List.not_mem_nil, or_false] at hr
    rcases hr with rfl | ⟨m, hm, hr⟩ | rfl
    · exact oneLine_brace
    · have hparts := oneLine_of_mem_flatMap (fun t ht => h t (List.mem_cons_of_mem _ ht)) hm
      exact (EnumMemberDecl.solid hparts 1).oneLine r hr
    · exact oneLine_closingBrace
  unfold EnumDecl.rows
  simp only [List.append_assoc, List.cons_append, List.nil_append]
  split
  · refine Solid.of_summary (by decide) (by decide) (fun r hr => ?_)
    rcases List.mem_cons.mp hr with rfl | hr
    · exact hheader
    · exact hrest r hr
  · exact Solid.of_summary hheader hne hrest

/-! ## Namespaces -/

theorem haveLines_spaced {rss : List (List Row)} (h : ∀ rs ∈ rss, Solid rs) :
    HaveLines (spaced ((rss.map (fun rs => Text.unlines (rs.map Row.line))).map Text.indent))
      ((spacedRows 1 (rss.map (List.map Row.deeper))).map Row.line) := by
  induction rss with
  | nil => exact HaveLines.nil
  | cons rs rss ih =>
    have hrs := h rs List.mem_cons_self
    have hrest := ih (fun qs hq => h qs (List.mem_cons_of_mem rs hq))
    have htext : HaveLines [Text.indent (Text.unlines (rs.map Row.line))] ((rs.map Row.deeper).map Row.line) := by
      rw [hrs.indent]
      exact HaveLines.single (by simp [hrs.ne_nil])
    cases rss with
    | nil => exact htext
    | cons qs qss =>
      have hblank : HaveLines [[]] ([(⟨1, []⟩ : Row)].map Row.line) := HaveLines.self [[]]
      have := (htext.append hblank).append hrest
      simpa only [List.map_cons, spaced, spacedRows, List.map_append, List.cons_append, List.nil_append] using this

theorem NamespaceDecl.typeRows_succ [Fragment.Parser] (depth : Nat) (n : NamespaceDecl) :
    n.typeRows (depth + 1) = (n.typeRows depth).map (List.map Row.deeper) := by
  simp only [NamespaceDecl.typeRows, List.map_append, List.map_map]
  rw [funext (InterfaceDecl.rows_succ depth), funext (EnumDecl.rows_succ depth), funext (StructDecl.rows_succ depth),
    funext (ClassDecl.rows_succ depth)]
  rfl

/-- The properties of the types of a namespace have names. -/
structure NamespaceDecl.Named (n : NamespaceDecl) : Prop where
  interfaces : ∀ i ∈ n.interfaces, ∀ p ∈ i.properties, p.name ≠ []
  structs : ∀ s ∈ n.structs, ∀ p ∈ s.properties, p.name ≠ []
  classes : ∀ c ∈ n.classes, ∀ p ∈ c.properties, p.name ≠ []

theorem NamespaceDecl.render_eq [Fragment.Parser] {n : NamespaceDecl} (h : ∀ t ∈ n.parts, OneLine t) (hn : n.Named) :
    n.render = Text.unlines ((n.rows 0).map Row.line) := by
  have hinterfaces (i : InterfaceDecl) (hi : i ∈ n.interfaces) : ∀ t ∈ i.parts, OneLine t :=
    oneLine_of_mem_flatMap (fun t ht => h t (by
      simp only [NamespaceDecl.parts, List.mem_cons, List.mem_append, ht, true_or, or_true])) hi
  have henums (e : EnumDecl) (he : e ∈ n.enums) : ∀ t ∈ e.parts, OneLine t :=
    oneLine_of_mem_flatMap (fun t ht => h t (by
      simp only [NamespaceDecl.parts, List.mem_cons, List.mem_append, ht, true_or, or_true])) he
  have hstructs (s : StructDecl) (hs : s ∈ n.structs) : ∀ t ∈ s.parts, OneLine t :=
    oneLine_of_mem_flatMap (fun t ht => h t (by
      simp only [NamespaceDecl.parts, List.mem_cons, List.mem_append, ht, true_or, or_true])) hs
  have hclasses (c : ClassDecl) (hc : c ∈ n.classes) : ∀ t ∈ c.parts, OneLine t :=
    oneLine_of_mem_flatMap (fun t ht => h t (by
      simp only [NamespaceDecl.parts, List.mem_cons, List.mem_append, ht, or_true])) hc
  have htypes : n.interfaces.map InterfaceDecl.render ++ n.enums.map EnumDecl.render ++
      n.structs.map StructDecl.render ++ n.classes.map ClassDecl.render =
      (n.typeRows 0).map (fun rs => Text.unlines (rs.map Row.line)) := by
    simp only [NamespaceDecl.typeRows, List.map_append, List.map_map]
    rw [List.map_congr_left (fun i hi => InterfaceDecl.render_eq (hinterfaces i hi) (hn.interfaces i hi)),
      List.map_congr_left (fun e he => EnumDecl.render_eq (henums e he)),
      List.map_congr_left (fun s hs => StructDecl.render_eq (hstructs s hs) (hn.structs s hs)),
      List.map_congr_left (fun c hc => ClassDecl.render_eq (hclasses c hc) (hn.classes c hc))]
    rfl
  have hsolid : ∀ rs ∈ n.typeRows 0, Solid rs := by
    intro rs hrs
    simp only [NamespaceDecl.typeRows, List.mem_append, List.mem_map] at hrs
    rcases hrs with ((⟨i, hi, rfl⟩ | ⟨e, he, rfl⟩) | ⟨s, hs, rfl⟩) | ⟨c, hc, rfl⟩
    · exact InterfaceDecl.solid (hinterfaces i hi) (hn.interfaces i hi)
    · exact EnumDecl.solid (henums e he)
    · exact StructDecl.solid (hstructs s hs) (hn.structs s hs)
    · exact ClassDecl.solid (hclasses c hc) (hn.classes c hc)
  have hspaced := haveLines_spaced hsolid
  rw [← NamespaceDecl.typeRows_succ] at hspaced
  have husings : (n.usings.map (fun u => (⟨0, "using ".toList ++ u ++ [';']⟩ : Row))).map Row.line =
      n.usings.map (fun u => "using ".toList ++ u ++ [';']) := by
    rw [List.map_map]
    exact List.map_congr_left (fun u _ => Row.line_zero _)
  have hblank : (if n.usings.isEmpty then [] else [(⟨0, []⟩ : Row)]).map Row.line =
      if (n.usings.map (fun u => "using ".toList ++ u ++ [';'])).isEmpty then [] else [[]] := by
    rw [List.isEmpty_map]
    split
    · rfl
    · rfl
  unfold NamespaceDecl.render NamespaceDecl.rows
  simp only [htypes]
  simp only [List.map_append, List.map_cons, List.map_nil, Row.line_zero, husings, hblank]
  refine HaveLines.unlines_eq ?_
  exact ((HaveLines.self _).append hspaced).append (HaveLines.self _)

/-! ## Declarations that were built -/

theorem Gives.ne_nil {setting : Option Text} {t : Text} (h : Gives setting t) : t ≠ [] := by
  rintro rfl
  exact absurd h.2 (by decide)

theorem named_of_builds {inInterface : Bool} {ds : List Plan.Property} {ps : List PropertyDecl}
    (h : List.Forall₂ (PropertyDraft.Builds inInterface) ds ps) : ∀ p ∈ ps, p.name ≠ [] := by
  intro p hp
  obtain ⟨d, -, hd⟩ := forall₂_exists_left h p hp
  exact hd.name.ne_nil

theorem NamespaceDraft.Builds.named {d : Plan.Namespace} {n : NamespaceDecl} (h : NamespaceDraft.Builds d n) :
    n.Named where
  interfaces i hi := by
    obtain ⟨d', -, hd⟩ := forall₂_exists_left h.interfaces i hi
    exact named_of_builds hd.properties
  structs s hs := by
    obtain ⟨d', -, hd⟩ := forall₂_exists_left h.structs s hs
    exact named_of_builds hd.properties
  classes c hc := by
    obtain ⟨d', -, hd⟩ := forall₂_exists_left h.classes c hc
    exact named_of_builds hd.properties

/-- The text of a declaration that was built is the lines of its rows, each at its depth, joined by line feeds. -/
theorem render_eq_unlines_rows [Fragment.Parser] {w : Workspace} {r : Ref} {purpose : Workspace.Purpose} {d : Decl}
    (hb : w.build r purpose = .ok d) (ho : ∀ t ∈ d.parts, OneLine t) :
    d.render = (d.rows 0).map (fun rs => Text.unlines (rs.map Row.line)) := by
  have hbuilds := Workspace.builds_of_build_eq_ok hb
  cases d with
  | ofNamespace n =>
    obtain ⟨d, -, hd⟩ := hbuilds
    exact congrArg Except.ok (NamespaceDecl.render_eq ho hd.named)
  | ofClass c =>
    obtain ⟨d, -, hd⟩ := hbuilds
    exact congrArg Except.ok (ClassDecl.render_eq ho (named_of_builds hd.properties))
  | ofStruct s =>
    obtain ⟨d, -, hd⟩ := hbuilds
    exact congrArg Except.ok (StructDecl.render_eq ho (named_of_builds hd.properties))
  | ofInterface i =>
    obtain ⟨d, -, hd⟩ := hbuilds
    exact congrArg Except.ok (InterfaceDecl.render_eq ho (named_of_builds hd.properties))
  | ofEnum e => exact congrArg Except.ok (EnumDecl.render_eq ho)
  | ofField f =>
    change Except.ok (Text.unlines f.lines) = _
    rw [FieldDecl.lines_eq]
    rfl
  | ofProperty p =>
    change Except.ok (Text.unlines p.lines) = _
    rw [PropertyDecl.lines_eq]
    rfl
  | bare => rfl
  | ofTypeParameter t => rfl
  | ofParameter p => rfl
  | ofConstructor c => rfl
  | ofEnumMember m => rfl

/-- A namespace with a class that has a constructor, and a property with a block and a summary of two lines. -/
def accountWorkspace : Workspace where
  entries := [
    .propertyMember { name := some "Id".toList, typeName := some "int".toList, setter := none,
                      getter := some (.custom "\x7b if (_id < 0) \x7b return 0; \x7d return _id; \x7d".toList),
                      summary := some "Number.\nNever negative.".toList },
    .constructorMember { parameters := [⟨"id".toList, "int".toList, some "_id".toList⟩] },
    .classType { name := some "Account".toList, properties := [⟨0⟩], constructors := [⟨1⟩] },
    .namespaceFile { name := some "Bank".toList, usings := ["System".toList], classes := [⟨2⟩] }]

def accountNamespace : NamespaceDecl where
  name := "Bank".toList
  usings := ["System".toList]
  classes := [{
    name := "Account".toList
    properties := [{
      name := "Id".toList, typeName := "int".toList, setter := none
      getter := some (.custom "\x7b if (_id < 0) \x7b return 0; \x7d return _id; \x7d".toList)
      summary := some "Number.\nNever negative.".toList }]
    constructors := [{
      className := "Account".toList, parameters := [⟨"id".toList, "int".toList, some "_id".toList⟩] }] }]

theorem render_eq_unlines_rows_account :
    accountWorkspace.build ⟨3⟩ {} = .ok (.ofNamespace accountNamespace) ∧
      (∀ t ∈ (Decl.ofNamespace accountNamespace).parts, OneLine t) ∧
      (Decl.ofNamespace accountNamespace).render =
        ((Decl.ofNamespace accountNamespace).rows 0).map (fun rs => Text.unlines (rs.map Row.line)) := by
  have hb : accountWorkspace.build ⟨3⟩ {} = .ok (.ofNamespace accountNamespace) := rfl
  have ho : ∀ t ∈ (Decl.ofNamespace accountNamespace).parts, OneLine t := by decide
  exact ⟨hb, ho, render_eq_unlines_rows hb ho⟩

end CSharpDraft
