import CSharpDraft.Proofs.Fragment.Lines
import CSharpDraft.Proofs.Render.Rows
import CSharpDraft.Proofs.Text.Lines

/-!
# Parts of declarations that stand on one line

`Decl.parts` lists the names, type names, `using` directives, bases, constraints, parts of parameters and arguments of
base calls in a declaration: all that is written as it was given. Summaries, bodies of accessors and initial values are
not among them; they are cut into lines or put on one line before they are written.

* `TypeParameterDecl.parts`, …, `Decl.parts` : the parts of each sort of declaration;
* `PropertyDecl.oneLine_header`, `oneLine_typeHeader`, … : a header has no line break if the parts have none;
* `oneLine_of_mem_summaryRows`, `oneLine_of_mem_accessorRows` : rows of texts that were cut into lines never have one.
-/

set_option autoImplicit false

namespace CSharpDraft

open Text (OneLine)

/-! ## Parts -/

def TypeParameterDecl.parts (t : TypeParameterDecl) : List Text := t.name :: t.constraints

def FieldDecl.parts (f : FieldDecl) : List Text :=
  f.name :: f.typeName :: f.typeArguments.flatMap TypeParameterDecl.parts

def PropertyDecl.parts (p : PropertyDecl) : List Text :=
  p.name :: p.typeName :: p.typeArguments.flatMap TypeParameterDecl.parts

def ParameterDecl.parts (p : ParameterDecl) : List Text := p.name :: p.typeName :: p.receiver.toList

def ConstructorDecl.parts (c : ConstructorDecl) : List Text :=
  c.className :: (c.parameters.flatMap ParameterDecl.parts ++ c.baseCall.getD [])

def EnumMemberDecl.parts (m : EnumMemberDecl) : List Text := [m.name]

def ClassDecl.parts (c : ClassDecl) : List Text :=
  c.name :: (c.baseClass.toList ++ c.interfaces ++ c.typeParameters.flatMap TypeParameterDecl.parts ++
    c.fields.flatMap FieldDecl.parts ++ c.constructors.flatMap ConstructorDecl.parts ++
    c.properties.flatMap PropertyDecl.parts)

def StructDecl.parts (s : StructDecl) : List Text :=
  s.name :: (s.interfaces ++ s.typeParameters.flatMap TypeParameterDecl.parts ++ s.fields.flatMap FieldDecl.parts ++
    s.constructors.flatMap ConstructorDecl.parts ++ s.properties.flatMap PropertyDecl.parts)

def InterfaceDecl.parts (i : InterfaceDecl) : List Text :=
  i.name :: (i.interfaces ++ i.typeParameters.flatMap TypeParameterDecl.parts ++
    i.properties.flatMap PropertyDecl.parts)

def EnumDecl.parts (e : EnumDecl) : List Text := e.name :: e.members.flatMap EnumMemberDecl.parts

def NamespaceDecl.parts (n : NamespaceDecl) : List Text :=
  n.name :: (n.usings ++ n.interfaces.flatMap InterfaceDecl.parts ++ n.enums.flatMap EnumDecl.parts ++
    n.structs.flatMap StructDecl.parts ++ n.classes.flatMap ClassDecl.parts)

/-- The parts of a declaration that are written as they were given. -/
def Decl.parts : Decl → List Text
  | bare => []
  | ofTypeParameter t => t.parts
  | ofField f => f.parts
  | ofProperty p => p.parts
  | ofParameter p => p.parts
  | ofConstructor c => c.parts
  | ofClass c => c.parts
  | ofStruct s => s.parts
  | ofInterface i => i.parts
  | ofEnumMember m => m.parts
  | ofEnum e => e.parts
  | ofNamespace n => n.parts

/-! ## Phrases -/

theorem oneLine_access (a : Access) : OneLine a.text := by cases a <;> decide

theorem oneLine_wordIf {word : String} (h : OneLine word.toList) (condition : Bool) :
    OneLine (wordIf condition word) := by
  cases condition
  · exact Text.oneLine_nil
  · exact h

theorem oneLine_phraseOf {words : List Text} (h : ∀ w ∈ words, OneLine w) : OneLine (phraseOf words) :=
  Text.oneLine_join (by decide) (fun w hw => h w (List.mem_filter.mp hw).1)

theorem oneLine_commaList {ts : List Text} (h : ∀ t ∈ ts, OneLine t) : OneLine (commaList ts) :=
  Text.oneLine_join (by decide) h

theorem oneLine_of_mem_flatMap {α : Type} {parts : α → List Text} {as : List α}
    (h : ∀ t ∈ as.flatMap parts, OneLine t) {a : α} (ha : a ∈ as) : ∀ t ∈ parts a, OneLine t :=
  fun t ht => h t (List.mem_flatMap.mpr ⟨a, ha, ht⟩)

theorem oneLine_angleList {ts : List TypeParameterDecl} (h : ∀ t ∈ ts.flatMap TypeParameterDecl.parts, OneLine t) :
    OneLine (angleList ts) := by
  unfold angleList
  split
  · exact Text.oneLine_nil
  · have hnames : OneLine (commaList (ts.map (·.name))) := by
      refine oneLine_commaList (fun n hn => ?_)
      obtain ⟨t, ht, rfl⟩ := List.mem_map.mp hn
      exact oneLine_of_mem_flatMap h ht _ List.mem_cons_self
    rw [Text.oneLine_append, Text.oneLine_append]
    exact ⟨⟨by decide, hnames⟩, by decide⟩

theorem oneLine_constraintClauses {ts : List TypeParameterDecl}
    (h : ∀ t ∈ ts.flatMap TypeParameterDecl.parts, OneLine t) : OneLine (constraintClauses ts) := by
  refine Text.oneLine_join (by decide) (fun l hl => ?_)
  obtain ⟨t, ht, rfl⟩ := List.mem_map.mp hl
  have hparts := oneLine_of_mem_flatMap h (List.mem_filter.mp ht).1
  have hconstraints : OneLine (commaList t.constraints) :=
    oneLine_commaList (fun c hc => hparts c (List.mem_cons_of_mem _ hc))
  simp only [Text.oneLine_append]
  exact ⟨⟨⟨by decide, hparts _ List.mem_cons_self⟩, by decide⟩, hconstraints⟩

theorem oneLine_toString (v : Int) : OneLine (toString v).toList := by
  have hdigits (n : Nat) : OneLine n.repr.toList := by
    intro c hc
    rw [Nat.toList_repr] at hc
    have hd := Nat.isDigit_of_mem_toDigits (by decide) (by decide) hc
    simp only [Char.isDigit, Bool.and_eq_true, decide_eq_true_eq, ge_iff_le, UInt32.le_iff_toNat_le] at hd
    have hlow : 48 ≤ c.toNat := hd.1
    have hhigh : c.toNat ≤ 57 := hd.2
    simp only [Text.isLineBreak, Bool.or_eq_false_iff, Bool.and_eq_false_iff, decide_eq_false_iff_not,
      beq_eq_false_iff_ne]
    omega
  cases v with
  | ofNat n => exact hdigits n
  | negSucc n =>
    change OneLine ("-" ++ (n + 1).repr).toList
    rw [String.toList_append, Text.oneLine_append]
    exact ⟨by decide, hdigits (n + 1)⟩

/-! ## Headers -/

theorem PropertyDecl.oneLine_header {p : PropertyDecl} (h : ∀ t ∈ p.parts, OneLine t) : OneLine p.header := by
  have hname : OneLine p.name := h _ List.mem_cons_self
  have htype : OneLine p.typeName := h _ (List.mem_cons_of_mem _ List.mem_cons_self)
  have hangle : OneLine (angleList p.typeArguments) :=
    oneLine_angleList (fun t ht => h t (List.mem_cons_of_mem _ (List.mem_cons_of_mem _ ht)))
  refine oneLine_phraseOf (fun w hw => ?_)
  simp only [List.mem_cons, List.not_mem_nil, or_false] at hw
  rcases hw with rfl | rfl | rfl | rfl
  · exact oneLine_access p.access
  · exact oneLine_wordIf (by decide) p.isStatic
  · rw [Text.oneLine_append]
    exact ⟨htype, hangle⟩
  · exact hname

theorem PropertyDecl.oneLine_initializer (p : PropertyDecl) : OneLine p.initializer := by
  unfold PropertyDecl.initializer
  split
  · exact Text.oneLine_nil
  · simp only [Text.oneLine_append]
    exact ⟨⟨by decide, Fragment.oneLine_formatDefault _⟩, by decide⟩

theorem ConstructorDecl.oneLine_header {c : ConstructorDecl} (h : ∀ t ∈ c.parts, OneLine t) : OneLine c.header := by
  have hclass : OneLine c.className := h _ List.mem_cons_self
  have hparameters : OneLine (commaList (c.parameters.map (fun p => p.typeName ++ [' '] ++ p.name))) := by
    refine oneLine_commaList (fun l hl => ?_)
    obtain ⟨p, hp, rfl⟩ := List.mem_map.mp hl
    have hparts : ∀ t ∈ p.parts, OneLine t := fun t ht =>
      h t (List.mem_cons_of_mem _ (List.mem_append_left _ (List.mem_flatMap.mpr ⟨p, hp, ht⟩)))
    simp only [Text.oneLine_append]
    exact ⟨⟨hparts _ (List.mem_cons_of_mem _ List.mem_cons_self), by decide⟩, hparts _ List.mem_cons_self⟩
  unfold ConstructorDecl.header
  rw [Text.oneLine_append]
  constructor
  · refine oneLine_phraseOf (fun w hw => ?_)
    simp only [List.mem_cons, List.not_mem_nil, or_false] at hw
    rcases hw with rfl | rfl | rfl
    · split
      · exact Text.oneLine_nil
      · exact oneLine_access c.access
    · exact oneLine_wordIf (by decide) c.isStatic
    · simp only [Text.oneLine_append]
      exact ⟨⟨⟨hclass, by decide⟩, hparameters⟩, by decide⟩
  · split
    · exact Text.oneLine_nil
    · next args hargs =>
      have hcall : OneLine (commaList args) := by
        refine oneLine_commaList (fun a ha => h a ?_)
        rw [ConstructorDecl.parts, hargs]
        exact List.mem_cons_of_mem _ (List.mem_append_right _ ha)
      simp only [Text.oneLine_append]
      exact ⟨⟨by decide, hcall⟩, by decide⟩

theorem oneLine_typeHeader {access : Access} {words : List Text} {name : Text} {parameters : List TypeParameterDecl}
    {bases : List Text} (hwords : ∀ w ∈ words, OneLine w) (hname : OneLine name)
    (hparameters : ∀ t ∈ parameters.flatMap TypeParameterDecl.parts, OneLine t) (hbases : ∀ b ∈ bases, OneLine b) :
    OneLine (typeHeader access words name parameters bases) := by
  unfold typeHeader
  rw [Text.oneLine_append]
  constructor
  · refine oneLine_phraseOf (fun w hw => ?_)
    simp only [List.mem_append, List.mem_singleton] at hw
    rcases hw with (rfl | hw) | rfl
    · exact oneLine_access access
    · exact hwords w hw
    · rw [Text.oneLine_append]
      exact ⟨hname, oneLine_angleList hparameters⟩
  · split
    · exact Text.oneLine_nil
    · rw [Text.oneLine_append]
      exact ⟨by decide, oneLine_commaList hbases⟩

/-! ## Rows -/

theorem oneLine_of_mem_summaryLines (s : Option Text) : ∀ l ∈ summaryLines s, OneLine l := by
  cases s with
  | none => simp [summaryLines]
  | some s =>
    have hmiddle : ∀ m ∈ (if (Text.lines s).isEmpty then [[]] else Text.lines s), OneLine m := by
      intro m hm
      split at hm
      · rw [List.mem_singleton.mp hm]
        exact Text.oneLine_nil
      · exact Text.oneLine_of_mem_lines s m hm
    intro l hl
    simp only [summaryLines, List.mem_append, List.mem_singleton, List.mem_map] at hl
    rcases hl with (rfl | ⟨m, hm, rfl⟩) | rfl
    · decide
    · refine Text.OneLine.of_subset ?_ (Text.trimRight_subset _)
      rw [Text.oneLine_append]
      exact ⟨by decide, hmiddle m hm⟩
    · decide

theorem oneLine_of_mem_summaryRows (depth : Nat) (s : Option Text) : ∀ r ∈ summaryRows depth s, OneLine r.text := by
  intro r hr
  obtain ⟨l, hl, rfl⟩ := List.mem_map.mp hr
  exact oneLine_of_mem_summaryLines s l hl

theorem oneLine_of_mem_accessorRows [Fragment.Parser] {depth : Nat} {words : Text} (h : OneLine words)
    (a : Option Accessor) :
    ∀ r ∈ accessorRows depth words a, OneLine r.text := by
  intro r hr
  rcases a with _ | _ | body
  · simp [accessorRows] at hr
  · rw [accessorRows, Accessor.rows, List.mem_singleton] at hr
    rw [hr, Text.oneLine_append]
    exact ⟨h, by decide⟩
  · rw [accessorRows, Accessor.rows] at hr
    split at hr
    · rcases List.mem_cons.mp hr with rfl | hr
      · exact h
      · obtain ⟨l, hl, rfl⟩ := List.mem_map.mp hr
        exact (Fragment.line_of_mem_formatBlock _ l hl).1
    · rw [List.mem_singleton.mp hr]
      simp only [Text.oneLine_append]
      exact ⟨⟨⟨h, by decide⟩, Fragment.oneLine_formatExpression _⟩, by decide⟩

end CSharpDraft
