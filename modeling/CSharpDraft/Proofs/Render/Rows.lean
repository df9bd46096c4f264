import CSharpDraft.Render.Basic

/-!
# Declarations as rows at a depth

A printer that never moves text: it goes through a declaration with the depth at hand, and gives each line its depth when
it writes it.

* `Row`, `Row.line` : a text with its depth; the line has four spaces for each step of depth.
* `FieldDecl.rows`, …, `Decl.rows` : the rows of a declaration that stands at a depth. A type stands one step deeper than
  its namespace, a member one step deeper than its type, and an accessor one step deeper than its property.
* `memberRows` : an empty row follows a member that ends with a closing brace, and no other. Which members these are is
  read off the declaration: all constructors, and the properties with an accessor and without an initial value.
* `rows_succ` : a declaration that stands one step deeper has the same rows, each one step deeper.
-/

set_option autoImplicit false

namespace CSharpDraft

/-- A text that stands on a line of its own, at a depth. -/
structure Row where
  depth : Nat
  text : Text
  deriving DecidableEq, Repr

namespace Row

/-- The line of a row: four spaces for each step of depth in front of the text. An empty row is an empty line. -/
def line (r : Row) : Text := if r.text.isEmpty then [] else List.replicate (4 * r.depth) ' ' ++ r.text

def deeper (r : Row) : Row := { r with depth := r.depth + 1 }

end Row

/-! ## Members -/

def summaryRows (depth : Nat) (summary : Option Text) : List Row := (summaryLines summary).map (Row.mk depth)

def FieldDecl.rows (depth : Nat) (f : FieldDecl) : List Row :=
  summaryRows depth f.summary ++
    [⟨depth, phraseOf [f.access.text, wordIf f.isReadonly "readonly", f.typeName ++ angleList f.typeArguments, f.name] ++
      [';']⟩]

/-- The rows of an accessor with the words in front of it; those of a block are the lines of its layout. -/
def Accessor.rows [Fragment.Parser] (depth : Nat) (words : Text) : Accessor → List Row
  | auto => [⟨depth, words ++ [';']⟩]
  | custom body =>
    if (Text.trim body).head? == some '{' then
      ⟨depth, words⟩ :: (Fragment.formatBlock (Text.trim body)).map (Row.mk depth)
    else [⟨depth, words ++ " => ".toList ++ Fragment.formatExpression (Text.trim body) ++ [';']⟩]

def accessorRows [Fragment.Parser] (depth : Nat) (words : Text) : Option Accessor → List Row
  | none => []
  | some a => a.rows depth words

def PropertyDecl.rows [Fragment.Parser] (depth : Nat) (p : PropertyDecl) : List Row :=
  summaryRows depth p.summary ++
    if p.getter.isNone && p.setter.isNone then
      [⟨depth, p.header ++ (if p.defaultValue.isNone then [';'] else p.initializer)⟩]
    else
      [⟨depth, p.header⟩, ⟨depth, ['{']⟩] ++ accessorRows (depth + 1) "get".toList p.getter ++
        accessorRows (depth + 1) (phraseOf [(p.setterAccess.map Access.text).getD [], "set".toList]) p.setter ++
        [⟨depth, ['}'] ++ p.initializer⟩]

/-- The row that passes a parameter on to the member that receives it. -/
def ParameterDecl.rows (depth : Nat) (p : ParameterDecl) : List Row :=
  match p.receiver with
  | none => []
  | some receiver => if receiver.isEmpty then [] else [⟨depth, receiver ++ " = ".toList ++ p.name ++ [';']⟩]

def ConstructorDecl.rows (depth : Nat) (c : ConstructorDecl) : List Row :=
  summaryRows depth c.summary ++ [⟨depth, c.header⟩, ⟨depth, ['{']⟩] ++
    c.parameters.flatMap (ParameterDecl.rows (depth + 1)) ++ [⟨depth, ['}']⟩]

def EnumMemberDecl.rows (depth : Nat) (m : EnumMemberDecl) : List Row :=
  summaryRows depth m.summary ++
    [⟨depth, m.name ++ (m.value.elim [] (fun v => " = ".toList ++ (toString v).toList)) ++ [',']⟩]

/-! ## Types -/

/-- A member of a type: its rows, and whether it ends with a closing brace. -/
structure Member where
  rows : List Row
  closed : Bool
  deriving DecidableEq, Repr

def FieldDecl.member (depth : Nat) (f : FieldDecl) : Member := { rows := f.rows depth, closed := false }

def ConstructorDecl.member (depth : Nat) (c : ConstructorDecl) : Member := { rows := c.rows depth, closed := true }

def PropertyDecl.member [Fragment.Parser] (depth : Nat) (p : PropertyDecl) : Member :=
  { rows := p.rows depth, closed := (p.getter.isSome || p.setter.isSome) && p.defaultValue.isNone }

/-- The rows of members; `afterBrace` tells whether a member that ends with a closing brace came before. -/
def memberRows (depth : Nat) : Bool → List Member → List Row
  | _, [] => []
  | afterBrace, m :: ms => (if afterBrace then [⟨depth, []⟩] else []) ++ m.rows ++ memberRows depth m.closed ms

/-- The rows of a type from its parts; its constraints stand one step deeper than its header. -/
def typeRows (depth : Nat) (summary : Option Text) (header constraints : Text) (members : List Member) : List Row :=
  summaryRows depth summary ++ [⟨depth, header⟩] ++
    (if constraints.isEmpty then [] else [⟨depth + 1, constraints⟩]) ++ [⟨depth, ['{']⟩] ++
    memberRows (depth + 1) false members ++ [⟨depth, ['}']⟩]

def ClassDecl.header (c : ClassDecl) : Text :=
  typeHeader c.access [wordIf c.isStatic "static", "class".toList] c.name c.typeParameters
    ((c.baseClass.filter (fun b => !b.isEmpty)).toList ++ c.interfaces)

def StructDecl.header (s : StructDecl) : Text :=
  typeHeader s.access ["struct".toList] s.name s.typeParameters s.interfaces

def InterfaceDecl.header (i : InterfaceDecl) : Text :=
  typeHeader i.access ["interface".toList] i.name i.typeParameters i.interfaces

def EnumDecl.header (e : EnumDecl) : Text := phraseOf [e.access.text, "enum".toList, e.name]

/-- The members of a type: fields, then constructors, then properties. -/
def typeMembers [Fragment.Parser] (depth : Nat) (fields : List FieldDecl) (constructors : List ConstructorDecl)
    (properties : List PropertyDecl) : List Member :=
  fields.map (FieldDecl.member depth) ++ constructors.map (ConstructorDecl.member depth) ++
    properties.map (PropertyDecl.member depth)

def ClassDecl.rows [Fragment.Parser] (depth : Nat) (c : ClassDecl) : List Row :=
  typeRows depth c.summary c.header (constraintClauses c.typeParameters)
    (typeMembers (depth + 1) c.fields c.constructors c.properties)

def StructDecl.rows [Fragment.Parser] (depth : Nat) (s : StructDecl) : List Row :=
  typeRows depth s.summary s.header (constraintClauses s.typeParameters)
    (typeMembers (depth + 1) s.fields s.constructors s.properties)

def InterfaceDecl.rows [Fragment.Parser] (depth : Nat) (i : InterfaceDecl) : List Row :=
  typeRows depth i.summary i.header (constraintClauses i.typeParameters) (typeMembers (depth + 1) [] [] i.properties)

def EnumDecl.rows (depth : Nat) (e : EnumDecl) : List Row :=
  summaryRows depth e.summary ++ (if e.isFlags then [⟨depth, "[System.Flags]".toList⟩] else []) ++
    [⟨depth, e.header⟩, ⟨depth, ['{']⟩] ++ e.members.flatMap (EnumMemberDecl.rows (depth + 1)) ++ [⟨depth, ['}']⟩]

/-! ## Namespaces and any declaration -/

/-- The rows of several types, with one empty row between each two of them. -/
def spacedRows (depth : Nat) : List (List Row) → List Row
  | [] => []
  | [rs] => rs
  | rs :: rss => rs ++ [⟨depth, []⟩] ++ spacedRows depth rss

/-- The rows of the types of a namespace: interfaces, enumerations, structures, classes. -/
def NamespaceDecl.typeRows [Fragment.Parser] (depth : Nat) (n : NamespaceDecl) : List (List Row) :=
  n.interfaces.map (InterfaceDecl.rows depth) ++ n.enums.map (EnumDecl.rows depth) ++
    n.structs.map (StructDecl.rows depth) ++ n.classes.map (ClassDecl.rows depth)

/-- The rows of a namespace, with an empty row behind its `using` directives if it has any. -/
def NamespaceDecl.rows [Fragment.Parser] (depth : Nat) (n : NamespaceDecl) : List Row :=
  n.usings.map (fun u => ⟨depth, "using ".toList ++ u ++ [';']⟩) ++ (if n.usings.isEmpty then [] else [⟨depth, []⟩]) ++
    [⟨depth, "namespace ".toList ++ n.name⟩, ⟨depth, ['{']⟩] ++ spacedRows (depth + 1) (n.typeRows (depth + 1)) ++
    [⟨depth, ['}']⟩]

/-- The rows of a declaration; parts of members have none on their own. -/
def Decl.rows [Fragment.Parser] (depth : Nat) : Decl → Except Fault (List Row)
  | ofNamespace n => .ok (n.rows depth)
  | ofClass c => .ok (c.rows depth)
  | ofStruct s => .ok (s.rows depth)
  | ofInterface i => .ok (i.rows depth)
  | ofEnum e => .ok (e.rows depth)
  | ofField f => .ok (f.rows depth)
  | ofProperty p => .ok (p.rows depth)
  | d => .error (.notRenderable d.label)

/-! ## One step deeper -/

@[simp] theorem Row.deeper_mk (depth : Nat) (t : Text) : Row.deeper ⟨depth, t⟩ = ⟨depth + 1, t⟩ := rfl

@[simp] theorem map_deeper_map_mk (depth : Nat) (ts : List Text) :
    (ts.map (Row.mk depth)).map Row.deeper = ts.map (Row.mk (depth + 1)) := by
  rw [List.map_map]
  rfl

@[simp] theorem summaryRows_succ (depth : Nat) (s : Option Text) :
    summaryRows (depth + 1) s = (summaryRows depth s).map Row.deeper := by
  simp [summaryRows]

theorem FieldDecl.rows_succ (depth : Nat) (f : FieldDecl) : f.rows (depth + 1) = (f.rows depth).map Row.deeper := by
  simp [FieldDecl.rows]

theorem Accessor.rows_eq [Fragment.Parser] (depth : Nat) (words : Text) (a : Accessor) :
    a.rows depth words = (a.lines words).map (Row.mk depth) := by
  cases a with
  | auto => rfl
  | custom body =>
    rw [Accessor.rows, Accessor.lines]
    split
    · rw [List.map_cons]
    · rw [List.map_cons, List.map_nil]

theorem accessorRows_succ [Fragment.Parser] (depth : Nat) (words : Text) (a : Option Accessor) :
    accessorRows (depth + 1) words a = (accessorRows depth words a).map Row.deeper := by
  cases a with
  | none => rfl
  | some a => rw [accessorRows, accessorRows, Accessor.rows_eq, Accessor.rows_eq, map_deeper_map_mk]

theorem PropertyDecl.rows_succ [Fragment.Parser] (depth : Nat) (p : PropertyDecl) :
    p.rows (depth + 1) = (p.rows depth).map Row.deeper := by
  unfold PropertyDecl.rows
  rw [accessorRows_succ (depth + 1), accessorRows_succ (depth + 1)]
  split
  · simp
  · simp

theorem ParameterDecl.rows_succ (depth : Nat) (p : ParameterDecl) :
    p.rows (depth + 1) = (p.rows depth).map Row.deeper := by
  unfold ParameterDecl.rows
  split
  · rfl
  · split
    · rfl
    · rfl

theorem flatMap_rows_succ {α : Type} {rows : Nat → α → List Row} {depth : Nat}
    (h : ∀ a, rows (depth + 1) a = (rows depth a).map Row.deeper) (as : List α) :
    as.flatMap (rows (depth + 1)) = (as.flatMap (rows depth)).map Row.deeper := by
  rw [List.map_flatMap, funext h]

theorem ConstructorDecl.rows_succ (depth : Nat) (c : ConstructorDecl) :
    c.rows (depth + 1) = (c.rows depth).map Row.deeper := by
  unfold ConstructorDecl.rows
  rw [flatMap_rows_succ (ParameterDecl.rows_succ (depth + 1))]
  simp

theorem EnumMemberDecl.rows_succ (depth : Nat) (m : EnumMemberDecl) :
    m.rows (depth + 1) = (m.rows depth).map Row.deeper := by
  simp [EnumMemberDecl.rows]

def Member.deeper (m : Member) : Member := { m with rows := m.rows.map Row.deeper }

theorem memberRows_succ (depth : Nat) (afterBrace : Bool) (ms : List Member) :
    memberRows (depth + 1) afterBrace (ms.map Member.deeper) = (memberRows depth afterBrace ms).map Row.deeper := by
  induction ms generalizing afterBrace with
  | nil => rfl
  | cons m ms ih =>
    simp only [List.map_cons, memberRows, List.map_append]
    rw [← ih m.closed]
    cases afterBrace
    · rfl
    · rfl

theorem typeRows_succ (depth : Nat) (s : Option Text) (header constraints : Text) (ms : List Member) :
    typeRows (depth + 1) s header constraints (ms.map Member.deeper) =
      (typeRows depth s header constraints ms).map Row.deeper := by
  unfold typeRows
  rw [memberRows_succ]
  split
  · simp
  · simp

theorem FieldDecl.member_succ (depth : Nat) :
    FieldDecl.member (depth + 1) = Member.deeper ∘ FieldDecl.member depth := by
  funext f
  simp [FieldDecl.member, Member.deeper, FieldDecl.rows_succ]

theorem ConstructorDecl.member_succ (depth : Nat) :
    ConstructorDecl.member (depth + 1) = Member.deeper ∘ ConstructorDecl.member depth := by
  funext c
  simp [ConstructorDecl.member, Member.deeper, ConstructorDecl.rows_succ]

theorem PropertyDecl.member_succ [Fragment.Parser] (depth : Nat) :
    PropertyDecl.member (depth + 1) = Member.deeper ∘ PropertyDecl.member depth := by
  funext p
  simp [PropertyDecl.member, Member.deeper, PropertyDecl.rows_succ]

theorem typeMembers_succ [Fragment.Parser] (depth : Nat) (fields : List FieldDecl) (constructors : List ConstructorDecl)
    (properties : List PropertyDecl) :
    typeMembers (depth + 1) fields constructors properties =
      (typeMembers depth fields constructors properties).map Member.deeper := by
  simp [typeMembers, FieldDecl.member_succ, ConstructorDecl.member_succ, PropertyDecl.member_succ]

theorem ClassDecl.rows_succ [Fragment.Parser] (depth : Nat) (c : ClassDecl) :
    c.rows (depth + 1) = (c.rows depth).map Row.deeper := by
  unfold ClassDecl.rows
  rw [typeMembers_succ (depth + 1), typeRows_succ]

theorem StructDecl.rows_succ [Fragment.Parser] (depth : Nat) (s : StructDecl) :
    s.rows (depth + 1) = (s.rows depth).map Row.deeper := by
  unfold StructDecl.rows
  rw [typeMembers_succ (depth + 1), typeRows_succ]

theorem InterfaceDecl.rows_succ [Fragment.Parser] (depth : Nat) (i : InterfaceDecl) :
    i.rows (depth + 1) = (i.rows depth).map Row.deeper := by
  unfold InterfaceDecl.rows
  rw [typeMembers_succ (depth + 1), typeRows_succ]

theorem EnumDecl.rows_succ (depth : Nat) (e : EnumDecl) : e.rows (depth + 1) = (e.rows depth).map Row.deeper := by
  unfold EnumDecl.rows
  rw [flatMap_rows_succ (EnumMemberDecl.rows_succ (depth + 1))]
  split
  · simp
  · simp

end CSharpDraft
