import CSharpDraft.Fault
import CSharpDraft.Render.Member

/-!
# Source text of declarations

The text of a type is its header, and its members one step to the right between braces; a namespace holds its types in
the same way. Indentation works on text: what stands inside is written first and then moved (`Text.indent`).

* `ClassDecl.render`, `StructDecl.render`, `InterfaceDecl.render`, `EnumDecl.render`, `NamespaceDecl.render`.
* `Decl.render`: the text of any declaration that is one on its own.
-/

set_option autoImplicit false

namespace CSharpDraft

/-! ## Types -/

/-- Whether a blank line follows the member: its last line ends with a closing brace. -/
def endsWithBrace (ls : List Text) : Bool := (ls.getLast?.bind List.getLast?) == some '}'

/-- The texts of members, one step to the right, with a blank line behind each member that ends with a brace;
`afterBrace` tells whether such a member came before. -/
def memberTexts : Bool → List (List Text) → List Text
  | _, [] => []
  | afterBrace, m :: ms =>
    (if afterBrace then [[]] else []) ++ [Text.indent (Text.unlines m)] ++ memberTexts (endsWithBrace m) ms

def renderType (summary : Option Text) (header constraints : Text) (members : List (List Text)) : Text :=
  Text.unlines (summaryLines summary ++ [header] ++
    (if constraints.isEmpty then [] else [Text.margin ++ constraints]) ++ [['{']] ++ memberTexts false members ++
    [['}']])

/-- The header of a type: its modifiers, its name with the type parameters, and its bases. -/
def typeHeader (access : Access) (words : List Text) (name : Text) (parameters : List TypeParameterDecl)
    (bases : List Text) : Text :=
  phraseOf ([access.text] ++ words ++ [name ++ angleList parameters]) ++
    if bases.isEmpty then [] else " : ".toList ++ commaList bases

/-- The text of a class. Fields come first, then constructors, then properties. -/
def ClassDecl.render [Fragment.Parser] (c : ClassDecl) : Text :=
  let bases := (c.baseClass.filter (fun b => !b.isEmpty)).toList ++ c.interfaces
  renderType c.summary (typeHeader c.access [wordIf c.isStatic "static", "class".toList] c.name c.typeParameters bases)
    (constraintClauses c.typeParameters)
    (c.fields.map FieldDecl.lines ++ c.constructors.map ConstructorDecl.lines ++ c.properties.map PropertyDecl.lines)

def StructDecl.render [Fragment.Parser] (s : StructDecl) : Text :=
  renderType s.summary (typeHeader s.access ["struct".toList] s.name s.typeParameters s.interfaces)
    (constraintClauses s.typeParameters)
    (s.fields.map FieldDecl.lines ++ s.constructors.map ConstructorDecl.lines ++ s.properties.map PropertyDecl.lines)

def InterfaceDecl.render [Fragment.Parser] (i : InterfaceDecl) : Text :=
  renderType i.summary (typeHeader i.access ["interface".toList] i.name i.typeParameters i.interfaces)
    (constraintClauses i.typeParameters) (i.properties.map PropertyDecl.lines)

def EnumDecl.render (e : EnumDecl) : Text :=
  Text.unlines (summaryLines e.summary ++ (if e.isFlags then ["[System.Flags]".toList] else []) ++
    [phraseOf [e.access.text, "enum".toList, e.name], ['{']] ++
    e.members.map (fun m => Text.indent (Text.unlines m.lines)) ++ [['}']])

/-! ## Namespaces -/

/-- The texts with an empty line between each two of them. -/
def spaced : List Text → List Text
  | [] => []
  | [t] => [t]
  | t :: ts => t :: [] :: spaced ts

/-- The text of a namespace: its `using` directives, then its types in the order interfaces, enumerations, structures,
classes. -/
def NamespaceDecl.render [Fragment.Parser] (n : NamespaceDecl) : Text :=
  let types := n.interfaces.map InterfaceDecl.render ++ n.enums.map EnumDecl.render ++
    n.structs.map StructDecl.render ++ n.classes.map ClassDecl.render
  let usings := n.usings.map (fun u => "using ".toList ++ u ++ [';'])
  Text.unlines (usings ++ (if usings.isEmpty then [] else [[]]) ++ ["namespace ".toList ++ n.name, ['{']] ++
    spaced (types.map Text.indent) ++ [['}']])

/-! ## Any declaration -/

def Decl.label : Decl → Text
  | bare => "CSharpNode".toList
  | ofTypeParameter _ => "TypeParameter".toList
  | ofField _ => "Field".toList
  | ofProperty _ => "Property".toList
  | ofParameter _ => "Parameter".toList
  | ofConstructor _ => "Constructor".toList
  | ofClass _ => "Class".toList
  | ofStruct _ => "Struct".toList
  | ofInterface _ => "Interface".toList
  | ofEnumMember _ => "EnumerationMember".toList
  | ofEnum _ => "Enumeration".toList
  | ofNamespace _ => "Namespace".toList

/-- The text of a declaration; parts of members have none on their own. -/
def Decl.render [Fragment.Parser] : Decl → Except Fault Text
  | ofNamespace n => .ok n.render
  | ofClass c => .ok c.render
  | ofStruct s => .ok s.render
  | ofInterface i => .ok i.render
  | ofEnum e => .ok e.render
  | ofField f => .ok (Text.unlines f.lines)
  | ofProperty p => .ok (Text.unlines p.lines)
  | d => .error (.notRenderable d.label)

end CSharpDraft
