import CSharpDraft.Decl.Basic
import CSharpDraft.Fragment.Block

/-!
# Lines of members

The members of a type as lists of lines, at the left margin. The summary of a declaration goes above it as a
documentation comment (`summaryLines`). The bodies of accessors are laid out with the parser at hand.
-/

set_option autoImplicit false

namespace CSharpDraft

/-! ## Parts of a declaration -/

/-- The non-empty words in a row, with one space between each two of them. -/
def phraseOf (words : List Text) : Text := Text.join [' '] (words.filter (fun w => !w.isEmpty))

/-- The word where the condition holds, and the empty text elsewhere. -/
def wordIf (condition : Bool) (word : String) : Text := if condition then word.toList else []

/-- The texts with a comma and a space between each two of them. -/
def commaList (ts : List Text) : Text := Text.join [',', ' '] ts

/-- The documentation comment of a summary; an empty summary has one empty line. -/
def summaryLines : Option Text → List Text
  | none => []
  | some summary =>
    let ls := if (Text.lines summary).isEmpty then [[]] else Text.lines summary
    ["/// <summary>".toList] ++ ls.map (fun l => Text.trimRight ("/// ".toList ++ l)) ++ ["/// </summary>".toList]

/-- The names of type parameters in angle brackets, if there are any. -/
def angleList (parameters : List TypeParameterDecl) : Text :=
  if parameters.isEmpty then [] else ['<'] ++ commaList (parameters.map (·.name)) ++ ['>']

/-- The constraints of type parameters; a parameter without constraints is left out. -/
def constraintClauses (parameters : List TypeParameterDecl) : Text :=
  Text.join [' '] ((parameters.filter (fun p => !p.constraints.isEmpty)).map (fun p =>
    "where ".toList ++ p.name ++ " : ".toList ++ commaList p.constraints))

/-! ## Members -/

def FieldDecl.lines (f : FieldDecl) : List Text :=
  summaryLines f.summary ++
    [phraseOf [f.access.text, wordIf f.isReadonly "readonly", f.typeName ++ angleList f.typeArguments, f.name] ++ [';']]

/-- The lines of an accessor with the words in front of it. A body that starts with a brace is a block, any other is an
expression. -/
def Accessor.lines [Fragment.Parser] (words : Text) : Accessor → List Text
  | auto => [words ++ [';']]
  | custom body =>
    let body := Text.trim body
    if body.head? == some '{' then words :: Fragment.formatBlock body
    else [words ++ " => ".toList ++ Fragment.formatExpression body ++ [';']]

/-- The lines of an optional accessor, one step to the right. -/
def accessorLines [Fragment.Parser] (words : Text) : Option Accessor → List Text
  | none => []
  | some a => (a.lines words).map (Text.margin ++ ·)

/-- The initial value of a property with the marks around it. -/
def PropertyDecl.initializer (p : PropertyDecl) : Text :=
  match p.defaultValue with
  | none => []
  | some v => " = ".toList ++ Fragment.formatDefault v ++ [';']

/-- The words in front of the body of a property. -/
def PropertyDecl.header (p : PropertyDecl) : Text :=
  phraseOf [p.access.text, wordIf p.isStatic "static", p.typeName ++ angleList p.typeArguments, p.name]

/-- The lines of a property. Without accessors it is written like a field. -/
def PropertyDecl.lines [Fragment.Parser] (p : PropertyDecl) : List Text :=
  summaryLines p.summary ++
    if p.getter.isNone && p.setter.isNone then
      [p.header ++ (if p.defaultValue.isNone then [';'] else p.initializer)]
    else
      [p.header, ['{']] ++ accessorLines "get".toList p.getter ++
        accessorLines (phraseOf [(p.setterAccess.map Access.text).getD [], "set".toList]) p.setter ++
        [['}'] ++ p.initializer]

/-- The words of a constructor up to its body. -/
def ConstructorDecl.header (c : ConstructorDecl) : Text :=
  let parameters := commaList (c.parameters.map (fun p => p.typeName ++ [' '] ++ p.name))
  let access := if c.isStatic then [] else c.access.text
  phraseOf [access, wordIf c.isStatic "static", c.className ++ ['('] ++ parameters ++ [')']] ++
    match c.baseCall with
    | none => []
    | some args => ": base(".toList ++ commaList args ++ [')']

/-- The line that passes a parameter on to the member that receives it. -/
def ParameterDecl.lines (p : ParameterDecl) : List Text :=
  match p.receiver with
  | none => []
  | some receiver =>
    if receiver.isEmpty then [] else [Text.margin ++ receiver ++ " = ".toList ++ p.name ++ [';']]

def ConstructorDecl.lines (c : ConstructorDecl) : List Text :=
  summaryLines c.summary ++ [c.header, ['{']] ++ c.parameters.flatMap ParameterDecl.lines ++ [['}']]

def EnumMemberDecl.lines (m : EnumMemberDecl) : List Text :=
  summaryLines m.summary ++
    match m.value with
    | none => [m.name ++ [',']]
    | some v => [m.name ++ " = ".toList ++ (toString v).toList ++ [',']]

end CSharpDraft
