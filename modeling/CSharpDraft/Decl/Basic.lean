import CSharpDraft.Decl.Access

/-!
# Declarations

The declarations that can be written as source text, as finished values: a declaration holds everything that its text
shows and nothing that is still open. `Decl` is any one of them.

The default values of the fields are those of a declaration about which nothing has been said.
-/

set_option autoImplicit false

namespace CSharpDraft

/-! ## Members -/

structure TypeParameterDecl where
  name : Text := []
  constraints : List Text := []
  deriving DecidableEq, Repr

structure FieldDecl where
  name : Text := []
  typeName : Text := []
  access : Access := .priv
  isReadonly : Bool := false
  summary : Option Text := none
  typeArguments : List TypeParameterDecl := []
  deriving DecidableEq, Repr

/-- An accessor of a property: implemented by the compiler, or with a body of its own. -/
inductive Accessor where
  | auto
  | custom (body : Text)
  deriving DecidableEq, Repr

/-- A property; an accessor that it lacks is `none`. -/
structure PropertyDecl where
  name : Text := []
  typeName : Text := []
  access : Access := .pub
  getter : Option Accessor := some .auto
  setter : Option Accessor := some .auto
  setterAccess : Option Access := none
  defaultValue : Option Text := none
  isStatic : Bool := false
  summary : Option Text := none
  typeArguments : List TypeParameterDecl := []
  deriving DecidableEq, Repr

/-- A parameter of a constructor, with the member that receives it. -/
structure ParameterDecl where
  name : Text := []
  typeName : Text := []
  receiver : Option Text := none
  deriving DecidableEq, Repr

structure ConstructorDecl where
  className : Text := []
  access : Access := .pub
  parameters : List ParameterDecl := []
  baseCall : Option (List Text) := none
  isStatic : Bool := false
  summary : Option Text := none
  deriving DecidableEq, Repr

structure EnumMemberDecl where
  name : Text := []
  value : Option Int := none
  summary : Option Text := none
  deriving DecidableEq, Repr

/-! ## Types and namespaces -/

structure ClassDecl where
  name : Text := []
  access : Access := .pub
  summary : Option Text := none
  baseClass : Option Text := none
  interfaces : List Text := []
  isStatic : Bool := false
  fields : List FieldDecl := []
  properties : List PropertyDecl := []
  constructors : List ConstructorDecl := []
  typeParameters : List TypeParameterDecl := []
  deriving DecidableEq, Repr

structure StructDecl where
  name : Text := []
  access : Access := .pub
  summary : Option Text := none
  interfaces : List Text := []
  fields : List FieldDecl := []
  properties : List PropertyDecl := []
  constructors : List ConstructorDecl := []
  typeParameters : List TypeParameterDecl := []
  deriving DecidableEq, Repr

structure InterfaceDecl where
  name : Text := []
  access : Access := .pub
  summary : Option Text := none
  interfaces : List Text := []
  properties : List PropertyDecl := []
  typeParameters : List TypeParameterDecl := []
  deriving DecidableEq, Repr

/-- An enumeration; with `isFlags` its values are bits. -/
structure EnumDecl where
  name : Text := []
  access : Access := .pub
  summary : Option Text := none
  isFlags : Bool := false
  members : List EnumMemberDecl := []
  deriving DecidableEq, Repr

/-- A namespace with the `using` directives of its file. -/
structure NamespaceDecl where
  name : Text := []
  usings : List Text := []
  classes : List ClassDecl := []
  structs : List StructDecl := []
  interfaces : List InterfaceDecl := []
  enums : List EnumDecl := []
  deriving DecidableEq, Repr

/-! ## Any declaration -/

/-- Any declaration; `bare` is one of no particular kind. -/
inductive Decl where
  | bare
  | ofTypeParameter (d : TypeParameterDecl)
  | ofField (d : FieldDecl)
  | ofProperty (d : PropertyDecl)
  | ofParameter (d : ParameterDecl)
  | ofConstructor (d : ConstructorDecl)
  | ofClass (d : ClassDecl)
  | ofStruct (d : StructDecl)
  | ofInterface (d : InterfaceDecl)
  | ofEnumMember (d : EnumMemberDecl)
  | ofEnum (d : EnumDecl)
  | ofNamespace (d : NamespaceDecl)
  deriving DecidableEq, Repr

end CSharpDraft
