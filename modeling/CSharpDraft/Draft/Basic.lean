import CSharpDraft.Decl.Basic

/-!
# Drafts

A draft collects the settings of a declaration; none of them has to be there before the declaration is built. The drafts
of a type hold drafts of its members, and `NamespaceDraft` drafts of types. What stands for a member is a parameter of
the structure: drafts in a workspace hold references to each other, and a `Plan` holds the member drafts themselves.
-/

set_option autoImplicit false

namespace CSharpDraft

/-! ## Members -/

structure TypeParameterDraft where
  name : Option Text := none
  constraints : List Text := []
  deriving DecidableEq, Repr

/-- A draft of a field, over the drafts `τ` of its type parameters. -/
structure FieldDraft (τ : Type) where
  name : Option Text := none
  typeName : Option Text := none
  access : Access := .priv
  isReadonly : Bool := false
  summary : Option Text := none
  typeParameters : List τ := []
  deriving DecidableEq, Repr

/-- A draft of a property, over the drafts `τ` of its type parameters. -/
structure PropertyDraft (τ : Type) where
  name : Option Text := none
  typeName : Option Text := none
  access : Access := .pub
  getter : Option Accessor := some .auto
  setter : Option Accessor := some .auto
  setterAccess : Option Access := none
  defaultValue : Option Text := none
  isStatic : Bool := false
  summary : Option Text := none
  typeParameters : List τ := []
  deriving DecidableEq, Repr

/-- A draft of a constructor; it gets the name of its type when that is built. -/
structure ConstructorDraft where
  access : Option Access := none
  parameters : List ParameterDecl := []
  baseCall : Option (List Text) := none
  summary : Option Text := none
  deriving DecidableEq, Repr

structure EnumMemberDraft where
  name : Option Text := none
  value : Option Int := none
  summary : Option Text := none
  deriving DecidableEq, Repr

/-! ## Types and namespaces -/

/-- A draft of a class, over the drafts of its type parameters, fields, properties and constructors. -/
structure ClassDraft (τ φ π κ : Type) where
  name : Option Text := none
  access : Access := .pub
  summary : Option Text := none
  baseClass : Option Text := none
  interfaces : List Text := []
  isStatic : Bool := false
  fields : List φ := []
  properties : List π := []
  constructors : List κ := []
  typeParameters : List τ := []
  deriving DecidableEq, Repr

/-- A draft of a structure, over the drafts of its type parameters, fields, properties and constructors. -/
structure StructDraft (τ φ π κ : Type) where
  name : Option Text := none
  access : Access := .pub
  summary : Option Text := none
  interfaces : List Text := []
  fields : List φ := []
  properties : List π := []
  constructors : List κ := []
  typeParameters : List τ := []
  deriving DecidableEq, Repr

/-- A draft of an interface, over the drafts of its type parameters and properties. -/
structure InterfaceDraft (τ π : Type) where
  name : Option Text := none
  access : Access := .pub
  summary : Option Text := none
  interfaces : List Text := []
  properties : List π := []
  typeParameters : List τ := []
  deriving DecidableEq, Repr

/-- A draft of an enumeration, over the drafts of its members. -/
structure EnumDraft (μ : Type) where
  name : Option Text := none
  access : Access := .pub
  summary : Option Text := none
  isFlags : Bool := false
  members : List μ := []
  deriving DecidableEq, Repr

/-- A draft of a namespace, over the drafts of its classes, structures, interfaces and enumerations. -/
structure NamespaceDraft (γ σ ι ε : Type) where
  name : Option Text := none
  usings : List Text := []
  classes : List γ := []
  structs : List σ := []
  interfaces : List ι := []
  enums : List ε := []
  deriving DecidableEq, Repr

/-! ## Drafts that hold their members -/

namespace Plan

abbrev Field := FieldDraft TypeParameterDraft

abbrev Property := PropertyDraft TypeParameterDraft

abbrev Class := ClassDraft TypeParameterDraft Field Property ConstructorDraft

abbrev Struct := StructDraft TypeParameterDraft Field Property ConstructorDraft

abbrev Interface := InterfaceDraft TypeParameterDraft Property

abbrev Enum := EnumDraft EnumMemberDraft

abbrev Namespace := NamespaceDraft Class Struct Interface Enum

end Plan

end CSharpDraft
