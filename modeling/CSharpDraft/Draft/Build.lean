import CSharpDraft.Draft.Basic
import CSharpDraft.Fault

/-!
# Building declarations from drafts

A build checks a draft and gives the declaration, or the first fault: the settings of the draft itself come first, then
its members in the order of the declaration, then what depends on the members built. How a member is built, and what else
that may do, is a parameter: `buildWith` works in any monad `m` in which checks can fail.

* `flagValues`: the values 0, 1, 2, 4, … of the members of an enumeration of bits.
* `ClassDraft.buildWith`, …, `NamespaceDraft.buildWith`: builds over the builds of the members.
* `ClassDraft.build`, …, `NamespaceDraft.build`: the declarations of whole plans.
-/

set_option autoImplicit false

namespace CSharpDraft

/-! ## Checks -/

/-- Fails with the fault where the condition holds. -/
def failIf (condition : Bool) (fault : Fault) : Except Fault Unit := if condition then .error fault else .ok ()

/-- Fails with the violation where the condition holds. -/
def forbid (condition : Bool) (v : Violation) : Except Fault Unit := failIf condition (.violation v)

/-- The text of a setting that must be there and must not be blank. -/
def require (setting : Option Text) (fault : Fault) : Except Fault Text :=
  match setting with
  | none => .error fault
  | some t => if Text.isBlank t then .error fault else .ok t

section

variable {m : Type → Type} [Monad m]

/-- Applies a check to each element, from left to right, up to the first fault. -/
def checkEach {α β : Type} (f : α → m β) : List α → m (List β)
  | [] => pure []
  | a :: as => do
    let b ← f a
    let bs ← checkEach f as
    return b :: bs

variable [MonadLiftT (Except Fault) m] {τ φ π κ μ γ σ ι ε : Type}

/-! ## Members -/

def TypeParameterDraft.build (d : TypeParameterDraft) : Except Fault TypeParameterDecl := do
  let name ← require d.name (.missingName .typeParameter)
  return { name := name, constraints := d.constraints }

def FieldDraft.buildWith (typeParameter : τ → m TypeParameterDecl) (d : FieldDraft τ) : m FieldDecl := do
  let name ← require d.name (.missingName .fieldMember)
  let typeName ← require d.typeName (.missingType .fieldMember)
  let typeArguments ← checkEach typeParameter d.typeParameters
  return { name, typeName, access := d.access, isReadonly := d.isReadonly, summary := d.summary, typeArguments }

/-- Whether an optional accessor is there and has a body. -/
def isCustom : Option Accessor → Bool
  | some (.custom _) => true
  | _ => false

/-- The declaration of a property. Inside an interface it has no access modifier, and a setter of the compiler may stand
without a getter. -/
def PropertyDraft.buildWith (typeParameter : τ → m TypeParameterDecl) (d : PropertyDraft τ) (inInterface : Bool) :
    m PropertyDecl := do
  let name ← require d.name (.missingName .propertyMember)
  let typeName ← require d.typeName (.missingType .propertyMember)
  let autoSetter := d.setter == some .auto && !inInterface
  forbid (autoSetter && d.getter.isNone) .setterWithoutGetter
  forbid (autoSetter && isCustom d.getter) .setterBesideCustomGetter
  forbid (d.defaultValue.isSome && (isCustom d.getter || isCustom d.setter)) .defaultBesideCustomAccessor
  let access := if inInterface then .unstated else d.access
  forbid (d.setter.isSome && d.setterAccess.any (fun a => !a.narrowerThan access)) (.setterAccess name)
  let typeArguments ← checkEach typeParameter d.typeParameters
  return { name, typeName, access, getter := d.getter, setter := d.setter,
           setterAccess := if d.setter.isSome then d.setterAccess else none, defaultValue := d.defaultValue,
           isStatic := d.isStatic, summary := d.summary, typeArguments }

def ConstructorDraft.build (d : ConstructorDraft) (className : Text) (isStatic : Bool) :
    Except Fault ConstructorDecl := do
  forbid (isStatic && d.access.any (· != .unstated)) (.staticConstructorAccess className)
  forbid (isStatic && !d.parameters.isEmpty) (.staticConstructorParameters className)
  forbid (isStatic && d.baseCall.isSome) (.staticConstructorBaseCall className)
  return { className, access := if isStatic then .unstated else d.access.getD .pub, parameters := d.parameters,
           baseCall := d.baseCall, isStatic, summary := d.summary }

def EnumMemberDraft.build (d : EnumMemberDraft) : Except Fault EnumMemberDecl := do
  let name ← require d.name (.missingName .enumMember)
  return { name, value := d.value, summary := d.summary }

/-! ## Types -/

def ClassDraft.buildWith (typeParameter : τ → m TypeParameterDecl) (field : φ → m FieldDecl)
    (property : π → Bool → m PropertyDecl) (constructor : κ → Text → Bool → m ConstructorDecl) (d : ClassDraft τ φ π κ) :
    m ClassDecl := do
  let name ← require d.name (.missingName .classType)
  forbid (d.isStatic && 1 < d.constructors.length) (.staticConstructors name d.constructors.length)
  let typeParameters ← checkEach typeParameter d.typeParameters
  let fields ← checkEach field d.fields
  let properties ← checkEach (fun p => property p false) d.properties
  let constructors ← checkEach (fun c => constructor c name d.isStatic) d.constructors
  return { name, access := d.access, summary := d.summary, baseClass := d.baseClass, interfaces := d.interfaces,
           isStatic := d.isStatic, fields, properties, constructors, typeParameters }

def StructDraft.buildWith (typeParameter : τ → m TypeParameterDecl) (field : φ → m FieldDecl)
    (property : π → Bool → m PropertyDecl) (constructor : κ → Text → Bool → m ConstructorDecl)
    (d : StructDraft τ φ π κ) : m StructDecl := do
  let name ← require d.name (.missingName .structType)
  let typeParameters ← checkEach typeParameter d.typeParameters
  let fields ← checkEach field d.fields
  let properties ← checkEach (fun p => property p false) d.properties
  let _ ← checkEach (fun p : PropertyDecl => forbid p.defaultValue.isSome (.structDefault name p.name)) properties
  let constructors ← checkEach (fun c => constructor c name false) d.constructors
  forbid (constructors.any (fun c => c.parameters.isEmpty)) (.structParameterless name)
  return { name, access := d.access, summary := d.summary, interfaces := d.interfaces, fields, properties,
           constructors, typeParameters }

/-- What a property of an interface must not have. -/
def checkInterfaceProperty (interfaceName : Text) (p : PropertyDecl) : Except Fault Unit := do
  forbid p.defaultValue.isSome (.interfaceDefault interfaceName p.name)
  forbid (p.getter.isNone && p.setter.isNone) (.interfaceNoAccessor p.name)
  forbid (isCustom p.getter) (.interfaceCustomGetter p.name)
  forbid (isCustom p.setter) (.interfaceCustomSetter p.name)

def InterfaceDraft.buildWith (typeParameter : τ → m TypeParameterDecl) (property : π → Bool → m PropertyDecl)
    (d : InterfaceDraft τ π) : m InterfaceDecl := do
  let name ← require d.name (.missingName .interfaceType)
  let typeParameters ← checkEach typeParameter d.typeParameters
  let properties ← checkEach (fun p => property p true) d.properties
  let _ ← checkEach (fun p : PropertyDecl => checkInterfaceProperty name p) properties
  return { name, access := d.access, summary := d.summary, interfaces := d.interfaces, properties, typeParameters }

/-- The first `count` values of an enumeration of bits: zero, then the powers of two. There are none for a negative
count. -/
def flagValues (count : Int) : List Nat :=
  (List.range count.toNat).map (fun i => if i = 0 then 0 else 1 <<< (i - 1))

/-- Gives the members of an enumeration of bits their values. -/
def assignFlags (members : List EnumMemberDecl) : List EnumMemberDecl :=
  members.zipWith (fun m (v : Nat) => { m with value := some v }) (flagValues members.length)

/-- The first name that occurs more than once, by its first occurrence. -/
def firstRepeated? : List Text → Option Text
  | [] => none
  | n :: ns => if ns.contains n then some n else firstRepeated? ns

/-- No two members of an enumeration may have one name. -/
def checkDistinct (enumName : Text) (members : List EnumMemberDecl) : Except Fault Unit :=
  match firstRepeated? (members.map (·.name)) with
  | some repeated => .error (.violation (.duplicateMember enumName repeated))
  | none => .ok ()

/-- The declaration of an enumeration. An enumeration of bits without any explicit value gets the values of bits. -/
def EnumDraft.buildWith (member : μ → m EnumMemberDecl) (d : EnumDraft μ) : m EnumDecl := do
  let name ← require d.name (.missingName .enumType)
  let members ← checkEach member d.members
  checkDistinct name members
  let members := if d.isFlags && members.all (fun m => m.value.isNone) then assignFlags members else members
  return { name, access := d.access, summary := d.summary, isFlags := d.isFlags, members }

/-! ## Namespaces -/

/-- The access modifiers of the types of a namespace. -/
def namespaceAccesses : List Access := [.unstated, .internal, .pub]

def checkNamespaceAccess (kind : Kind) (name : Text) (access : Access) : Except Fault Unit :=
  forbid (!namespaceAccesses.contains access) (.namespaceAccess kind name access)

def NamespaceDraft.buildWith (classType : γ → m ClassDecl) (structType : σ → m StructDecl)
    (interfaceType : ι → m InterfaceDecl) (enumType : ε → m EnumDecl) (d : NamespaceDraft γ σ ι ε) : m NamespaceDecl := do
  let name ← require d.name (.missingName .namespaceFile)
  let classes ← checkEach classType d.classes
  let structs ← checkEach structType d.structs
  let interfaces ← checkEach interfaceType d.interfaces
  let enums ← checkEach enumType d.enums
  let _ ← checkEach (fun c : ClassDecl => checkNamespaceAccess .classType c.name c.access) classes
  let _ ← checkEach (fun s : StructDecl => checkNamespaceAccess .structType s.name s.access) structs
  let _ ← checkEach (fun i : InterfaceDecl => checkNamespaceAccess .interfaceType i.name i.access) interfaces
  let _ ← checkEach (fun e : EnumDecl => checkNamespaceAccess .enumType e.name e.access) enums
  return { name, usings := d.usings, classes, structs, interfaces, enums }

end

/-! ## Plans -/

def FieldDraft.build (d : Plan.Field) : Except Fault FieldDecl := d.buildWith TypeParameterDraft.build

def PropertyDraft.build (d : Plan.Property) (inInterface : Bool) : Except Fault PropertyDecl :=
  d.buildWith TypeParameterDraft.build inInterface

def ClassDraft.build (d : Plan.Class) : Except Fault ClassDecl :=
  d.buildWith TypeParameterDraft.build FieldDraft.build PropertyDraft.build ConstructorDraft.build

def StructDraft.build (d : Plan.Struct) : Except Fault StructDecl :=
  d.buildWith TypeParameterDraft.build FieldDraft.build PropertyDraft.build ConstructorDraft.build

def InterfaceDraft.build (d : Plan.Interface) : Except Fault InterfaceDecl :=
  d.buildWith TypeParameterDraft.build PropertyDraft.build

def EnumDraft.build (d : Plan.Enum) : Except Fault EnumDecl := d.buildWith EnumMemberDraft.build

def NamespaceDraft.build (d : Plan.Namespace) : Except Fault NamespaceDecl :=
  d.buildWith ClassDraft.build StructDraft.build InterfaceDraft.build EnumDraft.build

end CSharpDraft
