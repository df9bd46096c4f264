import CSharpDraft.Draft.Basic
import CSharpDraft.Fault

/-!
# Entries of a workspace and changes to them

An entry is a draft of any kind that refers to the drafts it holds. A change sets one setting of an entry or adds to one
of its lists; it has been checked already, so all that can be wrong is that the entry has no such setting.

* `Ref`, `Entry`, `Entry.kind`.
* `Change`, `Change.setting`: each change concerns one setting, and `Entry.change?` touches nothing else.
-/

set_option autoImplicit false

namespace CSharpDraft

structure Ref where
  index : Nat
  deriving DecidableEq, Repr

/-- A draft of any kind, which refers to the drafts that it holds. -/
inductive Entry where
  | typeParameter (d : TypeParameterDraft)
  | fieldMember (d : FieldDraft Ref)
  | propertyMember (d : PropertyDraft Ref)
  | constructorMember (d : ConstructorDraft)
  | enumMember (d : EnumMemberDraft)
  | classType (d : ClassDraft Ref Ref Ref Ref)
  | structType (d : StructDraft Ref Ref Ref Ref)
  | interfaceType (d : InterfaceDraft Ref Ref)
  | enumType (d : EnumDraft Ref)
  | namespaceFile (d : NamespaceDraft Ref Ref Ref Ref)
  deriving DecidableEq, Repr

def Entry.kind : Entry → Kind
  | typeParameter _ => .typeParameter
  | fieldMember _ => .fieldMember
  | propertyMember _ => .propertyMember
  | constructorMember _ => .constructorMember
  | enumMember _ => .enumMember
  | classType _ => .classType
  | structType _ => .structType
  | interfaceType _ => .interfaceType
  | enumType _ => .enumType
  | namespaceFile _ => .namespaceFile

/-! ## Settings -/

inductive Flag where
  | isStatic
  | isReadonly
  | isFlags
  deriving DecidableEq, Repr

inductive NameList where
  | interfaces
  | constraints
  | usings
  deriving DecidableEq, Repr

inductive ChildList where
  | typeParameters
  | fields
  | properties
  | constructors
  | members
  | classes
  | structs
  | interfaces
  | enums
  deriving DecidableEq, Repr

def ChildList.kind : ChildList → Kind
  | typeParameters => .typeParameter
  | fields => .fieldMember
  | properties => .propertyMember
  | constructors => .constructorMember
  | members => .enumMember
  | classes => .classType
  | structs => .structType
  | interfaces => .interfaceType
  | enums => .enumType

inductive Setting where
  | name
  | typeName
  | access
  | summary
  | baseClass
  | flag (f : Flag)
  | getter
  | setter
  | setterAccess
  | defaultValue
  | value
  | parameters
  | baseCall
  | names (l : NameList)
  | children (l : ChildList)
  deriving DecidableEq, Repr

/-! ## Changes -/

inductive Change where
  | setName (name : Text)
  | setType (typeName : Text)
  | setAccess (access : Access)
  | setSummary (summary : Text)
  | setBase (name : Text)
  | setFlag (flag : Flag) (on : Bool)
  | setGetter (getter : Option Accessor)
  | setSetter (setter : Option Accessor)
  | setSetterAccess (access : Access)
  | setDefault (value : Text)
  | setValue (value : Option Int)
  | addParameter (parameter : ParameterDecl)
  | setBaseCall (arguments : List Text)
  | addNames (list : NameList) (names : List Text)
  | addChildren (list : ChildList) (children : List Ref)
  deriving DecidableEq, Repr

def Change.setting : Change → Setting
  | setName _ => .name
  | setType _ => .typeName
  | setAccess _ => .access
  | setSummary _ => .summary
  | setBase _ => .baseClass
  | setFlag f _ => .flag f
  | setGetter _ => .getter
  | setSetter _ => .setter
  | setSetterAccess _ => .setterAccess
  | setDefault _ => .defaultValue
  | setValue _ => .value
  | addParameter _ => .parameters
  | setBaseCall _ => .baseCall
  | addNames l _ => .names l
  | addChildren l _ => .children l

def TypeParameterDraft.change? (d : TypeParameterDraft) : Change → Option TypeParameterDraft
  | .setName v => some { d with name := some v }
  | .addNames .constraints vs => some { d with constraints := d.constraints ++ vs }
  | _ => none

def FieldDraft.change? (d : FieldDraft Ref) : Change → Option (FieldDraft Ref)
  | .setName v => some { d with name := some v }
  | .setType v => some { d with typeName := some v }
  | .setAccess a => some { d with access := a }
  | .setSummary v => some { d with summary := some v }
  | .setFlag .isReadonly b => some { d with isReadonly := b }
  | .addChildren .typeParameters rs => some { d with typeParameters := d.typeParameters ++ rs }
  | _ => none

def PropertyDraft.change? (d : PropertyDraft Ref) : Change → Option (PropertyDraft Ref)
  | .setName v => some { d with name := some v }
  | .setType v => some { d with typeName := some v }
  | .setAccess a => some { d with access := a }
  | .setSummary v => some { d with summary := some v }
  | .setGetter a => some { d with getter := a }
  | .setSetter a => some { d with setter := a }
  | .setSetterAccess a => some { d with setterAccess := some a }
  | .setDefault v => some { d with defaultValue := some v }
  | .setFlag .isStatic b => some { d with isStatic := b }
  | .addChildren .typeParameters rs => some { d with typeParameters := d.typeParameters ++ rs }
  | _ => none

def ConstructorDraft.change? (d : ConstructorDraft) : Change → Option ConstructorDraft
  | .setAccess a => some { d with access := some a }
  | .setSummary v => some { d with summary := some v }
  | .addParameter p => some { d with parameters := d.parameters ++ [p] }
  | .setBaseCall args => some { d with baseCall := some args }
  | _ => none

def EnumMemberDraft.change? (d : EnumMemberDraft) : Change → Option EnumMemberDraft
  | .setName v => some { d with name := some v }
  | .setValue v => some { d with value := v }
  | .setSummary v => some { d with summary := some v }
  | _ => none

def ClassDraft.change? (d : ClassDraft Ref Ref Ref Ref) : Change → Option (ClassDraft Ref Ref Ref Ref)
  | .setName v => some { d with name := some v }
  | .setAccess a => some { d with access := a }
  | .setSummary v => some { d with summary := some v }
  | .setBase v => some { d with baseClass := some v }
  | .setFlag .isStatic b => some { d with isStatic := b }
  | .addNames .interfaces vs => some { d with interfaces := d.interfaces ++ vs }
  | .addChildren .fields rs => some { d with fields := d.fields ++ rs }
  | .addChildren .properties rs => some { d with properties := d.properties ++ rs }
  | .addChildren .constructors rs => some { d with constructors := d.constructors ++ rs }
  | .addChildren .typeParameters rs => some { d with typeParameters := d.typeParameters ++ rs }
  | _ => none

def StructDraft.change? (d : StructDraft Ref Ref Ref Ref) : Change → Option (StructDraft Ref Ref Ref Ref)
  | .setName v => some { d with name := some v }
  | .setAccess a => some { d with access := a }
  | .setSummary v => some { d with summary := some v }
  | .addNames .interfaces vs => some { d with interfaces := d.interfaces ++ vs }
  | .addChildren .fields rs => some { d with fields := d.fields ++ rs }
  | .addChildren .properties rs => some { d with properties := d.properties ++ rs }
  | .addChildren .constructors rs => some { d with constructors := d.constructors ++ rs }
  | .addChildren .typeParameters rs => some { d with typeParameters := d.typeParameters ++ rs }
  | _ => none

def InterfaceDraft.change? (d : InterfaceDraft Ref Ref) : Change → Option (InterfaceDraft Ref Ref)
  | .setName v => some { d with name := some v }
  | .setAccess a => some { d with access := a }
  | .setSummary v => some { d with summary := some v }
  | .addNames .interfaces vs => some { d with interfaces := d.interfaces ++ vs }
  | .addChildren .properties rs => some { d with properties := d.properties ++ rs }
  | .addChildren .typeParameters rs => some { d with typeParameters := d.typeParameters ++ rs }
  | _ => none

def EnumDraft.change? (d : EnumDraft Ref) : Change → Option (EnumDraft Ref)
  | .setName v => some { d with name := some v }
  | .setAccess a => some { d with access := a }
  | .setSummary v => some { d with summary := some v }
  | .setFlag .isFlags b => some { d with isFlags := b }
  | .addChildren .members rs => some { d with members := d.members ++ rs }
  | _ => none

def NamespaceDraft.change? (d : NamespaceDraft Ref Ref Ref Ref) : Change → Option (NamespaceDraft Ref Ref Ref Ref)
  | .setName v => some { d with name := some v }
  | .addNames .usings vs => some { d with usings := d.usings ++ vs }
  | .addChildren .classes rs => some { d with classes := d.classes ++ rs }
  | .addChildren .structs rs => some { d with structs := d.structs ++ rs }
  | .addChildren .interfaces rs => some { d with interfaces := d.interfaces ++ rs }
  | .addChildren .enums rs => some { d with enums := d.enums ++ rs }
  | _ => none

/-- The entry after a change, if it has the setting that the change concerns. -/
def Entry.change? : Entry → Change → Option Entry
  | typeParameter d, c => (d.change? c).map typeParameter
  | fieldMember d, c => (d.change? c).map fieldMember
  | propertyMember d, c => (d.change? c).map propertyMember
  | constructorMember d, c => (d.change? c).map constructorMember
  | enumMember d, c => (d.change? c).map enumMember
  | classType d, c => (d.change? c).map classType
  | structType d, c => (d.change? c).map structType
  | interfaceType d, c => (d.change? c).map interfaceType
  | enumType d, c => (d.change? c).map enumType
  | namespaceFile d, c => (d.change? c).map namespaceFile

end CSharpDraft
