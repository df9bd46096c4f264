import CSharpDraft.Draft.Call
import CSharpDraft.Draft.Member
import CSharpDraft.Render.Basic

/-!
# Workspaces

A workspace holds drafts that refer to each other, so one draft may be part of several others and may still change after
it became part of them.

* `Workspace.add`, `Workspace.call`: a new draft, and a call on a draft. A call that fails leaves the workspace as it is.
* `Workspace.class?`, …: a draft together with the drafts that it holds, as a plan.
* `Workspace.build`, `Workspace.render`, `Workspace.hasMember`, `Workspace.inspect`: questions, which change nothing.
-/

set_option autoImplicit false

namespace CSharpDraft

/-- A list of drafts; a reference is a place in it. -/
structure Workspace where
  entries : List Entry := []
  deriving DecidableEq, Repr

namespace Workspace

/-! ## Changes -/

def entry? (w : Workspace) (r : Ref) : Option Entry := w.entries[r.index]?

/-- The workspace with one more draft, and the reference to it. -/
def add (w : Workspace) (e : Entry) : Workspace × Ref := (⟨w.entries ++ [e]⟩, ⟨w.entries.length⟩)

/-- Whether the reference is to a draft of the kind. -/
def holds (w : Workspace) (k : Kind) (r : Ref) : Bool := (w.entry? r).any (fun e => e.kind == k)

/-- Whether the drafts that a change adds are there and have the kind of their list. -/
def admits (w : Workspace) : Change → Bool
  | .addChildren list children => children.all (w.holds list.kind)
  | _ => true

def change (w : Workspace) (r : Ref) (c : Change) : Except Fault Workspace :=
  if w.admits c then
    match (w.entry? r).bind (·.change? c) with
    | some e => .ok ⟨w.entries.set r.index e⟩
    | none => .error .unsupported
  else .error .unsupported

def call (w : Workspace) (r : Ref) (c : Call Ref) : Except Fault Workspace := do
  w.change r (← c.change)

/-! ## Plans -/

def typeParameter? (w : Workspace) (r : Ref) : Option TypeParameterDraft :=
  match w.entry? r with
  | some (.typeParameter d) => some d
  | _ => none

/-- The draft of a field with its type parameters. -/
def field? (w : Workspace) (r : Ref) : Option Plan.Field :=
  match w.entry? r with
  | some (.fieldMember d) => do return { d with typeParameters := ← d.typeParameters.mapM w.typeParameter? }
  | _ => none

def property? (w : Workspace) (r : Ref) : Option Plan.Property :=
  match w.entry? r with
  | some (.propertyMember d) => do return { d with typeParameters := ← d.typeParameters.mapM w.typeParameter? }
  | _ => none

def constructor? (w : Workspace) (r : Ref) : Option ConstructorDraft :=
  match w.entry? r with
  | some (.constructorMember d) => some d
  | _ => none

def enumMember? (w : Workspace) (r : Ref) : Option EnumMemberDraft :=
  match w.entry? r with
  | some (.enumMember d) => some d
  | _ => none

def class? (w : Workspace) (r : Ref) : Option Plan.Class :=
  match w.entry? r with
  | some (.classType d) => do
    let typeParameters ← d.typeParameters.mapM w.typeParameter?
    let fields ← d.fields.mapM w.field?
    let properties ← d.properties.mapM w.property?
    let constructors ← d.constructors.mapM w.constructor?
    return { d with typeParameters, fields, properties, constructors }
  | _ => none

def struct? (w : Workspace) (r : Ref) : Option Plan.Struct :=
  match w.entry? r with
  | some (.structType d) => do
    let typeParameters ← d.typeParameters.mapM w.typeParameter?
    let fields ← d.fields.mapM w.field?
    let properties ← d.properties.mapM w.property?
    let constructors ← d.constructors.mapM w.constructor?
    return { d with typeParameters, fields, properties, constructors }
  | _ => none

def interface? (w : Workspace) (r : Ref) : Option Plan.Interface :=
  match w.entry? r with
  | some (.interfaceType d) => do
    let typeParameters ← d.typeParameters.mapM w.typeParameter?
    let properties ← d.properties.mapM w.property?
    return { d with typeParameters, properties }
  | _ => none

def enum? (w : Workspace) (r : Ref) : Option Plan.Enum :=
  match w.entry? r with
  | some (.enumType d) => do return { d with members := ← d.members.mapM w.enumMember? }
  | _ => none

def namespace? (w : Workspace) (r : Ref) : Option Plan.Namespace :=
  match w.entry? r with
  | some (.namespaceFile d) => do
    let classes ← d.classes.mapM w.class?
    let structs ← d.structs.mapM w.struct?
    let interfaces ← d.interfaces.mapM w.interface?
    let enums ← d.enums.mapM w.enum?
    return { d with classes, structs, interfaces, enums }
  | _ => none

/-! ## Questions -/

/-- What a declaration is built for: a property may be built for an interface, and a constructor is built for a type. -/
structure Purpose where
  inInterface : Bool := false
  typeName : Text := []
  isStatic : Bool := false
  deriving DecidableEq, Repr

/-- Builds a plan, if the references in it lead somewhere. -/
def buildPlan {α β : Type} (plan : Option α) (build : α → Except Fault β) (wrap : β → Decl) : Except Fault Decl :=
  match plan with
  | none => .error .unsupported
  | some p => (build p).map wrap

def build (w : Workspace) (r : Ref) (purpose : Purpose := {}) : Except Fault Decl :=
  match (w.entry? r).map Entry.kind with
  | some .typeParameter => buildPlan (w.typeParameter? r) TypeParameterDraft.build .ofTypeParameter
  | some .fieldMember => buildPlan (w.field? r) FieldDraft.build .ofField
  | some .propertyMember =>
    buildPlan (w.property? r) (fun p => PropertyDraft.build p purpose.inInterface) .ofProperty
  | some .constructorMember =>
    buildPlan (w.constructor? r) (fun c => c.build purpose.typeName purpose.isStatic) .ofConstructor
  | some .enumMember => buildPlan (w.enumMember? r) EnumMemberDraft.build .ofEnumMember
  | some .classType => buildPlan (w.class? r) ClassDraft.build .ofClass
  | some .structType => buildPlan (w.struct? r) StructDraft.build .ofStruct
  | some .interfaceType => buildPlan (w.interface? r) InterfaceDraft.build .ofInterface
  | some .enumType => buildPlan (w.enum? r) EnumDraft.build .ofEnum
  | some .namespaceFile => buildPlan (w.namespace? r) NamespaceDraft.build .ofNamespace
  | none => .error .unsupported

def render [Fragment.Parser] (w : Workspace) (r : Ref) (purpose : Purpose := {}) : Except Fault Text := do
  (← w.build r purpose).render

/-- Whether a draft holds a member that is meant; drafts that hold none are not asked. -/
def hasMember (w : Workspace) (r : Ref) (q : MemberQuery) : Except Fault Bool :=
  let answer {α : Type} (plan : Option α) (has : α → MemberQuery → Bool) : Except Fault Bool :=
    match plan with
    | none => .error .unsupported
    | some p => .ok (has p q)
  match (w.entry? r).map Entry.kind with
  | some .classType => answer (w.class? r) ClassDraft.hasMember
  | some .structType => answer (w.struct? r) StructDraft.hasMember
  | some .interfaceType => answer (w.interface? r) InterfaceDraft.hasMember
  | some .enumType => answer (w.enum? r) EnumDraft.hasMember
  | some .namespaceFile => answer (w.namespace? r) NamespaceDraft.hasMember
  | _ => .error .unsupported

end Workspace

/-! ## Settings that can be read -/

/-- The settings of a draft that can be read. -/
inductive Readable where
  | name
  | access
  | value
  deriving DecidableEq, Repr

/-- The name of an entry, for the kinds that have one. -/
def Entry.name? : Entry → Option (Option Text)
  | typeParameter d => some d.name
  | fieldMember d => some d.name
  | propertyMember d => some d.name
  | constructorMember _ => none
  | enumMember d => some d.name
  | classType d => some d.name
  | structType d => some d.name
  | interfaceType d => some d.name
  | enumType d => some d.name
  | namespaceFile d => some d.name

/-- The access modifier of an entry, for the kinds that have one; a constructor is public unless something else was
said. -/
def Entry.access? : Entry → Option Access
  | fieldMember d => some d.access
  | propertyMember d => some d.access
  | constructorMember d => some (d.access.getD .pub)
  | classType d => some d.access
  | structType d => some d.access
  | interfaceType d => some d.access
  | enumType d => some d.access
  | _ => none

/-- The value of an entry, for the kinds that have one. -/
def Entry.value? : Entry → Option (Option Int)
  | enumMember d => some d.value
  | _ => none

/-- A setting of an entry as text, if the entry has such a setting. -/
def Entry.read? (e : Entry) : Readable → Option (Option Text)
  | .name => e.name?
  | .access => e.access?.map (fun a => some a.text)
  | .value => e.value?.map (fun v => v.map (fun v => (toString v).toList))

def Workspace.inspect (w : Workspace) (r : Ref) (setting : Readable) : Except Fault (Option Text) :=
  match (w.entry? r).bind (·.read? setting) with
  | some t => .ok t
  | none => .error .unsupported

end CSharpDraft
