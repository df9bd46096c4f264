import CSharpDraft.Draft.Workspace

/-!
# Work on a workspace

What a call, a build or a question does, step by step. Work reads the drafts of a workspace and may change any of them;
it may also fail, and nothing takes back what it has changed by then.

* `Work`: a state monad in which a failure keeps the state.
* `Work.call`: the arguments of a call are checked one after the other, and then the draft is changed.
* `Work.build`: a draft is read when its turn comes, and so are the drafts that it holds.
-/

set_option autoImplicit false

namespace CSharpDraft

/-- Work on the drafts of a workspace. What it has changed when it fails stays changed. -/
abbrev Work : Type → Type := EStateM Fault Workspace

instance : MonadLift (Except Fault) Work where
  monadLift
    | .ok a => pure a
    | .error f => throw f

namespace Work

/-! ## Drafts -/

def entry (r : Ref) : Work Entry := do
  let w ← get
  match w.entry? r with
  | some e => return e
  | none => throw .unsupported

def add (e : Entry) : Work Ref := do
  let w ← get
  set (w.add e).1
  return (w.add e).2

def change (r : Ref) (c : Change) : Work Unit := do
  let w ← get
  failIf (!w.admits c) .unsupported
  match (← entry r).change? c with
  | some e => set (⟨w.entries.set r.index e⟩ : Workspace)
  | none => throw .unsupported

/-! ## Calls -/

def create (recipe : Recipe) : Work Ref := do
  add (← recipe.entry)

def call (r : Ref) : Call Ref → Work Unit
  | .setName name => do
    let name ← given "name" name
    change r (.setName name)
  | .setType typeName => do
    let typeName ← given "type" typeName
    change r (.setType typeName)
  | .setAccess access => do
    let access ← accessOf access
    change r (.setAccess access)
  | .setSummary summary => do
    let summary ← given "summary" summary
    change r (.setSummary summary)
  | .setBase name => do
    let name ← nonBlank "name" name
    change r (.setBase name)
  | .setFlag flag on => change r (.setFlag flag on)
  | .setGetter body => do
    let accessor ← accessorOf body
    change r (.setGetter (some accessor))
  | .dropGetter => change r (.setGetter none)
  | .setSetter body => do
    let accessor ← accessorOf body
    change r (.setSetter (some accessor))
  | .dropSetter => change r (.setSetter none)
  | .setSetterAccess access => do
    let access ← accessOf access
    change r (.setSetterAccess access)
  | .setDefault value => do
    let value ← nonBlank "default_value" value
    change r (.setDefault value)
  | .setValue value => do
    let value ← valueOf value
    change r (.setValue value)
  | .addParameter typeName name receiver => do
    let typeName ← nonBlank "type_name" typeName
    let name ← nonBlank "name" name
    match receiver with
    | none => change r (.addParameter { name, typeName })
    | some receiver =>
      let receiver ← nonBlank "receiving_member" (some receiver)
      change r (.addParameter { name, typeName, receiver := some receiver })
  | .setBaseCall arguments => do
    let arguments ← arguments.collectNames "arguments"
    change r (.setBaseCall arguments)
  | .addName list name => do
    let name ← listedName list name
    change r (.addNames list [name])
  | .addNames list names => do
    let names ← listedNames list names
    change r (.addNames list names)
  | .addChild list child => do
    let child ← given "builder" child
    change r (.addChildren list [child])
  | .addChildren list children => do
    let children ← children.collect "builders"
    change r (.addChildren list children)

/-! ## Builds -/

def buildTypeParameter (r : Ref) : Work TypeParameterDecl := do
  match ← entry r with
  | .typeParameter d => d.build
  | _ => throw .unsupported

def buildField (r : Ref) : Work FieldDecl := do
  match ← entry r with
  | .fieldMember d => d.buildWith buildTypeParameter
  | _ => throw .unsupported

def buildProperty (r : Ref) (inInterface : Bool) : Work PropertyDecl := do
  match ← entry r with
  | .propertyMember d => d.buildWith buildTypeParameter inInterface
  | _ => throw .unsupported

def buildConstructor (r : Ref) (typeName : Text) (isStatic : Bool) : Work ConstructorDecl := do
  match ← entry r with
  | .constructorMember d => d.build typeName isStatic
  | _ => throw .unsupported

def buildEnumMember (r : Ref) : Work EnumMemberDecl := do
  match ← entry r with
  | .enumMember d => d.build
  | _ => throw .unsupported

def buildClass (r : Ref) : Work ClassDecl := do
  match ← entry r with
  | .classType d => d.buildWith buildTypeParameter buildField buildProperty buildConstructor
  | _ => throw .unsupported

def buildStruct (r : Ref) : Work StructDecl := do
  match ← entry r with
  | .structType d => d.buildWith buildTypeParameter buildField buildProperty buildConstructor
  | _ => throw .unsupported

def buildInterface (r : Ref) : Work InterfaceDecl := do
  match ← entry r with
  | .interfaceType d => d.buildWith buildTypeParameter buildProperty
  | _ => throw .unsupported

def buildEnum (r : Ref) : Work EnumDecl := do
  match ← entry r with
  | .enumType d => d.buildWith buildEnumMember
  | _ => throw .unsupported

def buildNamespace (r : Ref) : Work NamespaceDecl := do
  match ← entry r with
  | .namespaceFile d => d.buildWith buildClass buildStruct buildInterface buildEnum
  | _ => throw .unsupported

def build (r : Ref) (purpose : Workspace.Purpose := {}) : Work Decl := do
  match (← entry r).kind with
  | .typeParameter => return .ofTypeParameter (← buildTypeParameter r)
  | .fieldMember => return .ofField (← buildField r)
  | .propertyMember => return .ofProperty (← buildProperty r purpose.inInterface)
  | .constructorMember => return .ofConstructor (← buildConstructor r purpose.typeName purpose.isStatic)
  | .enumMember => return .ofEnumMember (← buildEnumMember r)
  | .classType => return .ofClass (← buildClass r)
  | .structType => return .ofStruct (← buildStruct r)
  | .interfaceType => return .ofInterface (← buildInterface r)
  | .enumType => return .ofEnum (← buildEnum r)
  | .namespaceFile => return .ofNamespace (← buildNamespace r)

def render [Fragment.Parser] (r : Ref) (purpose : Workspace.Purpose := {}) : Work Text := do
  (← build r purpose).render

/-! ## Questions -/

def isMeant (q : MemberQuery) (r : Ref) : Work Bool := do
  let e ← entry r
  match e.name?, e.access? with
  | some name, some access => return q.matches name access
  | _, _ => throw .unsupported

/-- Whether one of the drafts is meant, if its sort is asked for at all. -/
def anyMeant (q : MemberQuery) (kind : MemberKind) (rs : List Ref) : Work Bool :=
  if q.asksFor kind then rs.anyM (isMeant q) else return false

/-- Whether a member of an enumeration is meant, which has no access modifier. -/
def isNamed (q : MemberQuery) (r : Ref) : Work Bool := do
  match (← entry r).name? with
  | some name => return q.matchesName name
  | none => throw .unsupported

/-- Whether a draft holds a member that is meant; the first that is found settles it. -/
def hasMember (r : Ref) (q : MemberQuery) : Work Bool := do
  match ← entry r with
  | .classType d => anyMeant q .field d.fields <||> anyMeant q .property d.properties
  | .structType d => anyMeant q .field d.fields <||> anyMeant q .property d.properties
  | .interfaceType d => anyMeant q .property d.properties
  | .enumType d => d.members.anyM (isNamed q)
  | .namespaceFile d =>
    anyMeant q .classType d.classes <||> anyMeant q .structType d.structs <||>
      anyMeant q .interfaceType d.interfaces <||> anyMeant q .enumType d.enums
  | _ => throw .unsupported

def inspect (r : Ref) (setting : Readable) : Work (Option Text) := do
  match (← entry r).read? setting with
  | some t => return t
  | none => throw .unsupported

end Work

end CSharpDraft
