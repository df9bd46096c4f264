import CSharpDraft.Draft.Build
import CSharpDraft.Draft.Entry

/-!
# Calls and what they must satisfy

A call asks for a change, or for a new draft, with arguments that nobody has checked: a text may be missing (`none`), an
access modifier is any text, and a value may be of any type. `Call.change` and `Recipe.entry` check the arguments, in the
order in which they are given, and look at nothing else: whether a call is good does not depend on the drafts there are.

* `Bundle`: the arguments of a call for several things at once, and the things that they stand for (`Bundle.items`).
* `Call`, `Call.change`: calls on a draft. Drafts are referred to by `ρ`.
* `Recipe`, `Recipe.entry`: calls for a new draft.
-/

set_option autoImplicit false

namespace CSharpDraft

/-! ## Arguments -/

def given {α : Type} (argument : String) : Option α → Except Fault α
  | none => .error (.nullArgument argument.toList)
  | some a => .ok a

/-- A text that must be given and must not be blank. -/
def nonBlank (argument : String) (t : Option Text) : Except Fault Text := do
  let t ← given argument t
  failIf (Text.isBlank t) (.emptyArgument argument.toList)
  return t

def accessOf (t : Option Text) : Except Fault Access := do
  let t ← given "access_modifier" t
  match Access.ofText? t with
  | some a => .ok a
  | none => .error (.unknownAccess t)

/-- A value given for a member of an enumeration: none, an integer, or something else by the name of its type. -/
inductive GivenValue where
  | absent
  | integer (v : Int)
  | other (typeName : Text)
  deriving DecidableEq, Repr

def valueOf : GivenValue → Except Fault (Option Int)
  | .absent => .ok none
  | .integer v => .ok (some v)
  | .other typeName => .error (.notAnInteger typeName)

/-! ## Several things at once -/

/-- A thing that is passed where a text or a draft is expected: nothing, what is expected, or something else. -/
inductive Value (α : Type) where
  | nothing
  | item (a : α)
  | other
  deriving DecidableEq, Repr

namespace Value

variable {α : Type}

def ofOption : Option α → Value α
  | none => nothing
  | some a => item a

/-- Any value but nothing. -/
def present (argument : String) : Value α → Except Fault (Value α)
  | nothing => .error (.nullArgument argument.toList)
  | v => .ok v

/-- What is expected; nothing can be done with anything else. -/
def get : Value α → Except Fault α
  | item a => .ok a
  | _ => .error .unsupported

/-- What is expected, if there is anything. -/
def get? : Value α → Except Fault (Option α)
  | nothing => .ok none
  | item a => .ok (some a)
  | other => .error .unsupported

end Value

inductive Passed (α : Type) where
  /-- A thing that cannot be iterated over. -/
  | one (v : Value α)
  /-- A text, which could be iterated over letter by letter. -/
  | text (a : α)
  /-- A list, or something else that can be iterated over. -/
  | several (vs : List (Value α))
  deriving DecidableEq, Repr

/-- The argument as a single thing. -/
def Passed.value {α : Type} : Passed α → Value α
  | one v => v
  | text a => .item a
  | several _ => .other

/-- The arguments of a call for several things, as they are passed. -/
structure Bundle (α : Type) where
  passed : List (Passed α)
  deriving DecidableEq, Repr

namespace Bundle

variable {α : Type}

/-- The things one by one. -/
def separate (items : List (Option α)) : Bundle α := ⟨items.map (fun i => .one (.ofOption i))⟩

def texts (items : List (Option Text)) : Bundle Text :=
  ⟨items.map (fun
    | none => .one .nothing
    | some t => .text t)⟩

/-- The things in one list. -/
def together (items : List (Option α)) : Bundle α := ⟨[.several (items.map .ofOption)]⟩

/-- The things that are passed. A single argument that can be iterated over stands for what is in it, unless it is a
text. -/
def items (b : Bundle α) : List (Value α) :=
  match b.passed with
  | [.several vs] => vs
  | args => args.map Passed.value

/-- The things of a bundle, all of which must be given. -/
def values (argument : String) (b : Bundle α) : Except Fault (List (Value α)) :=
  checkEach (Value.present argument) b.items

def collect (argument : String) (b : Bundle α) : Except Fault (List α) := do
  checkEach Value.get (← b.values argument)

/-- The texts of a bundle, each of them checked once all are known to be given. -/
def collectBy (check : String → Option Text → Except Fault Text) (argument : String) (b : Bundle Text) :
    Except Fault (List Text) := do
  checkEach (fun v => do check argument (some (← v.get))) (← b.values argument)

def collectNames (argument : String) (b : Bundle Text) : Except Fault (List Text) := b.collectBy nonBlank argument

end Bundle

/-- The namespace of a `using` directive, without the blanks around it and one semicolon at its end. -/
def usingName (argument : String) (t : Option Text) : Except Fault Text := do
  let t ← nonBlank argument t
  nonBlank argument (some (Text.trimRight (Text.dropTrailing ';' (Text.trim t))))

def Bundle.collectUsings (argument : String) (b : Bundle Text) : Except Fault (List Text) :=
  b.collectBy usingName argument

/-! ## Calls on a draft -/

inductive Call (ρ : Type) where
  | setName (name : Option Text)
  | setType (typeName : Option Text)
  | setAccess (access : Option Text)
  | setSummary (summary : Option Text)
  | setBase (name : Option Text)
  | setFlag (flag : Flag) (on : Bool)
  | setGetter (body : Option Text)
  | dropGetter
  | setSetter (body : Option Text)
  | dropSetter
  | setSetterAccess (access : Option Text)
  | setDefault (value : Option Text)
  | setValue (value : GivenValue)
  | addParameter (typeName name receiver : Option Text)
  | setBaseCall (arguments : Bundle Text)
  | addName (list : NameList) (name : Option Text)
  | addNames (list : NameList) (names : Bundle Text)
  | addChild (list : ChildList) (child : Option ρ)
  | addChildren (list : ChildList) (children : Bundle ρ)
  deriving DecidableEq, Repr

/-- An accessor by its body; without one the compiler implements it. -/
def accessorOf : Option Text → Except Fault Accessor
  | none => .ok .auto
  | some body => do return .custom (← nonBlank "expression" (some body))

/-- A name for a list of names, by the list's own rule. -/
def listedName : NameList → Option Text → Except Fault Text
  | .interfaces, t => nonBlank "name" t
  | .constraints, t => nonBlank "constraint" t
  | .usings, t => usingName "using" t

/-- Names for a list of names, by the list's own rule. -/
def listedNames : NameList → Bundle Text → Except Fault (List Text)
  | .interfaces, b => b.collectNames "names"
  | .constraints, b => b.collectNames "constraints"
  | .usings, b => b.collectUsings "usings"

def parameterOf (typeName name receiver : Option Text) : Except Fault ParameterDecl := do
  let typeName ← nonBlank "type_name" typeName
  let name ← nonBlank "name" name
  match receiver with
  | none => return { name, typeName }
  | some r => return { name, typeName, receiver := some (← nonBlank "receiving_member" (some r)) }

/-- The change that a call asks for, if its arguments are good. -/
def Call.change : Call Ref → Except Fault Change
  | setName name => do return .setName (← given "name" name)
  | setType typeName => do return .setType (← given "type" typeName)
  | setAccess access => do return .setAccess (← accessOf access)
  | setSummary summary => do return .setSummary (← given "summary" summary)
  | setBase name => do return .setBase (← nonBlank "name" name)
  | setFlag flag on => .ok (.setFlag flag on)
  | setGetter body => do return .setGetter (some (← accessorOf body))
  | dropGetter => .ok (.setGetter none)
  | setSetter body => do return .setSetter (some (← accessorOf body))
  | dropSetter => .ok (.setSetter none)
  | setSetterAccess access => do return .setSetterAccess (← accessOf access)
  | setDefault value => do return .setDefault (← nonBlank "default_value" value)
  | setValue value => do return .setValue (← valueOf value)
  | addParameter typeName name receiver => do return .addParameter (← parameterOf typeName name receiver)
  | setBaseCall arguments => do return .setBaseCall (← arguments.collectNames "arguments")
  | addName list name => do return .addNames list [← listedName list name]
  | addNames list names => do return .addNames list (← listedNames list names)
  | addChild list child => do return .addChildren list [← given "builder" child]
  | addChildren list children => do return .addChildren list (← children.collect "builders")

/-! ## Calls for a new draft -/

/-- An argument that may be left out: not given at all, or given as `none` or as a value. -/
abbrev Argument (α : Type) := Option (Option α)

/-- The access modifier of a new draft, with the one that it gets when none is given. -/
def accessOr (default : Access) : Argument Text → Except Fault Access
  | none => .ok default
  | some access => accessOf access

def newType (typeName : Argument Text) : Except Fault Text := do
  let t ← given "type" (typeName.getD none)
  nonBlank "type_name" (some t)

/-- The name of a new draft, which it may lack. -/
def newName : Argument Text → Except Fault (Option Text)
  | none => .ok none
  | some name => do return some (← nonBlank "name" name)

inductive Recipe where
  | typeParameter (name : Argument Text) (constraints : Bundle Text)
  | fieldMember (typeName name access : Argument Text)
  | propertyMember (typeName name access : Argument Text)
  | constructorMember (access : Argument Text)
  | enumMember (name : Argument Text) (value : GivenValue)
  | classType (name access : Argument Text)
  | structType (name access : Argument Text)
  | interfaceType (name access : Argument Text)
  | enumType (name access : Argument Text)
  | namespaceFile (name : Argument Text)
  deriving DecidableEq, Repr

/-- The type and the name of a new field or property: both or none. -/
def newMember (typeName name : Argument Text) : Except Fault (Option Text × Option Text) :=
  if typeName.isNone && name.isNone then .ok (none, none)
  else do
    let typeName ← newType typeName
    let name ← nonBlank "name" (name.getD none)
    return (some typeName, some name)

def PropertyDraft.create {τ : Type} (typeName name access : Argument Text) : Except Fault (PropertyDraft τ) := do
  let (typeName, name) ← newMember typeName name
  return { typeName, name, access := ← accessOr .pub access }

def ClassDraft.create {τ φ π κ : Type} (name access : Argument Text) : Except Fault (ClassDraft τ φ π κ) := do
  return { name := ← newName name, access := ← accessOr .pub access }

def NamespaceDraft.create {γ σ ι ε : Type} (name : Argument Text) : Except Fault (NamespaceDraft γ σ ι ε) := do
  return { name := ← newName name }

/-- The new draft that a call asks for, if its arguments are good. -/
def Recipe.entry : Recipe → Except Fault Entry
  | typeParameter name constraints =>
    match name with
    | none => .ok (.typeParameter {})
    | some name => do
      let name ← nonBlank "name" name
      return .typeParameter { name := some name, constraints := ← constraints.collectNames "constraints" }
  | fieldMember typeName name access => do
    let (typeName, name) ← newMember typeName name
    return .fieldMember { typeName, name, access := ← accessOr .priv access }
  | propertyMember typeName name access => do return .propertyMember (← PropertyDraft.create typeName name access)
  | constructorMember access =>
    match access with
    | none => .ok (.constructorMember {})
    | some access => do return .constructorMember { access := some (← accessOf access) }
  | enumMember name value => do
    let name ← newName name
    return .enumMember { name, value := ← valueOf value }
  | classType name access => do return .classType (← ClassDraft.create name access)
  | structType name access => do
    let name ← newName name
    return .structType { name, access := ← accessOr .pub access }
  | interfaceType name access => do
    let name ← newName name
    return .interfaceType { name, access := ← accessOr .pub access }
  | enumType name access => do
    let name ← newName name
    return .enumType { name, access := ← accessOr .pub access }
  | namespaceFile name => do return .namespaceFile (← NamespaceDraft.create name)

end CSharpDraft
