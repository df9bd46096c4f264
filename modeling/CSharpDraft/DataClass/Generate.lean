import CSharpDraft.DataClass.Config
import CSharpDraft.Draft.Call
import CSharpDraft.Json.Reader
import CSharpDraft.Render.Basic
import CSharpDraft.Text.Pascal
import CSharpDraft.Trace

/-!
# Data classes of a JSON document

A document that is an object gives a class with one property per entry, and each object below it a class of its own. The
class of the document takes its name from the document, except where the document is one entry that holds an object: then
that object's class takes its place.

* `simpleType?`, `arrayType?`: the C# types of values that need no class.
* `properties`: the properties of an object: simple values first, then objects, then arrays.
* `nestedClasses`: the classes of the objects below an object, each after the classes of the objects inside it.
* `plan`, `generate`: the namespace of a document, and its source text.
-/

set_option autoImplicit false

namespace CSharpDraft.DataClass

/-! ## Types of values -/

/-- The type of a simple value; objects, arrays and `null` have none. -/
def simpleType? : JsonValue → Option Text
  | .bool _ => some "bool".toList
  | .int _ => some "int".toList
  | .real _ => some "double".toList
  | .string _ => some "string".toList
  | _ => none

/-- The type of an array: there is at least one item, and all items have one simple type. -/
def arrayType? : List JsonValue → Option Text
  | [] => none
  | item :: items =>
    match simpleType? item with
    | none => none
    | some t => if items.all (fun i => simpleType? i == some t) then some (t ++ "[]".toList) else none

/-! ## Properties -/

def property (typeName key : Text) : Traced Plan.Property :=
  .ofExcept (PropertyDraft.create (some (some typeName)) (some (some (Text.pascal key))) none)

/-- The property of an entry that holds a simple value. -/
def simpleProperty : Text × JsonValue → Traced (Option Plan.Property)
  | (key, value) =>
    match simpleType? value with
    | some t => do return some (← property t key)
    | none => return none

/-- The property of an entry that holds an object; its type is the object's class. -/
def objectProperty : Text × JsonValue → Traced (Option Plan.Property)
  | (key, .object _) => do return some (← property (Text.pascal key) key)
  | _ => return none

/-- The property of an entry that holds an array; an array without a type is noted and passed over. -/
def arrayProperty : Text × JsonValue → Traced (Option Plan.Property)
  | (key, .array items) =>
    match arrayType? items with
    | some t => do return some (← property t key)
    | none => do
      Traced.note (.skippedArray key)
      return none
  | _ => return none

def properties (entries : List (Text × JsonValue)) : Traced (List Plan.Property) := do
  let simple ← Traced.forEach simpleProperty entries
  let objects ← Traced.forEach objectProperty entries
  let arrays ← Traced.forEach arrayProperty entries
  return (simple ++ objects ++ arrays).filterMap id

/-! ## Classes -/

def classOf (key : Text) (entries : List (Text × JsonValue)) : Traced Plan.Class := do
  let draft : Plan.Class ← Traced.ofExcept (ClassDraft.create (some (some (Text.pascal key))) none)
  return { draft with properties := ← properties entries }

mutual

/-- The classes of an entry: those below its object and then that of the object itself. Other values have none. -/
def entryClasses (key : Text) : JsonValue → Traced (List Plan.Class)
  | .object entries => do
    let nested ← nestedClasses entries
    return nested ++ [← classOf key entries]
  | _ => return []

/-- The classes of the entries, in document order. -/
def nestedClasses : List (Text × JsonValue) → Traced (List Plan.Class)
  | [] => return []
  | (key, value) :: rest => do
    let classes ← entryClasses key value
    return classes ++ (← nestedClasses rest)

end

/-! ## Documents -/

/-- Whether a document is a single entry that holds an object. -/
def wrapsObject : List (Text × JsonValue) → Bool
  | [(_, value)] => value.isObject
  | _ => false

/-- A value of a configuration as it is passed where a text is expected. -/
def passed : JsonValue → Value Text
  | .null => .nothing
  | .string t => .item t
  | _ => .other

/-- The namespaces that a configuration lists. An array can be iterated over, and so can the keys of an object. -/
def listedUsings : JsonValue → Bundle Text
  | .string t => ⟨[.text t]⟩
  | .array items => ⟨[.several (items.map passed)]⟩
  | .object entries => ⟨[.several (entries.map (fun e => .item e.1))]⟩
  | value => ⟨[.one (passed value)]⟩

/-- The namespace of a document, with the classes of the document in it. -/
def plan (name : Text) (entries : List (Text × JsonValue)) (config : Config) : Traced Plan.Namespace := do
  let spaceName ← Traced.ofExcept (passed config.spaceName).get?
  let draft : Plan.Namespace ← Traced.ofExcept (NamespaceDraft.create (some spaceName))
  let usings ← Traced.ofExcept (listedNames .usings (listedUsings config.usings))
  let main ← if wrapsObject entries then pure [] else do pure [← classOf name entries]
  let nested ← nestedClasses entries
  Traced.note (.extracted nested.length name)
  return { draft with usings, classes := main ++ nested }

def buildEvents (n : NamespaceDecl) : List Event :=
  .buildingNamespace n.name n.classes.length n.structs.length n.interfaces.length n.enums.length ::
    n.classes.map (fun c => .buildingClass c.name c.fields.length c.properties.length c.constructors.length)

/-- The declaration of the namespace of a document, whose text must be a JSON object. -/
def declare (name contents : Text) (config : Config) : Traced NamespaceDecl :=
  match JsonValue.read? contents with
  | none => .ofExcept (.error .notADocument)
  | some (.object entries) => do
    let planned ← plan name entries config
    let built ← Traced.ofExcept (NamespaceDraft.build planned)
    let _ ← Traced.forEach Traced.note (buildEvents built)
    return built
  | some _ => .ofExcept (.error (.notAnObject name))

mutual

/-- Whether the names that come from an entry can be encoded: its key, if it has a property, and the keys in its object. -/
def entryEncodes (key : RawText) : JsonValue RawText → Bool
  | .object entries => key.isWhole && entriesEncode entries
  | .array items => (arrayType? (JsonValue.shownItems items)).isNone || key.isWhole
  | value => (simpleType? value.shown).isNone || key.isWhole

def entriesEncode : List (RawText × JsonValue RawText) → Bool
  | [] => true
  | (key, value) :: rest => entryEncodes key value && entriesEncode rest

end

/-- Whether the source text of the data classes of a document can be encoded: no name in it has a half of a character. -/
def encodes (contents : Text) (config : Config) : Bool :=
  !config.isHalved "namespace" && !config.isHalved "usings" &&
    match JsonValue.readRaw? contents with
    | some (.object entries) => entriesEncode entries
    | _ => true

/-- The source text of the data classes of a document. -/
def generate [Fragment.Parser] (name contents : Text) (config : Config) : Traced Text := do
  return (← declare name contents config).render

end CSharpDraft.DataClass
