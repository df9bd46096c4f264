import CSharpDraft.Json.Value

/-!
# Settings of the generated files

A configuration gives the namespace and the `using` directives of the generated classes, and where their files go. It is
read from a JSON object, so its settings are JSON values: what is wrong with one is found where it is used.

* `Config.set`, `Config.ofEntries`, `Config.ofRaw`: a configuration with one setting changed, and that of an object.
* `Config.isHalved`: whether a setting has a half of a character in it, so that it cannot be written.
-/

set_option autoImplicit false

namespace CSharpDraft

structure Config where
  spaceName : JsonValue := .string "JsonToNet.Data".toList
  usings : JsonValue := .array [.string "System".toList]
  outputDirectory : JsonValue := .string "./output".toList
  fileExtension : JsonValue := .string ".cs".toList
  /-- The keys of the settings that have a half of a character in them. -/
  halved : List Text := []
  deriving Repr

namespace Config

/-- The configuration with one setting changed; a key that names no setting is ignored. -/
def set (c : Config) (key : Text) (value : JsonValue) : Config :=
  if key = "namespace".toList then { c with spaceName := value }
  else if key = "usings".toList then { c with usings := value }
  else if key = "output_directory".toList then { c with outputDirectory := value }
  else if key = "file_extension".toList then { c with fileExtension := value }
  else c

/-- The configuration of the entries of an object; settings without an entry keep their defaults. -/
def ofEntries (entries : List (Text × JsonValue)) : Config :=
  entries.foldl (fun c (key, value) => c.set key value) {}

/-- The configuration of an object as it is read. -/
def ofRaw (entries : List (RawText × JsonValue RawText)) : Config :=
  { ofEntries (JsonValue.shownEntries entries) with
    halved := (entries.filter (fun e => !e.2.isWhole)).map (fun e => e.1.shown) }

/-- The configuration with a text in the place of a setting. -/
def override (c : Config) (key value : Text) : Config :=
  { c.set key (.string value) with halved := c.halved.filter (· != key) }

def isHalved (c : Config) (key : String) : Bool := c.halved.contains key.toList

def entries (c : Config) : List (Text × JsonValue) :=
  [("namespace".toList, c.spaceName), ("usings".toList, c.usings), ("output_directory".toList, c.outputDirectory),
    ("file_extension".toList, c.fileExtension)]

end Config

end CSharpDraft
