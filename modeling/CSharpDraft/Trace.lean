import CSharpDraft.Fault

/-!
# Traces

While data classes are generated, the generator notes events; a threshold decides later which of them are shown.

* `Level`, `Event`, `Event.line`: an event, how urgent it is, and its line in a log.
* `Traced`: the result of a computation with the events noted on the way. A computation that fails keeps the events noted
  before its fault.
-/

set_option autoImplicit false

namespace CSharpDraft

/-! ## Levels -/

inductive Level where
  | debug
  | info
  | warning
  | error
  | critical
  deriving DecidableEq, Repr

namespace Level

def rank : Level → Nat
  | debug => 10
  | info => 20
  | warning => 30
  | error => 40
  | critical => 50

def name : Level → Text
  | debug => "DEBUG".toList
  | info => "INFO".toList
  | warning => "WARNING".toList
  | error => "ERROR".toList
  | critical => "CRITICAL".toList

def all : List Level := [debug, info, warning, error, critical]

def aliases : List (Text × Level) := [("WARN".toList, warning), ("FATAL".toList, critical)]

def ofName? (t : Text) : Option Level :=
  match all.find? (fun l => l.name == t) with
  | some l => some l
  | none => aliases.lookup t

end Level

/-! ## Events -/

inductive Event where
  /-- An array whose items have no single simple type gets no property. -/
  | skippedArray (key : Text)
  /-- So many classes were found below the top of a document. -/
  | extracted (count : Nat) (document : Text)
  /-- A namespace with so many types is built. -/
  | buildingNamespace (name : Text) (classes structs interfaces enums : Nat)
  /-- A class with so many members is built. -/
  | buildingClass (name : Text) (fields properties constructors : Nat)
  /-- A file was written. -/
  | wrote (path : Text)
  deriving DecidableEq, Repr

namespace Event

def level : Event → Level
  | skippedArray _ => .debug
  | extracted _ _ => .info
  | buildingNamespace _ _ _ _ _ => .debug
  | buildingClass _ _ _ _ => .debug
  | wrote _ => .info

/-- The part of the program that notes the event, as a log names it. -/
def origin : Event → Text
  | skippedArray _ => "sharp_code.json_to_net.source_code".toList
  | extracted _ _ => "sharp_code.json_to_net.source_code".toList
  | buildingNamespace _ _ _ _ _ => "sharp_code.builders.namespace".toList
  | buildingClass _ _ _ _ => "sharp_code.builders.class_builder".toList
  | wrote _ => "sharp_code.json_to_net.cli".toList

def counted (n : Nat) (things : String) : Text := (toString n).toList ++ [' '] ++ things.toList

def message : Event → Text
  | skippedArray key => phrase ["Skipping array ".toList, quoted key,
      ": its items are not of a single simple type".toList]
  | extracted count document => phrase ["Extracted ".toList, counted count "nested classes from ", quoted document]
  | buildingNamespace name classes structs interfaces enums => phrase ["Building namespace ".toList, name, ": ".toList,
      Text.join ", ".toList [counted classes "classes", counted structs "structs", counted interfaces "interfaces",
        counted enums "enums"]]
  | buildingClass name fields properties constructors => phrase ["Building class ".toList, name, ": ".toList,
      Text.join ", ".toList [counted fields "fields", counted properties "properties",
        counted constructors "constructors"]]
  | wrote path => "Wrote ".toList ++ path

/-- The line of the event in a log: where it comes from, its level, its message. -/
def line (e : Event) : Text := Text.join " - ".toList [e.origin, e.level.name, e.message]

/-- The events that a log with the given threshold shows. -/
def shown (threshold : Level) (events : List Event) : List Event :=
  events.filter (fun e => threshold.rank ≤ e.level.rank)

end Event

/-! ## Traced results -/

/-- A result with the events noted on the way to it. -/
structure Traced (α : Type) where
  events : List Event
  result : Except Fault α

namespace Traced

/-- A result on the way to which nothing was noted. -/
def ofExcept {α : Type} (r : Except Fault α) : Traced α := { events := [], result := r }

def note (e : Event) : Traced Unit := { events := [e], result := .ok () }

/-- One computation after the other: the events of the second follow those of the first, unless the first fails. -/
def andThen {α β : Type} (x : Traced α) (f : α → Traced β) : Traced β :=
  match x.result with
  | .error fault => { events := x.events, result := .error fault }
  | .ok a => { events := x.events ++ (f a).events, result := (f a).result }

instance : Monad Traced where
  pure a := ofExcept (.ok a)
  bind := andThen

/-- Applies a computation to each element, from left to right, up to the first fault. -/
def forEach {α β : Type} (f : α → Traced β) : List α → Traced (List β)
  | [] => return []
  | a :: as => do
    let b ← f a
    return b :: (← forEach f as)

end Traced

end CSharpDraft
