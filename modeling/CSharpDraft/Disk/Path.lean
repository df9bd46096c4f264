import CSharpDraft.Text.Basic

/-!
# Paths

A path is written with slashes. Empty components and `.` mean nothing and are dropped when a path is read; `..` is kept,
because what it means depends on what is on the disk.

* `Path.ofText`, `Path.text`: reading and writing paths.
* `Path.name`, `Path.stem`, `Path.suffix`, `Path.parent`, `Path.join`: the parts of a path.
* `Place`, `Path.resolve`: where a path leads, seen from a working directory.
-/

set_option autoImplicit false

namespace CSharpDraft

/-! ## Components -/

/-- The component that leads one step up. -/
def upward : Text := "..".toList

/-- The components of a text between its slashes, the empty ones among them. -/
def splitSlashes : Text → List Text
  | [] => [[]]
  | c :: r =>
    if c = '/' then [] :: splitSlashes r
    else
      match splitSlashes r with
      | [] => [[c]]
      | part :: parts => (c :: part) :: parts

def isComponent (part : Text) : Bool := !part.isEmpty && part != ['.']

/-- A path: its components, and whether it starts at the root. -/
structure Path where
  rooted : Bool := false
  parts : List Text := []
  deriving DecidableEq, Repr

namespace Path

def ofText (t : Text) : Path := { rooted := t.head? == some '/', parts := (splitSlashes t).filter isComponent }

/-- The text of a path; the path without components is `.`, or `/` at the root. -/
def text (p : Path) : Text :=
  if p.rooted then '/' :: Text.join ['/'] p.parts
  else if p.parts.isEmpty then ['.']
  else Text.join ['/'] p.parts

def name (p : Path) : Text := p.parts.getLast?.getD []

def parent (p : Path) : Path := { p with parts := p.parts.dropLast }

def join (p q : Path) : Path := if q.rooted then q else { p with parts := p.parts ++ q.parts }

/-! ## Names of files -/

/-- What stands behind the last dot of a name, with the name before that dot. -/
def splitDot (name : Text) : Option (Text × Text) :=
  match name.reverse.span (· != '.') with
  | (_, []) => none
  | (ending, _ :: start) => some (start.reverse, ending.reverse)

/-- The last component without its suffix. A dot at its start or end makes no suffix. -/
def stem (p : Path) : Text :=
  match splitDot p.name with
  | some (start, ending) => if start.isEmpty || ending.isEmpty then p.name else start
  | none => p.name

/-- The suffix of the last component, with its dot. -/
def suffix (p : Path) : Text :=
  match splitDot p.name with
  | some (start, ending) => if start.isEmpty || ending.isEmpty then [] else '.' :: ending
  | none => []

end Path

/-! ## Places -/

/-- A place on the disk: the names that lead to it from the root. -/
abbrev Place := List Text

namespace Place

def text (p : Place) : Text := Path.text { rooted := true, parts := p }

/-- The place after a step by one component; above the root is the root. -/
def step (here : Place) (part : Text) : Place := if part = upward then here.dropLast else here ++ [part]

end Place

/-- Where a path starts, seen from a working directory. -/
def Path.start (p : Path) (here : Place) : Place := if p.rooted then [] else here

/-- Where a path leads, seen from a working directory, component by component. -/
def Path.resolve (p : Path) (here : Place) : Place := p.parts.foldl Place.step (p.start here)

end CSharpDraft
