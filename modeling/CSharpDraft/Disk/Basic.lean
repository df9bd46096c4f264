import CSharpDraft.Disk.Path
import CSharpDraft.Text.Utf8

/-!
# Disks

A disk holds files and directories, each at its place. The root is always there.

* `Disk.node?`, `Disk.contents?`, `Disk.read?`, `Disk.children`: what is on a disk.
* `Disk.put`, `Disk.write`: a disk with one place changed.
* `Disk.locate?`: where a path leads, if everything on the way is there.
* `Disk.makeDirectories`: a disk with all directories of a path.
-/

set_option autoImplicit false

namespace CSharpDraft

inductive Contents where
  | text (t : Text)
  /-- Bytes that are no text, with what the decoder says about them. -/
  | garbled (complaint : Text)
  deriving DecidableEq, Repr

/-- What the bytes of a file are. -/
def Contents.ofBytes (bytes : List UInt8) : Contents :=
  match Utf8.decode bytes with
  | .ok t => .text t
  | .error complaint => .garbled complaint

inductive Node where
  | directory
  | file (contents : Contents)
  deriving DecidableEq, Repr

inductive DiskFault where
  /-- A directory was to be made where a file is. -/
  | fileInPlace
  /-- A path leads through a file. -/
  | notADirectory
  /-- A file was to be read or written where a directory is. -/
  | isADirectory
  deriving DecidableEq, Repr

/-- A disk: what is at each place other than the root. -/
structure Disk where
  nodes : List (Place × Node) := []
  deriving DecidableEq, Repr

namespace Disk

/-! ## Looking -/

def node? (d : Disk) (p : Place) : Option Node := if p.isEmpty then some .directory else d.nodes.lookup p

/-- What is in the file at a place. -/
def contents? (d : Disk) (p : Place) : Option Contents :=
  match d.node? p with
  | some (.file contents) => some contents
  | _ => none

def read? (d : Disk) (p : Place) : Option Text :=
  match d.contents? p with
  | some (.text t) => some t
  | _ => none

def isFile (d : Disk) (p : Place) : Bool := (d.contents? p).isSome

def isDirectory (d : Disk) (p : Place) : Bool := d.node? p == some .directory

def children (d : Disk) (p : Place) : List Text :=
  d.nodes.filterMap (fun (q, _) => if q.isEmpty || q.dropLast != p then none else q.getLast?)

/-- The names of the files in a directory, in the order of their characters. -/
def fileNames (d : Disk) (p : Place) : List Text :=
  ((d.children p).filter (fun name => d.isFile (p ++ [name]))).mergeSort Text.atMost

/-- The place that components lead to from a place. Each step starts in a directory, and its end must be there. -/
def descend? (d : Disk) : Place → List Text → Option Place
  | here, [] => if (d.node? here).isSome then some here else none
  | here, part :: parts => if d.isDirectory here then descend? d (here.step part) parts else none

/-- The place that a path leads to, if it is there. -/
def locate? (d : Disk) (here : Place) (p : Path) : Option Place := d.descend? (p.start here) p.parts

/-! ## Changing -/

/-- The places with one more; a place that is there already keeps its position. -/
def putNode (p : Place) (n : Node) : List (Place × Node) → List (Place × Node)
  | [] => [(p, n)]
  | (q, m) :: rest => if q = p then (q, n) :: rest else (q, m) :: putNode p n rest

def put (d : Disk) (p : Place) (n : Node) : Disk := { nodes := putNode p n d.nodes }

/-- Makes the directories on the way from a place. A file on the way is refused as a directory, or as a file in place
where the way ends or where a directory was made before it. -/
def makeWay (d : Disk) (made : Bool) : Place → List Text → Except DiskFault Disk
  | _, [] => .ok d
  | here, part :: parts =>
    match d.node? (here.step part) with
    | some .directory => makeWay d made (here.step part) parts
    | some (.file _) => .error (if made || parts.isEmpty then .fileInPlace else .notADirectory)
    | none => makeWay (d.put (here.step part) .directory) true (here.step part) parts

def makeDirectories (d : Disk) (here : Place) (p : Path) : Except DiskFault Disk :=
  d.makeWay false (p.start here) p.parts

/-- Writes a text to a file; the directory that it is in must be there. -/
def write (d : Disk) (p : Place) (contents : Text) : Except DiskFault Disk :=
  if d.isDirectory p then .error .isADirectory else .ok (d.put p (.file (.text contents)))

/-! ## Comparing -/

/-- The files of a disk that another disk does not have, or has with another text. -/
def changedFiles (before after : Disk) : List (Place × Text) :=
  after.nodes.filterMap (fun (p, n) =>
    match n with
    | .file (.text t) => if before.read? p == some t then none else some (p, t)
    | _ => none)

end Disk

end CSharpDraft
