import CSharpDraft.Command.Run
import CSharpDraft.Fragment.Grammar

/-!
# The program

The program loads the part of the disk that its command line speaks of, runs the command on it, and carries out what the
command did: it prints the lines and writes the files.
-/

set_option autoImplicit false

namespace CSharpDraft.Program

open CSharpDraft.Command

/-- What the system has at a place. Without `contents` a file is left empty. -/
def look (place : Place) (contents : Bool) : IO (Option Node) := do
  let path := (← IO.currentDir) / String.ofList place.text
  if ← path.isDir then
    return some .directory
  else if ← path.pathExists then
    if contents then
      return some (.file (.ofBytes (← IO.FS.readBinFile path).toList))
    else
      return some (.file (.text []))
  else
    return none

/-- Loads one place; without `contents` a place that is loaded already stays as it is. -/
def loadPlace (disk : Disk) (place : Place) (contents : Bool) : IO Disk := do
  if !contents && (disk.node? place).isSome then
    return disk
  else
    match ← look place contents with
    | some node => return disk.put place node
    | none => return disk

/-- Loads the places on the way of a path, and the text of the file at its end. -/
def loadWay (disk : Disk) (here : Place) (path : Path) : IO Disk := do
  let mut disk ← loadPlace disk (path.start here) false
  let mut place := path.start here
  for part in path.parts do
    place := place.step part
    disk ← loadPlace disk place false
  loadPlace disk place true

def listPlace (place : Place) : IO (List Text) := do
  let path := (← IO.currentDir) / String.ofList place.text
  return (← path.readDir).toList.map (fun entry => entry.fileName.toList)

/-- Loads an input: the way to it, and the files in it if it is a directory. -/
def loadInput (disk : Disk) (here : Place) (path : Path) : IO Disk := do
  let mut disk ← loadWay disk here path
  let place := path.resolve here
  if disk.isDirectory place then
    for name in ← listPlace place do
      disk ← loadPlace disk (place ++ [name]) (isJson { parts := [name] })
  return disk

def loadDisk (here : Place) (i : Invocation) : IO Disk := do
  let mut disk : Disk := {}
  for input in i.inputs do
    disk ← loadInput disk here (Path.ofText input)
  for option in [Setting.config, Setting.output] do
    match i.value? option with
    | some value => disk ← loadWay disk here { rooted := true, parts := (Path.ofText value).resolve here }
    | none => pure ()
  match configure { disk, here } i with
  | .error _ => return disk
  | .ok config =>
    match Job.ofConfig config with
    | .error _ => return disk
    | .ok job =>
      for input in (collect disk here i.inputs).1 do
        disk ← loadWay disk here (outputPath job input)
      return disk

/-- Brings the changes of a disk to the system. -/
def carryOut (before after : Disk) : IO Unit := do
  for (place, node) in after.nodes do
    if node == .directory && !before.isDirectory place then
      IO.FS.createDirAll (String.ofList place.text)
  for (place, contents) in before.changedFiles after do
    IO.FS.writeFile (String.ofList place.text) (String.ofList contents)

/-- Runs the command in the working directory of the program. -/
def start (arguments : List Text) : IO UInt32 := do
  let here := (Path.ofText (← IO.currentDir).toString.toList).parts
  let logLevel := (← IO.getEnv "SHARP_CODE_LOG_LEVEL").map String.toList
  let disk ← match Invocation.parse arguments with
    | .ok i => loadDisk here i
    | .error _ => pure {}
  let report := run { disk, here, logLevel } arguments
  carryOut disk report.disk
  for line in report.output do
    IO.println (String.ofList line)
  for line in report.log ++ report.ending.usageLines ++ report.ending.errorLine?.toList do
    IO.eprintln (String.ofList line)
  match report.ending with
  | .crashed crash => IO.eprintln (String.ofList crash.message)
  | .broken defect => IO.eprintln (String.ofList defect.message)
  | _ => pure ()
  return UInt32.ofNat report.ending.exitCode

end CSharpDraft.Program

def main (arguments : List String) : IO UInt32 := CSharpDraft.Program.start (arguments.map String.toList)
