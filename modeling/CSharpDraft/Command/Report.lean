import CSharpDraft.Command.Invocation
import CSharpDraft.Disk.Basic
import CSharpDraft.Trace

/-!
# Reports

What a run of the command leaves behind: how it ended, the lines it printed, the events it noted, and the disk.
-/

set_option autoImplicit false

namespace CSharpDraft.Command

/-- What stops the command without a word. -/
inductive Crash where
  /-- The configuration is not JSON. -/
  | configSyntax
  /-- The configuration is JSON and not an object. -/
  | configShape
  /-- The disk refused. -/
  | disk (fault : DiskFault)
  deriving DecidableEq, Repr

def Crash.message : Crash → Text
  | configSyntax => "The configuration is not JSON.".toList
  | configShape => "The configuration is not a JSON object.".toList
  | disk .fileInPlace => "A file stands in the place of a directory.".toList
  | disk .notADirectory => "A path leads through a file.".toList
  | disk .isADirectory => "A directory stands in the place of a file.".toList

/-- What the command cannot go on with, without a word either. -/
inductive Defect where
  /-- The configuration is not a text. -/
  | garbledConfig
  /-- A setting of the configuration is nothing that a name can be. -/
  | namelessSetting
  /-- The output directory of the configuration is nothing that a path can be. -/
  | pathlessDirectory
  /-- A text that is to be written has a half of a character. -/
  | halvedText
  deriving DecidableEq, Repr

def Defect.message : Defect → Text
  | garbledConfig => "The configuration is not encoded as a text.".toList
  | namelessSetting => "A setting of the configuration is not a text.".toList
  | pathlessDirectory => "The output directory of the configuration is not a text.".toList
  | halvedText => "A text cannot be encoded.".toList

inductive Ending where
  /-- All inputs were processed. -/
  | done
  /-- Help was asked for. -/
  | helped
  /-- The command line cannot be followed. -/
  | misused (misuse : Misuse)
  /-- An input is no text. -/
  | undecodable (input : Path) (complaint : Text)
  /-- An input has no data classes. -/
  | failed (input : Path) (fault : Fault)
  /-- The command gave up. -/
  | crashed (crash : Crash)
  | broken (defect : Defect)
  deriving DecidableEq, Repr

namespace Ending

/-- How a run ends at an input whose data classes cannot be generated. -/
def ofFault (input : Path) : Fault → Ending
  | .unsupported => broken .namelessSetting
  | fault => failed input fault

def exitCode : Ending → Nat
  | done => 0
  | helped => 0
  | misused _ => 2
  | undecodable _ _ => 1
  | failed _ _ => 1
  | crashed _ => 1
  | broken _ => 1

/-- The error line of an input whose data classes cannot be generated, with the cause in words. -/
def failureLine (input : Path) (cause : Text) : Text :=
  phrase ["Error: Failed to generate code for ".toList, quoted input.text, ": ".toList, cause]

/-- The lines about the use of the command, which stand before the error line of a misuse. -/
def usageLines : Ending → List Text
  | misused _ => ["Usage: json_to_net [OPTIONS] [INPUTS]...".toList, "Try 'json_to_net --help' for help.".toList, []]
  | _ => []

def errorLine? : Ending → Option Text
  | misused misuse => some ("Error: ".toList ++ misuse.message)
  | undecodable input complaint => some (failureLine input complaint)
  | failed input fault => some (failureLine input fault.message)
  | _ => none

end Ending

structure Progress where
  disk : Disk
  output : List Text := []
  events : List Event := []
  deriving DecidableEq, Repr

namespace Progress

def say (p : Progress) (line : Text) : Progress := { p with output := p.output ++ [line] }

def note (p : Progress) (events : List Event) : Progress := { p with events := p.events ++ events }

end Progress

structure Report extends Progress where
  ending : Ending
  threshold : Level := .warning
  deriving DecidableEq, Repr

def Report.log (r : Report) : List Text := (Event.shown r.threshold r.events).map Event.line

end CSharpDraft.Command
