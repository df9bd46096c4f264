import CSharpDraft.Text.Basic
import CSharpDraft.Text.Literal

/-!
# Command lines

A command line mixes inputs with options. An option takes a value: behind an equals sign (`--output=dir`), as the next
argument (`--output dir`, `-o dir`), or right behind a short name (`-odir`). `--` ends the options. Of an option that is
given several times the last value counts.

* `Misuse`, `Misuse.message`: what can be wrong with a command line.
* `Word`, `Word.read`: what a single argument is.
* `Invocation`, `Invocation.parse`: a command line as inputs and options.
-/

set_option autoImplicit false

namespace CSharpDraft.Command

/-! ## Misuse -/

inductive Misuse where
  | unknownOption (name : Text)
  | missingValue (name : Text)
  | unexpectedValue (name : Text)
  | missingConfig (path : Text)
  | outputIsFile (path : Text)
  | unknownLevel (name : Text)
  | noInput
  deriving DecidableEq, Repr

def Misuse.message : Misuse → Text
  | unknownOption name => "No such option ".toList ++ Text.literal name ++ ".".toList
  | missingValue name => "Option ".toList ++ Text.literal name ++ " requires an argument.".toList
  | unexpectedValue name => "Option ".toList ++ Text.literal name ++ " does not take a value.".toList
  | missingConfig path => "Invalid value for '--config' / '-c': Path ".toList ++ Text.literal path ++
      " does not exist.".toList
  | outputIsFile path => "Invalid value for '--output' / '-o': Directory ".toList ++ Text.literal path ++
      " is a file.".toList
  | unknownLevel name => "Invalid value for '--log-level': ".toList ++ Text.literal name ++
      " is not one of 'debug', 'info', 'warning', 'error', 'critical'.".toList
  | noInput => "Please provide input file(s): json_to_net <file-path | dir-path>...".toList

/-! ## Arguments -/

inductive Setting where
  | output
  | spaceName
  | config
  | logLevel
  deriving DecidableEq, Repr

def longNames : List (Text × Setting) :=
  [("--output".toList, .output), ("--namespace".toList, .spaceName), ("--config".toList, .config),
    ("--log-level".toList, .logLevel)]

/-- The short names of options, each one letter behind a hyphen. -/
def shortNames : List (Char × Setting) := [('o', .output), ('n', .spaceName), ('c', .config)]

def helpName : Text := "--help".toList

inductive Word where
  /-- An input. -/
  | input (t : Text)
  /-- An option, by the name it was given, with the value that is part of the argument. -/
  | setting (option : Setting) (name : Text) (value : Option Text)
  /-- The option that asks for help. -/
  | help
  /-- The end of the options. -/
  | stop
  deriving DecidableEq, Repr

/-- A text up to its first equals sign, and what stands behind that sign. -/
def splitEquals : Text → Text × Option Text
  | [] => ([], none)
  | c :: r =>
    if c = '=' then ([], some r)
    else ((c :: (splitEquals r).1), (splitEquals r).2)

namespace Word

def readLong (t : Text) : Except Misuse Word :=
  let (name, value) := splitEquals t
  if name = helpName then
    if value.isSome then .error (.unexpectedValue name) else .ok .help
  else
    match longNames.lookup name with
    | some option => .ok (.setting option name value)
    | none => .error (.unknownOption name)

/-- An argument that starts with a hyphen and the letter `c`; what stands behind the letter is the value. -/
def readShort (c : Char) (rest : Text) : Except Misuse Word :=
  match shortNames.lookup c with
  | some option => .ok (.setting option ['-', c] (if rest.isEmpty then none else some rest))
  | none => .error (.unknownOption ['-', c])

/-- What an argument is; a single hyphen is an input. -/
def read (t : Text) : Except Misuse Word :=
  match t with
  | ['-', '-'] => .ok .stop
  | '-' :: '-' :: _ => readLong t
  | '-' :: c :: rest => readShort c rest
  | _ => .ok (.input t)

end Word

/-! ## Command lines -/

/-- A command line: its inputs and its options in the order in which they stand. -/
structure Invocation where
  inputs : List Text := []
  settings : List (Setting × Text) := []
  wantsHelp : Bool := false
  deriving DecidableEq, Repr

namespace Invocation

def consInput (t : Text) (i : Invocation) : Invocation := { i with inputs := t :: i.inputs }

def consSetting (option : Setting) (value : Text) (i : Invocation) : Invocation :=
  { i with settings := (option, value) :: i.settings }

def parse : List Text → Except Misuse Invocation
  | [] => .ok {}
  | t :: rest =>
    match Word.read t with
    | .error misuse => .error misuse
    | .ok .stop => .ok { inputs := rest }
    | .ok (.input t) => (parse rest).map (consInput t)
    | .ok .help => (parse rest).map (fun i => { i with wantsHelp := true })
    | .ok (.setting option _ (some value)) => (parse rest).map (consSetting option value)
    | .ok (.setting option name none) =>
      match rest with
      | [] => .error (.missingValue name)
      | value :: rest => (parse rest).map (consSetting option value)

/-- The value of an option: the last one given. -/
def value? (i : Invocation) (option : Setting) : Option Text := i.settings.reverse.lookup option

end Invocation

end CSharpDraft.Command
