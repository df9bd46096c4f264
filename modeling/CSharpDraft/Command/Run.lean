import CSharpDraft.Command.Report
import CSharpDraft.DataClass.Generate
import CSharpDraft.Fragment.Grammar
import CSharpDraft.Json.Written

/-!
# The command

The command generates the data classes of JSON files. Its inputs are files, or directories whose files are taken; of
these the files with the suffix `.json` count. Each input gives one file in the output directory. The first input that
fails ends the run; what was written before stays.

* `Environment`: the disk and what else the command sees.
* `collect`: the files that the inputs of a command line stand for.
* `process`, `processAll`: one input, all inputs.
* `run`: the whole command.
-/

set_option autoImplicit false

namespace CSharpDraft.Command

/-- What the command sees: the disk, the working directory and the threshold of the log that the environment asks for. -/
structure Environment where
  disk : Disk
  here : Place
  logLevel : Option Text := none
  deriving DecidableEq, Repr

/-! ## Options -/

def checkSetting (env : Environment) (value : Text) : Setting → Except Misuse Unit
  | .output => if env.disk.isFile ((Path.ofText value).resolve env.here) then .error (.outputIsFile value) else .ok ()
  | .config =>
    if (env.disk.node? ((Path.ofText value).resolve env.here)).isSome then .ok () else .error (.missingConfig value)
  | .logLevel =>
    if Level.all.any (fun l => Text.fold l.name == Text.fold value) then .ok () else .error (.unknownLevel value)
  | .spaceName => .ok ()

/-- Checks the options in the order in which they stand, each with the value that counts. -/
def checkSettings (env : Environment) (i : Invocation) : List (Setting × Text) → Except Misuse Unit
  | [] => .ok ()
  | (option, _) :: rest =>
    match checkSetting env ((i.value? option).getD []) option with
    | .error misuse => .error misuse
    | .ok _ => checkSettings env i rest

/-- The threshold of the log: that of the command line, else that of the environment. A name without a level stands for
warnings. -/
def threshold (env : Environment) (i : Invocation) : Level :=
  match i.value? .logLevel with
  | some value => (Level.all.find? (fun l => Text.fold l.name == Text.fold value)).getD .warning
  | none => (env.logLevel.bind (fun name => Level.ofName? (Text.upper name))).getD .warning

def readConfig (env : Environment) (path : Text) : Except Ending Config :=
  match env.disk.contents? ((Path.ofText path).resolve env.here) with
  | none => .error (.crashed (.disk .isADirectory))
  | some (.garbled _) => .error (.broken .garbledConfig)
  | some (.text contents) =>
    match JsonValue.readRaw? contents with
    | none => .error (.crashed .configSyntax)
    | some (.object entries) => .ok (Config.ofRaw entries)
    | some _ => .error (.crashed .configShape)

/-- The configuration of a run: that of the file, with the settings of the command line in place of its own. -/
def configure (env : Environment) (i : Invocation) : Except Ending Config := do
  let config ← match i.value? .config with
    | none => .ok {}
    | some path => readConfig env path
  let config := match i.value? .spaceName with
    | none => config
    | some name => config.override "namespace".toList name
  return match i.value? .output with
    | none => config
    | some path => config.override "output_directory".toList (Place.text ((Path.ofText path).resolve env.here))

/-- A configuration with what the names of output files are made of. -/
structure Job extends Config where
  directory : Path := Path.ofText "./output".toList
  extension : Text := ".cs".toList
  halvedExtension : Bool := false
  deriving Repr

/-- The job that a configuration asks for. An extension may be any value; a directory has to be a text, which is printed. -/
def Job.ofConfig (config : Config) : Except Defect Job :=
  match config.outputDirectory with
  | .string t =>
    if config.isHalved "output_directory" then .error .halvedText
    else
      .ok { config with
        directory := Path.ofText t
        extension := config.fileExtension.written
        halvedExtension := config.fileExtension.isString && config.isHalved "file_extension" }
  | _ => .error .pathlessDirectory

/-! ## Inputs -/

/-- Whether a file counts as JSON: its suffix is `.json`, in upper or lower case. No letter beyond the ASCII range has
one of these letters as its lower case. -/
def isJson (p : Path) : Bool := p.suffix.map Char.toLower == ".json".toList

/-- The files that an input stands for; none if it leads nowhere. -/
def candidates? (disk : Disk) (here : Place) (p : Path) : Option (List Path) :=
  match disk.locate? here p with
  | none => none
  | some place =>
    if disk.isFile place then some [p]
    else some ((disk.fileNames place).map (fun name => { p with parts := p.parts ++ [name] }))

def unusedLine (p : Path) : Text :=
  phrase ["Input argument ".toList, quoted p.text,
    " is not a file nor a valid directory and will not be used.".toList]

/-- The JSON files that the inputs stand for, and the lines about inputs that lead nowhere. -/
def collect (disk : Disk) (here : Place) : List Text → List Path × List Text
  | [] => ([], [])
  | input :: inputs =>
    let (paths, lines) := collect disk here inputs
    match candidates? disk here (Path.ofText input) with
    | none => (paths, unusedLine (Path.ofText input) :: lines)
    | some files => (files.filter isJson ++ paths, lines)

/-! ## Processing -/

/-- The file for the data classes of an input. -/
def outputPath (job : Job) (input : Path) : Path :=
  job.directory.join (Path.ofText (Text.pascal input.stem ++ job.extension))

/-- Writes a file and makes the directories that it is in. -/
def save (disk : Disk) (here : Place) (p : Path) (contents : Text) : Except DiskFault Disk := do
  let disk ← disk.makeDirectories here p.parent
  disk.write (p.resolve here) contents

/-- What is in an input. Inputs are files, and no file goes away during a run. -/
def inputContents (disk : Disk) (here : Place) (input : Path) : Contents :=
  (disk.contents? (input.resolve here)).getD (.text [])

/-- Writes a generated text. A file whose name cannot be encoded is not opened; one that is opened is empty, and stays so if
the text cannot be encoded. -/
def output (job : Job) (here : Place) (p : Progress) (input : Path) (text : Text) (encodes : Bool) :
    Progress × Option Ending :=
  let target := outputPath job input
  if job.halvedExtension then
    match p.disk.makeDirectories here target.parent with
    | .error fault => (p, some (.crashed (.disk fault)))
    | .ok disk => ({ p with disk }, some (.broken .halvedText))
  else
    match save p.disk here target (if encodes then text else []) with
    | .error fault => (p, some (.crashed (.disk fault)))
    | .ok disk =>
      let p := { p with disk }
      if encodes then
        ((p.note [.wrote target.text]).say ("Generated ".toList ++ quoted (Place.text (target.resolve here))), none)
      else (p, some (.broken .halvedText))

/-- Processes one input; an ending stops the run. -/
def process [Fragment.Parser] (job : Job) (here : Place) (p : Progress) (input : Path) : Progress × Option Ending :=
  let p := p.say (phrase ["Processing ".toList, quoted input.name, "...".toList])
  match inputContents p.disk here input with
  | .garbled complaint => (p, some (.undecodable input complaint))
  | .text contents =>
    let generated := DataClass.generate input.stem contents job.toConfig
    let p := p.note generated.events
    match generated.result with
    | .error fault => (p, some (.ofFault input fault))
    | .ok text => output job here p input text (DataClass.encodes contents job.toConfig)

/-- Processes the inputs in order, up to the first that stops the run. -/
def processAll [Fragment.Parser] (job : Job) (here : Place) : Progress → List Path → Progress × Ending
  | p, [] => (p, .done)
  | p, input :: inputs =>
    match process job here p input with
    | (p, none) => processAll job here p inputs
    | (p, some ending) => (p, ending)

/-! ## The whole command -/

def helpLines : List Text :=
  ["Usage: json_to_net [OPTIONS] [INPUTS]...".toList, [],
    "  Generate C# data classes from JSON files or directories of JSON files.".toList, [],
    "Options:".toList,
    "  -o, --output DIRECTORY".toList,
    "  -n, --namespace TEXT".toList,
    "  -c, --config PATH".toList,
    "  --log-level [debug|info|warning|error|critical]".toList,
    "                                  Logging level (defaults to".toList,
    "                                  $SHARP_CODE_LOG_LEVEL or WARNING)".toList,
    "  --help                          Show this message and exit.".toList]

/-- Runs the command with options that are in order. -/
def execute [Fragment.Parser] (env : Environment) (i : Invocation) (threshold : Level) : Report :=
  match configure env i with
  | .error ending => { disk := env.disk, ending, threshold }
  | .ok config =>
    match collect env.disk env.here i.inputs with
    | ([], lines) => { disk := env.disk, output := lines, ending := .misused .noInput, threshold }
    | (inputs, lines) =>
      match Job.ofConfig config with
      | .error defect => { disk := env.disk, output := lines, ending := .broken defect, threshold }
      | .ok job =>
        let directory := Place.text (job.directory.resolve env.here)
        let start : Progress := { disk := env.disk, output := lines ++ ["Output directory: ".toList ++ directory] }
        let (p, ending) := processAll job env.here start inputs
        { toProgress := p, ending, threshold }

/-- Runs the command with the arguments of a command line. -/
def run [Fragment.Parser] (env : Environment) (arguments : List Text) : Report :=
  match Invocation.parse arguments with
  | .error misuse => { disk := env.disk, ending := .misused misuse }
  | .ok i =>
    if i.wantsHelp then { disk := env.disk, output := helpLines, ending := .helped }
    else
      match checkSettings env i i.settings with
      | .error misuse => { disk := env.disk, ending := .misused misuse }
      | .ok _ => execute env i (threshold env i)

end CSharpDraft.Command
