import CSharpDraft.Draft.Work

/-!
# Scripts

A script is a list of steps that create drafts under names of the script's own, call them and ask them. A step that fails
is answered with its fault, and the next one goes on from what it has left behind.

* `Session`: a workspace with the names of the script.
* `Play`: work that may also give names; `Session.step`, `Session.run`, `runScript`.
-/

set_option autoImplicit false

namespace CSharpDraft

inductive Query where
  | build (purpose : Workspace.Purpose)
  | render (purpose : Workspace.Purpose)
  | hasMember (name : Option Text) (kind : Option MemberKind) (access : Option Text) (caseSensitive : Bool)
  | inspect (setting : Readable)
  deriving DecidableEq, Repr

/-- A step of a script; drafts are named. -/
inductive Step where
  | create (recipe : Recipe) (name : Text)
  | call (target : Text) (call : Call Text)
  | ask (target : Text) (query : Query)
  deriving DecidableEq, Repr

inductive Answer where
  | created
  | changed
  | decl (d : Decl)
  | text (t : Text)
  | truth (b : Bool)
  | setting (t : Option Text)
  deriving DecidableEq, Repr

/-- A workspace with names for its drafts; of two drafts with one name the later one counts. -/
structure Session where
  workspace : Workspace := {}
  names : List (Text × Ref) := []
  deriving DecidableEq, Repr

namespace Session

def find (s : Session) (name : Text) : Except Fault Ref :=
  match s.names.lookup name with
  | some r => .ok r
  | none => .error (.unknownDraft name)

def findValue (s : Session) : Value Text → Except Fault (Value Ref)
  | .nothing => .ok .nothing
  | .item name => (s.find name).map .item
  | .other => .ok .other

def findPassed (s : Session) : Passed Text → Except Fault (Passed Ref)
  | .one v => (s.findValue v).map .one
  | .text name => (s.find name).map .text
  | .several vs => (checkEach s.findValue vs).map .several

/-- The call with references in the place of names. -/
def resolve (s : Session) : Call Text → Except Fault (Call Ref)
  | .addChild list child => do
    match child with
    | none => return .addChild list none
    | some name => return .addChild list (some (← s.find name))
  | .addChildren list children => do return .addChildren list ⟨← checkEach s.findPassed children.passed⟩
  | .setName v => .ok (.setName v)
  | .setType v => .ok (.setType v)
  | .setAccess v => .ok (.setAccess v)
  | .setSummary v => .ok (.setSummary v)
  | .setBase v => .ok (.setBase v)
  | .setFlag f b => .ok (.setFlag f b)
  | .setGetter v => .ok (.setGetter v)
  | .dropGetter => .ok .dropGetter
  | .setSetter v => .ok (.setSetter v)
  | .dropSetter => .ok .dropSetter
  | .setSetterAccess v => .ok (.setSetterAccess v)
  | .setDefault v => .ok (.setDefault v)
  | .setValue v => .ok (.setValue v)
  | .addParameter t n r => .ok (.addParameter t n r)
  | .setBaseCall args => .ok (.setBaseCall args)
  | .addName list v => .ok (.addName list v)
  | .addNames list vs => .ok (.addNames list vs)

end Session

/-- Work on a session. What it has changed when it fails stays changed. -/
abbrev Play : Type → Type := EStateM Fault Session

namespace Play

instance : MonadLift Work Play where
  monadLift work s :=
    match work s.workspace with
    | .ok a w => .ok a { s with workspace := w }
    | .error f w => .error f { s with workspace := w }

def answer [Fragment.Parser] (r : Ref) : Query → Play Answer
  | .build purpose => do return .decl (← Work.build r purpose)
  | .render purpose => do return .text (← Work.render r purpose)
  | .hasMember name kind access caseSensitive => do
    let name ← given "name" name
    return .truth (← Work.hasMember r { name, kind, access, caseSensitive })
  | .inspect setting => do return .setting (← Work.inspect r setting)

def step [Fragment.Parser] : Step → Play Answer
  | .create recipe name => do
    let r ← Work.create recipe
    modify (fun s => { s with names := (name, r) :: s.names })
    return .created
  | .call target call => do
    let s ← get
    let call ← s.resolve call
    let r ← s.find target
    Work.call r call
    return .changed
  | .ask target query => do
    let s ← get
    let r ← s.find target
    answer r query

end Play

namespace Session

/-- The answer to a step with the session after it, or the fault with what the step has left behind. -/
def step [Fragment.Parser] (s : Session) (step : Step) : EStateM.Result Fault Session Answer := Play.step step s

/-- Runs the steps in order, each on the session that the one before it has left behind. -/
def run [Fragment.Parser] (s : Session) : List Step → Session × List (Except Fault Answer)
  | [] => (s, [])
  | step :: steps =>
    match s.step step with
    | .ok answer next =>
      let (last, answers) := run next steps
      (last, .ok answer :: answers)
    | .error fault next =>
      let (last, answers) := run next steps
      (last, .error fault :: answers)

end Session

def runScript [Fragment.Parser] (steps : List Step) : List (Except Fault Answer) := (Session.run {} steps).2

end CSharpDraft
