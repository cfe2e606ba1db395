import Buildbox.CommandLine.Help
import Buildbox.Session.Frontend

/-!
The program behind the command line. Its surroundings are a `Console`: two output streams, typed
lines, files and variables. Everything that a command puts to its host is answered from there.
-/

set_option autoImplicit false

namespace Buildbox.CommandLine

inductive Stream
  | stdout
  | stderr
deriving Repr, DecidableEq

structure Console (m : Type → Type) where
  print : Stream → String → m Unit
  readLine : m Bytes
  readFile : String → m (Except FetchFault Bytes)
  environment : String → m (Option String)
  elapsed : m Nat
  wallClock : m Nat
  random : Nat → m Bytes
  crash : m Unit

/-- What a guest is given of a typed line: nothing of a line that is no text, and otherwise what
passes through an input region. -/
def lineGiven (capacity : Nat) (typed : Bytes) : Bytes :=
  let line := match Utf8.strict typed with
    | some text => Bytes.ofString text
    | none => []
  match ((InputRegion.new capacity).post line).2.take with
  | .line bytes _ => bytes
  | .blocked | .closed => []

def Console.answer {m : Type → Type} [Monad m] (console : Console m) (stream : Stream)
    (config : Config) : (q : Query) → m q.Answer
  | .write text => console.print stream text
  | .isClosed => pure false
  | .askLine => pure true
  | .takeLine => do return some (lineGiven config.inputCapacity.toNat (← console.readLine))
  | .elapsed => console.elapsed
  | .wallClock => console.wallClock
  | .random count => console.random count
  | .note _ => pure ()
  | .fetch name =>
    match Artifact.path config.artifactDir name with
    | .ok path => console.readFile path
    | .error fault => pure (.error fault)
  | .crash => console.crash

inductive Complaint
  | configUnread (path : String) (cause : String)
  | configInvalid (problem : Json.Problem)
  | sourceUnread (path : String) (cause : String)
  | refused (refusal : Session.Refusal)

namespace Complaint

def problemText : Json.Problem → String
  | .ended => "the text ends too early"
  | .malformed => "the text is not JSON"
  | .unexpected => "a value is missing or of the wrong type"

def message : Complaint → String
  | .configUnread path cause => s!"failed to read config {path}: {cause}"
  | .configInvalid problem => s!"invalid config: {problemText problem}"
  | .sourceUnread path _ => s!"failed to read {path}"
  | .refused refusal => refusal.message

def cause? : Complaint → Option String
  | .configUnread _ cause | .sourceUnread _ cause => some cause
  | .configInvalid problem => some (problemText problem)
  | .refused _ => none

def text (complaint : Complaint) : String :=
  let cause := match complaint.cause? with
    | some cause => s!"\n\nCaused by:\n    {cause}"
    | none => ""
  s!"Error: {complaint.message}{cause}\n"

end Complaint

def notText : String := "stream did not contain valid UTF-8"

def readConfig (path : String) (file : Except FetchFault Bytes) : Except Complaint Config :=
  match file with
  | .error fault => .error (.configUnread path fault.message)
  | .ok bytes =>
    match Utf8.strict bytes with
    | none => .error (.configUnread path notText)
    | some text => (Config.ofJson text).mapError .configInvalid

def Options.override (options : Options) (config : Config) : Config :=
  { config with
    artifactDir := options.artifacts.getD config.artifactDir
    showTiming := options.timing || config.showTiming }

def Command.file : Command → String
  | .run file .. | .check file _ => file

def Command.stream : Command → Stream
  | .check _ true => .stderr
  | _ => .stdout

variable {engine : Engine}

abbrev Requests (engine : Engine) := ExceptT Session.Refusal (StateT (Session.Builder engine) Host)

def request (r : Session.Request) : Requests engine Session.Response := do
  let (response, builder) ← ((← get).serve r : Host _)
  set builder
  match response with
  | some response => return response
  | none => throw .rejected

def playFrames (frameExport : String) : Nat → Session.Response → Requests engine Unit
  | left + 1, .runReport true => do
    playFrames frameExport left (← request (.callContinuation frameExport))
  | _, _ => pure ()

/-- What is printed beside a command's own output, and its exit code. -/
structure Ending where
  printed : String := ""
  code : UInt32 := 0

/-- Shows diagnostics, or prints them as JSON; an error among them makes the exit code 1. -/
def report (json : Bool) (found : List Diagnostic) : Requests engine Ending := do
  let code := if found.any (·.isError) then 1 else 0
  if json then
    return { printed := (Json.Value.list (found.map (·.toJson))).pretty ++ "\n", code }
  for d in found do
    (Host.write d.render : Host Unit)
  return { code }

def Command.execute (command : Command) (source : Bytes) : Requests engine Ending :=
  match command with
  | .run _ frames frameExport => do
    playFrames frameExport frames.toNat (← request (.compileLinkRun (Utf8.lossy source)))
    return {}
  | .check _ json => do
    match ← request (.runCppCheck source) with
    | .diagnostics found => report json found
    | .runReport _ => return {}

section

variable {m : Type → Type} [Monad m]

/-- Reads what a command needs and carries it out. -/
def perform (engine : Engine) (console : Console m) (options : Options) (command : Command) :
    ExceptT Complaint m Ending := do
  let config ← match options.config with
    | none => pure {}
    | some path =>
      match readConfig path (← console.readFile path) with
      | .ok config => pure config
      | .error complaint => throw complaint
  let artifacts ← console.environment Config.artifactsVariable
  let timing ← console.environment Config.timingVariable
  let config := options.override (config.override fun name =>
    if name == Config.artifactsVariable then artifacts
    else if name == Config.timingVariable then timing
    else none)
  match ← console.readFile command.file with
  | .error fault => throw (.sourceUnread command.file fault.message)
  | .ok source =>
    let session : Requests engine Ending := command.execute source
    let (result, _) ← ((session.run.run (.new config)).perform
      (console.answer command.stream config) : m _)
    match result with
    | .ok ending => return ending
    | .error refusal => throw (.refused refusal)

/-- The whole program: gives its exit code. -/
def run (engine : Engine) (console : Console m) (arguments : List String) : m UInt32 := do
  match Invocation.ofArguments? arguments with
  | none =>
    console.print .stderr refusalText
    return 2
  | some .version =>
    console.print .stdout versionText
    return 0
  | some (.help level) =>
    console.print .stdout level.helpText
    return 0
  | some (.perform options command) =>
    match ← (perform engine console options command).run with
    | .error complaint =>
      console.print .stderr complaint.text
      return 1
    | .ok ending =>
      if !ending.printed.isEmpty then console.print .stdout ending.printed
      return ending.code

end

end Buildbox.CommandLine
