import Buildbox.Diagnostic.Reader
import Buildbox.Guest.Basic
import Buildbox.ModuleCache
import Buildbox.Toolchain.Arguments

/-!
The pipeline from a source to a running program. Compiler, linker and program are guests, one after
another, on one filesystem, which is brought up once and before anything else.
-/

set_option autoImplicit false

namespace Buildbox

/-- The toolchain between two operations. -/
structure Toolchain (engine : Engine) where
  config : Config
  showTiming : Bool
  cache : ModuleCache engine := {}
  /-- the filesystem, or why there is none, once it was first needed -/
  filesystem : Option (Except Failure (Filesystem engine)) := none
  nextGuest : GuestId

namespace Toolchain

variable {engine : Engine}

/-- A toolchain that has done nothing yet. -/
def new (config : Config) (nextGuest : GuestId) : Toolchain engine :=
  { config, showTiming := config.showTiming, nextGuest }

abbrev Action (engine : Engine) :=
  ExceptT Failure (StateT (Toolchain engine) Host)

structure Stage where
  writesStdout : Bool
  gray : Bool
  mode : RunMode

namespace Stage

def tool : Stage := ⟨true, true, .standard⟩

def quiet : Stage := ⟨false, false, .standard⟩

def program : Stage := ⟨true, false, .standard⟩

def diagnostics : Stage := ⟨false, false, .diagnostics⟩

end Stage

def raise {α : Type} : Except Failure α → Action engine α
  | .ok a => pure a
  | .error failure => throw failure

def prepare (engine : Engine) (config : Config) (timing : Bool) :
    ExceptT Failure Host (Filesystem engine) := do
  let binary ← ModuleCache.fetchArtifact config.memfs
  match engine.compile binary [] with
  | .error failure => throw failure
  | .ok module =>
    let fs ← Filesystem.new engine module
    Progress.task timing s!"{Progress.gray}Untarring {config.sysroot}" do
      let image ← ModuleCache.fetchArtifact config.sysroot
      let (result, fs) ← ((Filesystem.untar image).run.run fs : Host _)
      match result with
      | .ok _ => return fs
      | .error failure => throw failure

def ready : Action engine (Filesystem engine) := do
  let self ← get
  match self.filesystem with
  | some result => raise result
  | none =>
    let result ← ((prepare engine self.config self.showTiming).run : Host _)
    set { self with filesystem := some result }
    raise result

def keep (fs : Filesystem engine) : Action engine Unit :=
  modify fun self => { self with filesystem := some (.ok fs) }

def onFilesystem {α : Type} (action : Filesystem.Action engine α) : Action engine α := do
  let fs ← ready
  let (result, fs) ← (action.run.run fs : Host _)
  keep fs
  raise result

def module (name : String) : Action engine engine.Module := do
  let self ← get
  let (result, cache) ← (self.cache.get self.showTiming name : Host _)
  modify fun self => { self with cache }
  raise result

def drop (guest : Guest engine) : Action engine Unit := do
  keep (← (guest.drop (← ready) : Host _))

/-- Runs one stage to its end and gives the guest that ran. A guest whose stage fails is given
up. -/
def run (module : engine.Module) (stage : Stage) (program : String) (arguments : List String) :
    Action engine (Outcome × Guest engine) := do
  if stage.writesStdout then
    let color := if stage.gray then Progress.gray else ""
    let echo := " ".intercalate (program :: arguments)
    (Progress.line s!"{color}{echo}\r\n" : Host Unit)
  let started ← (Host.elapsed : Host Nat)
  let self ← get
  set { self with nextGuest := self.nextGuest + 1 }
  let guest : Guest engine :=
    { id := self.nextGuest, program, arguments, module, writesStdout := stage.writesStdout }
  let (result, guest, fs) ← (guest.instantiate (← ready) : Host _)
  keep fs
  if let .error failure := result then
    drop guest
    throw failure
  let instantiated ← (Host.elapsed : Host Nat)
  let (outcome, guest, fs) ← (guest.run (← ready) stage.mode : Host _)
  keep fs
  let finished ← (Host.elapsed : Host Nat)
  let tolerated := match stage.mode, outcome with
    | .diagnostics, .exited _ => true
    | _, _ => false
  if !tolerated then
    if let some failure := outcome.failure? program then
      drop guest
      throw failure
  if stage.writesStdout then
    (Host.write "\r\n" : Host Unit)
    (Progress.runTiming (← get).showTiming (instantiated - started) (finished - instantiated) :
      Host Unit)
  return (outcome, guest)

def compile (source : String) : Action engine String := do
  let _ ← ready
  onFilesystem (Filesystem.addFile inputFile (Bytes.ofString source))
  let clang ← module (← get).config.clang
  let arguments := compileArguments (← get).config
  let (_, guest) ← run clang .tool (arguments.headD "") arguments.tail
  drop guest
  return objectFile

/-- Links an object file; gives the path of the executable. -/
def link (object : String) : Action engine String := do
  let _ ← ready
  let lld ← module (← get).config.lld
  let arguments := linkArguments (← get).config object
  let (_, guest) ← run lld .quiet (arguments.headD "") arguments.tail
  drop guest
  return executableFile

/-- Builds and runs a source; gives the program's guest when it asks for continuations. -/
def compileLinkRun (source : String) : Action engine (Option (Guest engine)) := do
  let object ← compile source
  let executable ← link object
  let program ← Progress.task (← get).showTiming s!"{Progress.gray}Compiling {executable}" do
    let binary ← onFilesystem (Filesystem.contents executable)
    raise (engine.compile binary [startExport])
  let (outcome, guest) ← run program .program executable []
  if outcome == .paused then return some guest
  drop guest
  return none

def runAnalysis (source : Bytes) : Action engine (List Diagnostic) := do
  let _ ← ready
  let clang ← module (← get).config.clang
  onFilesystem (Filesystem.addFile inputFile source)
  keep ((← ready).listen true)
  let arguments := diagnosticsArguments (← get).config
  try
    let (_, guest) ← run clang .diagnostics (arguments.headD "") arguments.tail
    drop guest
  catch _ => pure ()
  let fs ← ready
  keep (fs.listen false)
  return Diagnostic.parse (fs.desk.heard.getD "")

def callAgain (guest : Guest engine) (name : String) :
    Action engine (Except Failure Outcome × Guest engine) := do
  let (result, guest, fs) ← (guest.callAgain (← ready) name : Host _)
  keep fs
  return (result, guest)

end Toolchain

end Buildbox
