import Buildbox.Archive.Reader
import Buildbox.Filesystem.Imports
import Buildbox.Engine.Loading

/-!
The in-memory filesystem: a module of its own, in a memory of its own, and the host's desk beside
it. The host stages paths and files in it through its node table; guests reach it through forwarded
calls, for whose length alone their memory is lent to it.
-/

set_option autoImplicit false

namespace Buildbox

/-- A running filesystem module and the host's desk. -/
structure Filesystem (engine : Engine) where
  module : engine.Module
  memfs : engine.Instance
  desk : Filesystem.Desk

namespace Filesystem

def program : String := "memfs"

/-- The functions that the module must export, with their types, in the order in which they are
checked. -/
def required : List (String × FunctionType) := [
  ("init", ⟨[], []⟩),
  ("GetPathBuf", ⟨[], [.i32]⟩),
  ("AddDirectoryNode", ⟨[.i32], [.i32]⟩),
  ("AddFileNode", ⟨[.i32, .i32], [.i32]⟩),
  ("GetFileNodeAddress", ⟨[.i32], [.i32]⟩),
  ("GetFileNodeSize", ⟨[.i32], [.i32]⟩),
  ("FindNode", ⟨[.i32], [.i32]⟩)]

variable {engine : Engine}

abbrev Action (engine : Engine) :=
  ExceptT Failure (StateT (Filesystem engine) Host)

def serveBound (functions : List HostFunction) (callee : Nat) (arguments : List Value) :
    DeskService (List Value) :=
  match functions[callee]? with
  | some f => serve f arguments
  | none => Service.fault (.mismatch .parameterCount)

/-- The functions that the module's imports are bound to. -/
def link (engine : Engine) (module : engine.Module) : Except Failure (List HostFunction) :=
  (engine.imports module).mapM fun wanted =>
    match HostFunction.ofImport? wanted with
    | some f => .ok f
    | none =>
      .error (.instantiation s!"cannot find definition for import {wanted.space}::{wanted.name}")

def serveOf (engine : Engine) (module : engine.Module) (callee : Nat) (arguments : List Value) :
    DeskService (List Value) :=
  serveBound ((engine.imports module).filterMap HostFunction.ofImport?) callee arguments

def failureOf : Signal → Failure
  | .abort => .aborted program
  | .fault f => .faulted program f
  | signal => .faulted program (.reported signal.message)

def call (name : String) (arguments : List Value) : Action engine UInt32 := do
  let fs ← get
  let ended ← (Activity.drive engine (serveOf engine fs.module)
    (engine.call fs.memfs name arguments) fs.desk : Host _)
  set ({ fs with memfs := ended.guest, desk := ended.host } : Filesystem engine)
  match ended.result with
  | .ok results => return (results.headD (.i32 0)).word
  | .error signal => throw (failureOf signal)

def onMemory {α : Type} (access : Memory.Access α) : Action engine α := do
  let fs ← get
  match engine.memory fs.memfs with
  | none => throw (.missingExport memoryExport)
  | some memory =>
    let (result, memory) := (access.run.run memory : Except AccessFault α × Memory)
    set ({ fs with memfs := engine.setMemory fs.memfs memory } : Filesystem engine)
    match result with
    | .ok a => return a
    | .error a => throw (.access a)

def checkExports (engine : Engine) (module : engine.Module) : Except Failure Unit := do
  if !engine.exportsMemory module memoryExport then throw (.missingExport memoryExport)
  for (name, type) in required do
    match engine.functionType? module name with
    | none => throw (.missingExport name)
    | some found =>
      match found.check type.parameters type.results.length with
      | .error mismatch => throw (.instantiation s!"{name}: {mismatch.message}")
      | .ok () =>
        if found.results != type.results then
          throw (.instantiation s!"{name}: encountered incorrect function result type")

/-- Brings a filesystem module up: links and instantiates it, checks its exports, and runs its
`init`. -/
def new (engine : Engine) (module : engine.Module) : ExceptT Failure Host (Filesystem engine) := do
  let functions ← liftExcept (link engine module)
  let ended ← (Activity.drive engine (serveBound functions) (engine.start module) {} : Host _)
  match ended.result with
  | .error signal => throw (.instantiation signal.message)
  | .ok _ =>
    liftExcept (checkExports engine module)
    let (result, fs) ← ((call "init" []).run.run ⟨module, ended.guest, ended.host⟩ : Host _)
    match result with
    | .ok _ => return fs
    | .error failure => throw failure
where
  liftExcept {α : Type} (result : Except Failure α) : ExceptT Failure Host α :=
    match result with
    | .ok a => pure a
    | .error failure => throw failure

def stagePath (path : String) : Action engine UInt32 := do
  let buffer ← call "GetPathBuf" []
  let bytes := Bytes.ofString path
  onMemory (Memory.write buffer bytes)
  return bytes.length.toUInt32

def find (path : String) : Action engine UInt32 := do
  let length ← stagePath path
  call "FindNode" [.i32 length]

def addDirectory (path : String) : Action engine Unit := do
  let length ← stagePath path
  discard (call "AddDirectoryNode" [.i32 length])

def addFile (path : String) (contents : Bytes) : Action engine Unit := do
  let length ← stagePath path
  let node ← call "AddFileNode" [.i32 length, .i32 contents.length.toUInt32]
  let address ← call "GetFileNodeAddress" [.i32 node]
  onMemory (Memory.write address contents)

def fileExists (path : String) : Action engine Bool := do
  return (← find path) != 0

/-- The contents of the newest file node of a path. -/
def contents (path : String) : Action engine Bytes := do
  let node ← find path
  if node == 0 then throw (.fileNotFound path)
  let address ← call "GetFileNodeAddress" [.i32 node]
  let size ← call "GetFileNodeSize" [.i32 node]
  onMemory (Memory.read address size.toNat)

def addEntry (entry : Archive.Entry) : Action engine Unit :=
  match entry.body with
  | .file contents => addFile entry.name contents
  | .directory => addDirectory entry.name

/-- Adds the entries of an archive image in order; gives their number. -/
def untar (image : Bytes) : Action engine Nat :=
  Archive.unpack Failure.archive addEntry image

def hasFunction (fs : Filesystem engine) (name : String) : Bool :=
  (engine.functionType? fs.module name).isSome

def wiredGuest (fs : Filesystem engine) : Option GuestId :=
  fs.desk.wired.map (·.guest)

def onDesk (fs : Filesystem engine) (change : Desk → Host Desk) : Host (Filesystem engine) := do
  return { fs with desk := ← change fs.desk }

def wire (fs : Filesystem engine) (guest : GuestId) (writesStdout : Bool) :
    Host (Filesystem engine) :=
  fs.onDesk (·.wire guest writesStdout)

def unwire (fs : Filesystem engine) (guest : GuestId) : Host (Filesystem engine) :=
  fs.onDesk (·.unwire guest)

def flushOf (fs : Filesystem engine) (guest : GuestId) : Host (Filesystem engine) :=
  fs.onDesk (·.flushOf guest)

def listen (fs : Filesystem engine) (on : Bool) : Filesystem engine :=
  { fs with desk := { fs.desk with heard := if on then some "" else none } }

/-- Runs an export of the module for a guest, whose memory is lent to it until it ends. -/
def forward (fs : Filesystem engine) (guest : GuestId) (name : String) (memory : Memory)
    (arguments : List Value) (results : Nat) :
    Host (Except Signal (List Value) × Memory × Filesystem engine) := do
  if ← Host.isClosed then return (.error (.fault .terminated), memory, fs)
  if !fs.desk.isHeldBy guest then return (.error (.fault (.notWired name guest)), memory, fs)
  match engine.functionType? fs.module name with
  | none => return (.error (.notImplemented systemSpace name), memory, fs)
  | some type =>
    match type.check (arguments.map Value.type) results with
    | .error mismatch => return (.error (.fault (.mismatch mismatch)), memory, fs)
    | .ok () =>
      let ended ← Activity.drive engine (serveOf engine fs.module)
        (engine.call fs.memfs name arguments) { fs.desk with window := some memory }
      let memory := ended.host.window.getD memory
      return (ended.result, memory,
        { fs with memfs := ended.guest, desk := { ended.host with window := none } })

end Filesystem

end Buildbox
