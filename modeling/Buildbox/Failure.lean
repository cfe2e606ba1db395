import Buildbox.Archive.Basic
import Buildbox.Artifact
import Buildbox.Engine.Value
import Buildbox.Memory

/-!
How guest calls and host operations end badly. A `Signal` stops a guest call from inside; an
`Outcome` is how the call is classified afterwards; a `Failure` is what the caller of a host
operation sees.
-/

set_option autoImplicit false

namespace Buildbox

abbrev GuestId := Nat

/-- The namespace of the system calls of tools and programs. -/
def systemSpace : String := "wasi_unstable"

/-- A broken rule that ends a run. -/
inductive Fault
  | terminated
  | inputClosed
  | notWired (call : String) (caller : GuestId)
  /-- a transfer while no guest memory is lent to the filesystem -/
  | noWindow
  /-- a host function needs the memory of a caller that has none -/
  | noMemory
  | badWriteDescriptor (descriptor : UInt32)
  | badReadDescriptor (descriptor : UInt32)
  | access (a : AccessFault)
  | trap (t : Trap)
  | mismatch (m : CallMismatch)
  | notImplemented (space name : String)
  | notReady (program : String)
  | continuedEarly
  | continuationRevoked
  | nothingToContinue
  | reported (detail : String)
deriving Repr, DecidableEq

def Fault.message : Fault → String
  | .terminated => "worker terminated"
  | .inputClosed => "worker forcefully terminated"
  | .notWired call caller =>
    s!"{call} called by unit {caller} which is not wired to the filesystem"
  | .noWindow => "no unit memory wired to the filesystem"
  | .noMemory => "module exports no linear memory"
  | .badWriteDescriptor descriptor => s!"host_write to unsupported fd {descriptor}"
  | .badReadDescriptor descriptor => s!"host_read from unsupported fd {descriptor}"
  | .access a => a.message
  | .trap t => t.message
  | .mismatch m => m.message
  | .notImplemented space name => s!"{space}.{name} not implemented."
  | .notReady program => s!"{program} is not ready to run"
  | .continuedEarly => "continuation before the program finished"
  | .continuationRevoked => "continuation permission revoked"
  | .nothingToContinue => "no program is waiting for continuations"
  | .reported detail => detail

inductive Signal
  | exit (code : Int32)
  | abort
  | notImplemented (space name : String)
  | fault (f : Fault)
deriving Repr, DecidableEq

def Signal.message : Signal → String
  | .exit code => s!"process exited with code {code}."
  | .abort => "abort"
  | .notImplemented space name => s!"{space}.{name} not implemented."
  | .fault f => f.message

/-- What a caller of the sandbox sees of a failed operation. -/
inductive Failure
  | artifactUnavailable (name reason : String)
  | invalidModule (reason : String)
  | missingExport (name : String)
  | instantiation (reason : String)
  | access (a : AccessFault)
  | fileNotFound (path : String)
  | archive (f : Archive.Fault)
  | exited (program : String) (code : Int32)
  | aborted (program : String)
  | faulted (program : String) (f : Fault)
  | filesystemUnavailable (reason : String)
deriving Repr, DecidableEq

def Failure.message : Failure → String
  | .artifactUnavailable name reason => s!"artifact '{name}' unavailable: {reason}"
  | .invalidModule reason => s!"invalid WASM module: {reason}"
  | .missingExport name => s!"missing required export: '{name}'"
  | .instantiation reason => s!"module instantiation failed: {reason}"
  | .access a => a.message
  | .fileNotFound path => s!"file not found: {path}"
  | .archive f => f.message
  | .exited program code => s!"{program} exited with code {code}"
  | .aborted program => s!"{program} aborted"
  | .faulted program f => s!"{program} faulted: {f.message}"
  | .filesystemUnavailable reason => s!"filesystem bridge unavailable: {reason}"

def Failure.signal : Failure → Signal
  | .access a => .fault (.access a)
  | failure => .fault (.reported failure.message)

inductive Outcome
  | paused
  | exited (code : Int32)
  | aborted
  | faulted (f : Fault)
deriving Repr, DecidableEq

namespace Outcome

def continuationCode : Int32 := 0xC0C0A

def ofSignal : Signal → Outcome
  | .exit code => if code == continuationCode then .paused else .exited code
  | .abort => .aborted
  | .notImplemented space name => .faulted (.notImplemented space name)
  | .fault f => .faulted f

def isClean : Outcome → Bool
  | .exited code => code == 0
  | _ => false

def isSuccess : Outcome → Bool
  | .paused => true
  | .exited code => code == 0
  | _ => false

def exitCode : Outcome → Int32
  | .paused => continuationCode
  | .exited code => code
  | .aborted | .faulted _ => 1

/-- The text that the exit banner shows after the code. -/
def message : Outcome → String
  | .paused => (Signal.exit continuationCode).message
  | .exited code => (Signal.exit code).message
  | .aborted => Signal.abort.message
  | .faulted f => f.message

def failure? (program : String) : Outcome → Option Failure
  | .paused => none
  | .exited code => if code == 0 then none else some (.exited program code)
  | .aborted => some (.aborted program)
  | .faulted f => some (.faulted program f)

def toResult (program : String) (outcome : Outcome) : Except Failure Outcome :=
  match outcome.failure? program with
  | some failure => .error failure
  | none => .ok outcome

end Outcome

end Buildbox
