import Buildbox.Guest.Link

/-!
Guests: compilers, linkers and programs, each an instance of its own with its own arguments. A guest
is created, instantiated, run once, and called again as long as it keeps its permission.
-/

set_option autoImplicit false

namespace Buildbox

/-- The stages of a guest's life, with what exists of it. -/
inductive Phase (ι : Type)
  | created
  | instantiated (state : ι) (bindings : List Binding)
  | finished (state : ι) (bindings : List Binding)

inductive RunMode
  | standard
  | diagnostics
deriving Repr, DecidableEq

/-- One sandboxed run of a module. -/
structure Guest (engine : Engine) where
  id : GuestId
  program : String
  arguments : List String
  module : engine.Module
  writesStdout : Bool := true
  /-- whether it may be called again after it exited -/
  allowed : Bool := true
  phase : Phase engine.Instance := .created

namespace Guest

variable {engine : Engine}

def identity (guest : Guest engine) : Identity :=
  ⟨guest.id, guest.program :: guest.arguments⟩

def revoke (guest : Guest engine) : Guest engine :=
  { guest with allowed := false }

def banner (outcome : Outcome) : String :=
  s!"\x1b[91mExit code: {outcome.exitCode} ({outcome.message})\x1b[0m\r\n"

def instantiate (guest : Guest engine) (fs : Filesystem engine) :
    Host (Except Failure Unit × Guest engine × Filesystem engine) := do
  match guest.phase with
  | .instantiated .. | .finished .. =>
    return (.error (.instantiation s!"{guest.program} is already instantiated"), guest, fs)
  | .created =>
    match link (engine.imports guest.module) fs.hasFunction with
    | .error failure => return (.error failure, guest, fs)
    | .ok bindings =>
      let ended ← Activity.drive engine (serveBindings guest.identity bindings)
        (engine.start guest.module) fs
      let fs := ended.host
      match ended.result with
      | .error signal => return (.error (.instantiation signal.message), guest, fs)
      | .ok _ =>
        match engine.checkExports guest.module [startExport] with
        | .error failure => return (.error failure, guest, fs)
        | .ok () =>
          let fs ← fs.wire guest.id guest.writesStdout
          return (.ok (), { guest with phase := .instantiated ended.guest bindings }, fs)

/-- Applies the exit policy: the output is flushed, and a bad end costs the permission and is
reported on the terminal, if the guest writes there and the run is a standard one. -/
def settle (guest : Guest engine) (fs : Filesystem engine) (outcome : Outcome) (mode : RunMode) :
    Host (Guest engine × Filesystem engine) := do
  let fs ← fs.flushOf guest.id
  if outcome.isSuccess then return (guest, fs)
  if mode == .standard && guest.writesStdout then Host.write (banner outcome)
  return (guest.revoke, fs)

def invoke (guest : Guest engine) (fs : Filesystem engine) (state : engine.Instance)
    (bindings : List Binding) (type : FunctionType) (name : String) (mode : RunMode) :
    Host (Outcome × Guest engine × Filesystem engine) := do
  let (outcome, state, fs) ←
    match type.check [] 0 with
    | .error mismatch => pure (.faulted (.mismatch mismatch), state, fs)
    | .ok () => do
      let ended ← Activity.drive engine (serveBindings guest.identity bindings)
        (engine.call state name []) fs
      let outcome := match ended.result with
        | .ok _ => .exited 0
        | .error signal => Outcome.ofSignal signal
      pure (outcome, ended.guest, ended.host)
  let guest := { guest with phase := .finished state bindings }
  let (guest, fs) ← guest.settle fs outcome mode
  return (outcome, guest, fs)

def run (guest : Guest engine) (fs : Filesystem engine) (mode : RunMode) :
    Host (Outcome × Guest engine × Filesystem engine) := do
  match guest.phase, engine.functionType? guest.module startExport with
  | .instantiated state bindings, some type =>
    guest.invoke fs state bindings type startExport mode
  | _, _ => return (.faulted (.notReady guest.program), guest, fs)

def callAgain (guest : Guest engine) (fs : Filesystem engine) (name : String) :
    Host (Except Failure Outcome × Guest engine × Filesystem engine) := do
  match guest.phase with
  | .finished state bindings =>
    if !guest.allowed then
      return (.error (.faulted guest.program .continuationRevoked), guest, fs)
    match engine.functionType? guest.module name with
    | none => return (.error (.missingExport name), guest, fs)
    | some type =>
      let fs ← fs.wire guest.id guest.writesStdout
      let (outcome, guest, fs) ← guest.invoke fs state bindings type name .standard
      return (.ok outcome, guest, fs)
  | _ => return (.error (.faulted guest.program .continuedEarly), guest, fs)

def drop (guest : Guest engine) (fs : Filesystem engine) : Host (Filesystem engine) :=
  fs.unwire guest.id

end Guest

end Buildbox
