import Buildbox.Engine.Activity
import Buildbox.Failure
import Buildbox.Host.Basic

/-!
Serving the calls that a guest makes to its host. A service sees the memory of the caller, if one
stands behind the call, and a state of the host; what it did to both stays done when it fails.
-/

set_option autoImplicit false

namespace Buildbox

/-- What serves a guest's call: it may stop the guest, and works on the caller's memory and on a
state of the host. -/
abbrev Service (σ : Type) := ExceptT Signal (StateT (Option Memory × σ) Host)

namespace Service

variable {σ α : Type}

def ofHost (c : Host α) : Service σ α :=
  monadLift c

def fault (f : Fault) : Service σ α :=
  throw (.fault f)

def onMemory (access : Memory.Access α) : Service σ α := do
  match ← get with
  | (none, _) => fault .noMemory
  | (some memory, state) =>
    let (result, memory) := (access.run.run memory : Except AccessFault α × Memory)
    set ((some memory, state) : Option Memory × σ)
    match result with
    | .ok a => return a
    | .error a => fault (.access a)

/-- Brings the program down where a sum of addresses is no word. -/
def checked (service : Service σ α) : Service σ α :=
  try service
  catch signal =>
    if signal = .fault (.access .overflow) then ofHost Host.crash
    throw signal

def state : Service σ σ :=
  return (← get).2

def update (change : σ → σ) : Service σ Unit :=
  modify fun (memory, state) => (memory, change state)

end Service

/-- The end of a guest call: the instance, the state of the host, and the results or what stopped
the guest. -/
structure Activity.End (ι σ : Type) where
  guest : ι
  host : σ
  result : Except Signal (List Value)

/-- Runs a guest call to its end, its calls to the host served one after another. -/
def Activity.drive {σ : Type} (engine : Engine)
    (serve : Nat → List Value → Service σ (List Value)) :
    Activity engine.Instance → σ → Host (Activity.End engine.Instance σ)
  | .returned inst results, host => pure ⟨inst, host, .ok results⟩
  | .trapped inst trap, host => pure ⟨inst, host, .error (.fault (.trap trap))⟩
  | .calling inst callee arguments direct resume, host => do
    let memory := if direct then none else engine.memory inst
    let (result, memory, host) ← (serve callee arguments).run.run (memory, host)
    let inst := match memory with
      | some memory => engine.setMemory inst memory
      | none => inst
    match result with
    | .ok values => (resume inst values).drive engine serve host
    | .error signal => pure ⟨inst, host, .error signal⟩

end Buildbox
