import Buildbox.Toolchain.Basic
import Buildbox.Session.Message

/-!
The builder: a toolchain and the program that last asked to continue. Requests are served one after
another.
-/

set_option autoImplicit false

namespace Buildbox.Session

/-- What the builder keeps between requests. -/
structure Builder (engine : Engine) where
  toolchain : Toolchain engine
  held : Option (Guest engine) := none
  /-- the guests whose permission was taken away when they were given up -/
  revoked : List GuestId := []

namespace Builder

variable {engine : Engine}

def new (config : Config) : Builder engine :=
  { toolchain := .new config 1 }

/-- Whether a guest may be called again, as whoever has a handle to its permission reads it. -/
def allows (self : Builder engine) (guest : Guest engine) : Bool :=
  guest.allowed && !self.revoked.contains guest.id

abbrev Action (engine : Engine) :=
  ExceptT Failure (StateT (Builder engine) Host)

def onToolchain {α : Type} (action : Toolchain.Action engine α) : Action engine α := do
  let (result, toolchain) ← (action.run.run (← get).toolchain : Host _)
  modify fun self => { self with toolchain }
  match result with
  | .ok a => return a
  | .error failure => throw failure

/-- Gives the held program up: it loses its permission first. -/
def release : Action engine Unit := do
  if let some guest := (← get).held then
    modify fun self => { self with held := none, revoked := self.revoked ++ [guest.id] }
    onToolchain (Toolchain.drop guest.revoke)

def execute : Request → Action engine Response
  | .compileLinkRun source => do
    release
    let guest ← onToolchain (Toolchain.compileLinkRun source)
    modify fun self => { self with held := guest }
    return .runReport guest.isSome
  | .runCppCheck source => do
    return .diagnostics (← onToolchain (Toolchain.runAnalysis source))
  | .callContinuation function => do
    match (← get).held with
    | none => throw (.faulted Toolchain.executableFile .nothingToContinue)
    | some guest =>
      let (result, guest) ← onToolchain (Toolchain.callAgain guest function)
      modify fun self => { self with held := some guest }
      match result with
      | .error failure => throw failure
      | .ok outcome =>
        let continuing := (← get).allows guest
        if !continuing then release
        if let some failure := outcome.failure? Toolchain.executableFile then throw failure
        return .runReport continuing

/-- Serves one request to its end; the cause of a failure stays on this side. -/
def serve (self : Builder engine) (request : Request) :
    Host (Option Response × Builder engine) := do
  let (result, self) ← (execute request).run.run self
  match result with
  | .ok response => return (some response, self)
  | .error _ => return (none, self)

def setShowTiming (self : Builder engine) (on : Bool) : Builder engine :=
  { self with toolchain := { self.toolchain with showTiming := on } }

end Builder

end Buildbox.Session
