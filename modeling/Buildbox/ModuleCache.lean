import Buildbox.Engine.Loading
import Buildbox.Progress

/-!
Loaded modules by artifact name. A name is fetched and loaded when it is first awaited; what came of
it, module or failure, stays.
-/

set_option autoImplicit false

namespace Buildbox

/-- What is known of each artifact name that was asked for: nothing until it is first awaited. -/
structure ModuleCache (engine : Engine) where
  entries : List (String × Option (Except Failure engine.Module)) := []

namespace ModuleCache

variable {engine : Engine}

def size (cache : ModuleCache engine) : Nat :=
  cache.entries.length

def result? (cache : ModuleCache engine) (name : String) :
    Option (Except Failure engine.Module) :=
  (cache.entries.lookup name).join

def request (cache : ModuleCache engine) (name : String) : ModuleCache engine :=
  if (cache.entries.lookup name).isSome then cache
  else ⟨cache.entries ++ [(name, none)]⟩

def settle (cache : ModuleCache engine) (name : String)
    (result : Except Failure engine.Module) : ModuleCache engine :=
  ⟨cache.entries.map fun entry => if entry.1 == name then (name, some result) else entry⟩

def fetchArtifact (name : String) : ExceptT Failure Host Bytes := do
  match ← (Host.fetch name : Host _) with
  | .ok bytes => return bytes
  | .error fault => throw (.artifactUnavailable name fault.message)

/-- Fetches and loads an artifact, as a task on the terminal. -/
def load (engine : Engine) (timing : Bool) (name : String) :
    ExceptT Failure Host engine.Module :=
  Progress.task timing s!"{Progress.gray}Fetching and compiling {name}" do
    let bytes ← fetchArtifact name
    match engine.compile bytes [] with
    | .ok module => return module
    | .error failure => throw failure

def get (cache : ModuleCache engine) (timing : Bool) (name : String) :
    Host (Except Failure engine.Module × ModuleCache engine) := do
  let cache := cache.request name
  match cache.result? name with
  | some result => return (result, cache)
  | none =>
    let result ← (load engine timing name).run
    return (result, cache.settle name result)

end ModuleCache

end Buildbox
