import Buildbox.Engine.Activity
import Buildbox.Failure

/-!
Loading modules. Every module must export a linear memory under its usual name; what else it must
export depends on its use.
-/

set_option autoImplicit false

namespace Buildbox

def memoryExport : String := "memory"

def startExport : String := "_start"

namespace Engine

variable (engine : Engine)

/-- Demands a memory and then every function of a list; the first one that is missing is named. -/
def checkExports (module : engine.Module) (required : List String) : Except Failure Unit :=
  if !engine.exportsMemory module memoryExport then .error (.missingExport memoryExport)
  else
    match required.find? fun name => (engine.functionType? module name).isNone with
    | some name => .error (.missingExport name)
    | none => .ok ()

def compile (binary : Bytes) (required : List String) : Except Failure engine.Module := do
  match engine.load binary with
  | none => throw (.invalidModule "not a valid module")
  | some module =>
    engine.checkExports module required
    return module

end Engine

end Buildbox
