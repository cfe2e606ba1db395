import Buildbox.Bytes
import Buildbox.Engine.Value
import Buildbox.Memory

/-!
Guests as the host sees them. An `Engine` loads modules, instantiates them and calls their exports.
A call is an `Activity`: it ends, or it calls a function of the host and goes on with what the host
answers. The host knows nothing else of a guest, so whatever holds for every engine holds for every
guest.
-/

set_option autoImplicit false

namespace Buildbox

inductive Activity (ι : Type)
  | returned (state : ι) (results : List Value)
  | trapped (state : ι) (trap : Trap)
  /-- A call of the import with index `callee`. A `direct` call has no guest code between the host's
  own call and the import, so that no instance stands behind it. -/
  | calling (state : ι) (callee : Nat) (arguments : List Value) (direct : Bool)
      (resume : ι → List Value → Activity ι)

/-- What runs guests. Only functions are ever bound to imports, in the order of the imports. -/
structure Engine where
  Module : Type
  Instance : Type
  load : Bytes → Option Module
  imports : Module → List Import
  exports : Module → List Export
  start : Module → Activity Instance
  memory : Instance → Option Memory
  setMemory : Instance → Memory → Instance
  /-- calls an exported function with arguments of its parameter types -/
  call : Instance → String → List Value → Activity Instance

namespace Engine

def functionType? (engine : Engine) (module : engine.Module) (name : String) :
    Option FunctionType :=
  (engine.exports module).findSome? fun e =>
    match e.type with
    | .function type => if e.name == name then some type else none
    | _ => none

def exportsMemory (engine : Engine) (module : engine.Module) (name : String) : Bool :=
  (engine.exports module).any fun e => e.name == name && e.type == .memory

end Engine

end Buildbox
