import Buildbox.Filesystem.Basic
import Buildbox.Guest.Syscall

/-!
Linking a guest. A process system call is served by the guest's own host half; any other system call
is forwarded to the filesystem when that exports a function of its name, and stops the guest when it
does not.
-/

set_option autoImplicit false

namespace Buildbox

inductive Binding
  | process (call : Syscall)
  | forwarded (name : String) (type : FunctionType)
  | missing (name : String)
deriving Repr, DecidableEq

abbrev Definitions := List (String × FunctionType)

namespace Definitions

def find? (definitions : Definitions) (name : String) : Option FunctionType :=
  List.lookup name definitions

def ofImports : List Import → Definitions → Except Failure Definitions
  | [], definitions => .ok definitions
  | wanted :: rest, definitions =>
    match wanted.type with
    | .function type =>
      if wanted.space != systemSpace || (Syscall.ofName? wanted.name).isSome then
        ofImports rest definitions
      else if (definitions.find? wanted.name).isSome then
        .error (.instantiation s!"duplicate definition of {wanted.space}::{wanted.name}")
      else ofImports rest (definitions ++ [(wanted.name, type)])
    | _ => ofImports rest definitions

def unresolved (wanted : Import) : Failure :=
  .instantiation s!"cannot find definition for import {wanted.space}::{wanted.name}"

def resolve (definitions : Definitions) (provided : String → Bool) (wanted : Import) :
    Except Failure Binding :=
  if wanted.space != systemSpace then .error (unresolved wanted)
  else
    match wanted.type with
    | .function type =>
      match Syscall.ofName? wanted.name with
      | some call =>
        if call.type == type then .ok (.process call) else .error (unresolved wanted)
      | none =>
        if definitions.find? wanted.name != some type then .error (unresolved wanted)
        else if provided wanted.name then .ok (.forwarded wanted.name type)
        else .ok (.missing wanted.name)
    | _ => .error (unresolved wanted)

end Definitions

/-- The bindings of a guest's imports, in order, given which names the filesystem exports. -/
def link (imports : List Import) (provided : String → Bool) : Except Failure (List Binding) := do
  let definitions ← Definitions.ofImports imports []
  imports.mapM (definitions.resolve provided)

/-- What the calls of a guest need to know of it. -/
structure Identity where
  id : GuestId
  argv : List String

variable {engine : Engine}

def Binding.serve (self : Identity) (binding : Binding) (arguments : List Value) :
    Service (Filesystem engine) (List Value) :=
  match binding with
  | .process call => call.serve self.argv arguments
  | .missing name => throw (.notImplemented systemSpace name)
  | .forwarded name type => do
    match ← get with
    | (none, _) => Service.fault .noMemory
    | (some memory, fs) =>
      let (result, memory, fs) ← Service.ofHost
        (fs.forward self.id name memory arguments type.results.length)
      set ((some memory, fs) : Option Memory × Filesystem engine)
      match result with
      | .ok values => return values
      | .error signal => throw signal

def serveBindings (self : Identity) (bindings : List Binding) (callee : Nat)
    (arguments : List Value) : Service (Filesystem engine) (List Value) :=
  match bindings[callee]? with
  | some binding => binding.serve self arguments
  | none => Service.fault (.mismatch .parameterCount)

end Buildbox
