import Buildbox.Config
import Buildbox.Filesystem.Basic
import Buildbox.Guest.Syscall
import Buildbox.Proofs.Host.Trace

/-!
Guests that follow a script: each function makes its host calls in order, whatever they answer, and
then ends. Their memory is theirs to be lent like any other.
-/

set_option autoImplicit false

namespace Buildbox

structure Script where
  name : String
  type : FunctionType := ⟨[], []⟩
  calls : List (Nat × List Value) := []
  ending : Except Trap (List Value) := .ok []

structure ScriptedModule where
  imports : List Import := []
  scripts : List Script
  memory : Memory

namespace Script

variable {ι : Type}

def play (ending : Except Trap (List Value)) : List (Nat × List Value) → ι → Activity ι
  | [], state =>
    match ending with
    | .ok results => .returned state results
    | .error trap => .trapped state trap
  | (callee, arguments) :: later, state =>
    .calling state callee arguments false fun state _ => play ending later state

end Script

def Engine.scripted : Engine where
  Module := ScriptedModule
  Instance := ScriptedModule
  load _ := none
  imports := ScriptedModule.imports
  exports module :=
    ⟨memoryExport, .memory⟩ :: module.scripts.map fun s => ⟨s.name, .function s.type⟩
  start module := .returned module []
  memory inst := some inst.memory
  setMemory inst memory := { inst with memory }
  call inst name _ :=
    match inst.scripts.find? (·.name == name) with
    | some script => Script.play script.ending script.calls inst
    | none => .trapped inst .unreachable

namespace Filesystem

/-- A module whose two calls pass the guest's buffers on to the host: an array of one record at
address 0, with the count at 8. -/
def consoleModule : ScriptedModule where
  imports := [
    ⟨HostFunction.space, "host_write", .function HostFunction.hostWrite.type⟩,
    ⟨HostFunction.space, "host_read", .function HostFunction.hostRead.type⟩]
  scripts := [
    { name := "fd_write", calls := [(0, [.i32 1, .i32 0, .i32 1, .i32 8])] },
    { name := "fd_read", calls := [(1, [.i32 0, .i32 0, .i32 1, .i32 8])] }]
  memory := .ofBytes []

def console : Filesystem Engine.scripted :=
  ⟨consoleModule, consoleModule, { heard := some "" }⟩

def consoleMemory (buffer : Bytes) : Memory :=
  .ofBytes (Bytes.ofWord 12 ++ Bytes.ofWord buffer.length.toUInt32 ++ Bytes.zeros 4 ++ buffer)

/-- The console with what else a filesystem must export. There is one empty file, at every path. -/
def shelfModule : ScriptedModule where
  imports := consoleModule.imports
  scripts := consoleModule.scripts ++ required.map fun (name, type) =>
    { name, type, ending := .ok (type.results.map fun _ => .i32 (if name == "FindNode" then 1 else 0)) }
  memory := .ofBytes (Bytes.zeros 16)

end Filesystem

def ScriptedModule.saying (text : String) (code : UInt32) : ScriptedModule where
  imports := [
    ⟨systemSpace, "fd_write", .function ⟨[], []⟩⟩,
    ⟨systemSpace, Syscall.procExit.name, .function Syscall.procExit.type⟩]
  scripts := [{ name := startExport, calls := [(0, []), (1, [.i32 code])] }, { name := "frame" }]
  memory := Filesystem.consoleMemory (Bytes.ofString text)

def Engine.workshop (compiler linker program : ScriptedModule) : Engine :=
  { Engine.scripted with
    load := fun binary => match binary with
      | [] => some program
      | [0] => some Filesystem.shelfModule
      | [1] => some compiler
      | _ => some linker }

def Engine.supplies (_ : Trace) : (q : Query) → q.Answer
  | .write _ | .note _ | .crash => ()
  | .isClosed => false
  | .askLine => true
  | .takeLine => none
  | .elapsed | .wallClock => 0
  | .random count => Bytes.zeros count
  | .fetch name =>
    if name == Config.memfs {} then .ok [0]
    else if name == Config.clang {} then .ok [1]
    else if name == Config.lld {} then .ok [2]
    else .ok []

end Buildbox
