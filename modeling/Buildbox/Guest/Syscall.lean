import Buildbox.Host.Service

/-!
Process system calls: those that a guest's own host half serves, without the filesystem.
-/

set_option autoImplicit false

namespace Buildbox

inductive Syscall
  | procExit
  | environSizes
  | environ
  | argumentSizes
  | arguments
  | random
  | clock
  | poll
deriving Repr, DecidableEq

namespace Syscall

def all : List Syscall :=
  [.procExit, .environSizes, .environ, .argumentSizes, .arguments, .random, .clock, .poll]

def name : Syscall → String
  | .procExit => "proc_exit"
  | .environSizes => "environ_sizes_get"
  | .environ => "environ_get"
  | .argumentSizes => "args_sizes_get"
  | .arguments => "args_get"
  | .random => "random_get"
  | .clock => "clock_time_get"
  | .poll => "poll_oneoff"

def type : Syscall → FunctionType
  | .procExit => ⟨[.i32], []⟩
  | .environSizes | .environ | .argumentSizes | .arguments | .random => ⟨[.i32, .i32], [.i32]⟩
  | .clock => ⟨[.i32, .i64, .i32], [.i32]⟩
  | .poll => ⟨[.i32, .i32, .i32, .i32], [.i32]⟩

def ofName? (name : String) : Option Syscall :=
  all.find? (·.name == name)

end Syscall

def environment : List (String × String) := [("USER", "alice")]

def environmentStrings : List String :=
  environment.map fun (name, value) => s!"{name}={value}"

/-- The bytes that texts take when they are laid out one after another, a NUL after each. -/
def packedSize : List String → Nat
  | [] => 0
  | text :: rest => (Bytes.ofString text).length + 1 + packedSize rest

namespace Memory

def writeSizes (texts : List String) (countOut sizeOut : UInt32) : Access Unit := do
  writeWord countOut texts.length.toUInt32
  writeWord sizeOut (packedSize texts).toUInt32

/-- Lays texts out from `target` on and writes their addresses from `pointers` on, a zero after the
last. -/
def writeStrings : List String → (pointers target : UInt32) → Access Unit
  | [], pointers, _ => writeWord pointers 0
  | text :: rest, pointers, target => do
    writeWord pointers target
    let pointers ← add pointers 4
    let written ← writeString target text
    writeStrings rest pointers (← add target written.toNat)

end Memory

namespace Syscall

variable {σ : Type}

def success : List Value := [.i32 0]

/-- Serves one process system call for a guest with these arguments. -/
def serve (argv : List String) (call : Syscall) (parameters : List Value) :
    Service σ (List Value) :=
  match call, parameters.map Value.word with
  | .procExit, [code] => throw (.exit code.toInt32)
  | .environSizes, [countOut, sizeOut] => do
    Service.onMemory (Memory.writeSizes environmentStrings countOut sizeOut)
    return success
  | .environ, [pointers, target] => do
    Service.checked (Service.onMemory (Memory.writeStrings environmentStrings pointers target))
    return success
  | .argumentSizes, [countOut, sizeOut] => do
    Service.onMemory (Memory.writeSizes argv countOut sizeOut)
    return success
  | .arguments, [pointers, target] => do
    Service.checked (Service.onMemory (Memory.writeStrings argv pointers target))
    return success
  | .random, [target, count] => do
    Service.onMemory (Memory.checkRange target count.toNat)
    let bytes ← Service.ofHost (Host.random count.toNat)
    Service.onMemory (Memory.write target (bytes.take count.toNat))
    return success
  | .clock, [_, _, out] => do
    let now ← Service.ofHost Host.wallClock
    let high := (now / UInt32.size).toUInt32
    Service.checked (Service.onMemory (Memory.writeDouble out now.toUInt32 high))
    return success
  | .poll, _ => throw (.notImplemented systemSpace poll.name)
  | _, _ => Service.fault (.mismatch .parameterCount)

end Syscall

end Buildbox
