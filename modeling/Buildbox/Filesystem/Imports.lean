import Buildbox.Filesystem.Desk

/-!
The functions that the host gives to the filesystem module: the abort, the two streams, the log, and
the transfers between the module's memory and that of the wired guest.
-/

set_option autoImplicit false

namespace Buildbox.Filesystem

/-- A function of the host that the filesystem module may import. -/
inductive HostFunction
  | abort
  | hostWrite
  | hostRead
  | log
  | copyIn
  | copyOut
deriving Repr, DecidableEq

namespace HostFunction

def space : String := "env"

def all : List HostFunction := [.abort, .hostWrite, .hostRead, .log, .copyIn, .copyOut]

def name : HostFunction → String
  | .abort => "abort"
  | .hostWrite => "host_write"
  | .hostRead => "host_read"
  | .log => "memfs_log"
  | .copyIn => "copy_in"
  | .copyOut => "copy_out"

def type : HostFunction → FunctionType
  | .abort => ⟨[], []⟩
  | .hostWrite | .hostRead => ⟨[.i32, .i32, .i32, .i32], [.i32]⟩
  | .log => ⟨[.i32, .i32], []⟩
  | .copyIn | .copyOut => ⟨[.i32, .i32, .i32], []⟩

def ofImport? (wanted : Import) : Option HostFunction :=
  if wanted.space == space then
    all.find? fun f => f.name == wanted.name && .function f.type == wanted.type
  else none

end HostFunction

abbrev DeskService := Service Desk

def success : List Value := [.i32 0]

def ensureOpen : DeskService Unit := do
  if ← Service.ofHost Host.isClosed then Service.fault .terminated

def onWindow {α : Type} (access : Memory.Access α) : DeskService α := do
  match (← Service.state).window with
  | none => Service.fault .noWindow
  | some window =>
    let (result, window) := (access.run.run window : Except AccessFault α × Memory)
    Service.update fun desk => { desk with window := some window }
    match result with
    | .ok a => return a
    | .error a => Service.fault (.access a)

/-- Writes the bytes of a guest's buffers to its output, and their number to its memory. -/
def hostWrite (descriptor buffers count writtenOut : UInt32) : DeskService (List Value) := do
  ensureOpen
  if 2 < descriptor then Service.fault (.badWriteDescriptor descriptor)
  let bytes ← onWindow do
    let bytes ← Memory.gather (← Memory.buffers buffers count)
    Memory.writeWord writtenOut bytes.length.toUInt32
    return bytes
  let desk ← Service.state
  let (text, carry) := desk.carry.decode bytes
  let desk ← Service.ofHost ({ desk with carry }.emit text)
  Service.update fun _ => desk
  return success

/-- Fills a guest's buffers from its unread input. A new line is asked for when there is none, and
waited for; when nobody will answer, the input has ended. -/
def hostRead (descriptor buffers count readOut : UInt32) : DeskService (List Value) := do
  ensureOpen
  if descriptor != 0 then Service.fault (.badReadDescriptor descriptor)
  if (← Service.state).unread.isEmpty then
    if !(← Service.ofHost Host.askLine) then
      onWindow (Memory.writeWord readOut 0)
      return success
    match ← Service.ofHost Host.takeLine with
    | none => Service.fault .inputClosed
    | some line => Service.update fun desk => { desk with unread := line }
  let unread := (← Service.state).unread
  let placed ← onWindow do
    let placed ← Memory.scatter (← Memory.buffers buffers count) unread
    Memory.writeWord readOut placed.toUInt32
    return placed
  Service.update fun desk => { desk with unread := desk.unread.drop placed }
  return success

def ensureMemory : DeskService Unit := do
  if (← get).1.isNone then Service.fault .noMemory

def serve (f : HostFunction) (arguments : List Value) : DeskService (List Value) :=
  match f, arguments.map Value.word with
  | .abort, _ => do
    ensureOpen
    throw .abort
  | .hostWrite, [descriptor, buffers, count, writtenOut] =>
    hostWrite descriptor buffers count writtenOut
  | .hostRead, [descriptor, buffers, count, readOut] =>
    hostRead descriptor buffers count readOut
  | .log, [address, length] => do
    ensureOpen
    let text ← Service.onMemory (Memory.readString address length.toNat)
    Service.ofHost (Host.note text)
    return []
  | .copyIn, [target, source, size] => do
    ensureMemory
    ensureOpen
    let bytes ← onWindow (Memory.read source size.toNat)
    Service.onMemory (Memory.write target bytes)
    return []
  | .copyOut, [target, source, size] => do
    ensureMemory
    ensureOpen
    let bytes ← Service.onMemory (Memory.read source size.toNat)
    onWindow (Memory.write target bytes)
    return []
  | _, _ => Service.fault (.mismatch .parameterCount)

end Buildbox.Filesystem
