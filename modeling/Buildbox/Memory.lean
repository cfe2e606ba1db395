import Buildbox.Bytes
import Buildbox.Text.Utf8

/-!
The linear memory of a guest, as the host reads and writes it. Addresses and sizes are 32-bit words.
An access that leaves the memory, or a word access off its alignment, is a fault and never clamped; a
sum of addresses that is no word is a mistake of the host. An operation of several writes keeps those
before its fault.
-/

set_option autoImplicit false

namespace Buildbox

/-- The bytes of a linear memory. -/
structure Memory where
  bytes : ByteArray

inductive AccessFault
  | outOfBounds (address size memorySize : UInt32)
  | misaligned (address : UInt32) (width : Nat)
  /-- a sum that is no word; not the guest's fault, and the end of the program -/
  | overflow
deriving Repr, DecidableEq

def AccessFault.message : AccessFault → String
  | .outOfBounds address size memorySize =>
    s!"memory access out of bounds: address {address} + size {size} > memory size {memorySize}"
  | .misaligned address width => s!"misaligned {width}-bit access at address {address}"
  | .overflow => "attempt to add with overflow"

/-- One buffer of a scattered read or write. -/
structure Buffer where
  address : UInt32
  length : UInt32
deriving Repr, DecidableEq

namespace Memory

def ofBytes (bytes : Bytes) : Memory :=
  ⟨bytes.toByteArray⟩

def toBytes (memory : Memory) : Bytes :=
  memory.bytes.data.toList

def size (memory : Memory) : Nat :=
  memory.bytes.size

abbrev Access := ExceptT AccessFault (StateM Memory)

def checkRange (address : UInt32) (count : Nat) : Access Unit := do
  let memory ← get
  if address.toNat + count > memory.size then
    throw (.outOfBounds address count.toUInt32 memory.size.toUInt32)

def checkAligned (address : UInt32) (width : Nat) : Access Unit :=
  if address % 4 != 0 then throw (.misaligned address width) else pure ()

def add (address : UInt32) (count : Nat) : Access UInt32 :=
  if UInt32.size ≤ address.toNat + count then throw .overflow
  else pure (address + count.toUInt32)

def slice (memory : Memory) (address count : Nat) : Bytes :=
  (memory.bytes.extract address (address + count)).data.toList

def splice (memory : Memory) (address : Nat) (bytes : Bytes) : Memory :=
  ⟨bytes.toByteArray.copySlice 0 memory.bytes address bytes.length⟩

def read (address : UInt32) (count : Nat) : Access Bytes := do
  checkRange address count
  return (← get).slice address.toNat count

def write (address : UInt32) (bytes : Bytes) : Access Unit := do
  checkRange address bytes.length
  modify (·.splice address.toNat bytes)

def readByte (address : UInt32) : Access UInt8 := do
  return (← read address 1).headD 0

def writeByte (address : UInt32) (byte : UInt8) : Access Unit :=
  write address [byte]

def readWord (address : UInt32) : Access UInt32 := do
  checkAligned address 32
  match ← read address 4 with
  | [b0, b1, b2, b3] => pure (Bytes.toWord b0 b1 b2 b3)
  | _ => pure 0

def writeWord (address word : UInt32) : Access Unit := do
  checkAligned address 32
  write address (Bytes.ofWord word)

def writeDouble (address low high : UInt32) : Access Unit := do
  checkAligned address 64
  checkRange address 8
  writeWord address low
  writeWord (← add address 4) high

def writeString (address : UInt32) (text : String) : Access UInt32 := do
  let bytes := Bytes.ofString text
  write address bytes
  writeByte (← add address bytes.length) 0
  add bytes.length.toUInt32 1

/-- Reads a text of at most `count` bytes that may end early at a NUL. -/
def readString (address : UInt32) (count : Nat) : Access String := do
  return Utf8.lossy (← read address count).beforeNul

def buffersOf : Bytes → List Buffer
  | a0 :: a1 :: a2 :: a3 :: l0 :: l1 :: l2 :: l3 :: rest =>
    ⟨Bytes.toWord a0 a1 a2 a3, Bytes.toWord l0 l1 l2 l3⟩ :: buffersOf rest
  | _ => []

/-- Reads an array of buffer records. Its size in bytes saturates at the largest word. -/
def buffers (address count : UInt32) : Access (List Buffer) := do
  checkAligned address 32
  return buffersOf (← read address (min (count.toNat * 8) (UInt32.size - 1)))

/-- The bytes of all buffers, one after another. -/
def gather : List Buffer → Access Bytes
  | [] => pure []
  | buffer :: rest => do
    let bytes ← read buffer.address buffer.length.toNat
    return bytes ++ (← gather rest)

/-- Fills the buffers in order and gives the number of bytes placed. The first buffer that is not
filled, or is empty, ends it. -/
def scatter : List Buffer → Bytes → Access Nat
  | [], _ => pure 0
  | buffer :: rest, bytes => do
    let part := bytes.take buffer.length.toNat
    if part.isEmpty then return 0
    write buffer.address part
    if part.length != buffer.length.toNat then return part.length
    return part.length + (← scatter rest (bytes.drop part.length))

end Memory

end Buildbox
