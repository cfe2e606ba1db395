import Buildbox.Bytes
import Buildbox.Text.Utf8

/-!
The region through which lines of input pass: a flag word and a NUL-terminated payload. It holds one
line at a time; a line that does not fit is cut.
-/

set_option autoImplicit false

namespace Buildbox

/-- The bytes of an input region: four of the flag, then the payload. -/
structure InputRegion where
  bytes : Bytes

namespace InputRegion

def headerSize : Nat := 4

def emptyFlag : UInt32 := 0

def readyFlag : UInt32 := 1

def closedFlag : UInt32 := 2

def defaultCapacity : Nat := 65536

/-- A region with no line; its payload is never smaller than its terminator. -/
def new (capacity : Nat) : InputRegion :=
  ⟨Bytes.zeros (headerSize + max capacity 1)⟩

/-- The longest line that fits, in bytes. -/
def capacity (region : InputRegion) : Nat :=
  region.bytes.length - headerSize - 1

def flag (region : InputRegion) : UInt32 :=
  match region.bytes with
  | b0 :: b1 :: b2 :: b3 :: _ => Bytes.toWord b0 b1 b2 b3
  | _ => closedFlag

def setFlag (region : InputRegion) (flag : UInt32) : InputRegion :=
  ⟨Bytes.ofWord flag ++ region.bytes.drop headerSize⟩

def fitting (region : InputRegion) (line : Bytes) : Bytes :=
  Bytes.beforeNul (line.take region.capacity)

def isClosed (region : InputRegion) : Bool :=
  region.flag == closedFlag

def post (region : InputRegion) (line : Bytes) : Bool × InputRegion :=
  if region.isClosed then (false, region)
  else
    let line := region.fitting line
    let payload := region.bytes.drop headerSize
    let payload := line ++ 0 :: payload.drop (line.length + 1)
    (true, setFlag ⟨region.bytes.take headerSize ++ payload⟩ readyFlag)

inductive Taken
  | blocked
  | closed
  | line (bytes : Bytes) (region : InputRegion)

def take (region : InputRegion) : Taken :=
  if region.isClosed then .closed
  else if region.flag == readyFlag then
    let line := Bytes.beforeNul (region.bytes.drop headerSize)
    .line (Bytes.ofString (Utf8.lossy line))
      (setFlag ⟨Bytes.zeros region.bytes.length⟩ emptyFlag)
  else .blocked

/-- Refuses every further line. -/
def close (region : InputRegion) : InputRegion :=
  region.setFlag closedFlag

end InputRegion

end Buildbox
