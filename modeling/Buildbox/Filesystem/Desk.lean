import Buildbox.Host.Service
import Buildbox.Text.Utf8

/-!
The host's half of the filesystem: which guest holds it, that guest's memory while a call of its is
forwarded, its unread input, and its output on the way to the terminal.
-/

set_option autoImplicit false

namespace Buildbox.Filesystem

structure Wiring where
  guest : GuestId
  writesStdout : Bool
deriving Repr, DecidableEq

structure Desk where
  wired : Option Wiring := none
  /-- the memory of the wired guest, during a forwarded call only -/
  window : Option Memory := none
  heard : Option String := none
  /-- input taken from the host and not yet read by the guest -/
  unread : Bytes := []
  carry : Utf8.Carry := .empty

namespace Desk

def isHeldBy (desk : Desk) (guest : GuestId) : Bool :=
  match desk.wired with
  | some wiring => wiring.guest == guest
  | none => false

def emit (desk : Desk) (text : String) : Host Desk := do
  if text.isEmpty then return desk
  if desk.wired.any (·.writesStdout) then Host.write text
  return { desk with heard := desk.heard.map (· ++ text) }

def flush (desk : Desk) : Host Desk :=
  { desk with carry := .empty }.emit desk.carry.finish

/-- Flushes the output and forgets the unread input. -/
def close (desk : Desk) : Host Desk := do
  return { (← desk.flush) with unread := [] }

/-- Gives the filesystem to a guest. Another holder's output ends here, and its input is lost. -/
def wire (desk : Desk) (guest : GuestId) (writesStdout : Bool) : Host Desk := do
  let desk ←
    if desk.wired.any (·.guest != guest) then desk.close else pure desk
  return { desk with wired := some ⟨guest, writesStdout⟩ }

def unwire (desk : Desk) (guest : GuestId) : Host Desk := do
  if desk.isHeldBy guest then
    return { (← desk.close) with wired := none }
  else return desk

def flushOf (desk : Desk) (guest : GuestId) : Host Desk :=
  if desk.isHeldBy guest then desk.flush else pure desk

end Desk

end Buildbox.Filesystem
