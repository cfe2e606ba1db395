import Buildbox.Host.Basic
import Buildbox.InputRegion

/-!
Surroundings that keep what is shown to them and answer from what was prepared: lines of input,
which pass through an input region, and a table of artifacts. Their clocks stand still.
-/

set_option autoImplicit false

namespace Buildbox

structure Recording where
  shown : String := ""
  isOpen : Bool := true
  /-- what requests for a line are answered with; nothing closes the input -/
  lines : List (Option String) := []
  requests : Nat := 0
  input : InputRegion := .new InputRegion.defaultCapacity
  artifacts : List (String × Bytes) := []
  fetches : Nat := 0
  notes : List String := []

namespace Recording

def moment : Nat := 1700000000123456789

def randomByte : UInt8 := 0xA5

def fetch (self : Recording) (name : String) : Except FetchFault Bytes :=
  match self.artifacts.lookup name with
  | some bytes => .ok bytes
  | none => .error (.unknown name)

/-- Puts an artifact into the table, over an older one of its name. -/
def put (self : Recording) (name : String) (bytes : Bytes) : Recording :=
  { self with artifacts := (name, bytes) :: self.artifacts.filter (·.1 != name) }

def enqueue (self : Recording) (line : Option String) : Recording :=
  { self with lines := self.lines ++ [line] }

def askLine (self : Recording) : Bool × Recording :=
  let self := { self with requests := self.requests + 1 }
  match self.lines with
  | [] => (false, self)
  | some line :: lines =>
    (true, { self with lines, input := (self.input.post (Bytes.ofString line)).2 })
  | none :: lines => (true, { self with lines, input := self.input.close })

/-- Answers a query; nothing when it waits for a line that is not there, and after a crash. -/
def answer : (q : Query) → Recording → Option (q.Answer × Recording)
  | .write text, self => some ((), { self with shown := self.shown ++ text })
  | .isClosed, self => some (!self.isOpen, self)
  | .askLine, self => some self.askLine
  | .takeLine, self =>
    match self.input.take with
    | .blocked => none
    | .closed => some (none, self)
    | .line bytes input => some (some bytes, { self with input })
  | .elapsed, self | .wallClock, self => some (moment, self)
  | .random count, self => some (List.replicate count randomByte, self)
  | .note text, self => some ((), { self with notes := self.notes ++ [text] })
  | .fetch name, self => some (self.fetch name, { self with fetches := self.fetches + 1 })
  | .crash, _ => none

end Recording

end Buildbox
