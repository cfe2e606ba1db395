import Buildbox.Artifact
import Buildbox.Bytes

/-!
What the sandbox asks of its surroundings. A `Host α` is a computation that now and then puts a
`Query` and waits for its answer; the surroundings answer as they like. Nothing else happens
outside: what a computation does is the list of its queries and their answers.
-/

set_option autoImplicit false

namespace Buildbox

/-- A question to, or a demand on, the surroundings. -/
inductive Query
  | write (text : String)
  /-- whether the other end has given this side up -/
  | isClosed
  /-- ask for a line of input; whether anyone will answer -/
  | askLine
  /-- wait for the line; nothing when the other end is given up while waiting -/
  | takeLine
  /-- the time since some fixed moment, in nanoseconds -/
  | elapsed
  | wallClock
  | random (count : Nat)
  | note (text : String)
  | fetch (name : String)
  /-- come down with all that is running; nobody is left to answer -/
  | crash

abbrev Query.Answer : Query → Type
  | .write _ | .note _ | .crash => Unit
  | .isClosed | .askLine => Bool
  | .takeLine => Option Bytes
  | .elapsed | .wallClock => Nat
  | .random _ => Bytes
  | .fetch _ => Except FetchFault Bytes

/-- A computation that puts queries. -/
inductive Host (α : Type)
  | done (a : α)
  | ask (query : Query) (resume : query.Answer → Host α)

namespace Host

variable {α β : Type}

def bind : Host α → (α → Host β) → Host β
  | .done a, next => next a
  | .ask query resume, next => .ask query fun answer => (resume answer).bind next

instance : Monad Host where
  pure := .done
  bind := bind

def query (q : Query) : Host q.Answer :=
  .ask q .done

def write (text : String) : Host Unit := query (.write text)
def isClosed : Host Bool := query .isClosed
def askLine : Host Bool := query .askLine
def takeLine : Host (Option Bytes) := query .takeLine
def elapsed : Host Nat := query .elapsed
def wallClock : Host Nat := query .wallClock
def random (count : Nat) : Host Bytes := query (.random count)
def note (text : String) : Host Unit := query (.note text)
def fetch (name : String) : Host (Except FetchFault Bytes) := query (.fetch name)
def crash : Host Unit := query .crash

@[simp] theorem bind_done (c : Host α) : c.bind .done = c := by
  induction c with
  | done a => rfl
  | ask query resume ih => simp only [bind, ih]

theorem bind_assoc {γ : Type} (c : Host α) (f : α → Host β) (g : β → Host γ) :
    (c.bind f).bind g = c.bind fun a => (f a).bind g := by
  induction c with
  | done a => rfl
  | ask query resume ih => simp only [bind, ih]

instance : LawfulMonad Host :=
  LawfulMonad.mk' Host (fun c => bind_done c) (fun _ _ => rfl) (fun c f g => bind_assoc c f g)

/-- Carries a computation out in a monad that answers every query. -/
def perform {m : Type → Type} [Monad m] (answer : (q : Query) → m q.Answer) : Host α → m α
  | .done a => pure a
  | .ask query resume => do perform answer (resume (← answer query))

/-- A computation in given surroundings: how it ended, or where it still waits. -/
inductive Progress (σ α : Type)
  | finished (surroundings : σ) (result : α)
  | waiting (surroundings : σ) (query : Query) (resume : query.Answer → Host α)

/-- Runs a computation as long as the surroundings answer. -/
def run {σ : Type} (answer : (q : Query) → σ → Option (q.Answer × σ)) : σ → Host α → Progress σ α
  | s, .done a => .finished s a
  | s, .ask query resume =>
    match answer query s with
    | some (a, s) => run answer s (resume a)
    | none => .waiting s query resume

end Host

end Buildbox
