import Buildbox.Filesystem.Imports
import Buildbox.Proofs.Host.Service
import Buildbox.Proofs.Memory.Scatter

/-!
What one call of the filesystem module does to the host's desk. Output goes through the decoder to
the listener and, by the holder's flag, to the terminal; a read takes a line only when no input is
left, and moves what it places from the unread input into the holder's memory. All other calls leave
the desk as it is but for the memory that is lent.
-/

set_option autoImplicit false

namespace Buildbox

/-- A trace that shows this text and has nothing to do with input. -/
structure Trace.Shows (text : String) (trace : Trace) : Prop where
  shown : trace.shown = text
  taken : trace.taken = []
  asks : ¬ trace.Asks

namespace Trace

theorem Shows.nil : Shows "" [] :=
  ⟨rfl, rfl, not_asks_nil⟩

theorem Shows.append {text more : String} {first later : Trace} (shows : Shows text first)
    (then_shows : Shows more later) : Shows (text ++ more) (first ++ later) where
  shown := by rw [shown_append, shows.shown, then_shows.shown]
  taken := by rw [taken_append, shows.taken, then_shows.taken, List.append_nil]
  asks := by
    rw [asks_append]
    exact not_or.mpr ⟨shows.asks, then_shows.asks⟩

theorem Shows.write (text : String) : Shows text [⟨.write text, ()⟩] where
  shown := String.append_empty
  taken := rfl
  asks := by
    rintro ⟨answer, member⟩
    simp at member

theorem Shows.isClosed (closed : Bool) : Shows "" [⟨.isClosed, closed⟩] where
  shown := rfl
  taken := rfl
  asks := by
    rintro ⟨answer, member⟩
    simp at member

theorem Shows.note (text : String) : Shows "" [⟨.note text, ()⟩] where
  shown := rfl
  taken := rfl
  asks := by
    rintro ⟨answer, member⟩
    simp at member

end Trace

namespace Filesystem

namespace Desk

/-- The desk without a lent memory. -/
def shut (desk : Desk) : Desk :=
  { desk with window := none }

/-- The desk after its listener, if there is one, heard a text. -/
def hearing (desk : Desk) (text : String) : Desk :=
  { desk with heard := desk.heard.map (· ++ text) }

/-- What of a text the terminal shows. -/
def routed (desk : Desk) (text : String) : String :=
  if desk.wired.any (·.writesStdout) then text else ""

variable {desk left : Desk} {trace : Trace}

theorem hearing_empty (desk : Desk) : desk.hearing "" = desk := by
  rcases desk with ⟨wired, window, heard, unread, carry⟩
  cases heard with
  | none => rfl
  | some text => simp [hearing]

theorem runs_emit {text : String} (run : Host.Runs (desk.emit text) trace left) :
    left = desk.hearing text ∧ trace.Shows (desk.routed text) := by
  rw [emit] at run
  split at run
  · next blank =>
    obtain ⟨rfl, rfl⟩ := Host.runs_pure.mp run
    have blank : text = "" := by simpa using blank
    rw [blank, hearing_empty, routed, ite_self]
    exact ⟨rfl, .nil⟩
  · split at run
    · next writes =>
      obtain ⟨_, first, later, wrote, went, rfl⟩ := Host.runs_bind.mp run
      have wrote := Host.runs_query.mp wrote
      obtain ⟨rfl, rfl⟩ := Host.runs_pure.mp went
      rw [wrote, List.append_nil, routed, if_pos writes]
      exact ⟨rfl, .write text⟩
    · next silent =>
      obtain ⟨rfl, rfl⟩ := Host.runs_pure.mp run
      rw [routed, if_neg silent]
      exact ⟨rfl, .nil⟩

/-- What of the output is settled by these bytes. -/
def settled (desk : Desk) (bytes : Bytes) : String :=
  (desk.carry.decode bytes).1

/-- The desk after these bytes of output. -/
def writing (desk : Desk) (bytes : Bytes) : Desk :=
  { desk with carry := (desk.carry.decode bytes).2 }.hearing (desk.settled bytes)

def flushed (desk : Desk) : Desk :=
  { desk with carry := .empty }.hearing desk.carry.finish

theorem runs_flush (run : Host.Runs desk.flush trace left) :
    left = desk.flushed ∧ trace.Shows (desk.routed desk.carry.finish) :=
  runs_emit run

theorem runs_close (run : Host.Runs desk.close trace left) :
    left = { desk.flushed with unread := [] } ∧ trace.Shows (desk.routed desk.carry.finish) := by
  obtain ⟨between, first, later, flushing, closing, rfl⟩ := Host.runs_bind.mp run
  obtain ⟨rfl, rfl⟩ := Host.runs_pure.mp closing
  obtain ⟨rfl, shows⟩ := runs_flush flushing
  rw [List.append_nil]
  exact ⟨rfl, shows⟩

theorem isHeldBy_iff {guest : GuestId} :
    desk.isHeldBy guest = true ↔ ∃ wiring, desk.wired = some wiring ∧ wiring.guest = guest := by
  unfold isHeldBy
  cases desk.wired <;> simp

theorem isHeldBy_congr {guest : GuestId} (same : left.wired = desk.wired) :
    left.isHeldBy guest = desk.isHeldBy guest := by
  rw [isHeldBy, same]
  rfl

theorem runs_wire {guest : GuestId} {writesStdout : Bool}
    (run : Host.Runs (desk.wire guest writesStdout) trace left) :
    ((∃ wiring, desk.wired = some wiring ∧ wiring.guest ≠ guest) ∧
      left = { desk.flushed with unread := [], wired := some ⟨guest, writesStdout⟩ } ∧
      trace.Shows (desk.routed desk.carry.finish)) ∨
    ((∀ wiring, desk.wired = some wiring → wiring.guest = guest) ∧
      left = { desk with wired := some ⟨guest, writesStdout⟩ } ∧ trace.Shows "") := by
  rw [wire] at run
  split at run
  · next other =>
    obtain ⟨between, first, later, closing, wiring, rfl⟩ := Host.runs_bind.mp run
    obtain ⟨rfl, rfl⟩ := Host.runs_pure.mp wiring
    obtain ⟨rfl, shows⟩ := runs_close closing
    rw [List.append_nil]
    exact .inl ⟨by simpa [Option.any_eq_true] using other, rfl, shows⟩
  · next same =>
    obtain ⟨rfl, rfl⟩ := Host.runs_pure.mp run
    refine .inr ⟨fun wiring wired => ?_, rfl, .nil⟩
    rw [wired] at same
    simpa using same

theorem runs_unwire {guest : GuestId} (run : Host.Runs (desk.unwire guest) trace left) :
    (desk.isHeldBy guest = true ∧ left = { desk.flushed with unread := [], wired := none } ∧
      trace.Shows (desk.routed desk.carry.finish)) ∨
    (desk.isHeldBy guest = false ∧ left = desk ∧ trace.Shows "") := by
  rw [unwire] at run
  split at run
  · next holds =>
    obtain ⟨between, first, later, closing, giving, rfl⟩ := Host.runs_bind.mp run
    obtain ⟨rfl, rfl⟩ := Host.runs_pure.mp giving
    obtain ⟨rfl, shows⟩ := runs_close closing
    rw [List.append_nil]
    exact .inl ⟨holds, rfl, shows⟩
  · next other =>
    obtain ⟨rfl, rfl⟩ := Host.runs_pure.mp run
    exact .inr ⟨by simpa using other, rfl, .nil⟩

theorem runs_flushOf {guest : GuestId} (run : Host.Runs (desk.flushOf guest) trace left) :
    (desk.isHeldBy guest = true ∧ left = desk.flushed ∧
      trace.Shows (desk.routed desk.carry.finish)) ∨
    (desk.isHeldBy guest = false ∧ left = desk ∧ trace.Shows "") := by
  rw [flushOf] at run
  split at run
  · next holds => exact .inl ⟨holds, runs_flush run⟩
  · next other =>
    obtain ⟨rfl, rfl⟩ := Host.runs_pure.mp run
    exact .inr ⟨by simpa using other, rfl, .nil⟩

end Desk

section Parts

variable {found left : Option Memory × Desk} {trace : Trace}

private theorem runs_ensureOpen {result : Except Signal Unit}
    (run : Service.Runs ensureOpen found trace result left) :
    left = found ∧ trace.Shows "" := by
  obtain ⟨closed, first, later, asked, went, rfl⟩ := Service.runs_ofHost_bind.mp run
  rw [Host.runs_query.mp asked]
  split at went
  · obtain ⟨rfl, -, rfl⟩ := Service.runs_fault.mp went
    exact ⟨rfl, .isClosed closed⟩
  · obtain ⟨rfl, -, rfl⟩ := Service.runs_pure.mp went
    exact ⟨rfl, .isClosed closed⟩

private theorem runs_onWindow {α : Type} {access : Memory.Access α} {result : Except Signal α}
    (run : Service.Runs (onWindow access) found trace result left) :
    trace = [] ∧ left.2.shut = found.2.shut ∧ ∀ a, result = .ok a → ∃ window put,
      found.2.window = some window ∧ access.Yields window a put ∧
        left.2 = { found.2 with window := some put } := by
  rw [onWindow, Service.runs_state_bind] at run
  split at run
  · obtain ⟨rfl, rfl, rfl⟩ := Service.runs_fault.mp run
    exact ⟨rfl, rfl, fun _ impossible => by cases impossible⟩
  · next window lent =>
    rcases reached : (access.run.run window : Except AccessFault α × Memory) with ⟨outcome, put⟩
    rw [reached] at run
    have run := Service.runs_update_bind.mp run
    cases outcome with
    | ok a =>
      obtain ⟨rfl, rfl, rfl⟩ := Service.runs_pure.mp run
      refine ⟨rfl, rfl, fun b same => ?_⟩
      cases same
      exact ⟨window, put, lent, reached, rfl⟩
    | error fault =>
      obtain ⟨rfl, rfl, rfl⟩ := Service.runs_fault.mp run
      exact ⟨rfl, rfl, fun _ impossible => by cases impossible⟩

variable {β : Type} {result : Except Signal β}

private theorem runs_ensureOpen_bind {next : Unit → DeskService β}
    (run : Service.Runs (ensureOpen >>= next) found trace result left) :
    ((∃ signal, result = .error signal) ∧ left = found ∧ trace.Shows "") ∨
      ∃ first later, first.Shows "" ∧ Service.Runs (next ()) found later result left ∧
        trace = first ++ later := by
  rcases Service.runs_bind.mp run with
    ⟨signal, checked, rfl⟩ | ⟨_, between, first, later, checked, went, rfl⟩
  · obtain ⟨rfl, shows⟩ := runs_ensureOpen checked
    exact .inl ⟨⟨signal, rfl⟩, rfl, shows⟩
  · obtain ⟨rfl, shows⟩ := runs_ensureOpen checked
    exact .inr ⟨first, later, shows, went, rfl⟩

private theorem runs_onWindow_bind {α : Type} {access : Memory.Access α}
    {next : α → DeskService β}
    (run : Service.Runs (onWindow access >>= next) found trace result left) :
    ((∃ signal, result = .error signal) ∧ left.2.shut = found.2.shut ∧ trace = []) ∨
      ∃ window a put memory, found.2.window = some window ∧ access.Yields window a put ∧
        Service.Runs (next a) (memory, { found.2 with window := some put }) trace result left := by
  rcases Service.runs_bind.mp run with
    ⟨signal, accessed, rfl⟩ | ⟨a, ⟨memory, between⟩, first, later, accessed, went, rfl⟩
  · obtain ⟨rfl, kept, -⟩ := runs_onWindow accessed
    exact .inl ⟨⟨signal, rfl⟩, kept, rfl⟩
  · obtain ⟨rfl, -, succeeded⟩ := runs_onWindow accessed
    obtain ⟨window, put, lent, yields, same⟩ := succeeded a rfl
    cases same
    exact .inr ⟨window, a, put, memory, lent, yields, went⟩

end Parts

section Output

variable {found left : Option Memory × Desk} {trace : Trace}

private theorem runs_hostWrite {descriptor buffers count writtenOut : UInt32}
    {result : Except Signal (List Value)}
    (run : Service.Runs (hostWrite descriptor buffers count writtenOut) found trace result left) :
    ((∃ signal, result = .error signal) ∧ left.2.shut = found.2.shut ∧ trace.Shows "") ∨
    ∃ window, found.2.window = some window ∧ result = .ok success ∧
      left.2.shut = (found.2.writing (window.held (window.bufferList buffers count))).shut ∧
      trace.Shows (found.2.routed
        (found.2.settled (window.held (window.bufferList buffers count)))) := by
  rcases runs_ensureOpen_bind run with ⟨failed, rfl, shows⟩ | ⟨first, later, opened, went, rfl⟩
  · exact .inl ⟨failed, rfl, shows⟩
  · split at went
    · obtain ⟨rfl, rfl, rfl⟩ := Service.runs_fault_bind.mp went
      exact .inl ⟨⟨_, rfl⟩, rfl, opened.append .nil⟩
    · rcases runs_onWindow_bind went with
        ⟨failed, kept, rfl⟩ | ⟨window, bytes, put, memory, lent, yields, went⟩
      · exact .inl ⟨failed, kept, opened.append .nil⟩
      · obtain ⟨list, listed, finding, onward⟩ := Memory.Access.yields_bind.mp yields
        obtain ⟨rfl, rfl⟩ := Memory.bufferList_of_buffers finding
        obtain ⟨gathered, gatheredIn, gathering, onward⟩ := Memory.Access.yields_bind.mp onward
        obtain ⟨rfl, rfl⟩ := Memory.held_of_gather gathering
        obtain ⟨_, counted, counting, onward⟩ := Memory.Access.yields_bind.mp onward
        obtain ⟨rfl, rfl⟩ := Memory.Access.yields_pure.mp onward
        obtain ⟨desk, shown, rest, emitted, went, rfl⟩ :=
          Service.runs_ofHost_bind.mp (Service.runs_state_bind.mp went)
        obtain ⟨rfl, shows⟩ := Desk.runs_emit emitted
        have ended := Service.runs_update_bind.mp went
        obtain ⟨rfl, rfl, rfl⟩ := Service.runs_pure.mp ended
        rw [List.append_nil]
        exact .inr ⟨_, lent, rfl, rfl, opened.append shows⟩

end Output

/-- What a successful read does to the memory of the guest: these bytes go into its buffers, and
their number is stored. -/
def Delivers (buffers count readOut : UInt32) (part : Bytes) (lent left : Memory) : Prop :=
  ∃ filled : Memory, Memory.Filled (lent.bufferList buffers count) part lent filled ∧
    readOut % 4 = 0 ∧ readOut.toNat + 4 ≤ filled.size ∧
    left = filled.splice readOut.toNat (Bytes.ofWord part.length.toUInt32)

/-- What a read comes to: a line is asked for only when nothing is unread; a read that fails keeps all
of the input, and one that succeeds delivers the front of it. -/
structure Reads (buffers count readOut : UInt32) (found : Desk) (trace : Trace)
    (result : Except Signal (List Value)) (left : Desk) : Prop where
  shown : trace.shown = ""
  asks : trace.Asks → found.unread = []
  taken : trace.taken = [] ∨ found.unread = [] ∧ ∃ line, trace.taken = [line]
  ends : ((∃ signal, result = .error signal) ∧
      left.shut = { found.shut with unread := found.unread ++ trace.taken.flatten }) ∨
    ∃ window part put, found.window = some window ∧
      Delivers buffers count readOut part window put ∧ result = .ok success ∧
      left.window = some put ∧ left.shut = { found.shut with unread := left.unread } ∧
      found.unread ++ trace.taken.flatten = part ++ left.unread

section Input

variable {found left : Option Memory × Desk} {trace : Trace}
  {descriptor buffers count readOut : UInt32} {result : Except Signal (List Value)}

private theorem Reads.of_failed {found left : Desk} (failed : ∃ signal, result = .error signal)
    (kept : left.shut = found.shut) (shown : trace.shown = "") (taken : trace.taken = [])
    (asks : trace.Asks → found.unread = []) :
    Reads buffers count readOut found trace result left := by
  refine ⟨shown, asks, .inl taken, .inl ⟨failed, ?_⟩⟩
  rw [taken, List.flatten_nil, List.append_nil]
  exact kept

private theorem Reads.of_idle {found left : Desk} (failed : ∃ signal, result = .error signal)
    (kept : left.shut = found.shut) (shows : trace.Shows "") :
    Reads buffers count readOut found trace result left :=
  .of_failed failed kept shows.shown shows.taken fun asks => absurd asks shows.asks

private theorem Reads.after {found left : Desk} {first later : Trace} (shows : first.Shows "")
    (reads : Reads buffers count readOut found later result left) :
    Reads buffers count readOut found (first ++ later) result left := by
  have taken : (first ++ later).taken = later.taken := by
    rw [Trace.taken_append, shows.taken, List.nil_append]
  refine ⟨?_, fun asked => ?_, ?_, ?_⟩
  · rw [Trace.shown_append, shows.shown, reads.shown]
    rfl
  · exact reads.asks ((Trace.asks_append.mp asked).resolve_left shows.asks)
  · rw [taken]
    exact reads.taken
  · rw [taken]
    exact reads.ends

private theorem Reads.of_taken {found left : Desk} {line : Bytes} (nothing : found.unread = [])
    (reads : Reads buffers count readOut { found with unread := line } [] result left) :
    Reads buffers count readOut found [⟨.askLine, true⟩, ⟨.takeLine, some line⟩] result left := by
  refine ⟨rfl, fun _ => nothing, .inr ⟨nothing, line, rfl⟩, ?_⟩
  have whole : found.unread ++ (Trace.taken [⟨.askLine, true⟩, ⟨.takeLine, some line⟩]).flatten =
      line ++ (Trace.taken []).flatten := by
    rw [nothing]
    rfl
  rw [whole]
  exact reads.ends

def placeUnread (buffers count readOut : UInt32) : DeskService (List Value) := do
  let unread := (← Service.state).unread
  let placed ← onWindow do
    let placed ← Memory.scatter (← Memory.buffers buffers count) unread
    Memory.writeWord readOut placed.toUInt32
    return placed
  Service.update fun desk => { desk with unread := desk.unread.drop placed }
  return success

private theorem runs_place
    (run : Service.Runs (placeUnread buffers count readOut) found trace result left) :
    trace = [] ∧ Reads buffers count readOut found.2 [] result left.2 := by
  have went := Service.runs_state_bind.mp run
  rcases runs_onWindow_bind went with
    ⟨failed, kept, rfl⟩ | ⟨window, placed, put, memory, lent, yields, went⟩
  · exact ⟨rfl, .of_idle failed kept .nil⟩
  · have ended := Service.runs_update_bind.mp went
    obtain ⟨rfl, rfl, rfl⟩ := Service.runs_pure.mp ended
    obtain ⟨list, window, finding, onward⟩ := Memory.Access.yields_bind.mp yields
    obtain ⟨rfl, rfl⟩ := Memory.bufferList_of_buffers finding
    obtain ⟨some_placed, filled, scattering, onward⟩ := Memory.Access.yields_bind.mp onward
    obtain ⟨within, fills⟩ := Memory.filled_of_scatter scattering
    obtain ⟨_, counted, counting, onward⟩ := Memory.Access.yields_bind.mp onward
    obtain ⟨aligned, inside, rfl⟩ := Memory.Access.yields_writeWord.mp counting
    obtain ⟨rfl, rfl⟩ := Memory.Access.yields_pure.mp onward
    have length : (found.2.unread.take placed).length = placed := List.length_take_of_le within
    have delivered : Delivers buffers count readOut (found.2.unread.take placed) window
        (filled.splice readOut.toNat (Bytes.ofWord placed.toUInt32)) :=
      ⟨filled, fills, aligned, inside, by rw [length]⟩
    refine ⟨rfl, rfl, fun asks => absurd asks Trace.not_asks_nil, .inl rfl, .inr ?_⟩
    refine ⟨window, found.2.unread.take placed, _, lent, delivered, rfl, rfl, rfl, ?_⟩
    exact (List.append_nil _).trans (List.take_append_drop placed found.2.unread).symm

private theorem runs_askLine_bind {next : Bool → DeskService (List Value)}
    (run : Service.Runs (Service.ofHost Host.askLine >>= next) found trace result left) :
    ∃ answer later, Service.Runs (next answer) found later result left ∧
      trace = ⟨.askLine, answer⟩ :: later := by
  obtain ⟨answer, first, later, asking, went, rfl⟩ := Service.runs_ofHost_bind.mp run
  rw [Host.runs_query.mp asking]
  exact ⟨answer, later, went, rfl⟩

private theorem runs_takeLine_bind {next : Option Bytes → DeskService (List Value)}
    (run : Service.Runs (Service.ofHost Host.takeLine >>= next) found trace result left) :
    ∃ line later, Service.Runs (next line) found later result left ∧
      trace = ⟨.takeLine, line⟩ :: later := by
  obtain ⟨line, first, later, taking, went, rfl⟩ := Service.runs_ofHost_bind.mp run
  rw [Host.runs_query.mp taking]
  exact ⟨line, later, went, rfl⟩

def awaitLine (buffers count readOut : UInt32) : DeskService (List Value) := do
  match ← Service.ofHost Host.takeLine with
  | none => do
    Service.fault .inputClosed
    placeUnread buffers count readOut
  | some line => do
    Service.update fun desk => { desk with unread := line }
    placeUnread buffers count readOut

private def placeNext (buffers count readOut : UInt32) : DeskService (List Value) := do
  if !(← Service.ofHost Host.askLine) then
    onWindow (Memory.writeWord readOut 0)
    return success
  awaitLine buffers count readOut

private theorem runs_placeNext (nothing : found.2.unread = [])
    (run : Service.Runs (placeNext buffers count readOut) found trace result left) :
    Reads buffers count readOut found.2 trace result left.2 := by
  obtain ⟨answer, later, answered, rfl⟩ := runs_askLine_bind run
  split at answered
  · -- nobody answers: the input has ended
    rcases runs_onWindow_bind answered with
      ⟨failed, kept, rfl⟩ | ⟨window, _, put, memory, lent, yields, ended⟩
    · exact .of_failed failed kept rfl rfl fun _ => nothing
    · obtain ⟨rfl, rfl, rfl⟩ := Service.runs_pure.mp ended
      obtain ⟨aligned, inside, rfl⟩ := Memory.Access.yields_writeWord.mp yields
      have delivered : Delivers buffers count readOut [] window
          (window.splice readOut.toNat (Bytes.ofWord 0)) := ⟨window, .done, aligned, inside, rfl⟩
      exact ⟨rfl, fun _ => nothing, .inl rfl, .inr ⟨window, [], _, lent, delivered, rfl, rfl, rfl,
        List.append_nil _⟩⟩
  · next answers =>
    have answers : answer = true := by simpa using answers
    obtain ⟨line, rest, took, rfl⟩ := runs_takeLine_bind answered
    cases line with
    | none =>
      obtain ⟨rfl, rfl, rfl⟩ := Service.runs_fault_bind.mp took
      exact .of_failed ⟨_, rfl⟩ rfl rfl rfl fun _ => nothing
    | some line =>
      obtain ⟨rfl, reads⟩ := runs_place (Service.runs_update_bind.mp took)
      rw [answers]
      exact .of_taken nothing reads

private theorem runs_hostRead
    (run : Service.Runs (hostRead descriptor buffers count readOut) found trace result left) :
    Reads buffers count readOut found.2 trace result left.2 := by
  rcases runs_ensureOpen_bind run with ⟨failed, rfl, shows⟩ | ⟨first, later, opened, entered, rfl⟩
  · exact .of_idle failed rfl shows
  refine .after opened ?_
  split at entered
  · obtain ⟨rfl, rfl, rfl⟩ := Service.runs_fault_bind.mp entered
    exact .of_idle ⟨_, rfl⟩ rfl .nil
  have looked := Service.runs_state_bind.mp entered
  split at looked
  · next empty => exact runs_placeNext (List.isEmpty_iff.mp empty) looked
  · obtain ⟨rfl, reads⟩ := runs_place looked
    exact reads

/-- A read that finds unread input stores the number of bytes that it moves. That number is zero,
which says that the input has ended, exactly where there is no buffer or the first one is empty. -/
theorem count_of_hostRead {values : List Value}
    (run : Service.Runs (hostRead descriptor buffers count readOut) found trace (.ok values) left)
    (waiting : found.2.unread ≠ []) :
    ∃ window put placed, found.2.window = some window ∧ left.2.window = some put ∧
      put.slice readOut.toNat 4 = Bytes.ofWord placed.toUInt32 ∧
      left.2.unread = found.2.unread.drop placed ∧
      placed = Memory.placeable (window.bufferList buffers count) found.2.unread ∧
      (placed = 0 ↔ ∀ buffer ∈ (window.bufferList buffers count).head?, buffer.length = 0) := by
  rcases runs_ensureOpen_bind run with ⟨⟨_, failed⟩, -⟩ | ⟨first, later, opened, entered, rfl⟩
  · cases failed
  split at entered
  · cases (Service.runs_fault_bind.mp entered).2.1
  have looked := Service.runs_state_bind.mp entered
  rw [if_neg fun empty => waiting (List.isEmpty_iff.mp empty)] at looked
  rcases runs_onWindow_bind (Service.runs_state_bind.mp looked) with
    ⟨⟨_, failed⟩, -⟩ | ⟨window, placed, put, memory, lent, yields, went⟩
  · cases failed
  have ended := Service.runs_update_bind.mp went
  obtain ⟨rfl, -, rfl⟩ := Service.runs_pure.mp ended
  obtain ⟨list, window, finding, onward⟩ := Memory.Access.yields_bind.mp yields
  obtain ⟨rfl, rfl⟩ := Memory.bufferList_of_buffers finding
  obtain ⟨some_placed, filled, scattering, onward⟩ := Memory.Access.yields_bind.mp onward
  obtain ⟨_, counted, counting, onward⟩ := Memory.Access.yields_bind.mp onward
  obtain ⟨-, inside, rfl⟩ := Memory.Access.yields_writeWord.mp counting
  obtain ⟨rfl, rfl⟩ := Memory.Access.yields_pure.mp onward
  have counts := Memory.placed_of_scatter scattering
  refine ⟨window, _, placed, lent, rfl, Memory.slice_splice inside, rfl, counts, ?_⟩
  rw [counts]
  exact Memory.placeable_eq_zero waiting

end Input

/-- What serving one call of the module comes to. -/
inductive Served (found : Desk) (trace : Trace) (left : Desk) :
    HostFunction → List UInt32 → Except Signal (List Value) → Prop
  /-- a call that moves neither output nor input -/
  | idle {f : HostFunction} {words : List UInt32} {result : Except Signal (List Value)}
      (elsewhere : f ≠ .hostRead) (failed : f = .hostWrite → ∃ signal, result = .error signal)
      (kept : left.shut = found.shut) (shows : trace.Shows "") : Served found trace left f words result
  | wrote {descriptor buffers count writtenOut : UInt32} {window : Memory}
      (lent : found.window = some window)
      (written : left.shut = (found.writing (window.held (window.bufferList buffers count))).shut)
      (shows : trace.Shows
        (found.routed (found.settled (window.held (window.bufferList buffers count))))) :
      Served found trace left .hostWrite [descriptor, buffers, count, writtenOut] (.ok success)
  | read {descriptor buffers count readOut : UInt32} {result : Except Signal (List Value)}
      (reads : Reads buffers count readOut found trace result left) :
      Served found trace left .hostRead [descriptor, buffers, count, readOut] result
  | misread {words : List UInt32} {signal : Signal} (same : left = found) (nothing : trace = []) :
      Served found trace left .hostRead words (.error signal)

section Serve

variable {found left : Option Memory × Desk} {trace : Trace}

/-- Nothing is shown, no input is taken, and at most the lent memory changes. -/
private def Inert (before : Desk) (trace : Trace) (after : Desk) : Prop :=
  after.shut = before.shut ∧ trace.Shows ""

private theorem stretch_inert : Service.Stretch Inert where
  refl _ := ⟨rfl, .nil⟩
  trans early late := ⟨late.1.trans early.1, early.2.append late.2⟩

private theorem inert_ensureOpen : Service.Within Inert ensureOpen := by
  intro found left trace result run
  obtain ⟨rfl, shows⟩ := runs_ensureOpen run
  exact ⟨rfl, shows⟩

private theorem inert_onWindow {α : Type} (access : Memory.Access α) :
    Service.Within Inert (onWindow access) := by
  intro found left trace result run
  obtain ⟨rfl, kept, -⟩ := runs_onWindow run
  exact ⟨kept, .nil⟩

private theorem inert_ensureMemory : Service.Within Inert ensureMemory := by
  intro found left trace result run
  rw [ensureMemory, Service.runs_get_bind] at run
  split at run
  · exact stretch_inert.throw _ _ _ _ _ run
  · exact stretch_inert.pure _ _ _ _ _ run

private theorem inert_note {text : String} {desk : Desk} {trace : Trace} {u : Unit}
    (run : Host.Runs (Host.note text) trace u) : Inert desk trace desk := by
  rw [Host.runs_query.mp run]
  exact ⟨rfl, .note text⟩

private theorem inert_serve {f : HostFunction} (arguments : List Value) (no_read : f ≠ .hostRead)
    (no_write : f ≠ .hostWrite) : Service.Within Inert (serve f arguments) := by
  unfold serve
  split
  · exact stretch_inert.bind inert_ensureOpen fun _ => stretch_inert.throw _
  · exact absurd rfl no_write
  · exact absurd rfl no_read
  · exact stretch_inert.bind inert_ensureOpen fun _ =>
      stretch_inert.bind (stretch_inert.onMemory _) fun _ =>
      stretch_inert.ofHost_bind (fun _ _ _ => inert_note) fun _ => stretch_inert.pure _
  · exact stretch_inert.bind inert_ensureMemory fun _ => stretch_inert.bind inert_ensureOpen fun _ =>
      stretch_inert.bind (inert_onWindow _) fun _ =>
      stretch_inert.bind (stretch_inert.onMemory _) fun _ => stretch_inert.pure _
  · exact stretch_inert.bind inert_ensureMemory fun _ => stretch_inert.bind inert_ensureOpen fun _ =>
      stretch_inert.bind (stretch_inert.onMemory _) fun _ =>
      stretch_inert.bind (inert_onWindow _) fun _ => stretch_inert.pure _
  · exact stretch_inert.throw _

theorem served_of_run {f : HostFunction} {arguments : List Value}
    {result : Except Signal (List Value)}
    (run : Service.Runs (serve f arguments) found trace result left) :
    Served found.2 trace left.2 f (arguments.map Value.word) result := by
  by_cases reads : f = .hostRead
  · subst reads
    unfold serve at run
    split at run
    any_goals contradiction
    · next words => 
      rw [words]
      exact .read (runs_hostRead run)
    · obtain ⟨rfl, rfl, rfl⟩ := Service.runs_fault.mp run
      exact .misread rfl rfl
  · by_cases writes : f = .hostWrite
    · subst writes
      unfold serve at run
      split at run
      any_goals contradiction
      · next words => 
        rw [words]
        rcases runs_hostWrite run with ⟨failed, kept, shows⟩ | ⟨window, lent, rfl, written, shows⟩
        · exact .idle reads (fun _ => failed) kept shows
        · exact .wrote lent written shows
      · obtain ⟨rfl, rfl, rfl⟩ := Service.runs_fault.mp run
        exact .idle reads (fun _ => ⟨_, rfl⟩) rfl .nil
    · obtain ⟨kept, shows⟩ := inert_serve arguments reads writes _ _ _ _ run
      exact .idle reads (fun same => absurd same writes) kept shows

end Serve

end Filesystem

end Buildbox
