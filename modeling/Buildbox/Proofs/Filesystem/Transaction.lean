import Buildbox.Proofs.Filesystem.Serving
import Buildbox.Proofs.Memory.Exact
import Buildbox.Proofs.Text.Stream
import Buildbox.Wasm.Instance

/-!
The transfers between the holder of the filesystem, its module and the output: each is carried out
as a whole or not at all. All that can fail is looked at before the first byte is written, so that a
call that faults leaves both memories, the held output, the listener and the terminal as they were.
-/

set_option autoImplicit false

namespace Buildbox

/-- A stream goes on with these bytes: the text and what is still held afterwards read, with whatever
comes later, as what was held before and the bytes do. -/
structure Utf8.Carry.GoesOn (before : Carry) (bytes : Bytes) (text : String) (after : Carry) :
    Prop where
  reads : ∀ more, lossyChars (before.held ++ bytes ++ more) =
    text.toList ++ lossyChars (after.held ++ more)
  unfinished : Unfinished after.held

theorem Utf8.Carry.goesOn_decode (carry : Carry) (bytes : Bytes) :
    carry.GoesOn bytes (carry.decode bytes).1 (carry.decode bytes).2 where
  reads more := by
    rw [lossyChars_append, decode, String.toList_ofList]
  unfinished := unfinished_settledChars _

theorem Utf8.Carry.GoesOn.text_of_whole {text whole : String} {after : Carry}
    (goes_on : GoesOn .empty (Bytes.ofString whole) text after)
    (sound : replacement ∉ whole.toList) : text = whole := by
  have reads := goes_on.reads []
  have characters : lossyChars (Bytes.ofString whole) = whole.toList := by
    rw [← lossy_ofString whole, lossy, String.toList_ofList, ← lossy, lossy_ofString]
  rw [List.append_nil, List.append_nil, empty, List.nil_append, characters] at reads
  by_cases nothing : after.held = []
  · rw [nothing, lossyChars, List.append_nil] at reads
    exact (String.toList_inj.mp reads).symm
  · rw [goes_on.unfinished.lossyChars nothing] at reads
    exact absurd (reads ▸ List.mem_append_right _ List.mem_cons_self) sound

namespace Memory

/-- These bytes are put at an address, and all others are as before. -/
structure Put (memory : Memory) (address : UInt32) (bytes : Bytes) (left : Memory) : Prop where
  stands : left.slice address.toNat bytes.length = bytes
  alike : Alike (fun position => address.toNat ≤ position ∧ position < address.toNat + bytes.length)
    memory left

theorem put_splice {memory : Memory} {address : UInt32} {bytes : Bytes}
    (inside : address.toNat + bytes.length ≤ memory.size) :
    Put memory address bytes (memory.splice address.toNat bytes) :=
  ⟨slice_splice inside, .splice inside fun _ from_start before_end => ⟨from_start, before_end⟩⟩

end Memory

namespace Filesystem

theorem Desk.exists_runs_emit (desk : Desk) (text : String) :
    ∃ trace, Host.Runs (desk.emit text) trace (desk.hearing text) := by
  rw [emit]
  split
  · next blank =>
    have blank : text = "" := by simpa using blank
    rw [blank, hearing_empty]
    exact ⟨[], Host.runs_pure.mpr ⟨rfl, rfl⟩⟩
  · split
    · exact ⟨_, Host.runs_bind.mpr ⟨(), _, [], Host.runs_query.mpr rfl,
        Host.runs_pure.mpr ⟨rfl, rfl⟩, rfl⟩⟩
    · exact ⟨[], Host.runs_pure.mpr ⟨rfl, rfl⟩⟩

/-- A memory that a call of the filesystem module can work on: the module's own, or that of the guest
that holds the filesystem. -/
inductive Side
  | own
  | holder

namespace Side

def memory : Side → Option Memory × Desk → Option Memory
  | own, found => found.1
  | holder, found => found.2.window

def put (memory : Memory) : Side → Option Memory × Desk → Option Memory × Desk
  | own, found => (some memory, found.2)
  | holder, found => (found.1, { found.2 with window := some memory })

def work {α : Type} (access : Memory.Access α) : Side → DeskService α
  | own => Service.onMemory access
  | holder => onWindow access

variable {α β : Type} (side : Side) {found left : Option Memory × Desk} {trace : Trace}
  {result : Except Signal β} {access : Memory.Access α} {next : α → DeskService β}
  {memory put : Memory} {a : α}

theorem put_same (there : side.memory found = some memory) : side.put memory found = found := by
  obtain ⟨own, desk⟩ := found
  cases side with
  | own =>
    cases there
    rfl
  | holder =>
    have there : desk.window = some memory := there
    rw [Side.put, ← there]

theorem runs_work_bind (there : side.memory found = some memory) :
    Service.Runs (side.work access >>= next) found trace result left ↔
      match (access.run.run memory).1 with
      | .ok a => Service.Runs (next a) (side.put (access.run.run memory).2 found) trace result left
      | .error fault => trace = [] ∧ result = .error (.fault (.access fault)) ∧
          left = side.put (access.run.run memory).2 found := by
  obtain ⟨own, desk⟩ := found
  cases side with
  | own =>
    cases there
    exact Service.runs_onMemory_bind
  | holder =>
    have there : desk.window = some memory := there
    rw [work, onWindow, bind_assoc, Service.runs_state_bind, there]
    rcases reached : (access.run.run memory : Except AccessFault α × Memory) with ⟨outcome, left⟩
    simp only [reached]
    rw [bind_assoc, Service.runs_update_bind]
    cases outcome with
    | ok a => rw [pure_bind, Side.put]
    | error fault => exact Service.runs_fault_bind

theorem runs_work_bind_yields (there : side.memory found = some memory)
    (yields : access.Yields memory a put) :
    Service.Runs (side.work access >>= next) found trace result left ↔
      Service.Runs (next a) (side.put put found) trace result left := by
  have reached : access.run.run memory = (.ok a, put) := yields
  rw [side.runs_work_bind there, reached]

theorem refused_of_work {allowed : Prop} (there : side.memory found = some memory)
    (whole : Memory.Access.AllOrNothing allowed access memory a put) (refused : ¬ allowed)
    (run : Service.Runs (side.work access >>= next) found trace result left) :
    trace = [] ∧ (∃ signal, result = .error signal) ∧ left = found := by
  obtain ⟨fault, reached⟩ := whole.undone refused
  rw [side.runs_work_bind there, reached] at run
  obtain ⟨rfl, rfl, rfl⟩ := run
  exact ⟨rfl, ⟨_, rfl⟩, side.put_same there⟩

theorem refused_without (absent : side.memory found = none)
    (run : Service.Runs (side.work access >>= next) found trace result left) :
    trace = [] ∧ (∃ signal, result = .error signal) ∧ left = found := by
  obtain ⟨own, desk⟩ := found
  cases side with
  | own =>
    cases absent
    obtain ⟨rfl, rfl, rfl⟩ := Service.runs_fault_bind.mp run
    exact ⟨rfl, ⟨_, rfl⟩, rfl⟩
  | holder =>
    have absent : desk.window = none := absent
    rw [work, onWindow, bind_assoc, Service.runs_state_bind, absent] at run
    obtain ⟨rfl, rfl, rfl⟩ := Service.runs_fault_bind.mp run
    exact ⟨rfl, ⟨_, rfl⟩, rfl⟩

end Side

section Checks

variable {β : Type} {found left : Option Memory × Desk} {trace : Trace}
  {result : Except Signal β} {next : Unit → DeskService β}

theorem runs_ensureOpen_bind_iff :
    Service.Runs (ensureOpen >>= next) found trace result left ↔
      (trace = [⟨.isClosed, true⟩] ∧ result = .error (.fault .terminated) ∧ left = found) ∨
      ∃ later, trace = ⟨.isClosed, false⟩ :: later ∧
        Service.Runs (next ()) found later result left := by
  rw [ensureOpen, bind_assoc, Service.runs_ofHost_bind]
  constructor
  · rintro ⟨closed, first, later, asked, went, rfl⟩
    rw [Host.runs_query.mp asked]
    cases closed with
    | true =>
      obtain ⟨rfl, rfl, rfl⟩ := Service.runs_fault_bind.mp went
      exact .inl ⟨rfl, rfl, rfl⟩
    | false => exact .inr ⟨later, rfl, went⟩
  · rintro (⟨rfl, rfl, rfl⟩ | ⟨later, rfl, went⟩)
    · exact ⟨true, _, [], Host.runs_query.mpr rfl, Service.runs_fault_bind.mpr ⟨rfl, rfl, rfl⟩, rfl⟩
    · exact ⟨false, _, later, Host.runs_query.mpr rfl, went, rfl⟩

theorem runs_ensureMemory_bind_iff :
    Service.Runs (ensureMemory >>= next) found trace result left ↔
      (found.1 = none ∧ trace = [] ∧ result = .error (.fault .noMemory) ∧ left = found) ∨
      found.1 ≠ none ∧ Service.Runs (next ()) found trace result left := by
  obtain ⟨own, desk⟩ := found
  rw [ensureMemory, bind_assoc, Service.runs_get_bind]
  cases own with
  | none => simp [Service.runs_fault_bind]
  | some memory => simp

end Checks

/-- The array of the buffers of a write, the buffers and the place of the count lie in the guest's
memory. -/
structure Collectable (window : Memory) (buffers count writtenOut : UInt32) : Prop where
  array_aligned : buffers % 4 = 0
  array : buffers.toNat + 8 * count.toNat ≤ window.size
  inside : ∀ buffer ∈ window.bufferList buffers count, buffer.Inside window
  place_aligned : writtenOut % 4 = 0
  place : writtenOut.toNat + 4 ≤ window.size

inductive Copies : HostFunction → Side → Side → Prop
  | copyIn : Copies .copyIn .holder .own
  | copyOut : Copies .copyOut .own .holder

/-- A transfer goes through if it is asked for while the other end is there. -/
inductive Ready (found : Option Memory × Desk) : HostFunction → List UInt32 → Prop
  | write {descriptor buffers count writtenOut : UInt32} {window : Memory}
      (stream : descriptor ≤ 2) (lent : found.2.window = some window)
      (collectable : Collectable window buffers count writtenOut) :
      Ready found .hostWrite [descriptor, buffers, count, writtenOut]
  | copy {f : HostFunction} {source target : Side} {address place size : UInt32}
      {read written : Memory} (copies : Copies f source target)
      (reads : source.memory found = some read) (writes : target.memory found = some written)
      (readable : address.toNat + size.toNat ≤ read.size)
      (writable : place.toNat + size.toNat ≤ written.size) :
      Ready found f [place, address, size]

/-- What a transfer that goes through leaves, and the text that it shows. A write puts one word, the
number of the bytes that the buffers held before it, and the output goes on with these bytes. A copy
puts the bytes of its source at its target. -/
inductive Leaves (found : Option Memory × Desk) : HostFunction → List UInt32 →
    Option Memory × Desk → String → Prop
  | write {descriptor buffers count writtenOut total : UInt32} {window put : Memory} {text : String}
      {carry : Utf8.Carry} (lent : found.2.window = some window)
      (records : (window.bufferList buffers count).length = count.toNat)
      (counts : Buffer.room (window.bufferList buffers count) < UInt32.size →
        total.toNat = Buffer.room (window.bufferList buffers count))
      (counted : window.Put writtenOut (Bytes.ofWord total) put)
      (decoded : found.2.carry.decode (window.held (window.bufferList buffers count)) =
        (text, carry))
      (streamed : found.2.carry.GoesOn (window.held (window.bufferList buffers count)) text carry) :
      Leaves found .hostWrite [descriptor, buffers, count, writtenOut]
        (found.1, { found.2 with
          window := some put, heard := found.2.heard.map (· ++ text), carry := carry })
        (found.2.routed text)
  | copy {f : HostFunction} {source target : Side} {address place size : UInt32}
      {read written put : Memory} (copies : Copies f source target)
      (reads : source.memory found = some read) (writes : target.memory found = some written)
      (whole : (read.slice address.toNat size.toNat).length = size.toNat)
      (copied : written.Put place (read.slice address.toNat size.toNat) put) :
      Leaves found f [place, address, size] (target.put put found) ""

/-- Either the transfer was ready and has left what it is to leave, or it was refused and nothing has
changed and nothing is shown. -/
def Whole (f : HostFunction) (words : List UInt32) (found : Option Memory × Desk) (trace : Trace)
    (result : Except Signal (List Value)) (left : Option Memory × Desk) : Prop :=
  (Exchange.mk .isClosed false ∈ trace ∧ Ready found f words ∧
    (∃ values, result = .ok values) ∧ ∃ text, trace.Shows text ∧ Leaves found f words left text) ∨
  (¬ (Exchange.mk .isClosed false ∈ trace ∧ Ready found f words)) ∧
    (∃ signal, result = .error signal) ∧ left = found ∧ trace.Shows ""

section Transfers

variable {f : HostFunction} {words : List UInt32} {found left : Option Memory × Desk}
  {trace : Trace} {result : Except Signal (List Value)}

namespace Whole

theorem of_closed :
    Whole f words found [⟨.isClosed, true⟩] (.error (.fault .terminated)) found :=
  .inr ⟨by simp, ⟨_, rfl⟩, rfl, .isClosed true⟩

theorem of_refused (not_ready : ¬ Ready found f words)
    (refused : trace = [] ∧ (∃ signal, result = .error signal) ∧ left = found) :
    Whole f words found (⟨.isClosed, false⟩ :: trace) result left := by
  obtain ⟨rfl, failed, rfl⟩ := refused
  exact .inr ⟨fun ⟨_, ready⟩ => not_ready ready, failed, rfl, .isClosed false⟩

theorem of_ready (ready : Ready found f words) {text : String} {values : List Value}
    (done : result = .ok values) (shows : trace.Shows text)
    (leaves : Leaves found f words left text) :
    Whole f words found (⟨.isClosed, false⟩ :: trace) result left := by
  refine .inl ⟨List.mem_cons_self, ready, ⟨values, done⟩, text, ?_, leaves⟩
  have whole := (Trace.Shows.isClosed false).append shows
  rwa [String.empty_append] at whole

end Whole

section Write

variable {descriptor buffers count writtenOut : UInt32} {window : Memory} {bytes : Bytes}

def collect (buffers count writtenOut : UInt32) : Memory.Access Bytes := do
  let bytes ← Memory.gather (← Memory.buffers buffers count)
  Memory.writeWord writtenOut bytes.length.toUInt32
  return bytes

def putOut (bytes : Bytes) : DeskService (List Value) := do
  let desk ← Service.state
  let (text, carry) := desk.carry.decode bytes
  let desk ← Service.ofHost ({ desk with carry }.emit text)
  Service.update fun _ => desk
  return success

theorem hostWrite_eq (descriptor buffers count writtenOut : UInt32) :
    hostWrite descriptor buffers count writtenOut = ensureOpen >>= fun _ =>
      if 2 < descriptor then Service.fault (.badWriteDescriptor descriptor)
      else Side.holder.work (collect buffers count writtenOut) >>= putOut :=
  rfl

theorem runs_putOut (run : Service.Runs (putOut bytes) found trace result left) :
    result = .ok success ∧ left = (found.1, found.2.writing bytes) ∧
      trace.Shows (found.2.routed (found.2.settled bytes)) := by
  obtain ⟨between, shown, rest, emitted, went, rfl⟩ :=
    Service.runs_ofHost_bind.mp (Service.runs_state_bind.mp run)
  obtain ⟨rfl, shows⟩ := Desk.runs_emit emitted
  have ended := Service.runs_update_bind.mp went
  obtain ⟨rfl, rfl, rfl⟩ := Service.runs_pure.mp ended
  rw [List.append_nil]
  exact ⟨rfl, rfl, shows⟩

theorem exists_runs_putOut (found : Option Memory × Desk) (bytes : Bytes) :
    ∃ trace, Service.Runs (putOut bytes) found trace (.ok success)
      (found.1, found.2.writing bytes) := by
  obtain ⟨shown, emitted⟩ := Desk.exists_runs_emit
    { found.2 with carry := (found.2.carry.decode bytes).2 } (found.2.settled bytes)
  exact ⟨_, Service.runs_state_bind.mpr (Service.runs_ofHost_bind.mpr ⟨_, shown, [], emitted,
    Service.runs_update_bind.mpr (Service.runs_pure.mpr ⟨rfl, rfl, rfl⟩), rfl⟩)⟩

theorem allOrNothing_collect (small : window.size ≤ 65535 * Wasm.pageSize)
    (buffers count writtenOut : UInt32) :
    Memory.Access.AllOrNothing (Collectable window buffers count writtenOut)
      (collect buffers count writtenOut) window (window.held (window.bufferList buffers count))
      (window.splice writtenOut.toNat
        (Bytes.ofWord (window.held (window.bufferList buffers count)).length.toUInt32)) := by
  have gathered (list : List Buffer) : Memory.Access.AllOrNothing
      ((∀ buffer ∈ list, buffer.Inside window) ∧
        writtenOut % 4 = 0 ∧ writtenOut.toNat + 4 ≤ window.size)
      (do
        let bytes ← Memory.gather list
        Memory.writeWord writtenOut bytes.length.toUInt32
        return bytes)
      window (window.held list)
      (window.splice writtenOut.toNat (Bytes.ofWord (window.held list).length.toUInt32)) :=
    (Memory.Access.allOrNothing_gather window list).bind
      ((Memory.Access.allOrNothing_writeWord window writtenOut _).map _)
  have found := Memory.Access.allOrNothing_buffers window buffers count
  refine (found.bind (gathered _)).of_iff ⟨fun collectable => ?_, ?_⟩
  · have array := collectable.array
    exact ⟨⟨collectable.array_aligned, by omega⟩, collectable.inside, collectable.place_aligned,
      collectable.place⟩
  · rintro ⟨⟨array_aligned, array⟩, inside, place_aligned, place⟩
    have pages : 65535 * Wasm.pageSize = 4294901760 := rfl
    have words : UInt32.size = 4294967296 := rfl
    exact ⟨array_aligned, by omega, inside, place_aligned, place⟩

theorem records_of_collectable (small : window.size ≤ 65535 * Wasm.pageSize)
    (collectable : Collectable window buffers count writtenOut) :
    (window.bufferList buffers count).length = count.toNat := by
  have array := collectable.array
  have pages : 65535 * Wasm.pageSize = 4294901760 := rfl
  have words : UInt32.size = 4294967296 := rfl
  rw [Memory.length_bufferList]
  all_goals omega

theorem ready_write_iff :
    Ready found .hostWrite [descriptor, buffers, count, writtenOut] ↔
      descriptor ≤ 2 ∧ ∃ window, found.2.window = some window ∧
        Collectable window buffers count writtenOut := by
  constructor
  · rintro ⟨stream, lent, collectable⟩
    exact ⟨stream, _, lent, collectable⟩
  · rintro ⟨stream, window, lent, collectable⟩
    exact .write stream lent collectable

theorem whole_hostWrite
    (small : ∀ window, found.2.window = some window → window.size ≤ 65535 * Wasm.pageSize)
    (run : Service.Runs (hostWrite descriptor buffers count writtenOut) found trace result left) :
    Whole .hostWrite [descriptor, buffers, count, writtenOut] found trace result left := by
  rw [hostWrite_eq] at run
  rcases runs_ensureOpen_bind_iff.mp run with ⟨rfl, rfl, rfl⟩ | ⟨later, rfl, went⟩
  · exact .of_closed
  split at went
  · next refused =>
    obtain ⟨rfl, rfl, rfl⟩ := Service.runs_fault.mp went
    refine .of_refused ?_ ⟨rfl, ⟨_, rfl⟩, rfl⟩
    rw [ready_write_iff]
    rintro ⟨stream, -⟩
    exact absurd stream (UInt32.not_le.mpr refused)
  next stream =>
  have stream : descriptor ≤ 2 := UInt32.not_lt.mp stream
  rcases lent : found.2.window with _ | window
  · refine .of_refused ?_ (Side.holder.refused_without lent went)
    rw [ready_write_iff]
    rintro ⟨-, window, lent_so, -⟩
    rw [lent] at lent_so
    cases lent_so
  have collecting := allOrNothing_collect (small window lent) buffers count writtenOut
  by_cases collectable : Collectable window buffers count writtenOut
  · have puts := (Side.holder.runs_work_bind_yields lent (collecting.done collectable)).mp went
    obtain ⟨rfl, rfl, shows⟩ := runs_putOut puts
    refine .of_ready (.write stream lent collectable) rfl shows ?_
    have length := Memory.length_held collectable.inside
    refine .write lent (records_of_collectable (small window lent) collectable) (fun few => ?_)
      (Memory.put_splice collectable.place) rfl (found.2.carry.goesOn_decode _)
    rw [← length] at few ⊢
    exact UInt32.toNat_ofNat_of_lt' few
  · refine .of_refused ?_ (Side.holder.refused_of_work lent collecting collectable went)
    rw [ready_write_iff]
    rintro ⟨-, window_so, lent_so, collectable_so⟩
    rw [lent] at lent_so
    cases lent_so
    exact collectable collectable_so

theorem exists_runs_hostWrite
    (small : ∀ window, found.2.window = some window → window.size ≤ 65535 * Wasm.pageSize)
    (ready : Ready found .hostWrite [descriptor, buffers, count, writtenOut]) :
    ∃ trace values left, Service.Runs (hostWrite descriptor buffers count writtenOut) found trace
      (.ok values) left := by
  obtain ⟨stream, window, lent, collectable⟩ := ready_write_iff.mp ready
  have collected := (allOrNothing_collect (small window lent) buffers count writtenOut).done
    collectable
  obtain ⟨shown, puts⟩ := exists_runs_putOut (Side.holder.put _ found) _
  have went := (Side.holder.runs_work_bind_yields lent collected).mpr puts
  rw [hostWrite_eq]
  simp only [if_neg (UInt32.not_lt.mpr stream)]
  exact ⟨_, _, _, runs_ensureOpen_bind_iff.mpr (.inr ⟨shown, rfl, went⟩)⟩

end Write

section Copy

variable {source target : Side} {place address size : UInt32} {read written : Memory}

def copy (source target : Side) (place address size : UInt32) : DeskService (List Value) := do
  ensureMemory
  ensureOpen
  let bytes ← source.work (Memory.read address size.toNat)
  target.work (Memory.write place bytes)
  return []

theorem Copies.ready_iff (copies : Copies f source target) :
    Ready found f [place, address, size] ↔ ∃ read written,
      source.memory found = some read ∧ target.memory found = some written ∧
        address.toNat + size.toNat ≤ read.size ∧ place.toNat + size.toNat ≤ written.size := by
  constructor
  · rintro (_ | ⟨copies_so, reads, writes, readable, writable⟩)
    cases copies <;> cases copies_so <;> exact ⟨_, _, reads, writes, readable, writable⟩
  · rintro ⟨read, written, reads, writes, readable, writable⟩
    exact .copy copies reads writes readable writable

theorem whole_copy (copies : Copies f source target)
    (run : Service.Runs (copy source target place address size) found trace result left) :
    Whole f [place, address, size] found trace result left := by
  rcases runs_ensureMemory_bind_iff.mp run with ⟨none, rfl, rfl, rfl⟩ | ⟨some_memory, opening⟩
  · exact .inr ⟨by simp, ⟨_, rfl⟩, rfl, .nil⟩
  rcases runs_ensureOpen_bind_iff.mp opening with ⟨rfl, rfl, rfl⟩ | ⟨later, rfl, went⟩
  · exact .of_closed
  rcases reads : source.memory found with _ | read
  · refine .of_refused ?_ (source.refused_without reads went)
    rw [copies.ready_iff]
    rintro ⟨read, written, reads_so, -⟩
    rw [reads] at reads_so
    cases reads_so
  have reading := Memory.Access.allOrNothing_read read address size.toNat
  by_cases readable : address.toNat + size.toNat ≤ read.size
  · have onward := (source.runs_work_bind_yields reads (reading.done readable)).mp went
    rw [source.put_same reads] at onward
    rcases writes : target.memory found with _ | written
    · refine .of_refused ?_ (target.refused_without writes onward)
      rw [copies.ready_iff]
      rintro ⟨read, written, -, writes_so, -⟩
      rw [writes] at writes_so
      cases writes_so
    have length := Memory.length_slice readable
    have writing := Memory.Access.allOrNothing_write written place
      (read.slice address.toNat size.toNat)
    by_cases writable : place.toNat + (read.slice address.toNat size.toNat).length ≤ written.size
    · have done := (target.runs_work_bind_yields writes (writing.done writable)).mp onward
      obtain ⟨rfl, rfl, rfl⟩ := Service.runs_pure.mp done
      have copied := Memory.put_splice writable
      rw [length] at writable
      exact .of_ready (.copy copies reads writes readable writable) rfl .nil
        (.copy copies reads writes length copied)
    · refine .of_refused ?_ (target.refused_of_work writes writing writable onward)
      rw [copies.ready_iff]
      rintro ⟨read_so, written_so, -, writes_so, -, writable_so⟩
      rw [writes] at writes_so
      cases writes_so
      exact writable (length.symm ▸ writable_so)
  · refine .of_refused ?_ (source.refused_of_work reads reading readable went)
    rw [copies.ready_iff]
    rintro ⟨read_so, written_so, reads_so, -, readable_so, -⟩
    rw [reads] at reads_so
    cases reads_so
    exact readable readable_so

theorem exists_runs_copy (copies : Copies f source target)
    (ready : Ready found f [place, address, size]) :
    ∃ trace values left, Service.Runs (copy source target place address size) found trace
      (.ok values) left := by
  obtain ⟨read, written, reads, writes, readable, writable⟩ := copies.ready_iff.mp ready
  have some_memory : found.1 ≠ none := by
    cases copies with
    | copyIn => exact Option.ne_none_iff_exists'.mpr ⟨_, writes⟩
    | copyOut => exact Option.ne_none_iff_exists'.mpr ⟨_, reads⟩
  have length := Memory.length_slice readable
  rw [← length] at writable
  have reading := (Memory.Access.allOrNothing_read read address size.toNat).done readable
  have writing := (Memory.Access.allOrNothing_write written place _).done writable
  refine ⟨_, [], target.put (written.splice place.toNat (read.slice address.toNat size.toNat)) found,
    runs_ensureMemory_bind_iff.mpr (.inr ⟨some_memory,
      runs_ensureOpen_bind_iff.mpr (.inr ⟨[], rfl, ?_⟩)⟩)⟩
  refine (source.runs_work_bind_yields reads reading).mpr ?_
  rw [source.put_same reads]
  exact (target.runs_work_bind_yields writes writing).mpr (Service.runs_pure.mpr ⟨rfl, rfl, rfl⟩)

end Copy

inductive Serves : HostFunction → List UInt32 → DeskService (List Value) → Prop
  | write (descriptor buffers count writtenOut : UInt32) :
      Serves .hostWrite [descriptor, buffers, count, writtenOut]
        (hostWrite descriptor buffers count writtenOut)
  | copy {f : HostFunction} {source target : Side} (copies : Copies f source target)
      (place address size : UInt32) :
      Serves f [place, address, size] (copy source target place address size)
  | mismatch {f : HostFunction} {words : List UInt32} (never : ∀ found, ¬ Ready found f words) :
      Serves f words (Service.fault (.mismatch .parameterCount))

theorem serves_serve (moves : f = .hostWrite ∨ f = .copyIn ∨ f = .copyOut)
    (arguments : List Value) : Serves f (arguments.map Value.word) (serve f arguments) := by
  unfold serve
  generalize arguments.map Value.word = words
  rcases moves with rfl | rfl | rfl
  · split
    case h_2 => exact .write _ _ _ _
    case h_7 write _ _ _ _ =>
      refine .mismatch fun found ready => ?_
      cases ready with
      | write => exact write _ _ _ _ rfl rfl
      | copy copies => cases copies
    all_goals contradiction
  · split
    case h_5 => exact .copy .copyIn _ _ _
    case h_7 copies _ =>
      refine .mismatch fun found ready => ?_
      cases ready with
      | copy => exact copies _ _ _ rfl rfl
    all_goals contradiction
  · split
    case h_6 => exact .copy .copyOut _ _ _
    case h_7 copies =>
      refine .mismatch fun found ready => ?_
      cases ready with
      | copy => exact copies _ _ _ rfl rfl
    all_goals contradiction

theorem whole_of_serves {program : DeskService (List Value)} (serves : Serves f words program)
    (small : ∀ window, found.2.window = some window → window.size ≤ 65535 * Wasm.pageSize)
    (run : Service.Runs program found trace result left) :
    Whole f words found trace result left := by
  cases serves with
  | write => exact whole_hostWrite small run
  | copy copies => exact whole_copy copies run
  | mismatch =>
    obtain ⟨rfl, rfl, rfl⟩ := Service.runs_fault.mp run
    exact .inr ⟨by simp, ⟨_, rfl⟩, rfl, .nil⟩

theorem exists_run_of_serves {program : DeskService (List Value)} (serves : Serves f words program)
    (small : ∀ window, found.2.window = some window → window.size ≤ 65535 * Wasm.pageSize)
    (ready : Ready found f words) :
    ∃ trace values left, Service.Runs program found trace (.ok values) left := by
  cases serves with
  | write => exact exists_runs_hostWrite small ready
  | copy copies => exact exists_runs_copy copies ready
  | mismatch never => exact absurd ready (never found)

/-- A transfer between the holder of the filesystem, its module and the output goes through exactly
where the other end is there and all that it reads and writes lies inside the memories, and leaves
what it is to leave; elsewhere it fails and leaves both memories, the held output, the listener and
the terminal as they were. -/
theorem transfer_whole_or_not_at_all (moves : f = .hostWrite ∨ f = .copyIn ∨ f = .copyOut)
    (small : ∀ window, found.2.window = some window → window.size ≤ 65535 * Wasm.pageSize)
    (arguments : List Value) :
    (∀ trace result left, Service.Runs (serve f arguments) found trace result left →
      Whole f (arguments.map Value.word) found trace result left) ∧
    (Ready found f (arguments.map Value.word) →
      ∃ trace values left, Service.Runs (serve f arguments) found trace (.ok values) left) :=
  ⟨fun _ _ _ => whole_of_serves (serves_serve moves arguments) small,
    exists_run_of_serves (serves_serve moves arguments) small⟩

end Transfers

def letters : Memory :=
  Memory.ofBytes [8, 0, 0, 0, 8, 0, 0, 0, 65, 66, 67, 68, 69, 70, 71, 72]

/-- The holder's memory is this one, and a listener has heard nothing yet. -/
def listening : Option Memory × Desk :=
  (none, { window := some letters, heard := some "" })

/-- The count goes into the buffer that is written, whose former bytes are heard; with a second
buffer, which reaches far out of the memory, nothing is. -/
theorem count_inside_buffer :
    (∀ window, listening.2.window = some window → window.size ≤ 65535 * Wasm.pageSize) ∧
    (∃ trace values left put,
      Service.Runs (serve .hostWrite [.i32 1, .i32 0, .i32 1, .i32 12]) listening trace (.ok values)
        left ∧
      left.2.heard = some "ABCDEFGH" ∧ left.2.window = some put ∧
      put.slice 8 8 = [65, 66, 67, 68, 8, 0, 0, 0]) ∧
    ∀ trace result left,
      Service.Runs (serve .hostWrite [.i32 1, .i32 0, .i32 2, .i32 12]) listening trace result left →
        left = listening ∧ trace.Shows "" := by
  have small : ∀ window, listening.2.window = some window →
      window.size ≤ 65535 * Wasm.pageSize := by
    rintro window ⟨⟩
    decide +kernel
  obtain ⟨whole, can_go⟩ := transfer_whole_or_not_at_all (.inl rfl) small
    [.i32 1, .i32 0, .i32 1, .i32 12]
  obtain ⟨whole_two, -⟩ := transfer_whole_or_not_at_all (.inl rfl) small
    [.i32 1, .i32 0, .i32 2, .i32 12]
  refine ⟨small, ?_, fun trace result left run => ?_⟩
  · have collectable : Collectable letters 0 1 12 := by
      constructor <;> decide +kernel
    obtain ⟨trace, values, left, run⟩ := can_go (.write (by decide) rfl collectable)
    refine ⟨trace, values, left, ?_⟩
    rcases whole _ _ _ run with ⟨-, -, -, text, shows, leaves⟩ | ⟨-, ⟨signal, failed⟩, -⟩
    · have words : [Value.i32 1, .i32 0, .i32 1, .i32 12].map Value.word = [1, 0, 1, 12] := rfl
      rw [words] at leaves
      obtain @⟨_, _, _, _, total, window, put, text, carry, ⟨⟩, -, counts, counted, -, streamed⟩ :=
        leaves
      have room : Buffer.room (letters.bufferList 0 1) = 8 := by decide +kernel
      have held : letters.held (letters.bufferList 0 1) = Bytes.ofString "ABCDEFGH" := by
        decide +kernel
      have total_eq : total = 8 := by
        apply UInt32.toNat_inj.mp
        rw [counts (by rw [room]; decide), room]
        rfl
      subst total_eq
      rw [held] at streamed
      have twelve : (12 : UInt32).toNat = 12 := rfl
      have front : put.slice 8 4 = letters.slice 8 4 :=
        counted.alike.slice fun position _ before ⟨reached, _⟩ => by omega
      have behind : put.slice (8 + 4) 4 = [8, 0, 0, 0] := counted.stands
      have kept : letters.slice 8 4 = [65, 66, 67, 68] := by decide +kernel
      refine ⟨put, run, ?_, rfl, ?_⟩
      · rw [streamed.text_of_whole (by decide)]
        rfl
      · rw [put.slice_add 8 4 4, front, behind, kept]
        rfl
    · cases failed
  · rcases whole_two _ _ _ run with ⟨-, ready, -⟩ | ⟨-, -, kept, shows⟩
    · obtain ⟨-, window, ⟨⟩, collectable⟩ := ready_write_iff.mp ready
      exact absurd collectable.inside (by decide +kernel)
    · exact ⟨kept, shows⟩

end Filesystem

end Buildbox
