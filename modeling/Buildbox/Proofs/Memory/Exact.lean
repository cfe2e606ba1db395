import Buildbox.Proofs.Memory.Frame

/-!
Accesses that are carried out as a whole or not at all: for each of them a condition says when it
succeeds, and where the condition fails nothing has changed. Reading a list of buffers and what they
hold is such an access, and so is a single write behind any number of reads.
-/

set_option autoImplicit false

namespace Buildbox.Memory

namespace Access

variable {α β : Type}

/-- The access succeeds where it is allowed to, with this result and leaving that memory. Elsewhere
it fails and leaves the memory that it found. -/
structure AllOrNothing (allowed : Prop) (access : Access α) (memory : Memory) (a : α)
    (put : Memory) : Prop where
  done : allowed → Yields access memory a put
  undone : ¬ allowed → ∃ fault, access.run.run memory = (.error fault, memory)

namespace AllOrNothing

variable {allowed more : Prop} {access : Access α} {next : α → Access β} {memory put left : Memory}
  {a : α} {b : β}

theorem yields_iff (whole : AllOrNothing allowed access memory a put) {c : α} :
    Yields access memory c left ↔ allowed ∧ c = a ∧ left = put := by
  constructor
  · intro yields
    by_cases holds : allowed
    · rw [Yields, whole.done holds] at yields
      cases yields
      exact ⟨holds, rfl, rfl⟩
    · obtain ⟨fault, failed⟩ := whole.undone holds
      rw [Yields, failed] at yields
      cases yields
  · rintro ⟨holds, rfl, rfl⟩
    exact whole.done holds

theorem of_iff (whole : AllOrNothing allowed access memory a put) (same : more ↔ allowed) :
    AllOrNothing more access memory a put :=
  ⟨fun holds => whole.done (same.mp holds), fun fails => whole.undone (mt same.mpr fails)⟩

protected theorem pure (a : α) (memory : Memory) :
    AllOrNothing True (pure a) memory a memory :=
  ⟨fun _ => rfl, fun absurd => (absurd trivial).elim⟩

protected theorem bind (reads : AllOrNothing allowed access memory a memory)
    (onward : AllOrNothing more (next a) memory b put) :
    AllOrNothing (allowed ∧ more) (access >>= next) memory b put := by
  constructor
  · rintro ⟨holds, holds_more⟩
    exact yields_bind.mpr ⟨a, memory, reads.done holds, onward.done holds_more⟩
  · intro fails
    by_cases holds : allowed
    · rw [run_bind_ok (reads.done holds)]
      exact onward.undone fun holds_more => fails ⟨holds, holds_more⟩
    · obtain ⟨fault, failed⟩ := reads.undone holds
      exact ⟨fault, run_bind_error failed⟩

protected theorem map (first : AllOrNothing allowed access memory a put) (f : α → β) :
    AllOrNothing allowed (do return f (← access)) memory (f a) put := by
  constructor
  · intro holds
    exact yields_bind.mpr ⟨a, put, first.done holds, yields_pure.mpr ⟨rfl, rfl⟩⟩
  · intro fails
    obtain ⟨fault, failed⟩ := first.undone fails
    exact ⟨fault, run_bind_error failed⟩

end AllOrNothing

variable {memory : Memory} {address : UInt32}

theorem run_checkRange {count : Nat} (outside : ¬ address.toNat + count ≤ memory.size) :
    (checkRange address count).run.run memory =
      (.error (.outOfBounds address count.toUInt32 memory.size.toUInt32), memory) := by
  change (ite _ _ _ : Access Unit).run.run memory = _
  rw [if_pos (Nat.lt_of_not_le outside)]
  rfl

theorem run_checkAligned (off : ¬ address % 4 = 0) (width : Nat) :
    (checkAligned address width).run.run memory = (.error (.misaligned address width), memory) := by
  rw [checkAligned, if_pos (bne_iff_ne.mpr off)]
  rfl

theorem allOrNothing_checkRange (memory : Memory) (address : UInt32) (count : Nat) :
    AllOrNothing (address.toNat + count ≤ memory.size) (checkRange address count) memory ()
      memory :=
  ⟨fun inside => yields_checkRange.mpr ⟨inside, rfl⟩, fun outside => ⟨_, run_checkRange outside⟩⟩

theorem allOrNothing_checkAligned (memory : Memory) (address : UInt32) (width : Nat) :
    AllOrNothing (address % 4 = 0) (checkAligned address width) memory () memory :=
  ⟨fun aligned => yields_checkAligned.mpr ⟨aligned, rfl⟩, fun off => ⟨_, run_checkAligned off _⟩⟩

theorem allOrNothing_read (memory : Memory) (address : UInt32) (count : Nat) :
    AllOrNothing (address.toNat + count ≤ memory.size) (read address count) memory
      (memory.slice address.toNat count) memory := by
  refine ⟨fun inside => yields_read.mpr ⟨inside, rfl, rfl⟩, fun outside => ?_⟩
  obtain ⟨fault, failed⟩ := (allOrNothing_checkRange memory address count).undone outside
  exact ⟨fault, run_bind_error failed⟩

theorem read_leaves (memory : Memory) (address : UInt32) (count : Nat) :
    ∃ outcome, (read address count).run.run memory = (outcome, memory) := by
  have reads := allOrNothing_read memory address count
  by_cases inside : address.toNat + count ≤ memory.size
  · exact ⟨_, reads.done inside⟩
  · obtain ⟨fault, failed⟩ := reads.undone inside
    exact ⟨_, failed⟩

theorem allOrNothing_write (memory : Memory) (address : UInt32) (bytes : Bytes) :
    AllOrNothing (address.toNat + bytes.length ≤ memory.size) (write address bytes) memory ()
      (memory.splice address.toNat bytes) := by
  refine ⟨fun inside => yields_write.mpr ⟨inside, rfl⟩, fun outside => ?_⟩
  obtain ⟨fault, failed⟩ := (allOrNothing_checkRange memory address bytes.length).undone outside
  exact ⟨fault, run_bind_error failed⟩

theorem allOrNothing_writeWord (memory : Memory) (address word : UInt32) :
    AllOrNothing (address % 4 = 0 ∧ address.toNat + 4 ≤ memory.size) (writeWord address word) memory
      () (memory.splice address.toNat (Bytes.ofWord word)) :=
  (allOrNothing_checkAligned memory address 32).bind
    (allOrNothing_write memory address (Bytes.ofWord word))

/-- The bytes that an array of buffer records takes; as a word it saturates. -/
theorem allOrNothing_buffers (memory : Memory) (address count : UInt32) :
    AllOrNothing (address % 4 = 0 ∧
        address.toNat + min (count.toNat * 8) (UInt32.size - 1) ≤ memory.size)
      (buffers address count) memory (memory.bufferList address count) memory :=
  (allOrNothing_checkAligned memory address 32).bind
    ((allOrNothing_read memory address _).map buffersOf)

theorem allOrNothing_gather (memory : Memory) (list : List Buffer) :
    AllOrNothing (∀ buffer ∈ list, buffer.Inside memory) (gather list) memory (memory.held list)
      memory := by
  induction list with
  | nil => exact (AllOrNothing.pure _ memory).of_iff (by simp)
  | cons buffer rest ih =>
    have first := allOrNothing_read memory buffer.address buffer.length.toNat
    rw [held_cons]
    exact (first.bind (ih.map _)).of_iff List.forall_mem_cons

end Access

theorem length_buffersOf (bytes : Bytes) : (buffersOf bytes).length = bytes.length / 8 := by
  induction bytes using buffersOf.induct with
  | case1 a0 a1 a2 a3 l0 l1 l2 l3 rest ih =>
    rw [buffersOf, List.length_cons, ih]
    simp only [List.length_cons]
    omega
  | case2 bytes short =>
    rw [buffersOf.eq_2 bytes short]
    match bytes with
    | [] | [_] | [_, _] | [_, _, _] | [_, _, _, _] | [_, _, _, _, _] | [_, _, _, _, _, _]
    | [_, _, _, _, _, _, _] => simp
    | _ :: _ :: _ :: _ :: _ :: _ :: _ :: _ :: _ => exact (short _ _ _ _ _ _ _ _ _ rfl).elim

theorem length_bufferList {memory : Memory} {address count : UInt32}
    (inside : address.toNat + min (count.toNat * 8) (UInt32.size - 1) ≤ memory.size) :
    (memory.bufferList address count).length = min (count.toNat * 8) (UInt32.size - 1) / 8 := by
  rw [bufferList, length_buffersOf, length_slice inside]

theorem length_held {memory : Memory} {list : List Buffer}
    (inside : ∀ buffer ∈ list, buffer.Inside memory) :
    (memory.held list).length = Buffer.room list := by
  induction list with
  | nil => rfl
  | cons buffer rest ih =>
    obtain ⟨first, others⟩ := List.forall_mem_cons.mp inside
    rw [held_cons, List.length_append, length_slice first, ih others, Buffer.room_cons]

end Buildbox.Memory
