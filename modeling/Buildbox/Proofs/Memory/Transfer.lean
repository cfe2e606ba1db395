import Buildbox.Memory

/-!
What a memory holds after bytes went into the buffers of a list. The bytes are placed in order, each
buffer before the last used one is full, and where the buffers lie apart from each other all of the
bytes can be read back from them.
-/

set_option autoImplicit false

namespace Buildbox

/-- Two buffers without a common byte. -/
def Buffer.Apart (b c : Buffer) : Prop :=
  b.address.toNat + b.length.toNat ≤ c.address.toNat ∨
    c.address.toNat + c.length.toNat ≤ b.address.toNat

namespace Memory

theorem length_toBytes (memory : Memory) : memory.toBytes.length = memory.size :=
  rfl

theorem slice_eq (memory : Memory) (address count : Nat) :
    memory.slice address count = (memory.toBytes.drop address).take count := by
  rw [slice, ByteArray.data_extract, Array.toList_extract, List.extract_eq_take_drop,
    Nat.add_sub_cancel_left]
  rfl

theorem slice_shorter (memory : Memory) (address : Nat) {few many : Nat} (fewer : few ≤ many) :
    memory.slice address few <+: memory.slice address many := by
  rw [slice_eq, slice_eq]
  exact List.take_prefix_take_left fewer

theorem toBytes_splice (memory : Memory) (address : Nat) (bytes : Bytes) :
    (memory.splice address bytes).toBytes =
      memory.toBytes.take address ++ bytes ++ memory.toBytes.drop (address + bytes.length) := by
  simp only [splice, toBytes, ByteArray.copySlice, List.data_toByteArray, Array.toList_append,
    Array.toList_extract, List.extract_eq_take_drop, List.size_toArray, Nat.sub_zero, Nat.zero_add,
    Nat.min_self, List.drop_zero, List.take_length]
  congr 1
  apply List.take_of_length_le
  simp only [List.length_drop, Array.length_toList, Nat.le_refl]

variable {memory : Memory} {address : Nat} {bytes : Bytes}

theorem slice_splice (inside : address + bytes.length ≤ memory.size) :
    (memory.splice address bytes).slice address bytes.length = bytes := by
  have before : (memory.toBytes.take address).length = address := by
    rw [List.length_take, length_toBytes]
    omega
  rw [slice_eq, toBytes_splice, List.append_assoc, List.drop_append_of_le_length (by omega),
    List.drop_of_length_le (by omega), List.nil_append, List.take_left]

theorem slice_splice_apart (inside : address + bytes.length ≤ memory.size) {other count : Nat}
    (apart : other + count ≤ address ∨ address + bytes.length ≤ other) :
    (memory.splice address bytes).slice other count = memory.slice other count := by
  have before : (memory.toBytes.take address).length = address := by
    rw [List.length_take, length_toBytes]
    omega
  rw [slice_eq, slice_eq, toBytes_splice]
  rcases apart with ahead | behind
  · rw [List.append_assoc, List.drop_append_of_le_length (by omega),
      List.take_append_of_le_length (by rw [List.length_drop]; omega), List.drop_take,
      List.take_take, Nat.min_eq_left (by omega)]
  · have reached : (memory.toBytes.take address ++ bytes).length ≤ other := by
      rw [List.length_append]
      omega
    rw [List.drop_append, List.drop_of_length_le reached, List.nil_append, List.drop_drop,
      List.length_append, before, Nat.add_sub_cancel' behind]

/-- The access succeeds on this memory, with this result, and leaves that memory. -/
def Access.Yields {α : Type} (access : Access α) (memory : Memory) (a : α) (left : Memory) : Prop :=
  access.run.run memory = (.ok a, left)

namespace Access

variable {α β : Type} {left : Memory}

theorem yields_pure {a b : α} : Yields (pure a) memory b left ↔ b = a ∧ left = memory := by
  constructor
  · intro yields
    cases yields
    exact ⟨rfl, rfl⟩
  · rintro ⟨rfl, rfl⟩
    rfl

theorem run_bind_ok {access : Access α} {next : α → Access β} {a : α} {between : Memory}
    (reached : access.run.run memory = (.ok a, between)) :
    (access >>= next).run.run memory = (next a).run.run between := by
  rw [ExceptT.run_bind, StateT.run_bind]
  simp only [reached]
  rfl

theorem run_bind_error {access : Access α} {next : α → Access β} {fault : AccessFault}
    {between : Memory} (reached : access.run.run memory = (.error fault, between)) :
    (access >>= next).run.run memory = (.error fault, between) := by
  rw [ExceptT.run_bind, StateT.run_bind]
  simp only [reached]
  rfl

theorem yields_bind {access : Access α} {next : α → Access β} {b : β} :
    Yields (access >>= next) memory b left ↔
      ∃ a between, Yields access memory a between ∧ Yields (next a) between b left := by
  unfold Yields
  constructor
  · intro yields
    rcases reached : (access.run.run memory : Except AccessFault α × Memory) with
      ⟨fault | a, between⟩
    · rw [run_bind_error reached] at yields
      cases yields
    · rw [run_bind_ok reached] at yields
      exact ⟨a, between, rfl, yields⟩
  · rintro ⟨a, between, reached, yields⟩
    rw [run_bind_ok reached]
    exact yields

theorem yields_checkRange {address : UInt32} {count : Nat} {u : Unit} :
    Yields (checkRange address count) memory u left ↔
      address.toNat + count ≤ memory.size ∧ left = memory := by
  change (ite _ _ _ : Access Unit).run.run memory = _ ↔ _
  split
  · next outside =>
    constructor
    · intro yields
      cases yields
    · rintro ⟨inside, _⟩
      omega
  · next inside =>
    rw [← Yields, yields_pure]
    have inside : address.toNat + count ≤ memory.size := by omega
    exact ⟨fun ⟨_, same⟩ => ⟨inside, same⟩, fun ⟨_, same⟩ => ⟨rfl, same⟩⟩

theorem yields_checkAligned {address : UInt32} {width : Nat} {u : Unit} :
    Yields (checkAligned address width) memory u left ↔ address % 4 = 0 ∧ left = memory := by
  rw [checkAligned]
  split
  · next off =>
    constructor
    · intro yields
      cases yields
    · rintro ⟨aligned, _⟩
      simp [aligned] at off
  · next aligned =>
    rw [yields_pure]
    have aligned : address % 4 = 0 := by simpa using aligned
    exact ⟨fun ⟨_, same⟩ => ⟨aligned, same⟩, fun ⟨_, same⟩ => ⟨rfl, same⟩⟩

theorem yields_add {address sum : UInt32} {count : Nat} :
    Yields (add address count) memory sum left ↔
      address.toNat + count < UInt32.size ∧ sum = address + count.toUInt32 ∧ left = memory := by
  rw [add]
  split
  · next beyond =>
    constructor
    · intro yields
      cases yields
    · rintro ⟨below, -⟩
      exact absurd below (Nat.not_lt_of_le beyond)
  · next below => exact yields_pure.trans (and_iff_right (Nat.lt_of_not_le below)).symm

theorem yields_read {address : UInt32} {count : Nat} {bytes : Bytes} :
    Yields (read address count) memory bytes left ↔
      address.toNat + count ≤ memory.size ∧ bytes = memory.slice address.toNat count ∧
        left = memory := by
  rw [read, yields_bind]
  constructor
  · rintro ⟨_, between, checked, found⟩
    obtain ⟨inside, rfl⟩ := yields_checkRange.mp checked
    cases found
    exact ⟨inside, rfl, rfl⟩
  · rintro ⟨inside, rfl, rfl⟩
    exact ⟨(), _, yields_checkRange.mpr ⟨inside, rfl⟩, rfl⟩

theorem yields_write {address : UInt32} {bytes : Bytes} {u : Unit} :
    Yields (write address bytes) memory u left ↔
      address.toNat + bytes.length ≤ memory.size ∧ left = memory.splice address.toNat bytes := by
  rw [write, yields_bind]
  constructor
  · rintro ⟨_, between, checked, put⟩
    obtain ⟨inside, rfl⟩ := yields_checkRange.mp checked
    cases put
    exact ⟨inside, rfl⟩
  · rintro ⟨inside, rfl⟩
    exact ⟨(), _, yields_checkRange.mpr ⟨inside, rfl⟩, rfl⟩

theorem yields_writeWord {address word : UInt32} {u : Unit} :
    Yields (writeWord address word) memory u left ↔
      address % 4 = 0 ∧ address.toNat + 4 ≤ memory.size ∧
        left = memory.splice address.toNat (Bytes.ofWord word) := by
  rw [writeWord, yields_bind]
  constructor
  · rintro ⟨_, between, checked, put⟩
    obtain ⟨aligned, rfl⟩ := yields_checkAligned.mp checked
    exact ⟨aligned, yields_write.mp put⟩
  · rintro ⟨aligned, put⟩
    exact ⟨(), memory, yields_checkAligned.mpr ⟨aligned, rfl⟩, yields_write.mpr put⟩

end Access

/-- The buffer records of an array; its size in bytes saturates at the largest word. -/
def bufferList (memory : Memory) (address count : UInt32) : List Buffer :=
  buffersOf (memory.slice address.toNat (min (count.toNat * 8) (UInt32.size - 1)))

/-- The bytes of all buffers of a list, one after another. -/
def held (memory : Memory) (buffers : List Buffer) : Bytes :=
  buffers.flatMap fun buffer => memory.slice buffer.address.toNat buffer.length.toNat

theorem bufferList_of_buffers {address count : UInt32} {buffers : List Buffer} {left : Memory}
    (found : Access.Yields (Memory.buffers address count) memory buffers left) :
    buffers = memory.bufferList address count ∧ left = memory := by
  obtain ⟨_, checkedIn, checked, reading⟩ := Access.yields_bind.mp found
  obtain ⟨-, rfl⟩ := Access.yields_checkAligned.mp checked
  obtain ⟨bytes, readIn, read, decoded⟩ := Access.yields_bind.mp reading
  obtain ⟨-, rfl, rfl⟩ := Access.yields_read.mp read
  exact Access.yields_pure.mp decoded

theorem held_of_gather {buffers : List Buffer} {bytes : Bytes} {left : Memory}
    (found : Access.Yields (gather buffers) memory bytes left) :
    bytes = memory.held buffers ∧ left = memory := by
  induction buffers generalizing bytes left with
  | nil => exact Access.yields_pure.mp found
  | cons buffer rest ih =>
    obtain ⟨piece, readIn, read, onward⟩ := Access.yields_bind.mp found
    obtain ⟨-, rfl, rfl⟩ := Access.yields_read.mp read
    obtain ⟨later, gatheredIn, gathered, joined⟩ := Access.yields_bind.mp onward
    obtain ⟨rfl, rfl⟩ := ih gathered
    exact Access.yields_pure.mp joined

/-- Bytes put into buffers in order, inside the memory; each buffer before the last used one is
full. -/
inductive Filled : List Buffer → Bytes → Memory → Memory → Prop
  | done {buffers : List Buffer} {memory : Memory} : Filled buffers [] memory memory
  | partly {buffer : Buffer} {rest : List Buffer} {bytes : Bytes} {memory : Memory}
      (short : bytes.length < buffer.length.toNat)
      (inside : buffer.address.toNat + bytes.length ≤ memory.size) :
      Filled (buffer :: rest) bytes memory (memory.splice buffer.address.toNat bytes)
  | full {buffer : Buffer} {rest : List Buffer} {piece later : Bytes} {memory left : Memory}
      (whole : piece.length = buffer.length.toNat)
      (inside : buffer.address.toNat + piece.length ≤ memory.size)
      (after : Filled rest later (memory.splice buffer.address.toNat piece) left) :
      Filled (buffer :: rest) (piece ++ later) memory left

theorem filled_of_scatter {buffers : List Buffer} {bytes : Bytes} {placed : Nat} {left : Memory}
    (done : Access.Yields (scatter buffers bytes) memory placed left) :
    placed ≤ bytes.length ∧ Filled buffers (bytes.take placed) memory left := by
  induction buffers generalizing bytes memory placed with
  | nil =>
    obtain ⟨rfl, rfl⟩ := Access.yields_pure.mp done
    exact ⟨Nat.zero_le _, .done⟩
  | cons buffer rest ih =>
    rw [scatter] at done
    split at done
    · obtain ⟨rfl, rfl⟩ := Access.yields_pure.mp done
      exact ⟨Nat.zero_le _, .done⟩
    · obtain ⟨_, putIn, put, onward⟩ := Access.yields_bind.mp done
      obtain ⟨inside, rfl⟩ := Access.yields_write.mp put
      have length : (bytes.take buffer.length.toNat).length =
          min buffer.length.toNat bytes.length := List.length_take
      split at onward
      · next short =>
        obtain ⟨rfl, rfl⟩ := Access.yields_pure.mp onward
        have short : (bytes.take buffer.length.toNat).length ≠ buffer.length.toNat := by
          simpa using short
        have few : bytes.length < buffer.length.toNat := by omega
        rw [List.take_of_length_le (Nat.le_of_lt few)] at inside ⊢
        rw [List.take_length]
        exact ⟨Nat.le_refl _, .partly few inside⟩
      · next whole =>
        have whole : (bytes.take buffer.length.toNat).length = buffer.length.toNat := by
          simpa using whole
        obtain ⟨count, scatteredIn, scattered, counted⟩ := Access.yields_bind.mp onward
        obtain ⟨rfl, rfl⟩ := Access.yields_pure.mp counted
        obtain ⟨within, filled⟩ := ih scattered
        rw [List.length_drop] at within
        refine ⟨by omega, ?_⟩
        rw [whole] at filled ⊢
        rw [List.take_add]
        exact .full whole inside filled

variable {buffers : List Buffer} {left : Memory}

theorem Filled.slice_apart (filled : Filled buffers bytes memory left) {stretch : Buffer}
    (apart : ∀ buffer ∈ buffers, stretch.Apart buffer) :
    left.slice stretch.address.toNat stretch.length.toNat =
      memory.slice stretch.address.toNat stretch.length.toNat := by
  induction filled with
  | done => rfl
  | @partly buffer rest bytes memory short inside =>
    have first := apart buffer List.mem_cons_self
    unfold Buffer.Apart at first
    exact slice_splice_apart inside (by omega)
  | @full buffer rest piece later memory left whole inside after ih =>
    have first := apart buffer List.mem_cons_self
    unfold Buffer.Apart at first
    rw [ih fun other member => apart other (List.mem_cons_of_mem _ member)]
    exact slice_splice_apart inside (by omega)

/-- Where the buffers lie apart from each other, they hold the bytes put into them. -/
theorem Filled.prefix_held (filled : Filled buffers bytes memory left)
    (apart : buffers.Pairwise Buffer.Apart) : bytes <+: left.held buffers := by
  induction filled with
  | done => exact List.nil_prefix
  | @partly buffer rest bytes memory short inside =>
    have first := (memory.splice buffer.address.toNat bytes).slice_shorter buffer.address.toNat
      (Nat.le_of_lt short)
    rw [slice_splice inside] at first
    exact first.trans (List.prefix_append _ _)
  | @full buffer rest piece later memory left whole inside after ih =>
    obtain ⟨ahead, behind⟩ := List.pairwise_cons.mp apart
    have kept := after.slice_apart ahead
    rw [← whole, slice_splice inside, whole] at kept
    rw [held, List.flatMap_cons, kept]
    exact (List.prefix_append_right_inj piece).mpr (ih behind)

theorem held_splice (inside : address + bytes.length ≤ memory.size)
    (apart : ∀ buffer ∈ buffers, buffer.address.toNat + buffer.length.toNat ≤ address ∨
      address + bytes.length ≤ buffer.address.toNat) :
    (memory.splice address bytes).held buffers = memory.held buffers := by
  induction buffers with
  | nil => rfl
  | cons buffer rest ih =>
    have first := slice_splice_apart inside (apart buffer List.mem_cons_self)
    have others := ih fun other member => apart other (List.mem_cons_of_mem _ member)
    rw [held, List.flatMap_cons, first]
    exact congrArg _ others

end Memory

end Buildbox
