import Mathlib.Algebra.GroupWithZero.Nat
import Buildbox.Proofs.Memory.Transfer

/-!
A scattered write over buffers that share no byte. It comes to exactly the front of the bytes, put
in list order into the buffers before the first empty one; everything else in the memory stays as
it was. An empty buffer with room behind it therefore hides that room.
-/

set_option autoImplicit false

namespace Buildbox

namespace Buffer

instance : DecidableRel Apart := fun _ _ =>
  inferInstanceAs (Decidable (_ ∨ _))

/-- The byte at this position of a memory belongs to the buffer. -/
def Covers (buffer : Buffer) (position : Nat) : Prop :=
  buffer.address.toNat ≤ position ∧ position < buffer.address.toNat + buffer.length.toNat

/-- No byte belongs to both buffers. An empty buffer shares no byte with any, wherever it lies. -/
def Disjoint (b c : Buffer) : Prop :=
  ∀ position, ¬ (b.Covers position ∧ c.Covers position)

/-- The buffer lies inside a memory. -/
def Inside (buffer : Buffer) (memory : Memory) : Prop :=
  buffer.address.toNat + buffer.length.toNat ≤ memory.size

/-- How many bytes the buffers hold in total. -/
def room (buffers : List Buffer) : Nat :=
  (buffers.map fun buffer => buffer.length.toNat).sum

/-- The buffers before the first empty one. -/
def usable (buffers : List Buffer) : List Buffer :=
  buffers.takeWhile fun buffer => buffer.length != 0

variable {b c buffer : Buffer} {rest buffers : List Buffer}

theorem room_cons : room (buffer :: rest) = buffer.length.toNat + room rest := by
  rw [room, List.map_cons, List.sum_cons, room]

theorem room_append (front behind : List Buffer) :
    room (front ++ behind) = room front + room behind := by
  rw [room, List.map_append, List.sum_append, room, room]

theorem length_toNat_eq_zero : buffer.length.toNat = 0 ↔ buffer.length = 0 :=
  UInt32.toNat_inj (b := 0)

theorem usable_cons_empty (empty : buffer.length = 0) : usable (buffer :: rest) = [] := by
  simp [usable, empty]

theorem usable_cons (nonempty : buffer.length ≠ 0) :
    usable (buffer :: rest) = buffer :: usable rest := by
  simp [usable, nonempty]

theorem room_usable_eq_zero :
    room (usable buffers) = 0 ↔ ∀ buffer ∈ buffers.head?, buffer.length = 0 := by
  cases buffers with
  | nil => simp [usable, room]
  | cons buffer rest =>
    by_cases empty : buffer.length = 0
    · simp [usable_cons_empty empty, room, empty]
    · have positive : buffer.length.toNat ≠ 0 := fun zero => empty (length_toNat_eq_zero.mp zero)
      rw [usable_cons empty, room_cons]
      simp [empty, positive]

theorem room_eq_zero : room buffers = 0 ↔ ∀ buffer ∈ buffers, buffer.length = 0 := by
  induction buffers with
  | nil => simp [room]
  | cons buffer rest ih =>
    rw [room_cons, Nat.add_eq_zero_iff, ih, length_toNat_eq_zero, List.forall_mem_cons]

theorem room_split (buffers : List Buffer) :
    room buffers =
      room (usable buffers) + room (buffers.dropWhile fun buffer => buffer.length != 0) := by
  rw [← room_append, usable, List.takeWhile_append_dropWhile]

theorem disjoint_iff : b.Disjoint c ↔ b.length = 0 ∨ c.length = 0 ∨ b.Apart c := by
  rw [← length_toNat_eq_zero, ← length_toNat_eq_zero]
  unfold Apart
  constructor
  · intro disjoint
    have later := disjoint (max b.address.toNat c.address.toNat)
    unfold Covers at later
    omega
  · intro cases position common
    unfold Covers at common
    omega

instance : DecidableRel Disjoint := fun _ _ =>
  decidable_of_iff _ disjoint_iff.symm

instance (buffer : Buffer) (memory : Memory) : Decidable (buffer.Inside memory) :=
  inferInstanceAs (Decidable (_ ≤ _))

end Buffer

namespace Memory

variable {memory left : Memory} {buffers : List Buffer} {bytes part : Bytes} {address : Nat}

theorem size_splice (inside : address + bytes.length ≤ memory.size) :
    (memory.splice address bytes).size = memory.size := by
  have whole := congrArg List.length (toBytes_splice memory address bytes)
  rw [List.length_append, List.length_append, List.length_take, List.length_drop, length_toBytes,
    length_toBytes] at whole
  omega

theorem getElem?_splice (inside : address + bytes.length ≤ memory.size) {position : Nat}
    (outside : position < address ∨ address + bytes.length ≤ position) :
    (memory.splice address bytes).toBytes[position]? = memory.toBytes[position]? := by
  have before : (memory.toBytes.take address).length = address := by
    rw [List.length_take, length_toBytes]
    omega
  rw [toBytes_splice, List.append_assoc]
  rcases outside with ahead | behind
  · rw [List.getElem?_append_left (by omega), List.getElem?_take_of_lt ahead]
  · rw [List.getElem?_append_right (by omega), List.getElem?_append_right (by omega), before,
      List.getElem?_drop]
    congr 1
    omega

theorem slice_splice_front (inside : address + bytes.length ≤ memory.size) {count : Nat}
    (fits : bytes.length ≤ count) :
    (memory.splice address bytes).slice address count =
      bytes ++ (memory.slice address count).drop bytes.length := by
  have before : (memory.toBytes.take address).length = address := by
    rw [List.length_take, length_toBytes]
    omega
  obtain ⟨more, rfl⟩ := Nat.le.dest fits
  rw [slice_eq, slice_eq, toBytes_splice, List.append_assoc,
    List.drop_append_of_le_length (by omega), List.drop_of_length_le (by omega), List.nil_append,
    List.take_length_add_append, List.drop_take, List.drop_drop, Nat.add_sub_cancel_left]

theorem slice_congr {count : Nat}
    (same : ∀ position, address ≤ position → position < address + count →
      left.toBytes[position]? = memory.toBytes[position]?) :
    left.slice address count = memory.slice address count := by
  rw [slice_eq, slice_eq]
  apply List.ext_getElem?
  intro index
  rw [List.getElem?_take, List.getElem?_take]
  split
  · rw [List.getElem?_drop, List.getElem?_drop, same (address + index) (by omega) (by omega)]
  · rfl

theorem held_cons (memory : Memory) (buffer : Buffer) (rest : List Buffer) :
    memory.held (buffer :: rest) =
      memory.slice buffer.address.toNat buffer.length.toNat ++ memory.held rest :=
  List.flatMap_cons

theorem held_congr
    (same : ∀ buffer ∈ buffers, ∀ position, buffer.Covers position →
      left.toBytes[position]? = memory.toBytes[position]?) :
    left.held buffers = memory.held buffers := by
  induction buffers with
  | nil => rfl
  | cons buffer rest ih =>
    have first := slice_congr fun position from_start before_end =>
      same buffer List.mem_cons_self position ⟨from_start, before_end⟩
    have others := ih fun other member => same other (List.mem_cons_of_mem _ member)
    rw [held_cons, held_cons, first, others]

theorem held_splice_disjoint {b : Buffer} (disjoint : ∀ buffer ∈ buffers, b.Disjoint buffer)
    (inside : b.address.toNat + bytes.length ≤ memory.size) (fits : bytes.length ≤ b.length.toNat) :
    (memory.splice b.address.toNat bytes).held buffers = memory.held buffers := by
  refine held_congr fun buffer member position covered => getElem?_splice inside ?_
  by_cases outside : position < b.address.toNat ∨ b.address.toNat + bytes.length ≤ position
  · exact outside
  · have common : b.Covers position := ⟨by omega, by omega⟩
    exact absurd ⟨common, covered⟩ (disjoint buffer member position)

theorem length_slice {count : Nat} (inside : address + count ≤ memory.size) :
    (memory.slice address count).length = count := by
  rw [slice_eq, List.length_take, List.length_drop, length_toBytes]
  omega

section Placed

variable {buffer : Buffer} {rest : List Buffer}

private theorem scatter_idle (idle : buffer.length.toNat = 0 ∨ bytes = []) :
    scatter (buffer :: rest) bytes = pure 0 := by
  have nothing : (bytes.take buffer.length.toNat).isEmpty = true := by
    rcases idle with empty | rfl
    · rw [empty, List.take_zero, List.isEmpty_nil]
    · rw [List.take_nil, List.isEmpty_nil]
  rw [scatter]
  exact if_pos nothing

private theorem scatter_short (some_bytes : bytes ≠ [])
    (short : bytes.length < buffer.length.toNat) :
    scatter (buffer :: rest) bytes = (do write buffer.address bytes; return bytes.length) := by
  have part : bytes.take buffer.length.toNat = bytes := List.take_of_length_le (Nat.le_of_lt short)
  have differs : (bytes.length != buffer.length.toNat) = true := bne_iff_ne.mpr (Nat.ne_of_lt short)
  have goes : bytes.isEmpty = false := List.isEmpty_eq_false_iff.mpr some_bytes
  simp only [scatter, part, goes, differs, Bool.false_eq_true, if_true, if_false]

private theorem scatter_whole (positive : buffer.length.toNat ≠ 0)
    (enough : buffer.length.toNat ≤ bytes.length) :
    scatter (buffer :: rest) bytes = (do
      write buffer.address (bytes.take buffer.length.toNat)
      return buffer.length.toNat + (← scatter rest (bytes.drop buffer.length.toNat))) := by
  have length : (bytes.take buffer.length.toNat).length = buffer.length.toNat :=
    List.length_take_of_le enough
  have goes : (bytes.take buffer.length.toNat).isEmpty = false := by
    rw [List.isEmpty_eq_false_iff, ← List.length_pos_iff, length]
    omega
  simp only [scatter, length, goes, bne_self_eq_false, Bool.false_eq_true, if_false]

/-- How many bytes go into the buffers before the first empty one. -/
def placeable (buffers : List Buffer) (bytes : Bytes) : Nat :=
  min (Buffer.room (Buffer.usable buffers)) bytes.length

theorem placeable_idle (idle : buffer.length.toNat = 0 ∨ bytes = []) :
    placeable (buffer :: rest) bytes = 0 := by
  rcases idle with empty | rfl
  · rw [placeable, Buffer.usable_cons_empty (Buffer.length_toNat_eq_zero.mp empty)]
    exact Nat.zero_min _
  · exact Nat.min_zero _

theorem placeable_cons (positive : buffer.length.toNat ≠ 0) :
    placeable (buffer :: rest) bytes =
      min (buffer.length.toNat + Buffer.room (Buffer.usable rest)) bytes.length := by
  rw [placeable, Buffer.usable_cons (mt Buffer.length_toNat_eq_zero.mpr positive), Buffer.room_cons]

theorem placeable_whole (positive : buffer.length.toNat ≠ 0)
    (enough : buffer.length.toNat ≤ bytes.length) :
    placeable (buffer :: rest) bytes =
      buffer.length.toNat + placeable rest (bytes.drop buffer.length.toNat) := by
  rw [placeable_cons positive, placeable, List.length_drop]
  omega

theorem placeable_eq_zero (some_bytes : bytes ≠ []) :
    placeable buffers bytes = 0 ↔ ∀ buffer ∈ buffers.head?, buffer.length = 0 := by
  have positive := List.length_pos_iff.mpr some_bytes
  rw [← Buffer.room_usable_eq_zero, placeable]
  omega

/-- Less is placed than bytes and room allow exactly where bytes are left at the first empty buffer
and a buffer behind it has room. -/
theorem placeable_lt_iff :
    placeable buffers bytes < min (Buffer.room buffers) bytes.length ↔
      Buffer.room (Buffer.usable buffers) < bytes.length ∧
        ∃ buffer ∈ buffers.dropWhile fun buffer => buffer.length != 0, buffer.length ≠ 0 := by
  have hidden : (∃ buffer ∈ buffers.dropWhile fun buffer => buffer.length != 0, buffer.length ≠ 0) ↔
      Buffer.room (buffers.dropWhile fun buffer => buffer.length != 0) ≠ 0 := by
    rw [ne_eq, Buffer.room_eq_zero]
    simp
  rw [hidden, placeable, Buffer.room_split buffers]
  omega

/-- A scattered write that succeeds places as much as goes into the buffers before the first empty
one. -/
theorem placed_of_scatter {placed : Nat}
    (done : Access.Yields (scatter buffers bytes) memory placed left) :
    placed = placeable buffers bytes := by
  induction buffers generalizing bytes memory placed with
  | nil =>
    obtain ⟨rfl, rfl⟩ := Access.yields_pure.mp done
    exact (Nat.zero_min _).symm
  | cons buffer rest ih =>
    by_cases idle : buffer.length.toNat = 0 ∨ bytes = []
    · rw [scatter_idle idle] at done
      rw [placeable_idle idle]
      exact (Access.yields_pure.mp done).1
    obtain ⟨positive, some_bytes⟩ := not_or.mp idle
    by_cases short : bytes.length < buffer.length.toNat
    · rw [scatter_short some_bytes short] at done
      obtain ⟨_, putIn, put, counted⟩ := Access.yields_bind.mp done
      rw [(Access.yields_pure.mp counted).1, placeable_cons positive]
      omega
    · rw [scatter_whole positive (by omega)] at done
      obtain ⟨_, putIn, put, onward⟩ := Access.yields_bind.mp done
      obtain ⟨more, scatteredIn, scattered, counted⟩ := Access.yields_bind.mp onward
      obtain ⟨rfl, rfl⟩ := Access.yields_pure.mp counted
      rw [ih scattered, placeable_whole positive (by omega)]

theorem scatter_succeeds (bytes : Bytes) (inside : ∀ buffer ∈ buffers, buffer.Inside memory) :
    ∃ left, Access.Yields (scatter buffers bytes) memory (placeable buffers bytes) left := by
  induction buffers generalizing bytes memory with
  | nil => exact ⟨memory, Access.yields_pure.mpr ⟨Nat.zero_min _, rfl⟩⟩
  | cons buffer rest ih =>
    have first := inside buffer List.mem_cons_self
    unfold Buffer.Inside at first
    by_cases idle : buffer.length.toNat = 0 ∨ bytes = []
    · rw [scatter_idle idle]
      exact ⟨memory, Access.yields_pure.mpr ⟨placeable_idle idle, rfl⟩⟩
    obtain ⟨positive, some_bytes⟩ := not_or.mp idle
    by_cases short : bytes.length < buffer.length.toNat
    · rw [scatter_short some_bytes short, placeable_cons positive, Nat.min_eq_right (by omega)]
      have fits : buffer.address.toNat + bytes.length ≤ memory.size := by omega
      have put := Access.yields_write (u := ()) |>.mpr ⟨fits, rfl⟩
      exact ⟨_, Access.yields_bind.mpr ⟨(), _, put, Access.yields_pure.mpr ⟨rfl, rfl⟩⟩⟩
    · have enough : buffer.length.toNat ≤ bytes.length := by omega
      have fits : buffer.address.toNat + (bytes.take buffer.length.toNat).length ≤ memory.size := by
        rw [List.length_take_of_le enough]
        exact first
      have put := Access.yields_write (u := ()) |>.mpr ⟨fits, rfl⟩
      have onward : ∀ other ∈ rest, other.Inside
          (memory.splice buffer.address.toNat (bytes.take buffer.length.toNat)) := by
        intro other member
        unfold Buffer.Inside
        rw [size_splice fits]
        exact inside other (List.mem_cons_of_mem _ member)
      obtain ⟨left, scattered⟩ := ih _ onward
      rw [scatter_whole positive enough, placeable_whole positive enough]
      exact ⟨left, Access.yields_bind.mpr ⟨(), _, put, Access.yields_bind.mpr
        ⟨_, left, scattered, Access.yields_pure.mpr ⟨rfl, rfl⟩⟩⟩⟩

end Placed

theorem gather_succeeds (inside : ∀ buffer ∈ buffers, buffer.Inside memory) :
    Access.Yields (gather buffers) memory (memory.held buffers) memory := by
  induction buffers with
  | nil => exact Access.yields_pure.mpr ⟨rfl, rfl⟩
  | cons buffer rest ih =>
    have first := Access.yields_read.mpr ⟨inside buffer List.mem_cons_self, rfl, rfl⟩
    have others := ih fun other member => inside other (List.mem_cons_of_mem _ member)
    exact Access.yields_bind.mpr ⟨_, memory, first, Access.yields_bind.mpr
      ⟨_, memory, others, Access.yields_pure.mpr ⟨rfl, rfl⟩⟩⟩

theorem Filled.size_eq (filled : Filled buffers part memory left) : left.size = memory.size := by
  induction filled with
  | done => rfl
  | partly short inside => exact size_splice inside
  | full whole inside after ih => rw [ih, size_splice inside]

theorem Filled.getElem?_outside (filled : Filled buffers part memory left) {position : Nat}
    (outside : ∀ buffer ∈ buffers, ¬ buffer.Covers position) :
    left.toBytes[position]? = memory.toBytes[position]? := by
  induction filled with
  | done => rfl
  | @partly buffer rest bytes memory short inside =>
    have first := outside buffer List.mem_cons_self
    unfold Buffer.Covers at first
    exact getElem?_splice inside (by omega)
  | @full buffer rest piece later memory left whole inside after ih =>
    have first := outside buffer List.mem_cons_self
    unfold Buffer.Covers at first
    rw [ih fun other member => outside other (List.mem_cons_of_mem _ member)]
    exact getElem?_splice inside (by omega)

theorem Filled.held_eq (filled : Filled buffers part memory left)
    (disjoint : buffers.Pairwise Buffer.Disjoint)
    (inside : ∀ buffer ∈ buffers, buffer.Inside memory) :
    left.held buffers = part ++ (memory.held buffers).drop part.length := by
  induction filled with
  | done => rfl
  | @partly buffer rest bytes memory short room =>
    obtain ⟨ahead, -⟩ := List.pairwise_cons.mp disjoint
    have length := length_slice (inside buffer List.mem_cons_self)
    rw [held_cons, slice_splice_front room (Nat.le_of_lt short),
      held_splice_disjoint ahead room (Nat.le_of_lt short), held_cons,
      List.drop_append_of_le_length (by omega), List.append_assoc]
  | @full buffer rest piece later memory left whole room after ih =>
    obtain ⟨ahead, behind⟩ := List.pairwise_cons.mp disjoint
    have length := length_slice (inside buffer List.mem_cons_self)
    have onward := ih behind fun other member => by
      unfold Buffer.Inside
      rw [size_splice room]
      exact inside other (List.mem_cons_of_mem _ member)
    have kept := slice_congr fun position from_start before_end =>
      after.getElem?_outside fun other member covered =>
        ahead other member position ⟨⟨from_start, before_end⟩, covered⟩
    rw [← whole, slice_splice room, whole] at kept
    rw [held_cons, kept, onward, held_splice_disjoint ahead room (Nat.le_of_eq whole), held_cons,
      List.length_append, List.append_assoc, ← List.drop_drop, whole, List.drop_left' length]

/-- A scattered write over buffers inside the memory that share no byte places the front of the
bytes, as much of it as goes into the buffers before the first empty one. Reading the buffers
afterwards gives exactly these bytes and then what stood behind them before; every byte of none of
the buffers is as before. -/
theorem scatter_fills (buffers : List Buffer) (bytes : Bytes) (memory : Memory)
    (inside : ∀ buffer ∈ buffers, buffer.Inside memory)
    (disjoint : buffers.Pairwise Buffer.Disjoint) :
    ∃ left, Access.Yields (scatter buffers bytes) memory (placeable buffers bytes) left ∧
      Access.Yields (gather buffers) left
        (bytes.take (placeable buffers bytes) ++
          (memory.held buffers).drop (placeable buffers bytes)) left ∧
      left.size = memory.size ∧
      ∀ position, (∀ buffer ∈ buffers, ¬ buffer.Covers position) →
        left.toBytes[position]? = memory.toBytes[position]? := by
  obtain ⟨left, scattered⟩ := scatter_succeeds bytes inside
  obtain ⟨within, filled⟩ := filled_of_scatter scattered
  have still_inside : ∀ buffer ∈ buffers, buffer.Inside left := by
    intro buffer member
    unfold Buffer.Inside
    rw [filled.size_eq]
    exact inside buffer member
  have gathered := gather_succeeds still_inside
  rw [filled.held_eq disjoint inside, List.length_take_of_le within] at gathered
  exact ⟨left, scattered, gathered, filled.size_eq, fun _ => filled.getElem?_outside⟩

def blank (size : Nat) : Memory :=
  ofBytes (List.replicate size 0)

theorem scatter_fills_before_empty :
    (∀ buffer ∈ [⟨12, 2⟩, ⟨13, 0⟩, ⟨8, 4⟩], Buffer.Inside buffer (blank 16)) ∧
    [⟨12, 2⟩, ⟨13, 0⟩, ⟨8, 4⟩].Pairwise Buffer.Disjoint ∧
    ∃ left, Access.Yields (scatter [⟨12, 2⟩, ⟨13, 0⟩, ⟨8, 4⟩] [97, 98, 99]) (blank 16) 2 left ∧
      Access.Yields (gather [⟨12, 2⟩, ⟨13, 0⟩, ⟨8, 4⟩]) left [97, 98, 0, 0, 0, 0] left := by
  have inside : ∀ buffer ∈ [⟨12, 2⟩, ⟨13, 0⟩, ⟨8, 4⟩], Buffer.Inside buffer (blank 16) := by decide
  have disjoint : [⟨12, 2⟩, ⟨13, 0⟩, ⟨8, 4⟩].Pairwise Buffer.Disjoint := by decide
  obtain ⟨left, scattered, gathered, -, -⟩ := scatter_fills _ [97, 98, 99] _ inside disjoint
  exact ⟨inside, disjoint, left, scattered, gathered⟩

/-- An empty buffer ahead of one with room: nothing is placed, although all of the bytes fit. -/
theorem empty_buffer_hides_room :
    (∀ buffer ∈ [⟨0, 0⟩, ⟨8, 4⟩], Buffer.Inside buffer (blank 16)) ∧
    [⟨0, 0⟩, ⟨8, 4⟩].Pairwise Buffer.Disjoint ∧ min (Buffer.room [⟨0, 0⟩, ⟨8, 4⟩]) 4 = 4 ∧
    Access.Yields (scatter [⟨0, 0⟩, ⟨8, 4⟩] [97, 98, 99, 100]) (blank 16) 0 (blank 16) :=
  ⟨by decide, by decide, by decide, rfl⟩

end Memory

end Buildbox
