import Buildbox.Proofs.Guest.AddressSpace

/-!
The operations of the host on the memory of a guest, and the one contract that they all keep. An
operation has an address and a length; it succeeds where the address is aligned as it has to be and
the whole range lies inside the memory, answers from the bytes of that range and changes no others.
Words stand in memory least significant byte first.
-/

set_option autoImplicit false

namespace Buildbox

namespace Bytes

def little : Bytes → Nat
  | [] => 0
  | byte :: rest => byte.toNat + 256 * little rest

def littleEndian : Nat → Nat → Bytes
  | 0, _ => []
  | count + 1, number => (number % 256).toUInt8 :: littleEndian count (number / 256)

private theorem toNat_low (number : Nat) : (number % 256).toUInt8.toNat = number % 256 :=
  UInt8.toNat_ofNat_of_lt' (Nat.mod_lt number (by decide))

theorem little_littleEndian (count number : Nat) :
    little (littleEndian count number) = number % 256 ^ count := by
  induction count generalizing number with
  | zero => rw [littleEndian, little, Nat.pow_zero, Nat.mod_one]
  | succ count ih => rw [littleEndian, little, ih, toNat_low, Nat.pow_succ', Nat.mod_mul]

theorem littleEndian_little (bytes : Bytes) : littleEndian bytes.length (little bytes) = bytes := by
  induction bytes with
  | nil => rfl
  | cons byte rest ih =>
    have small := byte.toNat_lt
    have low : (byte.toNat + 256 * little rest) % 256 = byte.toNat := by omega
    have high : (byte.toNat + 256 * little rest) / 256 = little rest := by omega
    rw [List.length_cons, littleEndian, little, low, high, ih]
    exact congrArg (· :: rest) (UInt8.ofNat_toNat)

private theorem toUInt8_shiftRight (word shift : UInt32) :
    (word >>> shift).toUInt8 = (word.toNat / 2 ^ (shift.toNat % 32) % 256).toUInt8 := by
  apply UInt8.toNat_inj.mp
  rw [toNat_low, UInt32.toNat_toUInt8, UInt32.toNat_shiftRight, Nat.shiftRight_eq_div_pow]

theorem ofWord_eq (word : UInt32) : ofWord word = littleEndian 4 word.toNat := by
  have lowest : word.toUInt8 = (word.toNat % 256).toUInt8 := by
    apply UInt8.toNat_inj.mp
    rw [toNat_low, UInt32.toNat_toUInt8]
  simp only [ofWord, littleEndian, lowest, toUInt8_shiftRight, Nat.div_div_eq_div_mul]
  rfl

theorem little_lt (bytes : Bytes) : little bytes < 256 ^ bytes.length := by
  have back := congrArg little (littleEndian_little bytes)
  rw [little_littleEndian] at back
  rw [← back]
  exact Nat.mod_lt _ (Nat.pow_pos (by decide))

private theorem four_bytes : 256 ^ 4 = UInt32.size :=
  rfl

theorem ofWord_little {bytes : Bytes} (four : bytes.length = 4) :
    ofWord (little bytes).toUInt32 = bytes := by
  have small : little bytes < UInt32.size := by
    rw [← four_bytes, ← four]
    exact little_lt bytes
  have same : (little bytes).toUInt32.toNat = little bytes := UInt32.toNat_ofNat_of_lt' small
  rw [ofWord_eq, same, ← four]
  exact littleEndian_little bytes

theorem toWord_eq (b0 b1 b2 b3 : UInt8) :
    toWord b0 b1 b2 b3 = (little [b0, b1, b2, b3]).toUInt32 := by
  have stands : ofWord _ = [b0, b1, b2, b3] := ofWord_little rfl
  generalize (little [b0, b1, b2, b3]).toUInt32 = word at stands ⊢
  cases stands
  exact toWord_ofWord word

theorem toUInt32_little_littleEndian (word : UInt32) :
    (little (littleEndian 4 word.toNat)).toUInt32 = word := by
  rw [little_littleEndian, four_bytes, Nat.mod_eq_of_lt word.toNat_lt_size]
  exact UInt32.ofNat_toNat

theorem headD_eq {bytes : Bytes} (one : bytes.length = 1) :
    bytes.headD 0 = (little bytes).toUInt8 := by
  obtain ⟨byte, rfl⟩ := List.length_eq_one_iff.mp one
  exact UInt8.ofNat_toNat.symm

end Bytes

def Buffer.ofBytes (bytes : Bytes) : Buffer :=
  ⟨(Bytes.little (bytes.take 4)).toUInt32, (Bytes.little (bytes.drop 4)).toUInt32⟩

namespace Memory

open Access

theorem buffersOf_eq {bytes : Bytes} {count : Nat} (whole : bytes.length = 8 * count) :
    buffersOf bytes =
      (List.range count).map fun index => .ofBytes ((bytes.drop (8 * index)).take 8) := by
  induction bytes using buffersOf.induct generalizing count with
  | case1 a0 a1 a2 a3 l0 l1 l2 l3 rest ih =>
    cases count with
    | zero => cases whole
    | succ count =>
      have later : rest.length = 8 * count := by
        simp only [List.length_cons] at whole
        omega
      rw [buffersOf, ih later, List.range_succ_eq_map, List.map_cons, List.map_map, Bytes.toWord_eq,
        Bytes.toWord_eq]
      rfl
  | case2 bytes short =>
    have none_whole : buffersOf bytes = [] := buffersOf.eq_2 bytes short
    have few := length_buffersOf bytes
    rw [none_whole, whole, List.length_nil] at few
    have none_counted : count = 0 := by omega
    rw [none_whole, none_counted]
    rfl

/-- An operation of the host on a memory, with all that it is given. -/
inductive Operation
  | readByte (address : UInt32)
  | writeByte (address : UInt32) (byte : UInt8)
  | readWord (address : UInt32)
  | writeWord (address word : UInt32)
  | writeDouble (address low high : UInt32)
  | read (address count : UInt32)
  | lend (address count : UInt32) (filled : Bytes) (whole : filled.length = count.toNat)
  | write (address : UInt32) (bytes : Bytes)
  | writeString (address : UInt32) (text : String)
  | readString (address count : UInt32)
  | buffers (address count : UInt32)

namespace Operation

abbrev Answer : Operation → Type
  | readByte _ => UInt8
  | readWord _ | writeString .. => UInt32
  | read .. => Bytes
  | readString .. => String
  | buffers .. => List Buffer
  | _ => Unit

def perform : (operation : Operation) → Access operation.Answer
  | readByte address => Memory.readByte address
  | writeByte address byte => Memory.writeByte address byte
  | readWord address => Memory.readWord address
  | writeWord address word => Memory.writeWord address word
  | writeDouble address low high => Memory.writeDouble address low high
  | read address count => Memory.read address count.toNat
  | lend address count filled _ => do
    checkRange address count.toNat
    Memory.write address filled
  | write address bytes => Memory.write address bytes
  | writeString address text => Memory.writeString address text
  | readString address count => Memory.readString address count.toNat
  | buffers address count => Memory.buffers address count

def address : Operation → UInt32
  | readByte address | writeByte address _ | readWord address | writeWord address _
  | writeDouble address .. | read address _ | lend address .. | write address _
  | writeString address _ | readString address _ | buffers address _ => address

/-- The number of bytes in the range of an operation. -/
def length : Operation → Nat
  | readByte _ | writeByte .. => 1
  | readWord _ | writeWord .. => 4
  | writeDouble .. => 8
  | read _ count | lend _ count .. | readString _ count => count.toNat
  | write _ bytes => bytes.length
  | writeString _ text => (Bytes.ofString text).length + 1
  | buffers _ count => 8 * count.toNat

def width : Operation → Nat
  | readWord _ | writeWord .. | buffers .. => 32
  | writeDouble .. => 64
  | _ => 8

def written : Operation → Option Bytes
  | writeByte _ byte => some [byte]
  | writeWord _ word => some (Bytes.littleEndian 4 word.toNat)
  | writeDouble _ low high =>
    some (Bytes.littleEndian 4 low.toNat ++ Bytes.littleEndian 4 high.toNat)
  | lend _ _ filled _ => some filled
  | write _ bytes => some bytes
  | writeString _ text => some (Bytes.ofString text ++ [0])
  | _ => none

def answer : (operation : Operation) → Bytes → operation.Answer
  | readByte _, bytes => (Bytes.little bytes).toUInt8
  | readWord _, bytes => (Bytes.little bytes).toUInt32
  | read .., bytes => bytes
  | writeString _ text, _ => ((Bytes.ofString text).length + 1).toUInt32
  | readString .., bytes => Utf8.lossy bytes.beforeNul
  | buffers _ count, bytes =>
    (List.range count.toNat).map fun index => .ofBytes ((bytes.drop (8 * index)).take 8)
  | writeByte .., _ | writeWord .., _ | writeDouble .., _ | lend .., _ | write .., _ => ()

/-- Words start at multiples of four; bytes start anywhere. -/
def Aligned (operation : Operation) : Prop :=
  operation.width = 8 ∨ operation.address % 4 = 0

/-- The whole range of an operation lies in the memory. -/
def Inside (operation : Operation) (memory : Memory) : Prop :=
  operation.address.toNat + operation.length ≤ memory.size

/-- The positions in the range of an operation. -/
def Covers (operation : Operation) (position : Nat) : Prop :=
  operation.address.toNat ≤ position ∧ position < operation.address.toNat + operation.length

instance (operation : Operation) : Decidable operation.Aligned :=
  inferInstanceAs (Decidable (_ ∨ _))

instance (operation : Operation) (memory : Memory) : Decidable (operation.Inside memory) :=
  inferInstanceAs (Decidable (_ ≤ _))

def outcome (operation : Operation) (memory : Memory) : Except AccessFault operation.Answer :=
  (operation.perform.run.run memory).1

/-- What an operation leaves of this memory. -/
def left (operation : Operation) (memory : Memory) : Memory :=
  (operation.perform.run.run memory).2

def put (operation : Operation) (memory : Memory) : Memory :=
  match operation.written with
  | some bytes => memory.splice operation.address.toNat bytes
  | none => memory

/-- What an operation leaves where its range does not lie inside: nothing is written but a text
whose NUL alone has no place. -/
def remains (operation : Operation) (memory : Memory) : Memory :=
  match operation with
  | writeString address text =>
    if address.toNat + (Bytes.ofString text).length ≤ memory.size then
      memory.splice address.toNat (Bytes.ofString text)
    else memory
  | _ => memory

/-- The fault of an operation whose range does not lie inside: that of the first check of a stretch
which fails. -/
def fault (operation : Operation) (memory : Memory) : AccessFault :=
  match operation with
  | writeString address text =>
    let count := (Bytes.ofString text).length
    if address.toNat + count ≤ memory.size then
      .outOfBounds (address + count.toUInt32) 1 memory.size.toUInt32
    else .outOfBounds address count.toUInt32 memory.size.toUInt32
  | buffers address count =>
    .outOfBounds address (min (count.toNat * 8) (UInt32.size - 1)).toUInt32 memory.size.toUInt32
  | operation =>
    .outOfBounds operation.address operation.length.toUInt32 memory.size.toUInt32

theorem length_written {operation : Operation} {bytes : Bytes}
    (writes : operation.written = some bytes) : bytes.length = operation.length := by
  cases operation with
  | lend address count filled whole =>
    cases writes
    exact whole
  | writeWord | writeDouble | writeByte | write =>
    cases writes
    rfl
  | writeString =>
    cases writes
    exact List.length_append
  | _ => cases writes

variable {memory : Memory} {operation : Operation}

theorem perform_misaligned (off : ¬ operation.Aligned) :
    operation.perform.run.run memory =
      (.error (.misaligned operation.address operation.width), memory) := by
  obtain ⟨words, off⟩ := not_or.mp off
  cases operation with
  | readWord | writeWord | writeDouble | buffers => exact run_bind_error (run_checkAligned off _)
  | _ => exact absurd rfl words

theorem Aligned.of_words (aligned : operation.Aligned) (words : operation.width ≠ 8) :
    operation.address % 4 = 0 :=
  aligned.resolve_left words

theorem perform_outside (short : memory.size + 1 < UInt32.size) (aligned : operation.Aligned)
    (outside : ¬ operation.Inside memory) :
    operation.perform.run.run memory =
      (.error (operation.fault memory), operation.remains memory) := by
  cases operation with
  | readByte | readString => exact run_bind_error (run_bind_error (run_checkRange outside))
  | read | writeByte | write | lend => exact run_bind_error (run_checkRange outside)
  | readWord =>
    have test := (allOrNothing_checkAligned memory _ 32).done (aligned.of_words nofun)
    exact (run_bind_ok test).trans (run_bind_error (run_bind_error (run_checkRange outside)))
  | writeWord =>
    have test := (allOrNothing_checkAligned memory _ 32).done (aligned.of_words nofun)
    exact (run_bind_ok test).trans (run_bind_error (run_checkRange outside))
  | writeDouble =>
    have test := (allOrNothing_checkAligned memory _ 64).done (aligned.of_words nofun)
    exact (run_bind_ok test).trans (run_bind_error (run_checkRange outside))
  | buffers address count =>
    have test := (allOrNothing_checkAligned memory _ 32).done (aligned.of_words nofun)
    -- a size that is larger than any word is larger than the memory
    have saturated : ¬ address.toNat + min (count.toNat * 8) (UInt32.size - 1) ≤ memory.size := by
      change ¬ address.toNat + 8 * count.toNat ≤ memory.size at outside
      omega
    exact (run_bind_ok test).trans (run_bind_error (run_bind_error (run_checkRange saturated)))
  | writeString address text =>
    change ¬ address.toNat + ((Bytes.ofString text).length + 1) ≤ memory.size at outside
    simp only [remains, fault]
    split
    · next fits =>
      have own := (allOrNothing_write memory address (Bytes.ofString text)).done fits
      have size := size_splice fits
      have below : address.toNat + (Bytes.ofString text).length < UInt32.size := by omega
      have place : Yields (add address (Bytes.ofString text).length)
          (memory.splice address.toNat (Bytes.ofString text))
          (address + (Bytes.ofString text).length.toUInt32) _ :=
        yields_add.mpr ⟨below, rfl, rfl⟩
      have behind : ¬ (address + (Bytes.ofString text).length.toUInt32).toNat + 1 ≤
          (memory.splice address.toNat (Bytes.ofString text)).size := by
        rw [size, toNat_after below]
        exact outside
      have nul := run_checkRange behind
      rw [size] at nul
      exact (run_bind_ok own).trans
        ((run_bind_ok place).trans (run_bind_error (run_bind_error nul)))
    · next beyond => exact run_bind_error (run_bind_error (run_checkRange beyond))

theorem perform_inside (short : memory.size + 1 < UInt32.size) (aligned : operation.Aligned)
    (inside : operation.Inside memory) :
    operation.perform.run.run memory =
      (.ok (operation.answer (memory.slice operation.address.toNat operation.length)),
        operation.put memory) := by
  cases operation with
  | readByte address =>
    change address.toNat + 1 ≤ memory.size at inside
    have done := ((allOrNothing_read memory address 1).map fun bytes => bytes.headD 0).done inside
    rw [Bytes.headD_eq (length_slice inside)] at done
    exact done
  | writeByte address byte => exact (allOrNothing_write memory address [byte]).done inside
  | readWord address =>
    have aligned := aligned.of_words nofun
    exact yields_readWord aligned inside (Bytes.ofWord_little (length_slice inside)).symm
  | writeWord address word =>
    have aligned := aligned.of_words nofun
    have done := (allOrNothing_writeWord memory address word).done ⟨aligned, inside⟩
    rwa [Bytes.ofWord_eq] at done
  | writeDouble address low high =>
    have aligned := aligned.of_words nofun
    have done := (allOrNothing_writeDouble (by omega) address low high).done ⟨aligned, inside⟩
    rwa [Bytes.ofWord_eq, Bytes.ofWord_eq] at done
  | read address count => exact (allOrNothing_read memory address count.toNat).done inside
  | lend address count filled whole =>
    have checked := (allOrNothing_checkRange memory address count.toNat).done inside
    rw [Inside, length, ← whole] at inside
    exact (run_bind_ok checked).trans ((allOrNothing_write memory address filled).done inside)
  | write address bytes => exact (allOrNothing_write memory address bytes).done inside
  | writeString address text => exact (yields_writeString (by omega)).mpr ⟨inside, rfl, rfl⟩
  | readString address count =>
    exact ((allOrNothing_read memory address count.toNat).map
      fun bytes => Utf8.lossy bytes.beforeNul).done inside
  | buffers address count =>
    have aligned := aligned.of_words nofun
    change address.toNat + 8 * count.toNat ≤ memory.size at inside
    have exact_size : min (count.toNat * 8) (UInt32.size - 1) = 8 * count.toNat := by omega
    have done := (allOrNothing_buffers memory address count).done
      ⟨aligned, by rw [exact_size]; exact inside⟩
    rw [bufferList, exact_size, buffersOf_eq (length_slice inside)] at done
    exact done

inductive ReadsBack : Operation → (reader : Operation) → reader.Answer → Prop
  | byte (address : UInt32) (byte : UInt8) :
    ReadsBack (writeByte address byte) (readByte address) byte
  | word (address word : UInt32) : ReadsBack (writeWord address word) (readWord address) word
  | low (address low high : UInt32) :
    ReadsBack (writeDouble address low high) (readWord address) low
  | high (address low high : UInt32) :
    ReadsBack (writeDouble address low high) (readWord (address + 4)) high
  | bytes (address count : UInt32) (bytes : Bytes) (whole : bytes.length = count.toNat) :
    ReadsBack (write address bytes) (read address count) bytes
  | lent (address count : UInt32) (filled : Bytes) (whole : filled.length = count.toNat) :
    ReadsBack (lend address count filled whole) (read address count) filled
  | text (address count : UInt32) (text : String) (nul_free : '\x00' ∉ text.toList)
      (enough : (Bytes.ofString text).length ≤ count.toNat) :
    ReadsBack (writeString address text) (readString address count) text

/-- What an operation keeps to. -/
structure Contract (operation : Operation) (memory : Memory) : Prop where
  /-- whatever it comes to, it keeps the size and every byte outside of its range -/
  frame : Alike operation.Covers memory (operation.left memory)
  succeeds : (operation.outcome memory).isOk ↔ operation.Aligned ∧ operation.Inside memory
  misaligned : ¬ operation.Aligned →
    operation.outcome memory = .error (.misaligned operation.address operation.width) ∧
      operation.left memory = memory
  outside : operation.Aligned → ¬ operation.Inside memory →
    operation.outcome memory = .error (operation.fault memory) ∧
      operation.left memory = operation.remains memory
  answers : operation.Aligned → operation.Inside memory →
    operation.outcome memory =
      .ok (operation.answer (memory.slice operation.address.toNat operation.length))
  holds : operation.Aligned → operation.Inside memory →
    ∀ bytes, operation.written = some bytes →
      (operation.left memory).slice operation.address.toNat operation.length = bytes
  reads_only : operation.written = none → operation.left memory = memory
  /-- what reads apart from the range is not affected -/
  apart : ∀ reader : Operation, reader.written = none →
    (∀ position, operation.Covers position → ¬ reader.Covers position) →
    reader.outcome (operation.left memory) = reader.outcome memory
  /-- what reads inside of the range sees what was written there -/
  within : operation.Aligned → operation.Inside memory →
    ∀ bytes, operation.written = some bytes → ∀ (reader : Operation) (offset : Nat),
      reader.Aligned → reader.address.toNat = operation.address.toNat + offset →
      offset + reader.length ≤ operation.length →
      reader.outcome (operation.left memory) =
        .ok (reader.answer ((bytes.drop offset).take reader.length))
  back : operation.Aligned → operation.Inside memory → ∀ reader answer,
    ReadsBack operation reader answer → reader.Inside memory →
    reader.outcome (operation.left memory) = .ok answer

theorem left_of_reads (short : memory.size + 1 < UInt32.size) (reads : operation.written = none) :
    operation.left memory = memory := by
  unfold left
  by_cases aligned : operation.Aligned
  · by_cases inside : operation.Inside memory
    · rw [perform_inside short aligned inside, put, reads]
    · rw [perform_outside short aligned inside]
      cases operation with
      | writeString => cases reads
      | _ => rfl
  · rw [perform_misaligned aligned]

theorem alike_left (short : memory.size + 1 < UInt32.size) (operation : Operation) :
    Alike operation.Covers memory (operation.left memory) := by
  unfold left
  by_cases aligned : operation.Aligned
  · by_cases inside : operation.Inside memory
    · rw [perform_inside short aligned inside, put]
      split
      · next bytes writes =>
        have length := length_written writes
        refine Alike.splice (length ▸ inside) fun position from_start before_end => ?_
        exact ⟨from_start, length ▸ before_end⟩
      · exact Alike.refl _ _
    · rw [perform_outside short aligned inside]
      cases operation with
      | writeString address text =>
        rw [remains]
        split
        · next fits =>
          refine Alike.splice fits fun position from_start before_end => ⟨from_start, ?_⟩
          exact Nat.lt_succ_of_lt before_end
        · exact Alike.refl _ _
      | _ => exact Alike.refl _ _
  · rw [perform_misaligned aligned]
    exact Alike.refl _ _

theorem outcome_congr (short : memory.size + 1 < UInt32.size) {other : Memory}
    (reads : operation.written = none) (size : other.size = memory.size)
    (same : other.slice operation.address.toNat operation.length =
      memory.slice operation.address.toNat operation.length) :
    operation.outcome other = operation.outcome memory := by
  have short_other : other.size + 1 < UInt32.size := size.symm ▸ short
  have both : operation.Inside other ↔ operation.Inside memory := by
    rw [Inside, Inside, size]
  unfold outcome
  by_cases aligned : operation.Aligned
  · by_cases inside : operation.Inside memory
    · rw [perform_inside short aligned inside,
        perform_inside short_other aligned (both.mpr inside), same]
    · have faults : operation.fault other = operation.fault memory := by
        cases operation with
        | writeString => cases reads
        | _ => simp only [fault, size]
      rw [perform_outside short aligned inside,
        perform_outside short_other aligned (mt both.mp inside), faults]
  · rw [perform_misaligned aligned, perform_misaligned aligned]

theorem slice_put {bytes : Bytes} (inside : operation.Inside memory)
    (writes : operation.written = some bytes) :
    (operation.put memory).slice operation.address.toNat operation.length = bytes := by
  rw [Inside, ← length_written writes] at inside
  rw [put, writes, ← length_written writes]
  exact slice_splice inside

theorem size_put (inside : operation.Inside memory) :
    (operation.put memory).size = memory.size := by
  unfold put
  split
  · next bytes writes =>
    rw [Inside, ← length_written writes] at inside
    exact size_splice inside
  · rfl

section Put

variable (short : memory.size + 1 < UInt32.size) {bytes : Bytes}
  (inside : operation.Inside memory) (writes : operation.written = some bytes)

include short inside writes

theorem outcome_put (reader : Operation) (offset : Nat) (aligned : reader.Aligned)
    (starts : reader.address.toNat = operation.address.toNat + offset)
    (ends : offset + reader.length ≤ operation.length) :
    reader.outcome (operation.put memory) =
      .ok (reader.answer ((bytes.drop offset).take reader.length)) := by
  have size := size_put inside
  have within : reader.Inside (operation.put memory) := by
    unfold Inside at inside ⊢
    omega
  have found := (operation.put memory).slice_within operation.address.toNat offset ends
  rw [slice_put inside writes, ← starts] at found
  rw [outcome, perform_inside (size.symm ▸ short) aligned within, found]

theorem outcome_put_whole (reader : Operation) (aligned : reader.Aligned)
    (starts : reader.address = operation.address) (ends : reader.length = operation.length) :
    reader.outcome (operation.put memory) = .ok (reader.answer bytes) := by
  have within : 0 + reader.length ≤ operation.length := by omega
  rw [outcome_put short inside writes reader 0 aligned (congrArg UInt32.toNat starts) within,
    List.drop_zero, ends, ← length_written writes, List.take_length]

end Put

theorem ReadsBack.outcome_put {reader : Operation} {answer : reader.Answer}
    (back : ReadsBack operation reader answer) (short : memory.size + 1 < UInt32.size)
    (aligned : operation.Aligned) (inside : operation.Inside memory)
    (reachable : reader.Inside memory) :
    reader.outcome (operation.put memory) = .ok answer := by
  cases back with
  | byte address byte =>
    rw [outcome_put_whole short inside rfl (readByte address) (.inl rfl) rfl rfl]
    exact congrArg Except.ok UInt8.ofNat_toNat
  | word address word =>
    have same : (readWord address).Aligned := .inr (aligned.of_words nofun)
    rw [outcome_put_whole short inside rfl (readWord address) same rfl rfl]
    exact congrArg Except.ok (Bytes.toUInt32_little_littleEndian word)
  | low address low high =>
    have lower : (readWord address).Aligned := .inr (aligned.of_words nofun)
    have within : 0 + 4 ≤ 8 := by decide
    rw [Operation.outcome_put short inside rfl (readWord address) 0 lower rfl within]
    exact congrArg Except.ok (Bytes.toUInt32_little_littleEndian low)
  | high address low high =>
    have next : (address + 4).toNat = address.toNat + 4 := by
      change address.toNat + 8 ≤ memory.size at inside
      exact toNat_next (by omega)
    have upper : (readWord (address + 4)).Aligned :=
      .inr (aligned_next (aligned.of_words nofun))
    rw [Operation.outcome_put short inside rfl (readWord (address + 4)) 4 upper next
      (Nat.le_refl 8)]
    exact congrArg Except.ok (Bytes.toUInt32_little_littleEndian high)
  | bytes address count bytes whole =>
    exact outcome_put_whole short inside rfl (read address count) (.inl rfl) rfl whole.symm
  | lent address count =>
    exact outcome_put_whole short inside rfl (read address count) (.inl rfl) rfl rfl
  | text address count text nul_free enough =>
    have size := size_put inside
    have stands := slice_put inside rfl
    have within : address.toNat + count.toNat ≤ ((writeString address text).put memory).size := by
      rw [size]
      exact reachable
    exact congrArg Prod.fst (yields_readString nul_free stands enough within)

theorem contract (short : memory.size + 1 < UInt32.size) (operation : Operation) :
    operation.Contract memory where
  frame := alike_left short operation
  succeeds := by
    unfold outcome
    by_cases aligned : operation.Aligned
    · by_cases inside : operation.Inside memory
      · rw [perform_inside short aligned inside]
        exact iff_of_true rfl ⟨aligned, inside⟩
      · rw [perform_outside short aligned inside]
        exact iff_of_false nofun fun both => inside both.2
    · rw [perform_misaligned aligned]
      exact iff_of_false nofun fun both => aligned both.1
  misaligned off := Prod.mk.inj (perform_misaligned off)
  outside aligned outside := Prod.mk.inj (perform_outside short aligned outside)
  answers aligned inside := congrArg Prod.fst (perform_inside short aligned inside)
  holds aligned inside bytes writes := by
    rw [left, perform_inside short aligned inside]
    exact slice_put inside writes
  reads_only := left_of_reads short
  apart reader reads disjoint := by
    have alike := alike_left short operation
    have same := alike.slice fun position from_start before_end covered =>
      disjoint position covered ⟨from_start, before_end⟩
    exact outcome_congr short reads alike.size same
  within aligned inside bytes writes reader offset reader_aligned starts ends := by
    rw [left, perform_inside short aligned inside]
    exact outcome_put short inside writes reader offset reader_aligned starts ends
  back aligned inside reader answer back reachable := by
    rw [left, perform_inside short aligned inside]
    exact back.outcome_put short aligned inside reachable

end Operation

/-- In a memory of at most 65535 pages every operation keeps its contract, whatever the address and
the data are, and an array of buffers has exactly as many records as it is asked for. -/
theorem operations_keep_contract {memory : Memory} (small : memory.size ≤ 65535 * Wasm.pageSize) :
    (∀ operation : Operation, operation.Contract memory) ∧
      ∀ address count list left, Yields (buffers address count) memory list left →
        list.length = count.toNat := by
  have words : UInt32.size = 4294967296 := rfl
  have pages : Wasm.pageSize = 65536 := rfl
  have short : memory.size + 1 < UInt32.size := by omega
  refine ⟨Operation.contract short, fun address count list left found => ?_⟩
  have contract := Operation.contract short (.buffers address count)
  have outcome : (Operation.buffers address count).outcome memory = .ok list :=
    congrArg Prod.fst found
  obtain ⟨aligned, inside⟩ := contract.succeeds.mp (congrArg Except.isOk outcome)
  cases outcome.symm.trans (contract.answers aligned inside)
  exact (List.length_map _).trans List.length_range

/-- A word is read back as a whole, and byte by byte from its least significant one. -/
theorem word_keeps_contract :
    (blank 64).size ≤ 65535 * Wasm.pageSize ∧
      (Operation.readWord 8).outcome ((Operation.writeWord 8 0xDEADBEEF).left (blank 64)) =
        .ok (0xDEADBEEF : UInt32) ∧
      (Operation.readByte 8).outcome ((Operation.writeWord 8 0xDEADBEEF).left (blank 64)) =
        .ok (0xEF : UInt8) := by
  have small : (blank 64).size ≤ 65535 * Wasm.pageSize := by decide
  have contract := (operations_keep_contract small).1 (.writeWord 8 0xDEADBEEF)
  have aligned : (Operation.writeWord 8 0xDEADBEEF).Aligned := by decide
  have inside : (Operation.writeWord 8 0xDEADBEEF).Inside (blank 64) := by decide
  refine ⟨small, contract.back aligned inside _ _ (.word 8 0xDEADBEEF) (by decide), ?_⟩
  exact contract.within aligned inside _ rfl (.readByte 8) 0 (.inl rfl) rfl (by decide)

end Memory

end Buildbox
