import Buildbox.Proofs.Memory.Scatter
import Buildbox.Proofs.Text.Terminated

/-!
What an access leaves as it was. Whether an access succeeds or not, it touches no bytes but certain
ones; a stretch without any of them holds afterwards what it held before, and reading a word or a
text there gives what was written.
-/

set_option autoImplicit false

namespace Buildbox

theorem Bytes.toWord_ofWord (word : UInt32) :
    toWord word.toUInt8 (word >>> 8).toUInt8 (word >>> 16).toUInt8 (word >>> 24).toUInt8 = word := by
  rw [toWord]
  apply UInt32.eq_of_toBitVec_eq
  apply BitVec.eq_of_getLsbD_eq
  intro i small
  have eight : ((8 : UInt32).toBitVec % 32).toNat = 8 := rfl
  have sixteen : ((16 : UInt32).toBitVec % 32).toNat = 16 := rfl
  have twenty_four : ((24 : UInt32).toBitVec % 32).toNat = 24 := rfl
  -- bit by bit: each of the four bytes gives eight of the bits, and no bit is given twice
  simp only [UInt32.toBitVec_or, UInt32.toBitVec_shiftLeft, UInt32.toBitVec_shiftRight,
    UInt8.toBitVec_toUInt32, UInt32.toBitVec_toUInt8, BitVec.shiftLeft_eq', BitVec.ushiftRight_eq',
    eight, sixteen, twenty_four, BitVec.getLsbD_or, BitVec.getLsbD_shiftLeft,
    BitVec.getLsbD_setWidth, BitVec.getLsbD_ushiftRight]
  grind

namespace Memory

theorem aligned_iff {address : UInt32} : address % 4 = 0 ↔ address.toNat % 4 = 0 := by
  rw [← UInt32.toNat_inj, UInt32.toNat_mod]
  rfl

theorem toBytes_inj {memory other : Memory} (same : memory.toBytes = other.toBytes) :
    memory = other := by
  obtain ⟨⟨bytes⟩⟩ := memory
  obtain ⟨⟨others⟩⟩ := other
  exact congrArg (fun bytes => (⟨⟨bytes⟩⟩ : Memory)) (Array.toList_inj.mp same)

variable {memory between left : Memory} {touched wider : Nat → Prop}

theorem size_splice_word {address : Nat} (inside : address + 4 ≤ memory.size) (word : UInt32) :
    (memory.splice address (Bytes.ofWord word)).size = memory.size :=
  size_splice inside

theorem splice_behind {address : Nat} {bytes more : Bytes}
    (inside : address + bytes.length ≤ memory.size) :
    (memory.splice address bytes).splice (address + bytes.length) more =
      memory.splice address (bytes ++ more) := by
  have before : (memory.toBytes.take address ++ bytes).length = address + bytes.length := by
    rw [List.length_append, List.length_take, length_toBytes, Nat.min_eq_left (by omega)]
  have ends : address + (bytes ++ more).length = address + bytes.length + more.length := by
    rw [List.length_append, Nat.add_assoc]
  apply toBytes_inj
  rw [toBytes_splice, toBytes_splice, toBytes_splice, ends, List.take_left' before,
    List.drop_append, List.drop_of_length_le (by omega), before, List.nil_append, List.drop_drop,
    Nat.add_sub_cancel_left, List.append_assoc (memory.toBytes.take address) bytes more]

theorem slice_add (memory : Memory) (address first later : Nat) :
    memory.slice address (first + later) =
      memory.slice address first ++ memory.slice (address + first) later := by
  rw [slice_eq, slice_eq, slice_eq, List.take_add, List.drop_drop]

theorem slice_within (memory : Memory) (address offset : Nat) {count total : Nat}
    (within : offset + count ≤ total) :
    memory.slice (address + offset) count =
      ((memory.slice address total).drop offset).take count := by
  rw [slice_eq, slice_eq, List.drop_take, List.take_take, List.drop_drop,
    Nat.min_eq_left (by omega)]

/-- The memories have one size and differ in no bytes but these. -/
structure Alike (touched : Nat → Prop) (memory left : Memory) : Prop where
  size : left.size = memory.size
  kept : ∀ position, ¬ touched position → left.toBytes[position]? = memory.toBytes[position]?

namespace Alike

theorem refl (touched : Nat → Prop) (memory : Memory) : Alike touched memory memory :=
  ⟨rfl, fun _ _ => rfl⟩

theorem trans (first : Alike touched memory between) (later : Alike touched between left) :
    Alike touched memory left := by
  refine ⟨later.size.trans first.size, fun position outside => ?_⟩
  exact (later.kept position outside).trans (first.kept position outside)

theorem mono (alike : Alike touched memory left)
    (more : ∀ position, touched position → wider position) : Alike wider memory left :=
  ⟨alike.size, fun position outside => alike.kept position (mt (more position) outside)⟩

theorem splice {address : Nat} {bytes : Bytes} (inside : address + bytes.length ≤ memory.size)
    (within : ∀ position, address ≤ position → position < address + bytes.length →
      touched position) : Alike touched memory (memory.splice address bytes) := by
  refine ⟨size_splice inside, fun position outside => getElem?_splice inside ?_⟩
  have apart : ¬ (address ≤ position ∧ position < address + bytes.length) :=
    fun ⟨from_start, before_end⟩ => outside (within position from_start before_end)
  omega

theorem slice (alike : Alike touched memory left) {address count : Nat}
    (apart : ∀ position, address ≤ position → position < address + count → ¬ touched position) :
    left.slice address count = memory.slice address count :=
  slice_congr fun position from_start before_end =>
    alike.kept position (apart position from_start before_end)

end Alike

namespace Access

variable {α β : Type} {access : Access α} {next : α → Access β} {address : UInt32}

/-- Whatever comes of the access, it changes no bytes but these. -/
def Touches (touched : Nat → Prop) (access : Access α) (memory : Memory) : Prop :=
  Alike touched memory (access.run.run memory).2

theorem Touches.alike (touches : Touches touched access memory) {a : α}
    (yields : Yields access memory a left) : Alike touched memory left := by
  rw [Touches, yields] at touches
  exact touches

theorem Touches.mono (touches : Touches touched access memory)
    (more : ∀ position, touched position → wider position) : Touches wider access memory :=
  Alike.mono touches more

theorem touches_bind (first : Touches touched access memory)
    (onward : ∀ a between, Yields access memory a between → Touches touched (next a) between) :
    Touches touched (access >>= next) memory := by
  rcases reached : (access.run.run memory : Except AccessFault α × Memory) with
    ⟨fault | a, between⟩
  · rw [Touches, run_bind_error reached]
    rw [Touches, reached] at first
    exact first
  · rw [Touches, run_bind_ok reached]
    exact (first.alike reached).trans (onward a between reached)

theorem touches_checkRange (address : UInt32) (count : Nat) :
    Touches touched (checkRange address count) memory := by
  change Alike touched memory ((ite _ _ _ : Access Unit).run.run memory).2
  split
  · exact Alike.refl touched memory
  · exact Alike.refl touched memory

theorem touches_checkAligned (address : UInt32) (width : Nat) :
    Touches touched (checkAligned address width) memory := by
  rw [checkAligned]
  split
  · exact Alike.refl touched memory
  · exact Alike.refl touched memory

theorem touches_add (address : UInt32) (count : Nat) :
    Touches touched (add address count) memory := by
  rw [add]
  split
  · exact Alike.refl touched memory
  · exact Alike.refl touched memory

theorem touches_write {bytes : Bytes}
    (within : ∀ position, address.toNat ≤ position → position < address.toNat + bytes.length →
      touched position) : Touches touched (write address bytes) memory := by
  refine touches_bind (touches_checkRange address bytes.length) fun _ between checked => ?_
  obtain ⟨inside, rfl⟩ := yields_checkRange.mp checked
  exact Alike.splice inside within

theorem touches_writeWord {word : UInt32}
    (within : ∀ position, address.toNat ≤ position → position < address.toNat + 4 →
      touched position) : Touches touched (writeWord address word) memory :=
  touches_bind (touches_checkAligned address 32) fun _ _ _ => touches_write within

theorem yields_readWord {word : UInt32} (aligned : address % 4 = 0)
    (inside : address.toNat + 4 ≤ memory.size)
    (stands : memory.slice address.toNat 4 = Bytes.ofWord word) :
    Yields (readWord address) memory word memory := by
  have found := yields_read.mpr ⟨inside, stands.symm, rfl⟩
  have decoded : Yields (pure (Bytes.toWord word.toUInt8 (word >>> 8).toUInt8
      (word >>> 16).toUInt8 (word >>> 24).toUInt8)) memory word memory :=
    yields_pure.mpr ⟨(Bytes.toWord_ofWord word).symm, rfl⟩
  exact yields_bind.mpr ⟨(), memory, yields_checkAligned.mpr ⟨aligned, rfl⟩,
    yields_bind.mpr ⟨_, memory, found, decoded⟩⟩

/-- A text without a NUL is read back from where it stands with a NUL behind it, however many bytes
more than its own are asked for. -/
theorem yields_readString {text : String} (nul_free : '\x00' ∉ text.toList)
    (stands : memory.slice address.toNat ((Bytes.ofString text).length + 1) =
      Bytes.ofString text ++ [0]) {count : Nat} (enough : (Bytes.ofString text).length ≤ count)
    (inside : address.toNat + count ≤ memory.size) :
    Yields (readString address count) memory text memory := by
  have no_zero := Utf8.zero_not_mem_ofString nul_free
  have own : memory.slice address.toNat (Bytes.ofString text).length = Bytes.ofString text := by
    have front := memory.slice_within address.toNat 0
      (Nat.le_of_lt (Nat.lt_succ_self (0 + (Bytes.ofString text).length)))
    rw [Nat.zero_add, Nat.add_zero, stands, List.drop_zero, List.take_left] at front
    exact front
  have read : Bytes.beforeNul (memory.slice address.toNat count) = Bytes.ofString text := by
    rcases Nat.eq_or_lt_of_le enough with same | more
    · rw [← same, own, Bytes.beforeNul_of_nulFree no_zero]
    · obtain ⟨stale, rfl⟩ := Nat.exists_eq_add_of_le more
      rw [slice_add, stands, List.append_assoc, List.singleton_append,
        Bytes.beforeNul_terminated no_zero]
  have found := yields_read.mpr ⟨inside, rfl, rfl⟩
  refine yields_bind.mpr ⟨_, memory, found, yields_pure.mpr ⟨?_, rfl⟩⟩
  rw [read, Utf8.lossy_ofString]

end Access

end Memory

end Buildbox
