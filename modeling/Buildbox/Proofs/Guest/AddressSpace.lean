import Buildbox.Wasm.Instance
import Buildbox.Proofs.Guest.Arguments
import Buildbox.Proofs.Memory.Exact

/-!
Sums of addresses as words. In every memory that a guest can have but the largest, the sums that an
access needs are words, and it succeeds exactly if all of its bytes lie between its address and the
end of the memory. The largest one takes up every address: there the address behind its last byte is
no word, so that a text which ends with the memory brings the program down, and an array of buffers
that is larger than any word counts as one that just fits.
-/

set_option autoImplicit false

namespace Buildbox.Memory

open Access

variable {memory left : Memory} {texts rest : List String} {text : String}
  {pointers target address count : UInt32}

/-- Of a size that the memory of a guest can have: whole pages, as many as there are addresses
for. -/
def Paged (memory : Memory) : Prop :=
  ∃ pages ≤ 65536, memory.size = pages * Wasm.pageSize

namespace Paged

theorem eight_dvd (paged : memory.Paged) : 8 ∣ memory.size := by
  obtain ⟨pages, -, size⟩ := paged
  rw [size]
  exact Nat.dvd_trans (by decide) (Nat.dvd_mul_left Wasm.pageSize pages)

theorem size_le (paged : memory.Paged) : memory.size ≤ UInt32.size := by
  obtain ⟨pages, few, size⟩ := paged
  rw [size]
  exact Nat.mul_le_mul_right Wasm.pageSize few

theorem size_lt_iff (paged : memory.Paged) :
    memory.size < UInt32.size ↔ memory.size ≠ UInt32.size :=
  Nat.lt_iff_le_and_ne.trans (and_iff_right paged.size_le)

end Paged

def Access.Overflows {α : Type} (access : Access α) (memory : Memory) : Prop :=
  ∃ left, access.run.run memory = (.error .overflow, left)

namespace Access

variable {α β : Type} {access : Access α} {next : α → Access β} {span : Nat}

theorem overflows_bind :
    Overflows (access >>= next) memory ↔
      Overflows access memory ∨
        ∃ a between, Yields access memory a between ∧ Overflows (next a) between := by
  unfold Overflows Yields
  rcases reached : (access.run.run memory : Except AccessFault α × Memory) with
    ⟨fault | a, between⟩
  · rw [run_bind_error reached]
    constructor
    · rintro ⟨left, same⟩
      cases same
      exact .inl ⟨between, rfl⟩
    · rintro (⟨left, same⟩ | ⟨a, left, impossible, -⟩)
      · cases same
        exact ⟨between, rfl⟩
      · cases impossible
  · rw [run_bind_ok reached]
    constructor
    · rintro ⟨left, later⟩
      exact .inr ⟨a, between, rfl, left, later⟩
    · rintro (⟨left, impossible⟩ | ⟨b, other, same, later⟩)
      · cases impossible
      · cases same
        exact later

theorem overflows_add :
    Overflows (add address span) memory ↔ UInt32.size ≤ address.toNat + span := by
  rw [add]
  split
  · next beyond => exact ⟨fun _ => beyond, fun _ => ⟨memory, rfl⟩⟩
  · next below =>
    refine ⟨?_, fun beyond => absurd beyond below⟩
    rintro ⟨left, impossible⟩
    cases impossible

theorem not_overflows_checkRange : ¬ Overflows (checkRange address span) memory := by
  rintro ⟨left, overflow⟩
  by_cases inside : address.toNat + span ≤ memory.size
  · have checked : Yields (checkRange address span) memory () memory :=
      yields_checkRange.mpr ⟨inside, rfl⟩
    cases checked.symm.trans overflow
  · cases (run_checkRange inside).symm.trans overflow

theorem not_overflows_checkAligned {width : Nat} :
    ¬ Overflows (checkAligned address width) memory := by
  rintro ⟨left, overflow⟩
  by_cases aligned : address % 4 = 0
  · have checked : Yields (checkAligned address width) memory () memory :=
      yields_checkAligned.mpr ⟨aligned, rfl⟩
    cases checked.symm.trans overflow
  · cases (run_checkAligned aligned width).symm.trans overflow

theorem not_overflows_write {bytes : Bytes} : ¬ Overflows (write address bytes) memory := by
  rw [write, overflows_bind]
  rintro (overflow | ⟨_, _, -, left, impossible⟩)
  · exact not_overflows_checkRange overflow
  · cases impossible

theorem not_overflows_writeWord {word : UInt32} :
    ¬ Overflows (writeWord address word) memory := by
  rw [writeWord, overflows_bind]
  rintro (overflow | ⟨_, _, -, overflow⟩)
  · exact not_overflows_checkAligned overflow
  · exact not_overflows_write overflow

end Access

theorem allOrNothing_writeDouble (size_le : memory.size ≤ UInt32.size)
    (address low high : UInt32) :
    AllOrNothing (address % 4 = 0 ∧ address.toNat + 8 ≤ memory.size) (writeDouble address low high)
      memory () (memory.splice address.toNat (Bytes.ofWord low ++ Bytes.ofWord high)) := by
  have checks : AllOrNothing (address % 4 = 0 ∧ address.toNat + 8 ≤ memory.size)
      (do checkAligned address 64; checkRange address 8) memory () memory :=
    (allOrNothing_checkAligned memory address 64).bind (allOrNothing_checkRange memory address 8)
  have whole : writeDouble address low high =
      (do checkAligned address 64; checkRange address 8) >>= fun _ =>
        writeWord address low >>= fun _ => add address 4 >>= fun next => writeWord next high := by
    rw [bind_assoc]
    rfl
  rw [whole]
  constructor
  · rintro ⟨aligned, inside⟩
    have before_end : address.toNat + 4 < UInt32.size := by omega
    have next := toNat_next before_end
    have front : address.toNat + (Bytes.ofWord low).length ≤ memory.size := by
      have length : (Bytes.ofWord low).length = 4 := rfl
      omega
    have first : Yields (writeWord address low) memory ()
        (memory.splice address.toNat (Bytes.ofWord low)) :=
      yields_writeWord.mpr ⟨aligned, front, rfl⟩
    have second : Yields (writeWord (address + 4) high)
        (memory.splice address.toNat (Bytes.ofWord low)) ()
        (memory.splice address.toNat (Bytes.ofWord low ++ Bytes.ofWord high)) := by
      refine yields_writeWord.mpr ⟨aligned_next aligned, ?_, ?_⟩
      · rw [next, size_splice front]
        exact inside
      · rw [next]
        exact (splice_behind front).symm
    exact yields_bind.mpr ⟨(), memory, checks.done ⟨aligned, inside⟩,
      yields_bind.mpr ⟨(), _, first, yields_bind.mpr ⟨_, _, yields_add.mpr ⟨before_end, rfl, rfl⟩,
        second⟩⟩⟩
  · intro fails
    obtain ⟨fault, failed⟩ := checks.undone fails
    exact ⟨fault, run_bind_error failed⟩

theorem not_overflows_writeDouble (size_le : memory.size ≤ UInt32.size)
    (address low high : UInt32) : ¬ Overflows (writeDouble address low high) memory := by
  rw [writeDouble, overflows_bind]
  rintro (unaligned | ⟨_, checkedIn, aligned, checks⟩)
  · exact not_overflows_checkAligned unaligned
  rcases overflows_bind.mp checks with outside | ⟨_, _, checked, writes⟩
  · exact not_overflows_checkRange outside
  rcases overflows_bind.mp writes with first | ⟨_, _, -, sums⟩
  · exact not_overflows_writeWord first
  rcases overflows_bind.mp sums with beyond | ⟨_, _, -, second⟩
  · obtain ⟨-, rfl⟩ := yields_checkAligned.mp aligned
    have inside := (yields_checkRange.mp checked).1
    have beyond := overflows_add.mp beyond
    omega
  · exact not_overflows_writeWord second

theorem overflows_writeString :
    Overflows (writeString target text) memory ↔
      target.toNat + (Bytes.ofString text).length ≤ memory.size ∧
        (UInt32.size ≤ target.toNat + (Bytes.ofString text).length ∨
          target.toNat + ((Bytes.ofString text).length + 1) ≤ memory.size ∧
            UInt32.size ≤ (Bytes.ofString text).length + 1) := by
  have length_word (below : target.toNat + (Bytes.ofString text).length < UInt32.size) :
      (Bytes.ofString text).length.toUInt32.toNat = (Bytes.ofString text).length :=
    UInt32.toNat_ofNat_of_lt' (by omega)
  rw [writeString, overflows_bind]
  constructor
  · rintro (overflow | ⟨_, _, own, overflow⟩)
    · exact (not_overflows_write overflow).elim
    obtain ⟨inside, rfl⟩ := yields_write.mp own
    refine ⟨inside, ?_⟩
    rcases overflows_bind.mp overflow with overflow | ⟨_, _, place, overflow⟩
    · exact .inl (overflows_add.mp overflow)
    obtain ⟨below, rfl, rfl⟩ := yields_add.mp place
    rcases overflows_bind.mp overflow with overflow | ⟨_, _, nul, overflow⟩
    · exact (not_overflows_write overflow).elim
    have beyond := overflows_add.mp overflow
    rw [length_word below] at beyond
    exact .inr ⟨((yields_nul inside below).mp nul).1, beyond⟩
  · rintro ⟨inside, ends⟩
    refine .inr ⟨(), _, yields_write.mpr ⟨inside, rfl⟩, overflows_bind.mpr ?_⟩
    by_cases below : target.toNat + (Bytes.ofString text).length < UInt32.size
    · obtain ⟨room, beyond⟩ := ends.resolve_left (Nat.not_le_of_lt below)
      refine .inr ⟨_, _, yields_add.mpr ⟨below, rfl, rfl⟩, overflows_bind.mpr (.inr
        ⟨(), _, (yields_nul inside below).mpr ⟨room, rfl⟩, overflows_add.mpr ?_⟩)⟩
      rwa [length_word below]
    · exact .inl (overflows_add.mpr (Nat.le_of_not_lt below))

theorem overflows_writeStrings_cons :
    Overflows (writeStrings (text :: rest) pointers target) memory ↔
      (pointers % 4 = 0 ∧ pointers.toNat + 4 ≤ memory.size) ∧
        (UInt32.size ≤ pointers.toNat + 4 ∨
          (target.toNat + (Bytes.ofString text).length ≤ memory.size ∧
            (UInt32.size ≤ target.toNat + (Bytes.ofString text).length ∨
              target.toNat + ((Bytes.ofString text).length + 1) ≤ memory.size ∧
                UInt32.size ≤ target.toNat + ((Bytes.ofString text).length + 1))) ∨
          (target.toNat + ((Bytes.ofString text).length + 1) ≤ memory.size ∧
            pointers.toNat + 4 < UInt32.size ∧
            target.toNat + ((Bytes.ofString text).length + 1) < UInt32.size ∧
            Overflows (writeStrings rest (pointers + 4) (behind target text))
              (memory.withText text pointers target))) := by
  have word (small : (Bytes.ofString text).length + 1 < UInt32.size) :
      ((Bytes.ofString text).length + 1).toUInt32.toNat = (Bytes.ofString text).length + 1 :=
    UInt32.toNat_ofNat_of_lt' small
  rw [writeStrings, overflows_bind]
  constructor
  · rintro (overflow | ⟨_, _, pointer, overflow⟩)
    · exact (not_overflows_writeWord overflow).elim
    obtain ⟨aligned, inside, rfl⟩ := yields_writeWord.mp pointer
    refine ⟨⟨aligned, inside⟩, ?_⟩
    rcases overflows_bind.mp overflow with overflow | ⟨_, _, next, overflow⟩
    · exact .inl (overflows_add.mp overflow)
    obtain ⟨next_below, rfl, rfl⟩ := yields_add.mp next
    have size := size_splice_word inside target
    rcases overflows_bind.mp overflow with overflow | ⟨written, _, own, overflow⟩
    · have ends := overflows_writeString.mp overflow
      rw [size] at ends
      omega
    obtain ⟨room, -, small, rfl, rfl⟩ := yields_writeString_iff.mp own
    rw [size] at room
    rcases overflows_bind.mp overflow with overflow | ⟨_, _, further, overflow⟩
    · have beyond := overflows_add.mp overflow
      rw [word small] at beyond
      omega
    · obtain ⟨below, rfl, rfl⟩ := yields_add.mp further
      rw [word small] at below overflow
      exact .inr (.inr ⟨room, next_below, below, overflow⟩)
  · rintro ⟨⟨aligned, inside⟩, ends⟩
    have size := size_splice_word inside target
    refine .inr ⟨(), _, yields_writeWord.mpr ⟨aligned, inside, rfl⟩, overflows_bind.mpr ?_⟩
    rcases Nat.lt_or_ge (pointers.toNat + 4) UInt32.size with next_below | beyond
    case inr => exact .inl (overflows_add.mpr beyond)
    refine .inr ⟨_, _, yields_add.mpr ⟨next_below, rfl, rfl⟩, overflows_bind.mpr ?_⟩
    by_cases own : Overflows (writeString target text)
        (memory.splice pointers.toNat (Bytes.ofWord target))
    · exact .inl own
    -- the text itself is written, and either the way behind it is no word or the rest overflows
    rw [overflows_writeString, size] at own
    have room : target.toNat + ((Bytes.ofString text).length + 1) ≤ memory.size := by omega
    have small : (Bytes.ofString text).length + 1 < UInt32.size := by omega
    have before : target.toNat + (Bytes.ofString text).length < UInt32.size := by omega
    have written := yields_writeString_iff.mpr ⟨size.symm ▸ room, before, small, rfl, rfl⟩
    refine .inr ⟨_, _, written, overflows_bind.mpr ?_⟩
    by_cases below : target.toNat + ((Bytes.ofString text).length + 1) < UInt32.size
    · refine .inr ⟨_, _, yields_add.mpr ⟨(word small).symm ▸ below, rfl, rfl⟩, ?_⟩
      obtain ⟨-, -, -, later⟩ : _ ∧ _ ∧ _ ∧ _ := by
        rcases ends with beyond | ⟨-, beyond⟩ | later
        · omega
        · omega
        · exact later
      rw [word small]
      exact later
    · exact .inl (overflows_add.mpr ((word small).symm ▸ Nat.le_of_not_lt below))

def mostBuffers : Nat := (UInt32.size - 1) / 8

theorem allOrNothing_buffers_paged (paged : memory.Paged) (address count : UInt32) :
    AllOrNothing (address % 4 = 0 ∧ (address.toNat + 8 * count.toNat ≤ memory.size ∨
        memory.size = UInt32.size ∧ address = 0 ∧ mostBuffers < count.toNat))
      (buffers address count) memory (memory.bufferList address count) memory := by
  refine (allOrNothing_buffers memory address count).of_iff (and_congr_right fun aligned => ?_)
  obtain ⟨eighths, size⟩ := paged.eight_dvd
  have size_le := paged.size_le
  have words : UInt32.size = 4294967296 := rfl
  have most : mostBuffers = 536870911 := rfl
  have zero : address = 0 ↔ address.toNat = 0 := UInt32.toNat_inj.symm
  rw [aligned_iff] at aligned
  rw [zero, most]
  omega

/-- No sum of addresses leaves the words: what is read and written lies between the given address and
the end of the memory, and an array has as many records as it is said to have. -/
structure Bounded (memory : Memory) : Prop where
  double : ∀ address low high left, Yields (writeDouble address low high) memory () left ↔
    address % 4 = 0 ∧ address.toNat + 8 ≤ memory.size ∧
      left = memory.splice address.toNat (Bytes.ofWord low ++ Bytes.ofWord high)
  double_sum : ∀ address low high, ¬ Overflows (writeDouble address low high) memory
  text : ∀ target text written left, Yields (writeString target text) memory written left ↔
    target.toNat + ((Bytes.ofString text).length + 1) ≤ memory.size ∧
      written = ((Bytes.ofString text).length + 1).toUInt32 ∧
      left = memory.splice target.toNat (Bytes.ofString text ++ [0])
  text_sum : ∀ target text, ¬ Overflows (writeString target text) memory
  texts : ∀ texts pointers target,
    ((∃ left, Yields (writeStrings texts pointers target) memory () left) ↔
      pointers % 4 = 0 ∧ pointers.toNat + 4 * (texts.length + 1) ≤ memory.size ∧
        (texts = [] ∨ target.toNat + packedSize texts ≤ memory.size)) ∧
    Touches (Allotted texts.length (packedSize texts) pointers target)
      (writeStrings texts pointers target) memory
  texts_sum : ∀ texts pointers target, ¬ Overflows (writeStrings texts pointers target) memory
  buffers : ∀ address count list left, Yields (buffers address count) memory list left ↔
    address % 4 = 0 ∧ address.toNat + 8 * count.toNat ≤ memory.size ∧
      list = memory.bufferList address count ∧ left = memory
  records : ∀ address count : UInt32, address.toNat + 8 * count.toNat ≤ memory.size →
    (memory.bufferList address count).length = count.toNat

/-- Laying texts out comes to one whose address takes the last word of the memory, or that ends with
the memory, its NUL counted or not. -/
def ReachesEnd (memory : Memory) (texts : List String) (pointers target : UInt32) : Prop :=
  ∃ index text, texts[index]? = some text ∧
    pointers.toNat + 4 * index < memory.size ∧
    target.toNat + packedSize (texts.take index) < memory.size ∧
    (pointers.toNat + 4 * (index + 1) = memory.size ∨
      target.toNat + packedSize (texts.take index) + (Bytes.ofString text).length ≤ memory.size ∧
        memory.size ≤
          target.toNat + packedSize (texts.take index) + ((Bytes.ofString text).length + 1))

/-- What accesses come to where every address is one of a byte. All that is written lies inside, but a
text, or one of several, that reaches the end of the memory overflows; and an array of buffers at
address zero may be said to have any number of records that is too large. -/
structure Overflowing (memory : Memory) : Prop where
  double : ∀ address low high left, Yields (writeDouble address low high) memory () left ↔
    address % 4 = 0 ∧ address.toNat + 8 ≤ memory.size ∧
      left = memory.splice address.toNat (Bytes.ofWord low ++ Bytes.ofWord high)
  double_sum : ∀ address low high, ¬ Overflows (writeDouble address low high) memory
  text : ∀ target text written left, Yields (writeString target text) memory written left ↔
    target.toNat + ((Bytes.ofString text).length + 1) ≤ memory.size ∧
      (Bytes.ofString text).length + 1 < memory.size ∧
      written = ((Bytes.ofString text).length + 1).toUInt32 ∧
      left = memory.splice target.toNat (Bytes.ofString text ++ [0])
  text_sum : ∀ target text, Overflows (writeString target text) memory ↔
    target.toNat + (Bytes.ofString text).length = memory.size ∨
      target = 0 ∧ (Bytes.ofString text).length + 1 = memory.size
  texts : ∀ texts pointers target,
    ((∃ left, Yields (writeStrings texts pointers target) memory () left) ↔
      pointers % 4 = 0 ∧ pointers.toNat + 4 * (texts.length + 1) ≤ memory.size ∧
        (texts = [] ∨ target.toNat + packedSize texts < memory.size)) ∧
    Touches (Allotted texts.length (packedSize texts) pointers target)
      (writeStrings texts pointers target) memory
  texts_sum : ∀ texts pointers target, Overflows (writeStrings texts pointers target) memory ↔
    pointers % 4 = 0 ∧ memory.ReachesEnd texts pointers target
  buffers : ∀ address count list left, Yields (buffers address count) memory list left ↔
    address % 4 = 0 ∧ (address.toNat + 8 * count.toNat ≤ memory.size ∨
      address = 0 ∧ mostBuffers < count.toNat) ∧
      list = memory.bufferList address count ∧ left = memory
  records : ∀ address count : UInt32, address.toNat + 8 * count.toNat ≤ memory.size ∨
      address = 0 ∧ mostBuffers < count.toNat →
    (memory.bufferList address count).length = min count.toNat mostBuffers

section Full

variable (full : memory.size = UInt32.size)

include full

theorem word_inside (aligned : address % 4 = 0) : address.toNat + 4 ≤ memory.size := by
  have below := UInt32.toNat_lt_size address
  have size : UInt32.size = 4294967296 := rfl
  rw [aligned_iff] at aligned
  omega

theorem reachesEnd_cons :
    memory.ReachesEnd (text :: rest) pointers target ↔
      pointers.toNat + 4 = memory.size ∨
        (target.toNat + (Bytes.ofString text).length ≤ memory.size ∧
          memory.size ≤ target.toNat + ((Bytes.ofString text).length + 1)) ∨
        (pointers.toNat + 4 < memory.size ∧
          target.toNat + ((Bytes.ofString text).length + 1) < memory.size ∧
          memory.ReachesEnd rest (pointers + 4) (behind target text)) := by
  have further (index : Nat) : packedSize ((text :: rest).take (index + 1)) =
      (Bytes.ofString text).length + 1 + packedSize (rest.take index) := by
    rw [List.take_succ_cons, packedSize]
  have nothing : packedSize ((text :: rest).take 0) = 0 := rfl
  have pointers_below := UInt32.toNat_lt_size pointers
  have target_below := UInt32.toNat_lt_size target
  constructor
  · rintro ⟨index, other, there, cell_below, place_below, ends⟩
    cases index with
    | zero =>
      cases there
      rw [nothing] at ends
      omega
    | succ index =>
      rw [further] at place_below ends
      have next_below : pointers.toNat + 4 < UInt32.size := by omega
      have below : target.toNat + ((Bytes.ofString text).length + 1) < UInt32.size := by omega
      refine .inr (.inr ⟨by omega, by omega, index, other, there, ?_⟩)
      rw [toNat_next next_below, toNat_behind below]
      omega
  · rintro (last | ends | ⟨next_below, below, index, other, there, later⟩)
    · exact ⟨0, text, rfl, by omega, by rw [nothing]; omega, .inl (by omega)⟩
    · refine ⟨0, text, rfl, by omega, by rw [nothing]; omega, .inr ?_⟩
      rw [nothing]
      omega
    · rw [full] at next_below below
      rw [toNat_next next_below, toNat_behind below] at later
      refine ⟨index + 1, other, there, ?_⟩
      rw [further]
      omega

theorem overflows_writeStrings :
    Overflows (writeStrings texts pointers target) memory ↔
      pointers % 4 = 0 ∧ memory.ReachesEnd texts pointers target := by
  induction texts generalizing pointers target memory with
  | nil =>
    constructor
    · intro overflow
      exact (not_overflows_writeWord overflow).elim
    · rintro ⟨-, index, text, there, -⟩
      cases there
  | cons text rest ih =>
    rw [overflows_writeStrings_cons, reachesEnd_cons full, ← full]
    have onward (inside : pointers.toNat + 4 ≤ memory.size)
        (room : target.toNat + ((Bytes.ofString text).length + 1) ≤ memory.size)
        (aligned : pointers % 4 = 0) :
        Overflows (writeStrings rest (pointers + 4) (behind target text))
            (memory.withText text pointers target) ↔
          memory.ReachesEnd rest (pointers + 4) (behind target text) := by
      have size := size_withText inside room
      rw [ih (size.trans full), ReachesEnd, size]
      exact and_iff_right (aligned_next aligned)
    constructor
    · rintro ⟨⟨aligned, inside⟩, last | ends | ⟨room, next_below, below, later⟩⟩
      · exact ⟨aligned, .inl (by omega)⟩
      · exact ⟨aligned, .inr (.inl (by omega))⟩
      · exact ⟨aligned, .inr (.inr ⟨next_below, below, (onward inside room aligned).mp later⟩)⟩
    · rintro ⟨aligned, ends⟩
      have inside := word_inside full aligned
      refine ⟨⟨aligned, inside⟩, ?_⟩
      rcases ends with last | ends | ⟨next_below, below, later⟩
      · exact .inl (by omega)
      · exact .inr (.inl (by omega))
      · have room := Nat.le_of_lt below
        exact .inr (.inr ⟨room, next_below, below, (onward inside room aligned).mpr later⟩)

end Full

theorem not_overflows_writeStrings (short : memory.size < UInt32.size) :
    ¬ Overflows (writeStrings texts pointers target) memory := by
  induction texts generalizing pointers target memory with
  | nil => exact not_overflows_writeWord
  | cons text rest ih =>
    intro overflow
    obtain ⟨⟨-, inside⟩, ends⟩ := overflows_writeStrings_cons.mp overflow
    rcases ends with beyond | ends | ⟨room, -, -, later⟩
    · omega
    · omega
    · exact ih (by rwa [size_withText inside room]) later

theorem bounded_of_short (short : memory.size < UInt32.size) (paged : memory.Paged) :
    memory.Bounded where
  double address low high left := by
    rw [(allOrNothing_writeDouble paged.size_le address low high).yields_iff, and_assoc]
    simp
  double_sum := not_overflows_writeDouble paged.size_le
  text target text written left := yields_writeString short
  text_sum target text overflow := by
    have ends := overflows_writeString.mp overflow
    omega
  texts texts pointers target := by
    refine ⟨writeStrings_succeeds.trans ?_, touches_writeStrings texts pointers target⟩
    rw [and_assoc, and_assoc]
    refine and_congr_right fun _ => and_congr_right fun inside => ?_
    rw [and_iff_right (by omega)]
    exact or_congr_right (and_iff_left_of_imp fun fits => Nat.lt_of_le_of_lt fits short)
  texts_sum texts pointers target := not_overflows_writeStrings short
  buffers address count list left := by
    rw [(allOrNothing_buffers_paged paged address count).yields_iff]
    have differs : memory.size ≠ UInt32.size := Nat.ne_of_lt short
    simp [differs, and_assoc]
  records address count inside := by
    rw [length_bufferList]
    all_goals omega

theorem overflowing_of_full (full : memory.size = UInt32.size) (paged : memory.Paged) :
    memory.Overflowing where
  double address low high left := by
    rw [(allOrNothing_writeDouble paged.size_le address low high).yields_iff, and_assoc]
    simp
  double_sum := not_overflows_writeDouble paged.size_le
  text target text written left := by
    rw [yields_writeString_iff, full]
    constructor
    · rintro ⟨room, -, small, same⟩
      exact ⟨room, small, same⟩
    · rintro ⟨room, small, same⟩
      exact ⟨room, by omega, small, same⟩
  text_sum target text := by
    have zero : target = 0 ↔ target.toNat = 0 := UInt32.toNat_inj.symm
    rw [overflows_writeString, zero, full]
    omega
  texts texts pointers target := by
    refine ⟨writeStrings_succeeds.trans ?_, touches_writeStrings texts pointers target⟩
    rw [and_assoc, and_assoc, full]
    refine and_congr_right fun _ => and_congr_right fun inside => ?_
    rw [and_iff_right (by omega)]
    exact or_congr_right (and_iff_right_of_imp Nat.le_of_lt)
  texts_sum texts pointers target := overflows_writeStrings full
  buffers address count list left := by
    rw [(allOrNothing_buffers_paged paged address count).yields_iff]
    simp [full, and_assoc]
  records address count inside := by
    have words : UInt32.size = 4294967296 := rfl
    have most : mostBuffers = 536870911 := rfl
    have zero : address = 0 ↔ address.toNat = 0 := UInt32.toNat_inj.symm
    rw [zero] at inside
    rw [length_bufferList]
    all_goals omega

theorem crashes_iff_overflows {σ : Type} {argv : List String} {sizes layout : Syscall} {host : σ}
    {trace : Trace} {result : Except Signal (List Value)} {left : Option Memory × σ}
    (gives : Syscall.Gives argv sizes layout texts)
    (run : Service.Runs (Syscall.serve argv layout [.i32 pointers, .i32 target])
      (some memory, host) trace result left) :
    ⟨.crash, ()⟩ ∈ trace ↔ Overflows (writeStrings texts pointers target) memory := by
  rw [gives.serve_layout] at run
  obtain ⟨rfl, rfl, -⟩ := Syscall.runs_checked.mp run
  unfold Overflows
  rcases ((writeStrings texts pointers target).run.run memory :
    Except AccessFault Unit × Memory) with ⟨fault | done, put⟩
  · cases fault with
    | overflow => exact ⟨fun _ => ⟨put, rfl⟩, fun _ => List.mem_singleton_self _⟩
    | outOfBounds | misaligned =>
      constructor
      · intro among
        cases among
      · rintro ⟨_, impossible⟩
        cases impossible
  · constructor
    · intro among
      cases among
    · rintro ⟨_, impossible⟩
      cases impossible

private theorem length_test : (Bytes.ofString "test").length = 4 := by
  decide +kernel

/-- Among the memories that a guest can have, sums of addresses are words in all but the largest, and
in that one they are not. A guest that asks for its texts brings the program down exactly where they
are not. -/
theorem bounded_iff_not_full (paged : memory.Paged) :
    (memory.Bounded ↔ memory.size ≠ UInt32.size) ∧
      (memory.size = UInt32.size → memory.Overflowing) ∧
      ∀ (σ : Type) (host : σ) argv sizes layout texts, Syscall.Gives argv sizes layout texts →
        ∀ pointers target trace result left,
          Service.Runs (Syscall.serve argv layout [.i32 pointers, .i32 target])
              (some memory, host) trace result left →
            (⟨.crash, ()⟩ ∈ trace ↔ Overflows (writeStrings texts pointers target) memory) := by
  refine ⟨⟨fun bounded full => ?_, fun not_full => ?_⟩, fun full => overflowing_of_full full paged,
    fun _ _ _ _ _ _ gives _ _ _ _ _ run => crashes_iff_overflows gives run⟩
  · have ends : (0xFFFFFFFC : UInt32).toNat + 4 = UInt32.size := rfl
    refine bounded.text_sum 0xFFFFFFFC "test" (((overflowing_of_full full paged).text_sum _ _).mpr ?_)
    rw [length_test, ends, full]
    exact .inl rfl
  · exact bounded_of_short (paged.size_lt_iff.mpr not_full) paged

theorem size_ofBytes (bytes : Bytes) : (ofBytes bytes).size = bytes.length := by
  rw [← length_toBytes, toBytes, ofBytes, List.data_toByteArray]

/-- In a memory of one page less than the largest, a text that ends with the memory is refused. -/
theorem text_refused_at_end :
    (blank (65535 * Wasm.pageSize)).Paged ∧
    ¬ ∃ written left, Yields (writeString 0xFFFEFFFC "test") (blank (65535 * Wasm.pageSize)) written
      left := by
  have size : (blank (65535 * Wasm.pageSize)).size = 65535 * Wasm.pageSize := by
    rw [blank, size_ofBytes, List.length_replicate]
  have paged : (blank (65535 * Wasm.pageSize)).Paged := ⟨65535, by decide, size⟩
  have pages : 65535 * Wasm.pageSize = 4294901760 := rfl
  have bounded : (blank (65535 * Wasm.pageSize)).Bounded := by
    refine (bounded_iff_not_full paged).1.mpr ?_
    rw [size, pages]
    decide
  refine ⟨paged, ?_⟩
  rintro ⟨written, left, done⟩
  obtain ⟨inside, -⟩ := (bounded.text _ _ _ _).mp done
  have start : (0xFFFEFFFC : UInt32).toNat = 4294901756 := rfl
  rw [length_test, size, pages, start] at inside
  omega

/-- In the largest memory a text that ends with it overflows, and so does the only argument of a guest
that just has room; and of an array of as many buffers as a word can say some are left out. -/
theorem text_overflows_at_end :
    (blank UInt32.size).Paged ∧
    Overflows (writeString 0xFFFFFFFC "test") (blank UInt32.size) ∧
    Overflows (writeStrings ["test"] 0 0xFFFFFFFC) (blank UInt32.size) ∧
    (0xFFFFFFFB : UInt32).toNat + packedSize ["test"] = (blank UInt32.size).size ∧
    Overflows (writeStrings ["test"] 0 0xFFFFFFFB) (blank UInt32.size) ∧
    ∃ list, Yields (buffers 0 0xFFFFFFFF) (blank UInt32.size) list (blank UInt32.size) ∧
      list.length = 536870911 := by
  have size : (blank UInt32.size).size = UInt32.size := by
    rw [blank, size_ofBytes, List.length_replicate]
  have paged : (blank UInt32.size).Paged := ⟨65536, by decide, size⟩
  have overflowing := overflowing_of_full size paged
  have packs : packedSize ["test"] = 5 := by
    rw [packedSize, packedSize, length_test]
  have words : UInt32.size = 4294967296 := rfl
  have last : (0xFFFFFFFC : UInt32).toNat = 4294967292 := rfl
  have before : (0xFFFFFFFB : UInt32).toNat = 4294967291 := rfl
  have start : (0 : UInt32).toNat = 0 := rfl
  have nothing : packedSize (["test"].take 0) = 0 := rfl
  have reaches {target : UInt32} (inside : target.toNat + 4 ≤ UInt32.size)
      (ends : UInt32.size ≤ target.toNat + 5) :
      (blank UInt32.size).ReachesEnd ["test"] 0 target := by
    refine ⟨0, "test", rfl, ?_⟩
    rw [nothing, length_test, size, start]
    omega
  have too_many : (0 : UInt32) = 0 ∧ mostBuffers < (0xFFFFFFFF : UInt32).toNat :=
    ⟨rfl, by decide⟩
  have found := (overflowing.buffers 0 0xFFFFFFFF _ _).mpr ⟨by decide, .inr too_many, rfl, rfl⟩
  have few := overflowing.records 0 0xFFFFFFFF (.inr too_many)
  refine ⟨paged, (overflowing.text_sum _ _).mpr (.inl ?_),
    (overflowing.texts_sum _ _ _).mpr ⟨by decide, reaches (by omega) (by omega)⟩, ?_,
    (overflowing.texts_sum _ _ _).mpr ⟨by decide, reaches (by omega) (by omega)⟩, _, found, few⟩
  · rw [length_test, size, last, words]
  · rw [packs, size, before, words]

end Buildbox.Memory
