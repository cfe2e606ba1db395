import Buildbox.Guest.Syscall
import Buildbox.Proofs.Host.Action
import Buildbox.Proofs.Memory.Frame

/-!
The texts that a guest is given: its arguments and its environment. A guest first asks how many
there are and how many bytes they take, and then says where their addresses and where they
themselves go. What is reported is exactly what is written, so that a guest that makes room for it
and for a zero address has nothing else overwritten, whatever comes of the call.
-/

set_option autoImplicit false

namespace Buildbox

/-- The texts one after another, a NUL after each. -/
def packed (texts : List String) : Bytes :=
  texts.flatMap fun text => Bytes.ofString text ++ [0]

theorem packed_cons (text : String) (rest : List String) :
    packed (text :: rest) = Bytes.ofString text ++ [0] ++ packed rest :=
  List.flatMap_cons

theorem packedSize_cons (text : String) (rest : List String) :
    packedSize (text :: rest) = (Bytes.ofString text).length + 1 + packedSize rest :=
  rfl

theorem length_packed (texts : List String) : (packed texts).length = packedSize texts := by
  induction texts with
  | nil => rfl
  | cons text rest ih =>
    rw [packed_cons, List.length_append, List.length_append, ih]
    rfl

theorem packedSize_append (front behind : List String) :
    packedSize (front ++ behind) = packedSize front + packedSize behind := by
  rw [← length_packed, ← length_packed, ← length_packed, packed, List.flatMap_append,
    List.length_append, packed, packed]

theorem length_le_packedSize (texts : List String) : texts.length ≤ packedSize texts := by
  induction texts with
  | nil => exact Nat.le_refl _
  | cons text rest ih =>
    rw [List.length_cons, packedSize]
    omega

theorem packed_at {texts : List String} {index : Nat} {text : String}
    (there : texts[index]? = some text) :
    ((packed texts).drop (packedSize (texts.take index))).take ((Bytes.ofString text).length + 1) =
      Bytes.ofString text ++ [0] := by
  obtain ⟨inside, rfl⟩ := List.getElem?_eq_some_iff.mp there
  have split : packed texts = packed (texts.take index) ++
      (Bytes.ofString texts[index] ++ [0] ++ packed (texts.drop (index + 1))) := by
    rw [← packed_cons, ← List.drop_eq_getElem_cons inside, packed, packed, packed,
      ← List.flatMap_append, List.take_append_drop]
  rw [split, List.drop_left' (length_packed _), List.take_left']
  rw [List.length_append, List.length_singleton]

theorem packedSize_front {texts : List String} {index : Nat} {text : String}
    (there : texts[index]? = some text) :
    packedSize (texts.take index) + ((Bytes.ofString text).length + 1) ≤ packedSize texts := by
  obtain ⟨inside, rfl⟩ := List.getElem?_eq_some_iff.mp there
  have split := packedSize_append (texts.take index) (texts.drop index)
  rw [List.take_append_drop, List.drop_eq_getElem_cons inside, packedSize] at split
  omega

namespace Memory

open Access

variable {memory left : Memory} {texts rest : List String} {text : String}
  {pointers target : UInt32}

theorem toNat_after {address : UInt32} {count : Nat}
    (short : address.toNat + count < UInt32.size) :
    (address + count.toUInt32).toNat = address.toNat + count := by
  have small : count < UInt32.size := by omega
  rw [UInt32.toNat_add, Nat.toUInt32, UInt32.toNat_ofNat_of_lt' small, Nat.mod_eq_of_lt short]

theorem yields_nul (inside : target.toNat + (Bytes.ofString text).length ≤ memory.size)
    (below : target.toNat + (Bytes.ofString text).length < UInt32.size) {put : Memory} :
    Yields (writeByte (target + (Bytes.ofString text).length.toUInt32) 0)
        (memory.splice target.toNat (Bytes.ofString text)) () put ↔
      target.toNat + ((Bytes.ofString text).length + 1) ≤ memory.size ∧
        put = memory.splice target.toNat (Bytes.ofString text ++ [0]) := by
  rw [writeByte, yields_write, toNat_after below, size_splice inside, splice_behind inside]
  exact Iff.rfl

theorem yields_writeString_iff {written : UInt32} :
    Yields (writeString target text) memory written left ↔
      target.toNat + ((Bytes.ofString text).length + 1) ≤ memory.size ∧
        target.toNat + (Bytes.ofString text).length < UInt32.size ∧
        (Bytes.ofString text).length + 1 < UInt32.size ∧
        written = ((Bytes.ofString text).length + 1).toUInt32 ∧
        left = memory.splice target.toNat (Bytes.ofString text ++ [0]) := by
  have total : ((Bytes.ofString text).length + 1).toUInt32 =
      (Bytes.ofString text).length.toUInt32 + 1 := UInt32.ofNat_add _ 1
  have length_word (below : target.toNat + (Bytes.ofString text).length < UInt32.size) :
      (Bytes.ofString text).length.toUInt32.toNat = (Bytes.ofString text).length :=
    UInt32.toNat_ofNat_of_lt' (by omega)
  rw [writeString, yields_bind, total]
  constructor
  · rintro ⟨_, put, own, onward⟩
    obtain ⟨inside, rfl⟩ := yields_write.mp own
    obtain ⟨_, _, place, onward⟩ := yields_bind.mp onward
    obtain ⟨below, rfl, rfl⟩ := yields_add.mp place
    obtain ⟨_, ended, nul, counted⟩ := yields_bind.mp onward
    obtain ⟨room, rfl⟩ := (yields_nul inside below).mp nul
    obtain ⟨few, rfl, rfl⟩ := yields_add.mp counted
    rw [length_word below] at few
    exact ⟨room, below, few, rfl, rfl⟩
  · rintro ⟨room, below, few, rfl, rfl⟩
    have inside : target.toNat + (Bytes.ofString text).length ≤ memory.size := by omega
    have counted : (Bytes.ofString text).length.toUInt32.toNat + 1 < UInt32.size := by
      rwa [length_word below]
    exact ⟨(), _, yields_write.mpr ⟨inside, rfl⟩,
      yields_bind.mpr ⟨_, _, yields_add.mpr ⟨below, rfl, rfl⟩,
        yields_bind.mpr ⟨(), _, (yields_nul inside below).mpr ⟨room, rfl⟩,
          yields_add.mpr ⟨counted, rfl, rfl⟩⟩⟩⟩

theorem yields_writeString (short : memory.size < UInt32.size) {written : UInt32} :
    Yields (writeString target text) memory written left ↔
      target.toNat + ((Bytes.ofString text).length + 1) ≤ memory.size ∧
        written = ((Bytes.ofString text).length + 1).toUInt32 ∧
        left = memory.splice target.toNat (Bytes.ofString text ++ [0]) := by
  rw [yields_writeString_iff]
  constructor
  · rintro ⟨room, -, -, written_eq, left_eq⟩
    exact ⟨room, written_eq, left_eq⟩
  · rintro ⟨room, written_eq, left_eq⟩
    exact ⟨room, by omega, by omega, written_eq, left_eq⟩

theorem touches_writeString {touched : Nat → Prop}
    (within : ∀ position, target.toNat ≤ position →
      position < target.toNat + ((Bytes.ofString text).length + 1) → touched position) :
    Touches touched (writeString target text) memory := by
  have own : Touches touched (write target (Bytes.ofString text)) memory :=
    touches_write fun position from_start before_end => within position from_start (by omega)
  refine touches_bind own fun _ put wrote => ?_
  obtain ⟨inside, rfl⟩ := yields_write.mp wrote
  refine touches_bind (touches_add _ _) fun _ _ summed => ?_
  obtain ⟨below, rfl, rfl⟩ := yields_add.mp summed
  refine touches_bind (touches_write fun position from_start before_end => ?_) fun _ _ _ =>
    touches_add _ _
  rw [toNat_after below] at from_start before_end
  exact within position (by omega) before_end

def behind (target : UInt32) (text : String) : UInt32 :=
  target + ((Bytes.ofString text).length + 1).toUInt32

def withText (memory : Memory) (text : String) (pointers target : UInt32) : Memory :=
  (memory.splice pointers.toNat (Bytes.ofWord target)).splice target.toNat
    (Bytes.ofString text ++ [0])

section WithText

variable (inside : pointers.toNat + 4 ≤ memory.size)
  (room : target.toNat + ((Bytes.ofString text).length + 1) ≤ memory.size)

include inside room

private theorem text_inside : target.toNat + (Bytes.ofString text ++ [0]).length ≤
    (memory.splice pointers.toNat (Bytes.ofWord target)).size := by
  rw [size_splice_word inside, List.length_append]
  exact room

theorem size_withText : (memory.withText text pointers target).size = memory.size := by
  rw [withText, size_splice (text_inside inside room), size_splice_word inside]

theorem slice_withText_text :
    (memory.withText text pointers target).slice target.toNat ((Bytes.ofString text).length + 1) =
      Bytes.ofString text ++ [0] := by
  have stands := slice_splice (text_inside inside room)
  rw [List.length_append] at stands
  exact stands

theorem slice_withText_address
    (apart : pointers.toNat + 4 ≤ target.toNat ∨
      target.toNat + ((Bytes.ofString text).length + 1) ≤ pointers.toNat) :
    (memory.withText text pointers target).slice pointers.toNat 4 = Bytes.ofWord target := by
  have length : (Bytes.ofString text ++ [0]).length = (Bytes.ofString text).length + 1 :=
    List.length_append
  have kept := slice_splice_apart (text_inside inside room)
    (show pointers.toNat + 4 ≤ target.toNat ∨
      target.toNat + (Bytes.ofString text ++ [0]).length ≤ pointers.toNat by rwa [length])
  exact kept.trans (slice_splice inside)

end WithText

theorem aligned_next (aligned : pointers % 4 = 0) : (pointers + 4) % 4 = 0 := by
  rw [aligned_iff] at aligned ⊢
  have word : (4 : UInt32).toNat = 4 := rfl
  rw [UInt32.toNat_add]
  omega

theorem toNat_next (below : pointers.toNat + 4 < UInt32.size) :
    (pointers + 4).toNat = pointers.toNat + 4 :=
  toNat_after below

theorem toNat_behind
    (below : target.toNat + ((Bytes.ofString text).length + 1) < UInt32.size) :
    (behind target text).toNat = target.toNat + ((Bytes.ofString text).length + 1) :=
  toNat_after below

theorem yields_writeStrings_cons :
    Yields (writeStrings (text :: rest) pointers target) memory () left ↔
      (pointers % 4 = 0 ∧ pointers.toNat + 4 ≤ memory.size ∧
        target.toNat + ((Bytes.ofString text).length + 1) ≤ memory.size) ∧
      (pointers.toNat + 4 < UInt32.size ∧
        target.toNat + ((Bytes.ofString text).length + 1) < UInt32.size) ∧
      Yields (writeStrings rest (pointers + 4) (behind target text))
        (memory.withText text pointers target) () left := by
  have word (small : (Bytes.ofString text).length + 1 < UInt32.size) :
      ((Bytes.ofString text).length + 1).toUInt32.toNat = (Bytes.ofString text).length + 1 :=
    UInt32.toNat_ofNat_of_lt' small
  rw [writeStrings, yields_bind]
  constructor
  · rintro ⟨_, put, pointer, onward⟩
    obtain ⟨aligned, inside, rfl⟩ := yields_writeWord.mp pointer
    obtain ⟨_, _, next, onward⟩ := yields_bind.mp onward
    obtain ⟨next_below, rfl, rfl⟩ := yields_add.mp next
    obtain ⟨written, laid, own, onward⟩ := yields_bind.mp onward
    obtain ⟨room, -, small, rfl, rfl⟩ := yields_writeString_iff.mp own
    obtain ⟨_, _, further, later⟩ := yields_bind.mp onward
    obtain ⟨below, rfl, rfl⟩ := yields_add.mp further
    rw [size_splice_word inside target] at room
    rw [word small] at below later
    exact ⟨⟨aligned, inside, room⟩, ⟨next_below, below⟩, later⟩
  · rintro ⟨⟨aligned, inside, room⟩, ⟨next_below, below⟩, later⟩
    have small : (Bytes.ofString text).length + 1 < UInt32.size := by omega
    have before : target.toNat + (Bytes.ofString text).length < UInt32.size := by omega
    rw [← size_splice_word inside target] at room
    have further : target.toNat + ((Bytes.ofString text).length + 1).toUInt32.toNat <
        UInt32.size := by rwa [word small]
    refine ⟨(), _, yields_writeWord.mpr ⟨aligned, inside, rfl⟩,
      yields_bind.mpr ⟨_, _, yields_add.mpr ⟨next_below, rfl, rfl⟩,
        yields_bind.mpr ⟨_, _, yields_writeString_iff.mpr ⟨room, before, small, rfl, rfl⟩,
          yields_bind.mpr ⟨_, _, yields_add.mpr ⟨further, rfl, rfl⟩, ?_⟩⟩⟩⟩
    rw [word small]
    exact later

/-- Writing texts succeeds exactly where the addresses and the texts have room and the sums that
lead from one to the next are words. Without a text there is only the zero address. -/
theorem writeStrings_succeeds :
    (∃ left, Yields (writeStrings texts pointers target) memory () left) ↔
      (pointers % 4 = 0 ∧ pointers.toNat + 4 * (texts.length + 1) ≤ memory.size ∧
        pointers.toNat + 4 * texts.length < UInt32.size) ∧
      (texts = [] ∨ target.toNat + packedSize texts ≤ memory.size ∧
        target.toNat + packedSize texts < UInt32.size) := by
  induction texts generalizing pointers target memory with
  | nil =>
    constructor
    · rintro ⟨left, zero⟩
      obtain ⟨aligned, inside, -⟩ := yields_writeWord.mp zero
      exact ⟨⟨aligned, inside, UInt32.toNat_lt_size _⟩, .inl rfl⟩
    · rintro ⟨⟨aligned, inside, -⟩, -⟩
      exact ⟨_, yields_writeWord.mpr ⟨aligned, inside, rfl⟩⟩
  | cons text rest ih =>
    have total := packedSize_cons text rest
    have count : (text :: rest).length = rest.length + 1 := List.length_cons
    have nothing_left : rest = [] → packedSize rest = 0 := by
      rintro rfl
      rfl
    constructor
    · rintro ⟨left, done⟩
      obtain ⟨⟨aligned, inside, room⟩, ⟨next_below, below⟩, later⟩ :=
        yields_writeStrings_cons.mp done
      obtain ⟨⟨-, pointers_fit, pointers_below⟩, rest_fits⟩ := ih.mp ⟨left, later⟩
      rw [toNat_next next_below] at pointers_fit pointers_below
      rw [size_withText inside room] at pointers_fit rest_fits
      rw [toNat_behind below] at rest_fits
      refine ⟨⟨aligned, by omega, by omega⟩, .inr ?_⟩
      rcases rest_fits with none | fits
      · have zero := nothing_left none
        omega
      · omega
    · rintro ⟨⟨aligned, pointers_fit, pointers_below⟩, nothing | ⟨texts_fit, texts_below⟩⟩
      · cases nothing
      have inside : pointers.toNat + 4 ≤ memory.size := by omega
      have room : target.toNat + ((Bytes.ofString text).length + 1) ≤ memory.size := by omega
      have next_below : pointers.toNat + 4 < UInt32.size := by omega
      have below : target.toNat + ((Bytes.ofString text).length + 1) < UInt32.size := by omega
      -- where the first text has room, the others are written to a memory of the same size
      have onward := @ih (memory.withText text pointers target) (pointers + 4) (behind target text)
      rw [toNat_next next_below, toNat_behind below, size_withText inside room] at onward
      obtain ⟨left, later⟩ := onward.mpr
        ⟨⟨aligned_next aligned, by omega, by omega⟩, .inr (by omega)⟩
      exact ⟨left, yields_writeStrings_cons.mpr
        ⟨⟨aligned, inside, room⟩, ⟨next_below, below⟩, later⟩⟩

/-- So many addresses with a zero behind them, and texts of so many bytes, have room. -/
structure HasRoom (memory : Memory) (count size : Nat) (pointers target : UInt32) : Prop where
  aligned : pointers % 4 = 0
  addresses : pointers.toNat + 4 * (count + 1) ≤ memory.size
  texts : target.toNat + size ≤ memory.size

theorem HasRoom.of_size {count size : Nat} (room : HasRoom memory count size pointers target)
    (same : left.size = memory.size) : HasRoom left count size pointers target := by
  constructor
  · exact room.aligned
  · rw [same]
    exact room.addresses
  · rw [same]
    exact room.texts

/-- A byte of so many addresses with a zero behind them, or of texts of so many bytes. -/
def Allotted (count size : Nat) (pointers target : UInt32) (position : Nat) : Prop :=
  (pointers.toNat ≤ position ∧ position < pointers.toNat + 4 * (count + 1)) ∨
    (target.toNat ≤ position ∧ position < target.toNat + size)

theorem touches_writeStrings (texts : List String) (pointers target : UInt32) :
    Touches (Allotted texts.length (packedSize texts) pointers target)
      (writeStrings texts pointers target) memory := by
  induction texts generalizing pointers target memory with
  | nil =>
    exact touches_writeWord fun position from_start before_end => .inl ⟨from_start, before_end⟩
  | cons text rest ih =>
    have total := packedSize_cons text rest
    have count : (text :: rest).length = rest.length + 1 := List.length_cons
    refine touches_bind (touches_writeWord fun position from_start before_end => ?_)
      fun _ put pointer => touches_bind (touches_add _ _) fun _ _ next => ?_
    · exact .inl ⟨from_start, by omega⟩
    obtain ⟨next_below, rfl, rfl⟩ := yields_add.mp next
    refine touches_bind (touches_writeString fun position from_start before_end => ?_)
      fun written laid own => touches_bind (touches_add _ _) fun _ after further => ?_
    · exact .inr ⟨from_start, by omega⟩
    obtain ⟨-, -, small, rfl, -⟩ := yields_writeString_iff.mp own
    have word : ((Bytes.ofString text).length + 1).toUInt32.toNat =
        (Bytes.ofString text).length + 1 := UInt32.toNat_ofNat_of_lt' small
    obtain ⟨below, rfl, rfl⟩ := yields_add.mp further
    rw [word] at below ⊢
    have later : Touches (Allotted rest.length (packedSize rest) (pointers + 4) (behind target text))
        (writeStrings rest (pointers + 4) (behind target text)) after := ih _ _
    refine later.mono fun position among => ?_
    unfold Allotted at among ⊢
    rw [toNat_next next_below, toNat_behind below] at among
    omega

/-- The texts stand from `target` on, a NUL behind each, and their addresses from `pointers` on with a
zero behind the last. -/
structure LaidOut (memory : Memory) (texts : List String) (pointers target : UInt32) : Prop where
  address : ∀ index < texts.length, memory.slice (pointers.toNat + 4 * index) 4 =
    Bytes.ofWord (target + (packedSize (texts.take index)).toUInt32)
  zero : memory.slice (pointers.toNat + 4 * texts.length) 4 = Bytes.ofWord 0
  bytes : memory.slice target.toNat (packedSize texts) = packed texts

def Separate (texts : List String) (pointers target : UInt32) : Prop :=
  pointers.toNat + 4 * (texts.length + 1) ≤ target.toNat ∨
    target.toNat + packedSize texts ≤ pointers.toNat

theorem laidOut_of_writeStrings (short : memory.size < UInt32.size)
    (separate : Separate texts pointers target)
    (done : Yields (writeStrings texts pointers target) memory () left) :
    LaidOut left texts pointers target := by
  unfold Separate at separate
  induction texts generalizing pointers target memory with
  | nil =>
    obtain ⟨-, inside, rfl⟩ := yields_writeWord.mp done
    refine ⟨fun index before => absurd before (Nat.not_lt_zero index), slice_splice inside, ?_⟩
    rw [slice_eq]
    exact List.take_zero
  | cons text rest ih =>
    have total := packedSize_cons text rest
    have count : (text :: rest).length = rest.length + 1 := List.length_cons
    obtain ⟨⟨aligned, inside, room⟩, ⟨next_below, below⟩, later⟩ :=
      yields_writeStrings_cons.mp done
    have size := size_withText inside room
    have next := toNat_next next_below
    have further := toNat_behind below
    have laid := ih (by omega) (by omega) later
    -- the first text and its address are written before the others, which go elsewhere
    have alike := (touches_writeStrings rest (pointers + 4) (behind target text)).alike later
    have first_address : left.slice pointers.toNat 4 = Bytes.ofWord target := by
      rw [← slice_withText_address inside room (by omega)]
      refine alike.slice fun position from_start before_end among => ?_
      unfold Allotted at among
      omega
    have first_text : left.slice target.toNat ((Bytes.ofString text).length + 1) =
        Bytes.ofString text ++ [0] := by
      rw [← slice_withText_text inside room]
      refine alike.slice fun position from_start before_end among => ?_
      unfold Allotted at among
      omega
    constructor
    · intro index before
      cases index with
      | zero =>
        rw [List.take_zero, Nat.mul_zero, Nat.add_zero, first_address]
        exact congrArg Bytes.ofWord (UInt32.add_zero target).symm
      | succ index =>
        have later_address := laid.address index (by omega)
        rw [next] at later_address
        have place : pointers.toNat + 4 * (index + 1) = pointers.toNat + 4 + 4 * index := by omega
        have word : target + (packedSize ((text :: rest).take (index + 1))).toUInt32 =
            behind target text + (packedSize (rest.take index)).toUInt32 := by
          rw [List.take_succ_cons, packedSize, behind, UInt32.add_assoc]
          exact congrArg _ (UInt32.ofNat_add _ _)
        rw [place, word, later_address]
    · have place : pointers.toNat + 4 * (text :: rest).length =
          (pointers + 4).toNat + 4 * rest.length := by omega
      rw [place, laid.zero]
    · rw [total, slice_add, first_text, ← further, laid.bytes, packed_cons]

/-- What a guest finds where texts were laid out for it. -/
structure Readable (memory : Memory) (texts : List String) (pointers target : UInt32) : Prop where
  text : ∀ index text, texts[index]? = some text → ∃ cell place : UInt32,
    cell.toNat = pointers.toNat + 4 * index ∧
    place.toNat = target.toNat + packedSize (texts.take index) ∧
    Yields (readWord cell) memory place memory ∧
    Yields (read place ((Bytes.ofString text).length + 1)) memory (Bytes.ofString text ++ [0])
      memory ∧
    ('\x00' ∉ text.toList → ∀ count, (Bytes.ofString text).length ≤ count →
      place.toNat + count ≤ memory.size → Yields (readString place count) memory text memory)
  zero : ∃ cell : UInt32, cell.toNat = pointers.toNat + 4 * texts.length ∧
    Yields (readWord cell) memory 0 memory
  bytes : Yields (read target (packedSize texts)) memory (packed texts) memory

theorem LaidOut.readable (laid : LaidOut memory texts pointers target)
    (short : memory.size < UInt32.size)
    (room : HasRoom memory texts.length (packedSize texts) pointers target) :
    Readable memory texts pointers target := by
  obtain ⟨aligned, addresses_fit, texts_fit⟩ := room
  have cell_at {index : Nat} (before : index ≤ texts.length) :
      (pointers + (4 * index).toUInt32).toNat = pointers.toNat + 4 * index :=
    toNat_after (by omega)
  have cell_aligned {index : Nat} (before : index ≤ texts.length) :
      (pointers + (4 * index).toUInt32) % 4 = 0 := by
    rw [aligned_iff] at aligned ⊢
    rw [cell_at before]
    omega
  constructor
  · intro index text there
    have before := (List.getElem?_eq_some_iff.mp there).1
    have within := packedSize_front there
    have place : (target + (packedSize (texts.take index)).toUInt32).toNat =
        target.toNat + packedSize (texts.take index) := toNat_after (by omega)
    have stands : memory.slice (target + (packedSize (texts.take index)).toUInt32).toNat
        ((Bytes.ofString text).length + 1) = Bytes.ofString text ++ [0] := by
      rw [place, memory.slice_within _ _ within, laid.bytes, packed_at there]
    refine ⟨_, _, cell_at (Nat.le_of_lt before), place, ?_, ?_, ?_⟩
    · apply yields_readWord (cell_aligned (Nat.le_of_lt before))
      · rw [cell_at (Nat.le_of_lt before)]
        omega
      · rw [cell_at (Nat.le_of_lt before)]
        exact laid.address index before
    · exact yields_read.mpr ⟨by omega, stands.symm, rfl⟩
    · intro nul_free count enough inside
      exact yields_readString nul_free stands enough inside
  · refine ⟨_, cell_at (Nat.le_refl _), yields_readWord (cell_aligned (Nat.le_refl _)) ?_ ?_⟩
    · rw [cell_at (Nat.le_refl _)]
      omega
    · rw [cell_at (Nat.le_refl _)]
      exact laid.zero
  · exact yields_read.mpr ⟨texts_fit, laid.bytes.symm, rfl⟩

section Reports

variable {countOut sizeOut : UInt32}

theorem yields_writeSizes :
    Yields (writeSizes texts countOut sizeOut) memory () left ↔
      countOut % 4 = 0 ∧ countOut.toNat + 4 ≤ memory.size ∧
        sizeOut % 4 = 0 ∧ sizeOut.toNat + 4 ≤ memory.size ∧
        left = (memory.splice countOut.toNat (Bytes.ofWord texts.length.toUInt32)).splice
          sizeOut.toNat (Bytes.ofWord (packedSize texts).toUInt32) := by
  rw [writeSizes, yields_bind]
  constructor
  · rintro ⟨_, counted, count, size⟩
    obtain ⟨count_aligned, count_inside, rfl⟩ := yields_writeWord.mp count
    obtain ⟨size_aligned, size_inside, rfl⟩ := yields_writeWord.mp size
    rw [size_splice_word count_inside] at size_inside
    exact ⟨count_aligned, count_inside, size_aligned, size_inside, rfl⟩
  · rintro ⟨count_aligned, count_inside, size_aligned, size_inside, rfl⟩
    rw [← size_splice_word count_inside texts.length.toUInt32] at size_inside
    exact ⟨(), _, yields_writeWord.mpr ⟨count_aligned, count_inside, rfl⟩,
      yields_writeWord.mpr ⟨size_aligned, size_inside, rfl⟩⟩

/-- At these addresses a guest reads the number of the texts and of the bytes that they take. -/
structure Reports (memory : Memory) (texts : List String) (countOut sizeOut : UInt32)
    (count size : UInt32) : Prop where
  count_read : Yields (readWord countOut) memory count memory
  size_read : Yields (readWord sizeOut) memory size memory
  count_eq : count.toNat = texts.length
  size_eq : size.toNat = packedSize texts

theorem reports_of_writeSizes (small : packedSize texts < UInt32.size)
    (distinct : countOut ≠ sizeOut)
    (done : Yields (writeSizes texts countOut sizeOut) memory () left) :
    ∃ count size, Reports left texts countOut sizeOut count size := by
  obtain ⟨count_aligned, count_inside, size_aligned, size_inside, rfl⟩ := yields_writeSizes.mp done
  have few := length_le_packedSize texts
  have size := size_splice_word count_inside texts.length.toUInt32
  have put_inside : sizeOut.toNat + (Bytes.ofWord (packedSize texts).toUInt32).length ≤
      (memory.splice countOut.toNat (Bytes.ofWord texts.length.toUInt32)).size := by
    rw [size]
    exact size_inside
  have apart : countOut.toNat + 4 ≤ sizeOut.toNat ∨ sizeOut.toNat + 4 ≤ countOut.toNat := by
    have different : countOut.toNat ≠ sizeOut.toNat := mt UInt32.toNat_inj.mp distinct
    have count_place := aligned_iff.mp count_aligned
    have size_place := aligned_iff.mp size_aligned
    omega
  have count_kept := slice_splice_apart put_inside apart
  have still := (size_splice put_inside).trans size
  refine ⟨texts.length.toUInt32, (packedSize texts).toUInt32, ?_, ?_, ?_, ?_⟩
  · exact yields_readWord count_aligned (by omega) (count_kept.trans (slice_splice count_inside))
  · exact yields_readWord size_aligned (by omega) (slice_splice put_inside)
  · exact UInt32.toNat_ofNat_of_lt' (Nat.lt_of_le_of_lt few small)
  · exact UInt32.toNat_ofNat_of_lt' small

end Reports

theorem writeStrings_succeeds_iff (some_text : texts ≠ []) (short : memory.size < UInt32.size) :
    (∃ left, Yields (writeStrings texts pointers target) memory () left) ↔
      HasRoom memory texts.length (packedSize texts) pointers target := by
  rw [writeStrings_succeeds]
  constructor
  · rintro ⟨⟨aligned, addresses_fit, -⟩, nothing | ⟨texts_fit, -⟩⟩
    · exact absurd nothing some_text
    · exact ⟨aligned, addresses_fit, texts_fit⟩
  · rintro ⟨aligned, addresses_fit, texts_fit⟩
    exact ⟨⟨aligned, addresses_fit, by omega⟩, .inr ⟨texts_fit, by omega⟩⟩

end Memory

namespace Syscall

open Memory Memory.Access

/-- The system calls that give texts to a guest: the first reports them, the second writes them. -/
inductive Gives (argv : List String) : Syscall → Syscall → List String → Prop
  | arguments : Gives argv .argumentSizes .arguments argv
  | environment : Gives argv .environSizes .environ environmentStrings

variable {σ : Type} {argv texts : List String} {sizes layout : Syscall} {memory : Memory} {host : σ}
  {trace : Trace} {result : Except Signal (List Value)} {left : Option Memory × σ}
  {pointers target countOut sizeOut : UInt32}

private theorem words (first second : UInt32) :
    [Value.i32 first, Value.i32 second].map Value.word = [first, second] := by
  simp [Value.word, Value.bits]

theorem Gives.serve_sizes (gives : Gives argv sizes layout texts) :
    (serve argv sizes [.i32 countOut, .i32 sizeOut] : Service σ (List Value)) = do
      Service.onMemory (writeSizes texts countOut sizeOut)
      return success := by
  cases gives <;> simp only [serve, words]

theorem Gives.serve_layout (gives : Gives argv sizes layout texts) :
    (serve argv layout [.i32 pointers, .i32 target] : Service σ (List Value)) = do
      Service.checked (Service.onMemory (writeStrings texts pointers target))
      return success := by
  cases gives <;> simp only [serve, words]

section Calls

variable {access : Access Unit}

/-- How a call ends whose work on the memory came to this. -/
def reply : Except AccessFault Unit → Except Signal (List Value)
  | .ok () => .ok success
  | .error fault => .error (.fault (.access fault))

theorem runs_onMemory :
    Service.Runs (do Service.onMemory access; return success) (some memory, host) trace result
        left ↔
      trace = [] ∧ result = reply (access.run.run memory).1 ∧
        left = (some (access.run.run memory).2, host) := by
  rw [Service.runs_onMemory_bind]
  rcases (access.run.run memory : Except AccessFault Unit × Memory) with ⟨⟨⟩ | ⟨⟩, put⟩
  · exact Iff.rfl
  · exact Service.runs_pure

theorem runs_checked :
    Service.Runs (do Service.checked (Service.onMemory access); return success)
        (some memory, host) trace result left ↔
      trace = Service.crashOf result ∧ result = reply (access.run.run memory).1 ∧
        left = (some (access.run.run memory).2, host) := by
  have parts {early : Trace} {reached : Except Signal Unit} {between : Option Memory × σ} :
      Service.Runs (Service.checked (Service.onMemory access)) (some memory, host) early reached
          between ↔
        ∃ first, Service.Runs (Service.onMemory access >>= pure) (some memory, host) first reached
          between ∧ early = first ++ Service.crashOf reached := by
    rw [bind_pure]
    exact Service.runs_checked
  simp only [Service.runs_onMemory_bind, Service.runs_pure] at parts
  rw [Service.runs_bind]
  simp only [parts, Service.runs_pure]
  rcases (access.run.run memory : Except AccessFault Unit × Memory) with ⟨fault | ⟨⟩, put⟩
  · constructor
    · rintro (⟨signal, ⟨_, ⟨rfl, same, rfl⟩, rfl⟩, rfl⟩ | ⟨_, _, _, _, ⟨_, ⟨-, impossible, -⟩, -⟩, -⟩)
      · cases same
        exact ⟨rfl, rfl, rfl⟩
      · cases impossible
    · rintro ⟨rfl, rfl, rfl⟩
      exact .inl ⟨_, ⟨[], ⟨rfl, rfl, rfl⟩, rfl⟩, rfl⟩
  · constructor
    · rintro (⟨signal, ⟨_, ⟨-, impossible, -⟩, -⟩, -⟩ |
        ⟨_, _, _, _, ⟨_, ⟨rfl, -, rfl⟩, rfl⟩, ⟨rfl, rfl, rfl⟩, rfl⟩)
      · cases impossible
      · exact ⟨rfl, rfl, rfl⟩
    · rintro ⟨rfl, rfl, rfl⟩
      exact .inr ⟨(), _, [], [], ⟨[], ⟨rfl, trivial, rfl⟩, rfl⟩, ⟨rfl, rfl, rfl⟩, rfl⟩

theorem reply_eq_success {outcome : Except AccessFault Unit} :
    reply outcome = .ok success ↔ outcome = .ok () := by
  cases outcome with
  | error fault => exact ⟨nofun, nofun⟩
  | ok done => exact ⟨fun _ => rfl, fun _ => rfl⟩

theorem yields_of_reply (succeeds : .ok success = reply (access.run.run memory).1) :
    Yields access memory () (access.run.run memory).2 := by
  have reached := reply_eq_success.mp succeeds.symm
  exact Prod.ext reached rfl

end Calls

namespace Gives

variable (gives : Gives argv sizes layout texts)

include gives

theorem reports (small : packedSize texts < UInt32.size) (distinct : countOut ≠ sizeOut)
    (run : Service.Runs (serve argv sizes [.i32 countOut, .i32 sizeOut]) (some memory, host) trace
      (.ok success) left) :
    ∃ reported count size, left = (some reported, host) ∧
      Reports reported texts countOut sizeOut count size := by
  rw [gives.serve_sizes] at run
  obtain ⟨-, succeeds, rfl⟩ := runs_onMemory.mp run
  obtain ⟨count, size, reports⟩ := reports_of_writeSizes small distinct (yields_of_reply succeeds)
  exact ⟨_, count, size, rfl, reports⟩

theorem keeps_others
    (run : Service.Runs (serve argv layout [.i32 pointers, .i32 target]) (some memory, host) trace
      result left) :
    ∃ after, left = (some after, host) ∧
      Alike (Allotted texts.length (packedSize texts) pointers target) memory after := by
  rw [gives.serve_layout] at run
  obtain ⟨-, -, rfl⟩ := runs_checked.mp run
  exact ⟨_, rfl, touches_writeStrings texts pointers target⟩

theorem succeeds_iff (some_text : texts ≠ []) (short : memory.size < UInt32.size) :
    (∃ trace left, Service.Runs (serve argv layout [.i32 pointers, .i32 target])
        (some memory, host) trace (.ok success) left) ↔
      HasRoom memory texts.length (packedSize texts) pointers target := by
  rw [gives.serve_layout, ← writeStrings_succeeds_iff some_text short]
  constructor
  · rintro ⟨trace, left, run⟩
    obtain ⟨-, succeeds, -⟩ := runs_checked.mp run
    exact ⟨_, yields_of_reply succeeds⟩
  · rintro ⟨after, done⟩
    rw [Yields] at done
    exact ⟨[], _, runs_checked.mpr ⟨rfl, by rw [done]; rfl, rfl⟩⟩

end Gives

/-- Texts are written exactly where their addresses and they have room, and then stand there with
nothing else changed; what is reported of them is their number and the bytes that are written. A
guest that makes room for what it is told and for a zero address is given its texts, and no other
byte of its memory changes. -/
theorem texts_fit_reported_sizes (some_text : texts ≠ []) (small : packedSize texts < UInt32.size)
    (short : memory.size < UInt32.size) (pointers target : UInt32) :
    ((∃ left, Yields (writeStrings texts pointers target) memory () left) ↔
      HasRoom memory texts.length (packedSize texts) pointers target) ∧
    (∀ left, Yields (writeStrings texts pointers target) memory () left →
      Separate texts pointers target → Readable left texts pointers target) ∧
    Touches (Allotted texts.length (packedSize texts) pointers target)
      (writeStrings texts pointers target) memory ∧
    (∀ asked countOut sizeOut,
      ((∃ reported, Yields (writeSizes texts countOut sizeOut) asked () reported) ↔
        countOut % 4 = 0 ∧ countOut.toNat + 4 ≤ asked.size ∧
          sizeOut % 4 = 0 ∧ sizeOut.toNat + 4 ≤ asked.size) ∧
      (countOut ≠ sizeOut → ∀ reported,
        Yields (writeSizes texts countOut sizeOut) asked () reported →
          ∃ count size, Reports reported texts countOut sizeOut count size ∧
            (packed texts).length = size.toNat)) ∧
    ∀ argv sizes layout, Gives argv sizes layout texts → ∀ countOut sizeOut, countOut ≠ sizeOut →
      ∀ (host : σ) asked trace left,
        Service.Runs (serve argv sizes [.i32 countOut, .i32 sizeOut]) (some asked, host) trace
            (.ok success) left →
          ∃ reported count size, left = (some reported, host) ∧
            Reports reported texts countOut sizeOut count size ∧
            ∀ host : σ,
              ((∃ trace left, Service.Runs (serve argv layout [.i32 pointers, .i32 target])
                  (some memory, host) trace (.ok success) left) ↔
                HasRoom memory count.toNat size.toNat pointers target) ∧
              ∀ trace result left, Service.Runs (serve argv layout [.i32 pointers, .i32 target])
                  (some memory, host) trace result left →
                ∃ after, left = (some after, host) ∧
                  Alike (Allotted count.toNat size.toNat pointers target) memory after := by
  have touches : Touches (Allotted texts.length (packedSize texts) pointers target)
      (writeStrings texts pointers target) memory := touches_writeStrings texts pointers target
  have succeeds : (∃ left, Yields (writeStrings texts pointers target) memory () left) ↔
      HasRoom memory texts.length (packedSize texts) pointers target :=
    writeStrings_succeeds_iff some_text short
  refine ⟨succeeds, ?_, touches, ?_, ?_⟩
  · intro left done separate
    have same := (touches.alike done).size
    have laid := laidOut_of_writeStrings short separate done
    exact laid.readable (by omega) ((succeeds.mp ⟨left, done⟩).of_size same)
  · intro asked countOut sizeOut
    constructor
    · constructor
      · rintro ⟨reported, done⟩
        obtain ⟨count_aligned, count_inside, size_aligned, size_inside, -⟩ :=
          yields_writeSizes.mp done
        exact ⟨count_aligned, count_inside, size_aligned, size_inside⟩
      · rintro ⟨count_aligned, count_inside, size_aligned, size_inside⟩
        exact ⟨_, yields_writeSizes.mpr
          ⟨count_aligned, count_inside, size_aligned, size_inside, rfl⟩⟩
    · intro distinct reported done
      obtain ⟨count, size, reports⟩ := reports_of_writeSizes small distinct done
      exact ⟨count, size, reports, (length_packed texts).trans reports.size_eq.symm⟩
  · intro argv sizes layout gives countOut sizeOut distinct host asked trace left run
    obtain ⟨reported, count, size, found, reports⟩ := gives.reports small distinct run
    refine ⟨reported, count, size, found, reports, fun host => ?_⟩
    rw [reports.count_eq, reports.size_eq]
    exact ⟨gives.succeeds_iff some_text short, fun trace result left => gives.keeps_others⟩

/-- Three arguments of five, four and two bytes, the last of them one character. -/
theorem third_argument_found :
    ["clang", "-cc1", "\u00E9"] ≠ [] ∧ packedSize ["clang", "-cc1", "\u00E9"] < UInt32.size ∧
      (blank 128).size < UInt32.size ∧
      ∃ left, Yields (writeStrings ["clang", "-cc1", "\u00E9"] 16 64) (blank 128) () left ∧
        Yields (readWord 24) left 75 left ∧ Yields (readString 75 20) left "\u00E9" left := by
  have some_text : ["clang", "-cc1", "\u00E9"] ≠ [] := List.cons_ne_nil _ _
  have small : packedSize ["clang", "-cc1", "\u00E9"] < UInt32.size := by decide +kernel
  have short : (blank 128).size < UInt32.size := by decide +kernel
  obtain ⟨succeeds, reads, touches, -⟩ :=
    @texts_fit_reported_sizes Unit _ _ some_text small short 16 64
  obtain ⟨left, done⟩ := succeeds.mpr ⟨by decide, by decide +kernel, by decide +kernel⟩
  have readable := reads left done (.inl (by decide))
  have same : left.size = 128 := (touches.alike done).size.trans (by decide +kernel)
  obtain ⟨cell, place, cell_at, place_at, address, -, again⟩ := readable.text 2 "\u00E9" rfl
  have cell_eq : cell = 24 := UInt32.toNat_inj.mp cell_at
  have place_eq : place = 75 := UInt32.toNat_inj.mp (place_at.trans (by decide +kernel))
  subst cell_eq place_eq
  refine ⟨some_text, small, short, left, done, address, again (by decide) 20 (by decide +kernel) ?_⟩
  rw [same]
  decide

end Syscall

end Buildbox
