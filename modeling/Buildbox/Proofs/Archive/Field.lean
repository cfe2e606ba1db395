import Mathlib.Algebra.GroupWithZero.Nat
import Buildbox.Archive.Writer

/-!
Header records filled field by field. In a record whose fields keep apart, every field reads as what
was put into it, and a field that nothing was put into stays zero.
-/

set_option autoImplicit false

namespace Buildbox

namespace Bytes

theorem beforeNul_append_zeros (bytes : Bytes) (count : Nat) :
    (bytes ++ zeros count).beforeNul = bytes.beforeNul := by
  unfold beforeNul
  induction bytes with
  | nil => cases count <;> simp [zeros, List.replicate_succ]
  | cons b bytes ih =>
    rw [List.cons_append, List.takeWhile_cons, List.takeWhile_cons, ih]

theorem take_zeros (count total : Nat) : (zeros total).take count = zeros (min count total) :=
  List.take_replicate

theorem drop_zeros (count total : Nat) : (zeros total).drop count = zeros (total - count) :=
  List.drop_replicate

theorem length_zeros (count : Nat) : (zeros count).length = count :=
  List.length_replicate

end Bytes

namespace Archive

namespace Field

/-- A field lies in a record of `size` bytes. -/
def Inside (field : Field) (size : Nat) : Prop :=
  field.offset + field.width ≤ size

/-- Two fields share no byte. -/
def Apart (field other : Field) : Prop :=
  field.offset + field.width ≤ other.offset ∨ other.offset + other.width ≤ field.offset

instance (field : Field) (size : Nat) : Decidable (field.Inside size) :=
  inferInstanceAs (Decidable (_ ≤ _))

instance (field other : Field) : Decidable (field.Apart other) :=
  inferInstanceAs (Decidable (_ ∨ _))

theorem Apart.symm {field other : Field} (apart : field.Apart other) : other.Apart field :=
  Or.symm apart

theorem length_put {field : Field} {header : Bytes} (inside : field.Inside header.length)
    (bytes : Bytes) : (field.put bytes header).length = header.length := by
  unfold Inside at inside
  simp only [put, List.length_append, List.length_take, List.length_drop]
  omega

theorem bytes_put_of_apart {field other : Field} {header : Bytes}
    (inside : other.Inside header.length) (apart : field.Apart other) (bytes : Bytes) :
    field.bytes (other.put bytes header) = field.bytes header := by
  unfold Inside at inside
  have short : (bytes.take other.width).length ≤ other.width := List.length_take_le _ _
  rw [Field.bytes, Field.bytes, put]
  rcases apart with before | after
  · rw [List.append_assoc, List.drop_append_of_le_length (by simp; omega),
      List.take_append_of_le_length (by simp; omega), List.drop_take, List.take_take]
    congr 1
    omega
  · have reaches : (header.take other.offset ++ bytes.take other.width).length ≤ field.offset := by
      simp only [List.length_append, List.length_take] at short ⊢
      omega
    rw [List.drop_append, List.drop_eq_nil_of_le reaches, List.nil_append, List.drop_drop]
    congr 2
    simp only [List.length_append, List.length_take] at short reaches ⊢
    omega

theorem bytes_put_self {field : Field} {header : Bytes} (inside : field.Inside header.length)
    (blank : field.bytes header = Bytes.zeros field.width) (bytes : Bytes) :
    field.bytes (field.put bytes header) =
      bytes.take field.width ++ Bytes.zeros (field.width - bytes.length) := by
  unfold Inside at inside
  have start : (header.take field.offset).length = field.offset := by
    rw [List.length_take]
    omega
  have behind : header.drop (field.offset + (bytes.take field.width).length) =
      (header.drop field.offset).drop (bytes.take field.width).length := (List.drop_drop ..).symm
  rw [Field.bytes] at blank
  rw [Field.bytes, put, List.append_assoc, List.drop_append_of_le_length (Nat.le_of_eq start.symm),
    List.drop_eq_nil_of_le (Nat.le_of_eq start), List.nil_append, behind, List.take_append,
    List.take_of_length_le (List.length_take_le _ _), List.take_drop]
  congr 1
  have reach : (bytes.take field.width).length + (field.width - (bytes.take field.width).length) =
      field.width := by
    rw [List.length_take]
    omega
  rw [reach, blank, Bytes.drop_zeros, List.length_take]
  congr 1
  omega

theorem put_put {field : Field} {header : Bytes} (inside : field.Inside header.length)
    {earlier bytes : Bytes} (covers : earlier.length ≤ bytes.length) :
    field.put bytes (field.put earlier header) = field.put bytes header := by
  unfold Inside at inside
  have start : (header.take field.offset).length = field.offset := by
    rw [List.length_take]
    omega
  have reaches : (header.take field.offset ++ earlier.take field.width).length ≤
      field.offset + (bytes.take field.width).length := by
    simp only [List.length_append, List.length_take]
    omega
  simp only [put]
  congr 1
  · rw [List.append_assoc, List.take_append_of_le_length (Nat.le_of_eq start.symm), List.take_take,
      Nat.min_self]
  · rw [List.drop_append, List.drop_eq_nil_of_le reaches, List.nil_append, List.drop_drop]
    congr 1
    simp only [List.length_append, List.length_take] at reaches ⊢
    omega

end Field

/-- A header after bytes are put into its fields, in order. -/
def fill (header : Bytes) (parts : List (Field × Bytes)) : Bytes :=
  parts.foldl (fun header part => part.1.put part.2 header) header

/-- The fields lie in a record, and no two of them share a byte. -/
def Separate (fields : List Field) : Prop :=
  (∀ field ∈ fields, field.Inside blockSize) ∧ fields.Pairwise Field.Apart

instance (fields : List Field) : Decidable (Separate fields) :=
  inferInstanceAs (Decidable (_ ∧ _))

theorem length_fill {header : Bytes} (whole : header.length = blockSize)
    {parts : List (Field × Bytes)} (inside : ∀ part ∈ parts, part.1.Inside blockSize) :
    (fill header parts).length = blockSize := by
  induction parts generalizing header with
  | nil => exact whole
  | cons part parts ih =>
    have length := Field.length_put (whole ▸ inside part (List.mem_cons_self ..)) part.2
    exact ih (length.trans whole) fun other among => inside other (List.mem_cons_of_mem _ among)

theorem bytes_fill_of_apart {header : Bytes} (whole : header.length = blockSize)
    {parts : List (Field × Bytes)} (inside : ∀ part ∈ parts, part.1.Inside blockSize)
    {field : Field} (apart : ∀ part ∈ parts, field.Apart part.1) :
    field.bytes (fill header parts) = field.bytes header := by
  induction parts generalizing header with
  | nil => rfl
  | cons part parts ih =>
    have fits : part.1.Inside header.length := whole ▸ inside part (List.mem_cons_self ..)
    have length := Field.length_put fits part.2
    have later := ih (length.trans whole)
      (fun other among => inside other (List.mem_cons_of_mem _ among))
      (fun other among => apart other (List.mem_cons_of_mem _ among))
    exact later.trans (Field.bytes_put_of_apart fits (apart part (List.mem_cons_self ..)) _)

/-- In a record whose fields keep apart, each field reads as what was put into it. -/
theorem bytes_fill {header : Bytes} (whole : header.length = blockSize)
    {parts : List (Field × Bytes)} (separate : Separate (parts.map Prod.fst))
    (blank : ∀ part ∈ parts, part.1.bytes header = Bytes.zeros part.1.width)
    {part : Field × Bytes} (among : part ∈ parts) :
    part.1.bytes (fill header parts) =
      part.2.take part.1.width ++ Bytes.zeros (part.1.width - part.2.length) := by
  induction parts generalizing header with
  | nil => cases among
  | cons first parts ih =>
    obtain ⟨inside, apart⟩ := separate
    rw [List.map_cons, List.pairwise_cons, List.forall_mem_map] at apart
    rw [List.forall_mem_map] at inside
    have fits : first.1.Inside header.length := whole ▸ inside first (List.mem_cons_self ..)
    have length := (Field.length_put fits first.2).trans whole
    have inside_later : ∀ part ∈ parts, part.1.Inside blockSize :=
      fun other among => inside other (List.mem_cons_of_mem _ among)
    rcases List.mem_cons.mp among with rfl | later
    · have kept := bytes_fill_of_apart length inside_later apart.1
      exact kept.trans (Field.bytes_put_self fits (blank part (List.mem_cons_self ..)) part.2)
    · refine ih length ⟨List.forall_mem_map.mpr inside_later, apart.2⟩ (fun other among => ?_) later
      rw [Field.bytes_put_of_apart fits (apart.1 other among).symm]
      exact blank other (List.mem_cons_of_mem _ among)

theorem bytes_zeros {field : Field} (inside : field.Inside blockSize) :
    field.bytes (Bytes.zeros blockSize) = Bytes.zeros field.width := by
  unfold Field.Inside at inside
  rw [Field.bytes, Bytes.drop_zeros, Bytes.take_zeros]
  congr 1
  omega

def octalValue (digits : Bytes) : Nat :=
  digits.foldl (fun total digit => total * 8 + (digit.toNat - 0x30)) 0

private theorem octal_of_mem_toDigits {value : Nat} {c : Char} (among : c ∈ Nat.toDigits 8 value) :
    ∃ digit < 8, c = Nat.digitChar digit := by
  induction value using Nat.strongRecOn with
  | _ value ih =>
    rw [Nat.toDigits_eq_if (by decide)] at among
    split at among
    · rename_i small
      exact ⟨value, small, List.mem_singleton.mp among⟩
    · rename_i large
      rcases List.mem_append.mp among with higher | last
      · exact ih (value / 8) (by omega) higher
      · exact ⟨value % 8, Nat.mod_lt _ (by decide), List.mem_singleton.mp last⟩

private theorem digitChar_byte : ∀ digit < 8,
    Field.isOctal (Nat.digitChar digit).toNat.toUInt8 = true ∧
      (Nat.digitChar digit).toNat.toUInt8.toNat = (Nat.digitChar digit).toNat := by
  decide

theorem isOctal_of_mem_octalDigits {width value : Nat} {b : UInt8}
    (among : b ∈ octalDigits width value) : Field.isOctal b = true := by
  unfold octalDigits at among
  rcases List.mem_append.mp among with filler | written
  · rw [List.eq_of_mem_replicate filler]
    decide
  · obtain ⟨c, place, rfl⟩ := List.mem_map.mp written
    obtain ⟨digit, small, rfl⟩ := octal_of_mem_toDigits place
    exact (digitChar_byte digit small).1

theorem length_octalDigits {width value : Nat} (positive : 0 < width) (fits : value < 8 ^ width) :
    (octalDigits width value).length = width := by
  have digits := (Nat.length_toDigits_le_iff (by decide) positive).mpr fits
  simp only [octalDigits, List.length_append, List.length_replicate, List.length_map]
  omega

theorem length_octalDigits_le {width value : Nat} (fits : value < 8 ^ (width + 1)) :
    width ≤ (octalDigits width value).length ∧ (octalDigits width value).length ≤ width + 1 := by
  have digits := (Nat.length_toDigits_le_iff (by decide) (Nat.succ_pos width)).mpr fits
  simp only [octalDigits, List.length_append, List.length_replicate, List.length_map]
  omega

theorem octalValue_octalDigits (width value : Nat) :
    octalValue (octalDigits width value) = value := by
  have filler (count : Nat) : octalValue (List.replicate count 0x30) = 0 := by
    induction count with
    | zero => rfl
    | succ count ih => exact ih
  have bytes (chars : List Char) (octal : ∀ c ∈ chars, ∃ digit < 8, c = Nat.digitChar digit)
      (total : Nat) :
      (chars.map (fun c => c.toNat.toUInt8)).foldl
        (fun total digit => total * 8 + (digit.toNat - 0x30)) total =
        Nat.ofDigitChars 8 chars total := by
    induction chars generalizing total with
    | nil => rfl
    | cons c chars ih =>
      obtain ⟨digit, small, rfl⟩ := octal c (List.mem_cons_self ..)
      rw [List.map_cons, List.foldl_cons, (digitChar_byte digit small).2,
        ih fun other among => octal other (List.mem_cons_of_mem _ among),
        Nat.ofDigitChars_cons, Nat.mul_comm]
      rfl
  have start := filler (width - ((Nat.toDigits 8 value).map fun c => c.toNat.toUInt8).length)
  unfold octalValue at start
  rw [octalValue, octalDigits, List.foldl_append, start, bytes _ fun c => octal_of_mem_toDigits]
  exact Nat.ofDigitChars_toDigits (by decide) (by decide)

/-- A field that begins with octal digits, and with nothing more of a number, reads as their
value. -/
theorem Field.octal_of_bytes {field : Field} {header digits tail : Bytes}
    (bytes : field.bytes header = digits ++ tail) (some_digit : digits ≠ [])
    (octal : ∀ b ∈ digits, isOctal b = true) (ends : tail.takeWhile isOctal = []) :
    field.octal header = octalValue digits := by
  have no_space : (digits ++ tail).dropWhile (· == 0x20) = digits ++ tail := by
    cases digits with
    | nil => exact absurd rfl some_digit
    | cons digit digits =>
      have first := octal digit (List.mem_cons_self ..)
      apply List.dropWhile_cons_of_neg
      intro space
      rw [eq_of_beq space] at first
      exact absurd first (by decide)
  rw [Field.octal, bytes, no_space, List.takeWhile_append_of_pos octal, ends, List.append_nil]
  rfl

end Archive

end Buildbox
