import Buildbox.Json.Document
import Buildbox.Json.Value
import Buildbox.Proofs.Text.Decimal

/-!
Reading back the parts of a written JSON text: a quoted text gives its characters again, and the
digits of a count that fits 64 bits give the count.
-/

set_option autoImplicit false

namespace Buildbox.Json

namespace Document

/-- The control characters that have an escape of one letter. -/
def lettered : List Char := ['\x08', '\t', '\n', '\x0c', '\r']

/-- The part that a written character is read as: a control character without a letter of its own is
written by its number. -/
def Piece.ofWritten (c : Char) : Piece :=
  if c.toNat < 0x20 ∧ c ∉ lettered then .unit c.toNat else .character c

theorem hexUnit?_control : ∀ n < 0x20,
    hexUnit? '0' '0' (Value.hexDigit (n / 16)) (Value.hexDigit n) = some n := by
  decide

theorem pieces_escape (c : Char) (read : List Piece) (rest : List Char) :
    pieces read (Value.escape c ++ rest) = pieces (.ofWritten c :: read) rest := by
  by_cases short : c ∈ ['"', '\\', '\x08', '\t', '\n', '\x0c', '\r']
  · simp only [List.mem_cons, List.not_mem_nil, or_false] at short
    rcases short with rfl | rfl | rfl | rfl | rfl | rfl | rfl <;> rfl
  · have plain : c ∉ lettered := fun among =>
      short (List.mem_cons_of_mem _ (List.mem_cons_of_mem _ among))
    simp only [List.mem_cons, List.not_mem_nil, or_false, not_or] at short
    by_cases low : c.toNat < 0x20
    · have escaped : Value.escape c =
          ['\\', 'u', '0', '0', Value.hexDigit (c.toNat / 16), Value.hexDigit c.toNat] := by
        simp [Value.escape, short, low]
      rw [escaped, Piece.ofWritten, if_pos ⟨low, plain⟩]
      simp only [List.cons_append, List.nil_append, pieces, hexUnit?_control _ low]
    · have escaped : Value.escape c = [c] := by
        simp [Value.escape, short, low]
      rw [escaped, Piece.ofWritten, if_neg fun both => low both.1, List.singleton_append, pieces]
      · rw [if_neg low]
      all_goals simp [short]

theorem pieces_escapes (chars : List Char) (read : List Piece) (rest : List Char) :
    pieces read (chars.flatMap Value.escape ++ '"' :: rest) =
      ((chars.map Piece.ofWritten).reverse ++ read, .ok rest) := by
  induction chars generalizing read with
  | nil => rfl
  | cons c chars ih =>
    rw [List.flatMap_cons, List.append_assoc, pieces_escape, ih, List.map_cons, List.reverse_cons,
      List.append_assoc, List.singleton_append]

theorem join_ofWritten (chars : List Char) :
    join none (chars.map Piece.ofWritten) = some chars := by
  induction chars with
  | nil => rfl
  | cons c chars ih =>
    rw [List.map_cons, Piece.ofWritten]
    split
    · next control =>
      have no_high : isHigh c.toNat = false := by
        simp [isHigh]
        omega
      have no_low : isLow c.toNat = false := by
        simp [isLow]
        omega
      simp [join, ih, no_high, no_low]
    · simp [join, ih]

theorem quoted_escapes (chars rest : List Char) :
    quoted (chars.flatMap Value.escape ++ '"' :: rest) = .ok (some chars, rest) := by
  rw [quoted, pieces_escapes]
  simp [join_ofWritten]

end Document

theorem isDigit_of_mem_decimal {n : Nat} {c : Char} (among : c ∈ Value.decimal n) :
    isDigit c = true :=
  Text.ascii_of_mem_toDigits among

theorem decimal_ne_nil (n : Nat) : Value.decimal n ≠ [] :=
  Nat.toDigits_ne_nil

theorem decimal_append_ne {n : Nat} (positive : n ≠ 0) (rest more : List Char) :
    Value.decimal n ++ rest ≠ '0' :: more := by
  induction n using Nat.strongRecOn generalizing rest with
  | _ n ih =>
    rw [Value.decimal, Nat.toDigits_eq_if (by decide)]
    split
    · next small =>
      have each : ∀ n < 10, n ≠ 0 → Nat.digitChar n ≠ '0' := by decide
      intro zero
      exact each n small positive (List.cons.inj zero).1
    · next large =>
      rw [List.append_assoc]
      exact ih (n / 10) (by omega) (by omega) _

namespace Decimal

theorem addWhole_eq {digits : List Char} {significand : Nat}
    (fits : Nat.ofDigitChars 10 digits significand < UInt64.size) :
    addWhole { significand } digits =
      { significand := Nat.ofDigitChars 10 digits significand } := by
  induction digits generalizing significand with
  | nil => rfl
  | cons c rest ih =>
    rw [Nat.ofDigitChars_cons, Nat.mul_comm 10] at fits ⊢
    have grown : significand * 10 + digitValue c ≤
        Nat.ofDigitChars 10 rest (significand * 10 + digitValue c) := by
      rw [Nat.ofDigitChars_eq_ofDigitChars_zero]
      have scale : 0 < 10 ^ rest.length := Nat.pow_pos (by decide)
      exact Nat.le_trans (Nat.le_mul_of_pos_left _ scale) (Nat.le_add_right _ _)
    rw [addWhole]
    exact (if_pos (Nat.lt_of_le_of_lt grown fits)).trans (ih fits)

end Decimal

/-- No more of a number can follow. -/
def Settles (rest : List Char) : Prop :=
  ∀ c ∈ rest.head?, isDigit c = false ∧ c ≠ '.' ∧ c ≠ 'e' ∧ c ≠ 'E'

namespace Number

theorem fraction_settled (number : Decimal) {rest : List Char} (settles : Settles rest) :
    fraction false number rest = .ok (ofWhole false number, rest) := by
  cases rest with
  | nil => rfl
  | cons c rest =>
    obtain ⟨-, no_point, no_mark, no_capital⟩ := settles c rfl
    rw [fraction] <;> simp [no_point, no_mark, no_capital]

theorem magnitude_decimal {n : Nat} (fits : n < UInt64.size) {rest : List Char}
    (settles : Settles rest) :
    magnitude false (Value.decimal n ++ rest) = .ok (.natural n, rest) := by
  by_cases zero : n = 0
  · subst zero
    change magnitude false ('0' :: rest) = _
    cases rest with
    | nil => rfl
    | cons c rest =>
      obtain ⟨no_digit, -⟩ := settles c rfl
      rw [magnitude]
      simp only [no_digit, Bool.false_eq_true, if_false]
      exact fraction_settled {} settles
  · have all_digits : ∀ c ∈ Value.decimal n, isDigit c = true := fun _ => isDigit_of_mem_decimal
    have ended : rest.takeWhile isDigit = [] ∧ rest.dropWhile isDigit = rest := by
      cases rest with
      | nil => exact ⟨rfl, rfl⟩
      | cons c rest => simp [(settles c rfl).1]
    have taken : (Value.decimal n ++ rest).takeWhile isDigit = Value.decimal n := by
      rw [List.takeWhile_append_of_pos all_digits, ended.1, List.append_nil]
    have left : (Value.decimal n ++ rest).dropWhile isDigit = rest := by
      rw [List.dropWhile_append_of_pos all_digits, ended.2]
    have filled : (Value.decimal n).isEmpty = false :=
      List.isEmpty_eq_false_iff.mpr (decimal_ne_nil n)
    have value : Nat.ofDigitChars 10 (Value.decimal n) 0 = n := Nat.ofDigitChars_ten_toDigits
    have whole := Decimal.addWhole_eq (value.symm ▸ fits)
    rw [magnitude]
    · simp only [taken, left, filled, whole, value, Bool.false_eq_true, if_false]
      exact fraction_settled _ settles
    · exact decimal_append_ne zero rest

end Number

end Buildbox.Json
