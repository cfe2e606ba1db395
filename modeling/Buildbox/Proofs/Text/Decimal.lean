import Buildbox.Text.Digit

/-!
Decimal numbers as text. What is written for a number is a nonempty run of ASCII digits that reads
as the number again.
-/

set_option autoImplicit false

namespace Buildbox.Text

theorem isAsciiDigit_iff {c : Char} : isAsciiDigit c = true ↔ 0x30 ≤ c.toNat ∧ c.toNat ≤ 0x39 := by
  rw [isAsciiDigit, Bool.and_eq_true, decide_eq_true_iff, decide_eq_true_iff]
  exact Iff.rfl

theorem isDigit_of_ascii {c : Char} (ascii : isAsciiDigit c = true) : isDigit c = true := by
  obtain ⟨least, most⟩ := isAsciiDigit_iff.mp ascii
  refine List.any_eq_true.mpr ⟨(0x30, 0x39), List.mem_cons_self, ?_⟩
  rw [Bool.and_eq_true, decide_eq_true_iff, decide_eq_true_iff]
  exact ⟨least, most⟩

theorem ascii_of_mem_toDigits {n : Nat} {c : Char} (among : c ∈ Nat.toDigits 10 n) :
    isAsciiDigit c = true := by
  have digit := Nat.isDigit_of_mem_toDigits (by decide) (by decide) among
  rw [Char.isDigit, Bool.and_eq_true, decide_eq_true_iff, decide_eq_true_iff] at digit
  exact isAsciiDigit_iff.mpr digit

theorem foldl_eq_ofDigitChars (digits : List Char) (total : Nat) :
    digits.foldl (fun total c => total * 10 + (c.toNat - '0'.toNat)) total =
      Nat.ofDigitChars 10 digits total := by
  rw [Nat.ofDigitChars_eq_foldl]
  congr 1
  funext total c
  rw [Nat.mul_comm]

theorem foldl_toDigits (n : Nat) :
    (Nat.toDigits 10 n).foldl (fun total c => total * 10 + (c.toNat - '0'.toNat)) 0 = n := by
  rw [foldl_eq_ofDigitChars, Nat.ofDigitChars_ten_toDigits]

theorem decimal?_toDigits (n : Nat) : decimal? (Nat.toDigits 10 n) = some n := by
  have filled : (Nat.toDigits 10 n).isEmpty = false :=
    List.isEmpty_eq_false_iff.mpr Nat.toDigits_ne_nil
  have digits : (Nat.toDigits 10 n).all isAsciiDigit = true :=
    List.all_eq_true.mpr fun _ => ascii_of_mem_toDigits
  simp only [decimal?, filled, digits, foldl_toDigits, Bool.not_true, Bool.or_self,
    Bool.false_eq_true, if_false]

end Buildbox.Text
