import Mathlib.Data.List.TakeWhile
import Buildbox.Proofs.Text.Reading

/-!
Texts that end at a NUL. Bytes without a NUL are read up to the first NUL behind them, whatever
follows it, and the bytes of a text without a NUL have none.
-/

set_option autoImplicit false

namespace Buildbox

namespace Bytes

section NulFree

variable {part : Bytes} (nulFree : 0 ∉ part)

include nulFree

private theorem ne_zero_of_nulFree : ∀ b ∈ part, (b != 0) = true := by
  intro b among
  have different : b ≠ 0 := by
    rintro rfl
    exact nulFree among
  simpa using different

theorem beforeNul_of_nulFree : part.beforeNul = part :=
  List.takeWhile_eq_self_iff.mpr (ne_zero_of_nulFree nulFree)

theorem beforeNul_append (rest : Bytes) :
    beforeNul (part ++ rest) = part ++ beforeNul rest :=
  List.takeWhile_append_of_pos (ne_zero_of_nulFree nulFree)

theorem beforeNul_terminated (stale : Bytes) : beforeNul (part ++ 0 :: stale) = part := by
  rw [beforeNul_append nulFree]
  exact List.append_nil part

end NulFree

theorem length_beforeNul_le (bytes : Bytes) : bytes.beforeNul.length ≤ bytes.length :=
  (List.takeWhile_prefix _).length_le

end Bytes

namespace Utf8

private theorem byte_ne_zero {n : Nat} (positive : 0 < n) (small : n < 256) : UInt8.ofNat n ≠ 0 := by
  intro zero
  have same := congrArg UInt8.toNat zero
  rw [UInt8.toNat_ofNat_of_lt' small] at same
  exact Nat.ne_of_gt positive same

theorem zero_not_mem_encoding {c : Char} (other : c ≠ '\x00') : 0 ∉ encoding c := by
  have positive : 0 < c.val.toNat := by
    apply Nat.pos_of_ne_zero
    intro zero
    exact other (Char.ext (UInt32.toNat_inj.mp zero))
  have apart : ∀ b ∈ encoding c, b ≠ 0 := by
    rw [encoding, String.utf8EncodeChar]
    generalize c.val.toNat = v at positive
    split
    · intro b among
      rw [List.mem_singleton.mp among]
      exact byte_ne_zero positive (by omega)
    split
    · simp only [List.forall_mem_cons, List.not_mem_nil, false_implies, implies_true, and_true]
      constructor <;> apply byte_ne_zero <;> omega
    split
    · simp only [List.forall_mem_cons, List.not_mem_nil, false_implies, implies_true, and_true]
      refine ⟨?_, ?_, ?_⟩ <;> apply byte_ne_zero <;> omega
    · simp only [List.forall_mem_cons, List.not_mem_nil, false_implies, implies_true, and_true]
      refine ⟨?_, ?_, ?_, ?_⟩ <;> apply byte_ne_zero <;> omega
  intro among
  exact apart 0 among rfl

theorem zero_not_mem_ofString {text : String} (nul_free : '\x00' ∉ text.toList) :
    0 ∉ Bytes.ofString text := by
  rw [ofString_eq]
  intro among
  obtain ⟨c, member, inside⟩ := List.mem_flatMap.mp among
  exact zero_not_mem_encoding (fun same => nul_free (same ▸ member)) inside

end Utf8

end Buildbox
