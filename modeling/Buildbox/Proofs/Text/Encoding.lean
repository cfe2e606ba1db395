import Buildbox.Text.Utf8

/-!
The bytes of a character, against what `front` reads. A character's bytes are read as that character
whatever follows them; what `front` reads as a character are that character's bytes; a reading that
is not cut short does not depend on the bytes after it.
-/

set_option autoImplicit false

namespace Buildbox.Utf8

/-- The bytes of a character. -/
def encoding (c : Char) : Bytes :=
  String.utf8EncodeChar c

theorem encoding_length_le (c : Char) : (encoding c).length ≤ 4 := by
  rw [encoding, String.length_utf8EncodeChar]
  exact c.utf8Size_le_four

theorem encoding_ne_nil (c : Char) : encoding c ≠ [] := by
  intro empty
  have size : (encoding c).length = c.utf8Size := String.length_utf8EncodeChar c
  rw [empty] at size
  exact Nat.ne_of_gt c.utf8Size_pos size.symm

private theorem payload_eq (b : UInt8) : payload b = b.toNat % 64 := by
  rw [payload, UInt8.toNat_and]
  exact Nat.and_two_pow_sub_one_eq_mod b.toNat 6

private theorem leadPayload_zero (b : UInt8) : leadPayload b 0 = b.toNat % 32 := by
  rw [leadPayload, UInt8.toNat_and]
  exact Nat.and_two_pow_sub_one_eq_mod b.toNat 5

private theorem leadPayload_one (b : UInt8) : leadPayload b 1 = b.toNat % 16 := by
  rw [leadPayload, UInt8.toNat_and]
  exact Nat.and_two_pow_sub_one_eq_mod b.toNat 4

private theorem leadPayload_two (b : UInt8) : leadPayload b 2 = b.toNat % 8 := by
  rw [leadPayload, UInt8.toNat_and]
  · exact Nat.and_two_pow_sub_one_eq_mod b.toNat 3
  · intro impossible
    cases impossible
  · intro impossible
    cases impossible

private theorem byte_eq {n : Nat} (b : UInt8) (same : n % 256 = b.toNat) : UInt8.ofNat n = b := by
  apply UInt8.toNat_inj.mp
  rw [UInt8.toNat_ofNat']
  exact same

private theorem toNat_byte {n : Nat} (small : n < 256) : (UInt8.ofNat n).toNat = n := by
  rw [UInt8.toNat_ofNat']
  exact Nat.mod_eq_of_lt small

private theorem value_ofNat {n : Nat} (valid : n.isValidChar) : (Char.ofNat n).val.toNat = n := by
  rw [Char.ofNat, dif_pos valid]
  rfl

private theorem within_iff (low high b : UInt8) :
    (low ≤ b && b ≤ high) = true ↔ low.toNat ≤ b.toNat ∧ b.toNat ≤ high.toNat := by
  simp only [Bool.and_eq_true, decide_eq_true_eq, UInt8.le_iff_toNat_le]

private theorem lead_eq (b : UInt8) :
    lead b =
      if b.toNat < 0xC2 then none
      else if b.toNat < 0xE0 then some (0x80, 0xBF, 0)
      else if b.toNat = 0xE0 then some (0xA0, 0xBF, 1)
      else if b.toNat = 0xED then some (0x80, 0x9F, 1)
      else if b.toNat < 0xF0 then some (0x80, 0xBF, 1)
      else if b.toNat = 0xF0 then some (0x90, 0xBF, 2)
      else if b.toNat < 0xF4 then some (0x80, 0xBF, 2)
      else if b.toNat = 0xF4 then some (0x80, 0x8F, 2)
      else none := by
  simp only [lead, UInt8.lt_iff_toNat_lt, beq_iff_eq, ← UInt8.toNat_inj]
  rfl

/-- The bounds that a lead byte sets for the second byte. Those of E0 and F0 leave overlong forms
out, those of ED surrogates and those of F4 code points past the last one. -/
structure Bounds (b low high : UInt8) : Prop where
  low_overlong : b.toNat = 0xE0 ∧ low.toNat = 0xA0 ∨ b.toNat = 0xF0 ∧ low.toNat = 0x90 ∨
    b.toNat ≠ 0xE0 ∧ b.toNat ≠ 0xF0 ∧ low.toNat = 0x80
  high_excluded : b.toNat = 0xED ∧ high.toNat = 0x9F ∨ b.toNat = 0xF4 ∧ high.toNat = 0x8F ∨
    b.toNat ≠ 0xED ∧ b.toNat ≠ 0xF4 ∧ high.toNat = 0xBF

/-- The lead bytes of characters with `tail` bytes after the second. -/
def Leads : Nat → UInt8 → Prop
  | 0, b => 0xC2 ≤ b.toNat ∧ b.toNat < 0xE0
  | 1, b => 0xE0 ≤ b.toNat ∧ b.toNat < 0xF0
  | 2, b => 0xF0 ≤ b.toNat ∧ b.toNat ≤ 0xF4
  | _, _ => False

private theorem lead_bounds {b low high : UInt8} {tail : Nat} (row : lead b = some (low, high, tail)) :
    Leads tail b ∧ Bounds b low high := by
  rw [lead_eq] at row
  repeat' split at row
  all_goals
    cases row
    try exact ⟨⟨by omega, by omega⟩, ⟨by simp; omega, by simp; omega⟩⟩

private theorem lead_of_bounds {b low high : UInt8} {tail : Nat} (kind : Leads tail b)
    (bounds : Bounds b low high) : lead b = some (low, high, tail) := by
  obtain ⟨low_overlong, high_excluded⟩ := bounds
  rw [lead_eq]
  match tail, kind with
  | 0, ⟨_, _⟩ =>
    have low_eq : low = 0x80 := UInt8.toNat_inj.mp (by simp; omega)
    have high_eq : high = 0xBF := UInt8.toNat_inj.mp (by simp; omega)
    rw [if_neg (by omega), if_pos (by omega), low_eq, high_eq]
  | 1, ⟨_, _⟩ =>
    rw [if_neg (by omega), if_neg (by omega)]
    repeat' split
    all_goals simp [← UInt8.toNat_inj]; omega
  | 2, ⟨_, _⟩ =>
    rw [if_neg (by omega), if_neg (by omega), if_neg (by omega), if_neg (by omega),
      if_neg (by omega)]
    repeat' split
    all_goals simp [← UInt8.toNat_inj]; omega

private theorem exists_lead {b : UInt8} {tail : Nat} (kind : Leads tail b) :
    ∃ low high, lead b = some (low, high, tail) ∧ Bounds b low high := by
  let low : UInt8 := if b.toNat = 0xE0 then 0xA0 else if b.toNat = 0xF0 then 0x90 else 0x80
  let high : UInt8 := if b.toNat = 0xED then 0x9F else if b.toNat = 0xF4 then 0x8F else 0xBF
  have bounds : Bounds b low high := by
    constructor
    · simp only [low]
      repeat' split
      all_goals simp; omega
    · simp only [high]
      repeat' split
      all_goals simp; omega
  exact ⟨low, high, lead_of_bounds kind bounds, bounds⟩

private theorem not_ascii {b : UInt8} {tail : Nat} (kind : Leads tail b) : ¬ b < 0x80 := by
  rw [UInt8.lt_iff_toNat_lt]
  match tail, kind with
  | 0, ⟨_, _⟩ => simp; omega
  | 1, ⟨_, _⟩ => simp; omega
  | 2, ⟨_, _⟩ => simp; omega

/-- A byte that goes on with a character. -/
def Continues (b : UInt8) : Prop :=
  0x80 ≤ b.toNat ∧ b.toNat ≤ 0xBF

private theorem encoding_one {b : UInt8} (ascii : b.toNat < 0x80) :
    encoding (Char.ofNat b.toNat) = [b] := by
  have value : (Char.ofNat b.toNat).val.toNat = b.toNat := value_ofNat (.inl (by omega))
  rw [encoding, String.utf8EncodeChar, value]
  rw [if_pos (by omega), byte_eq b (by omega)]

private theorem encoding_two {b s : UInt8} (kind : Leads 0 b) (second : Continues s) :
    encoding (Char.ofNat (leadPayload b 0 * 64 + payload s)) = [b, s] := by
  obtain ⟨_, _⟩ := kind
  obtain ⟨_, _⟩ := second
  have value := value_ofNat (n := b.toNat % 32 * 64 + s.toNat % 64) (.inl (by omega))
  rw [leadPayload_zero, payload_eq, encoding, String.utf8EncodeChar, value]
  rw [if_neg (by omega), if_pos (by omega), byte_eq b (by omega), byte_eq s (by omega)]

private theorem encoding_three {b low high s t : UInt8} (kind : Leads 1 b)
    (bounds : Bounds b low high) (second : low.toNat ≤ s.toNat ∧ s.toNat ≤ high.toNat)
    (third : Continues t) :
    encoding (Char.ofNat ((leadPayload b 1 * 64 + payload s) * 64 + payload t)) = [b, s, t] := by
  obtain ⟨_, _⟩ := kind
  obtain ⟨_, _⟩ := bounds
  obtain ⟨_, _⟩ := third
  have valid : ((b.toNat % 16 * 64 + s.toNat % 64) * 64 + t.toNat % 64).isValidChar := by
    rw [Nat.isValidChar]
    omega
  have value := value_ofNat valid
  rw [leadPayload_one, payload_eq, payload_eq, encoding, String.utf8EncodeChar, value]
  rw [if_neg (by omega), if_neg (by omega), if_pos (by omega), byte_eq b (by omega),
    byte_eq s (by omega), byte_eq t (by omega)]

private theorem encoding_four {b low high s t u : UInt8} (kind : Leads 2 b)
    (bounds : Bounds b low high) (second : low.toNat ≤ s.toNat ∧ s.toNat ≤ high.toNat)
    (third : Continues t) (fourth : Continues u) :
    encoding (Char.ofNat (((leadPayload b 2 * 64 + payload s) * 64 + payload t) * 64 + payload u)) =
      [b, s, t, u] := by
  obtain ⟨_, _⟩ := kind
  obtain ⟨_, _⟩ := bounds
  obtain ⟨_, _⟩ := third
  obtain ⟨_, _⟩ := fourth
  have valid : (((b.toNat % 8 * 64 + s.toNat % 64) * 64 + t.toNat % 64) * 64 +
      u.toNat % 64).isValidChar := by
    rw [Nat.isValidChar]
    omega
  have value := value_ofNat valid
  rw [leadPayload_two, payload_eq, payload_eq, payload_eq, encoding, String.utf8EncodeChar, value]
  rw [if_neg (by omega), if_neg (by omega), if_neg (by omega), byte_eq b (by omega),
    byte_eq s (by omega), byte_eq t (by omega), byte_eq u (by omega)]

private theorem continuation_of_continues {b : UInt8} (missing code : Nat) (rest : Bytes)
    (goesOn : Continues b) :
    continuation (missing + 1) code (b :: rest) =
      continuation missing (code * 64 + payload b) rest := by
  rw [continuation, if_pos ((within_iff 0x80 0xBF b).mpr goesOn)]

private theorem continuation_of_not_continues {b : UInt8} (missing code : Nat) (rest : Bytes)
    (breaks : ¬ Continues b) : continuation (missing + 1) code (b :: rest) = (.invalid, b :: rest) := by
  rw [continuation, if_neg (mt (within_iff 0x80 0xBF b).mp breaks)]

private theorem front_ascii {b : UInt8} (rest : Bytes) (ascii : b < 0x80) :
    front b rest = (.character (Char.ofNat b.toNat), rest) := by
  rw [front, if_pos ascii]

private theorem front_of_second {b low high s : UInt8} {tail : Nat} (rest : Bytes)
    (row : lead b = some (low, high, tail)) (second : low.toNat ≤ s.toNat ∧ s.toNat ≤ high.toNat) :
    front b (s :: rest) = continuation tail (leadPayload b tail * 64 + payload s) rest := by
  rw [front, if_neg (not_ascii (lead_bounds row).1), row]
  exact if_pos ((within_iff low high s).mpr second)

private theorem front_of_bad_second {b low high s : UInt8} {tail : Nat} (rest : Bytes)
    (row : lead b = some (low, high, tail))
    (second : ¬ (low.toNat ≤ s.toNat ∧ s.toNat ≤ high.toNat)) :
    front b (s :: rest) = (.invalid, s :: rest) := by
  rw [front, if_neg (not_ascii (lead_bounds row).1), row]
  exact if_neg (mt (within_iff low high s).mp second)

private theorem front_alone {b low high : UInt8} {tail : Nat}
    (row : lead b = some (low, high, tail)) : front b [] = (.cut, []) := by
  rw [front, if_neg (not_ascii (lead_bounds row).1), row]

private theorem front_unled {b : UInt8} (rest : Bytes) (ascii : ¬ b < 0x80) (row : lead b = none) :
    front b rest = (.invalid, rest) := by
  rw [front, if_neg ascii, row]

private theorem ofNat_value {n : Nat} (c : Char) (same : n = c.val.toNat) : Char.ofNat n = c := by
  rw [same]
  exact Char.ofNat_toNat c

private theorem front_one_byte {c : Char} {v : Nat} (value : c.val.toNat = v) (one : v ≤ 0x7F)
    (rest : Bytes) : front (UInt8.ofNat v) rest = (.character c, rest) := by
  have byte := toNat_byte (n := v) (by omega)
  rw [front_ascii, byte, ofNat_value c value.symm]
  rw [UInt8.lt_iff_toNat_lt, byte]
  exact Nat.lt_succ_of_le one

private theorem front_two_bytes {c : Char} {v : Nat} (value : c.val.toNat = v)
    (two : 0x7F < v ∧ v ≤ 0x7FF) (rest : Bytes) :
    front (UInt8.ofNat (v / 64 % 0x20 + 0xC0)) (UInt8.ofNat (v % 0x40 + 0x80) :: rest) =
      (.character c, rest) := by
  have first := toNat_byte (n := v / 64 % 0x20 + 0xC0) (by omega)
  have second := toNat_byte (n := v % 0x40 + 0x80) (by omega)
  have kind : Leads 0 (UInt8.ofNat (v / 64 % 0x20 + 0xC0)) := by
    rw [Leads, first]
    omega
  obtain ⟨low, high, row, ⟨_, _⟩⟩ := exists_lead kind
  rw [front_of_second _ row (by omega), continuation, leadPayload_zero, payload_eq, first, second,
    ofNat_value c (by omega)]

private theorem front_three_bytes {c : Char} {v : Nat} (value : c.val.toNat = v)
    (three : 0x7FF < v ∧ v ≤ 0xFFFF) (valid : v.isValidChar) (rest : Bytes) :
    front (UInt8.ofNat (v / 4096 % 0x10 + 0xE0))
        (UInt8.ofNat (v / 64 % 0x40 + 0x80) :: UInt8.ofNat (v % 0x40 + 0x80) :: rest) =
      (.character c, rest) := by
  rw [Nat.isValidChar] at valid
  have first := toNat_byte (n := v / 4096 % 0x10 + 0xE0) (by omega)
  have second := toNat_byte (n := v / 64 % 0x40 + 0x80) (by omega)
  have third := toNat_byte (n := v % 0x40 + 0x80) (by omega)
  have kind : Leads 1 (UInt8.ofNat (v / 4096 % 0x10 + 0xE0)) := by
    rw [Leads, first]
    omega
  obtain ⟨low, high, row, ⟨_, _⟩⟩ := exists_lead kind
  rw [front_of_second _ row (by omega), continuation_of_continues _ _ _ ⟨by omega, by omega⟩,
    continuation, leadPayload_one, payload_eq, payload_eq, first, second, third,
    ofNat_value c (by omega)]

private theorem front_four_bytes {c : Char} {v : Nat} (value : c.val.toNat = v)
    (four : 0xFFFF < v) (valid : v.isValidChar) (rest : Bytes) :
    front (UInt8.ofNat (v / 262144 % 0x08 + 0xF0))
        (UInt8.ofNat (v / 4096 % 0x40 + 0x80) :: UInt8.ofNat (v / 64 % 0x40 + 0x80) ::
          UInt8.ofNat (v % 0x40 + 0x80) :: rest) =
      (.character c, rest) := by
  rw [Nat.isValidChar] at valid
  have first := toNat_byte (n := v / 262144 % 0x08 + 0xF0) (by omega)
  have second := toNat_byte (n := v / 4096 % 0x40 + 0x80) (by omega)
  have third := toNat_byte (n := v / 64 % 0x40 + 0x80) (by omega)
  have fourth := toNat_byte (n := v % 0x40 + 0x80) (by omega)
  have kind : Leads 2 (UInt8.ofNat (v / 262144 % 0x08 + 0xF0)) := by
    rw [Leads, first]
    omega
  obtain ⟨low, high, row, ⟨_, _⟩⟩ := exists_lead kind
  rw [front_of_second _ row (by omega), continuation_of_continues _ _ _ ⟨by omega, by omega⟩,
    continuation_of_continues _ _ _ ⟨by omega, by omega⟩, continuation, leadPayload_two,
    payload_eq, payload_eq, payload_eq, first, second, third, fourth, ofNat_value c (by omega)]

/-- A character's bytes are read as that character, whatever follows them. -/
theorem front_encoding (c : Char) :
    ∃ b tail, encoding c = b :: tail ∧ ∀ rest, front b (tail ++ rest) = (.character c, rest) := by
  have valid : c.val.toNat.isValidChar := c.valid
  rw [encoding, String.utf8EncodeChar]
  generalize value : c.val.toNat = v at valid
  by_cases one : v ≤ 0x7F
  · exact ⟨_, _, if_pos one, front_one_byte value one⟩
  · by_cases two : v ≤ 0x7FF
    · exact ⟨_, _, (if_neg one).trans (if_pos two), front_two_bytes value ⟨by omega, two⟩⟩
    · by_cases three : v ≤ 0xFFFF
      · exact ⟨_, _, (if_neg one).trans ((if_neg two).trans (if_pos three)),
          front_three_bytes value ⟨by omega, three⟩ valid⟩
      · exact ⟨_, _, (if_neg one).trans ((if_neg two).trans (if_neg three)),
          front_four_bytes value (by omega) valid⟩

/-- The code of a character whose bits so far are `code`, after further bytes. -/
private def codeAfter (code : Nat) (bytes : Bytes) : Nat :=
  bytes.foldl (fun code b => code * 64 + payload b) code

private theorem continuation_character {missing code : Nat} {bytes left : Bytes} {c : Char}
    (read : continuation missing code bytes = (.character c, left)) :
    ∃ taken, bytes = taken ++ left ∧ taken.length = missing ∧ (∀ b ∈ taken, Continues b) ∧
      c = Char.ofNat (codeAfter code taken) := by
  induction missing generalizing code bytes with
  | zero =>
    cases read
    exact ⟨[], rfl, rfl, by simp, rfl⟩
  | succ missing ih =>
    cases bytes with
    | nil => cases read
    | cons b rest =>
      by_cases goesOn : Continues b
      · rw [continuation_of_continues _ _ _ goesOn] at read
        obtain ⟨taken, rfl, length, all, rfl⟩ := ih read
        refine ⟨b :: taken, rfl, by simp [length], ?_, rfl⟩
        intro x member
        rcases List.mem_cons.mp member with rfl | later
        · exact goesOn
        · exact all x later
      · rw [continuation_of_not_continues _ _ _ goesOn] at read
        cases read

/-- How a byte and those after it look to `front`. -/
private inductive Look (b : UInt8) : Bytes → Prop
  | ascii (rest : Bytes) : b < 0x80 → Look b rest
  | unled (rest : Bytes) : ¬ b < 0x80 → lead b = none → Look b rest
  | alone {low high : UInt8} {tail : Nat} : lead b = some (low, high, tail) → Look b []
  | refused {low high s : UInt8} {tail : Nat} (rest : Bytes) : lead b = some (low, high, tail) →
      ¬ (low.toNat ≤ s.toNat ∧ s.toNat ≤ high.toNat) → Look b (s :: rest)
  | followed {low high s : UInt8} {tail : Nat} (rest : Bytes) : lead b = some (low, high, tail) →
      low.toNat ≤ s.toNat ∧ s.toNat ≤ high.toNat → Look b (s :: rest)

private theorem look (b : UInt8) (rest : Bytes) : Look b rest := by
  by_cases ascii : b < 0x80
  · exact .ascii rest ascii
  cases row : lead b with
  | none => exact .unled rest ascii row
  | some bounded =>
    obtain ⟨low, high, tail⟩ := bounded
    cases rest with
    | nil => exact .alone row
    | cons s rest =>
      by_cases second : low.toNat ≤ s.toNat ∧ s.toNat ≤ high.toNat
      · exact .followed rest row second
      · exact .refused rest row second

private theorem encoding_of_followed {b low high s : UInt8} {tail : Nat} {taken : Bytes}
    (row : lead b = some (low, high, tail)) (second : low.toNat ≤ s.toNat ∧ s.toNat ≤ high.toNat)
    (length : taken.length = tail) (all : ∀ t ∈ taken, Continues t) :
    encoding (Char.ofNat (codeAfter (leadPayload b tail * 64 + payload s) taken)) =
      b :: s :: taken := by
  obtain ⟨kind, bounds⟩ := lead_bounds row
  match tail, taken, length, kind with
  | 0, [], _, kind =>
    obtain ⟨_, _⟩ := bounds
    obtain ⟨_, _⟩ := id kind
    exact encoding_two kind ⟨by omega, by omega⟩
  | 1, [t], _, kind => exact encoding_three kind bounds second (all t (by simp))
  | 2, [t, u], _, kind =>
    exact encoding_four kind bounds second (all t (by simp)) (all u (by simp))

theorem encoding_of_front {b : UInt8} {rest left : Bytes} {c : Char}
    (read : front b rest = (.character c, left)) : b :: rest = encoding c ++ left := by
  cases look b rest with
  | ascii _ ascii =>
    rw [front_ascii rest ascii] at read
    cases read
    rw [encoding_one (UInt8.lt_iff_toNat_lt.mp ascii)]
    rfl
  | unled _ ascii row =>
    rw [front_unled rest ascii row] at read
    cases read
  | alone row =>
    rw [front_alone row] at read
    cases read
  | refused rest row second =>
    rw [front_of_bad_second rest row second] at read
    cases read
  | followed rest row second =>
    rw [front_of_second rest row second] at read
    obtain ⟨taken, rfl, length, all, rfl⟩ := continuation_character read
    rw [encoding_of_followed row second length all]
    rfl

private theorem continuation_append {missing code : Nat} {bytes left : Bytes} {read : Front}
    (reading : continuation missing code bytes = (read, left)) (whole : read ≠ .cut)
    (more : Bytes) : continuation missing code (bytes ++ more) = (read, left ++ more) := by
  induction missing generalizing code bytes with
  | zero =>
    cases reading
    rfl
  | succ missing ih =>
    cases bytes with
    | nil =>
      cases reading
      exact absurd rfl whole
    | cons b rest =>
      by_cases goesOn : Continues b
      · rw [continuation_of_continues _ _ _ goesOn] at reading
        rw [List.cons_append, continuation_of_continues _ _ _ goesOn]
        exact ih reading
      · rw [continuation_of_not_continues _ _ _ goesOn] at reading
        cases reading
        exact continuation_of_not_continues _ _ _ goesOn

/-- A reading that is not cut short stays what it is when more bytes follow. -/
theorem front_append {b : UInt8} {rest left : Bytes} {read : Front}
    (reading : front b rest = (read, left)) (whole : read ≠ .cut) (more : Bytes) :
    front b (rest ++ more) = (read, left ++ more) := by
  cases look b rest with
  | ascii _ ascii =>
    rw [front_ascii rest ascii] at reading
    cases reading
    exact front_ascii _ ascii
  | unled _ ascii row =>
    rw [front_unled rest ascii row] at reading
    cases reading
    exact front_unled _ ascii row
  | alone row =>
    rw [front_alone row] at reading
    cases reading
    exact absurd rfl whole
  | refused rest row second =>
    rw [front_of_bad_second rest row second] at reading
    cases reading
    exact front_of_bad_second _ row second
  | followed rest row second =>
    rw [front_of_second rest row second] at reading
    rw [List.cons_append, front_of_second _ row second]
    exact continuation_append reading whole more

private theorem continues_filler : Continues 0x80 := by
  constructor <;> simp

private theorem continuation_filler (missing code : Nat) :
    ∃ c, continuation missing code (List.replicate missing 0x80) = (.character c, []) := by
  induction missing generalizing code with
  | zero => exact ⟨_, rfl⟩
  | succ missing ih =>
    obtain ⟨c, read⟩ := ih (code * 64 + payload 0x80)
    exact ⟨c, (continuation_of_continues _ _ _ continues_filler).trans read⟩

private theorem continuation_cut {missing code : Nat} {bytes left : Bytes}
    (reading : continuation missing code bytes = (.cut, left)) :
    left = [] ∧ ∃ filler c, filler ≠ [] ∧
      continuation missing code (bytes ++ filler) = (.character c, []) := by
  induction missing generalizing code bytes with
  | zero => cases reading
  | succ missing ih =>
    cases bytes with
    | nil =>
      cases reading
      obtain ⟨c, read⟩ := continuation_filler (missing + 1) code
      exact ⟨rfl, _, c, by simp, read⟩
    | cons b rest =>
      by_cases goesOn : Continues b
      · rw [continuation_of_continues _ _ _ goesOn] at reading
        obtain ⟨rfl, filler, c, some_left, read⟩ := ih reading
        exact ⟨rfl, filler, c, some_left, (continuation_of_continues _ _ _ goesOn).trans read⟩
      · rw [continuation_of_not_continues _ _ _ goesOn] at reading
        cases reading

/-- Bytes that are cut short are a proper prefix of a character's bytes. -/
theorem front_cut {b : UInt8} {rest left : Bytes} (reading : front b rest = (.cut, left)) :
    left = [] ∧ ∃ c filler, filler ≠ [] ∧ encoding c = (b :: rest) ++ filler := by
  suffices filled : left = [] ∧ ∃ filler c, filler ≠ [] ∧
      front b (rest ++ filler) = (.character c, []) by
    obtain ⟨rfl, filler, c, some_left, read⟩ := filled
    have bytes := encoding_of_front read
    rw [List.append_nil] at bytes
    exact ⟨rfl, c, filler, some_left, bytes.symm⟩
  cases look b rest with
  | ascii _ ascii =>
    rw [front_ascii rest ascii] at reading
    cases reading
  | unled _ ascii row =>
    rw [front_unled rest ascii row] at reading
    cases reading
  | @alone low high tail row =>
    rw [front_alone row] at reading
    cases reading
    obtain ⟨_, bounds⟩ := lead_bounds row
    obtain ⟨c, read⟩ := continuation_filler tail (leadPayload b tail * 64 + payload low)
    have inhabited : low.toNat ≤ low.toNat ∧ low.toNat ≤ high.toNat := by
      obtain ⟨_, _⟩ := bounds
      omega
    exact ⟨rfl, low :: _, c, by simp, (front_of_second _ row inhabited).trans read⟩
  | refused rest row second =>
    rw [front_of_bad_second rest row second] at reading
    cases reading
  | followed rest row second =>
    rw [front_of_second rest row second] at reading
    obtain ⟨rfl, filler, c, some_left, read⟩ := continuation_cut reading
    exact ⟨rfl, filler, c, some_left, (front_of_second _ row second).trans read⟩

private theorem continuation_invalid {missing code : Nat} {bytes left : Bytes}
    (reading : continuation missing code bytes = (.invalid, left)) :
    ∃ taken, bytes = taken ++ left ∧
      (∃ filler c, continuation missing code (taken ++ filler) = (.character c, [])) ∧
      ∃ x after, left = x :: after ∧
        ∀ other, continuation missing code (taken ++ x :: other) = (.invalid, x :: other) := by
  induction missing generalizing code bytes with
  | zero => cases reading
  | succ missing ih =>
    cases bytes with
    | nil => cases reading
    | cons b rest =>
      by_cases goesOn : Continues b
      · rw [continuation_of_continues _ _ _ goesOn] at reading
        obtain ⟨taken, rfl, ⟨filler, c, filled⟩, x, after, rfl, stuck⟩ := ih reading
        refine ⟨b :: taken, rfl, ⟨filler, c, ?_⟩, x, after, rfl, fun other => ?_⟩
        · exact (continuation_of_continues _ _ _ goesOn).trans filled
        · exact (continuation_of_continues _ _ _ goesOn).trans (stuck other)
      · rw [continuation_of_not_continues _ _ _ goesOn] at reading
        cases reading
        obtain ⟨c, filled⟩ := continuation_filler (missing + 1) code
        exact ⟨[], rfl, ⟨_, c, filled⟩, b, rest, rfl,
          fun other => continuation_of_not_continues _ _ other goesOn⟩

/-- Some character's bytes begin with these. -/
def Begins (part : Bytes) : Prop :=
  ∃ c : Char, part <+: encoding c

/-- An invalid part is one byte or begins a character, and the byte after it alone decides that it
goes no further. -/
theorem front_invalid {b : UInt8} {rest left : Bytes} (reading : front b rest = (.invalid, left)) :
    ∃ taken, rest = taken ++ left ∧ (taken = [] ∨ Begins (b :: taken)) ∧
      ∀ x after, left = x :: after →
        ∀ other, front b (taken ++ x :: other) = (.invalid, x :: other) := by
  cases look b rest with
  | ascii _ ascii =>
    rw [front_ascii rest ascii] at reading
    cases reading
  | unled _ ascii row =>
    rw [front_unled rest ascii row] at reading
    cases reading
    exact ⟨[], rfl, .inl rfl, fun x _ _ other => front_unled (x :: other) ascii row⟩
  | alone row =>
    rw [front_alone row] at reading
    cases reading
  | @refused low high s tail rest row second =>
    rw [front_of_bad_second rest row second] at reading
    cases reading
    refine ⟨[], rfl, .inl rfl, fun x after same other => ?_⟩
    cases same
    exact front_of_bad_second other row second
  | @followed low high s tail rest row second =>
    rw [front_of_second rest row second] at reading
    obtain ⟨taken, rfl, ⟨filler, c, filled⟩, _, _, rfl, stuck⟩ := continuation_invalid reading
    have bytes := encoding_of_front ((front_of_second _ row second).trans filled)
    rw [List.append_nil] at bytes
    refine ⟨s :: taken, rfl, .inr ⟨c, filler, bytes⟩, fun x after same other => ?_⟩
    cases same
    exact (front_of_second _ row second).trans (stuck other)

end Buildbox.Utf8
