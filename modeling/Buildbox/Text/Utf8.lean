import Buildbox.Bytes

/-!
UTF-8 decoding that never fails. `Utf8.lossy` reads a whole byte string and puts one U+FFFD for each
maximal invalid part. `Utf8.Carry` reads the same stream in chunks: a character cut by a chunk's end
is held until the next chunk completes or refutes it.
-/

set_option autoImplicit false

namespace Buildbox.Utf8

inductive Front
  | character (c : Char)
  /-- a maximal part that no continuation makes a character -/
  | invalid
  /-- the bytes end inside a character -/
  | cut

/-- The bounds of the second byte and the number of bytes after it, for each lead byte of a
multi-byte character. The narrowed bounds exclude overlong forms, surrogates and code points past
the last one. -/
def lead (b : UInt8) : Option (UInt8 × UInt8 × Nat) :=
  if b < 0xC2 then none
  else if b < 0xE0 then some (0x80, 0xBF, 0)
  else if b == 0xE0 then some (0xA0, 0xBF, 1)
  else if b == 0xED then some (0x80, 0x9F, 1)
  else if b < 0xF0 then some (0x80, 0xBF, 1)
  else if b == 0xF0 then some (0x90, 0xBF, 2)
  else if b < 0xF4 then some (0x80, 0xBF, 2)
  else if b == 0xF4 then some (0x80, 0x8F, 2)
  else none

def payload (b : UInt8) : Nat :=
  (b &&& 0x3F).toNat

def leadPayload (b : UInt8) : Nat → Nat
  | 0 => (b &&& 0x1F).toNat
  | 1 => (b &&& 0x0F).toNat
  | _ => (b &&& 0x07).toNat

def continuation : Nat → Nat → Bytes → Front × Bytes
  | 0, code, rest => (.character (Char.ofNat code), rest)
  | _ + 1, _, [] => (.cut, [])
  | missing + 1, code, b :: rest =>
    if 0x80 ≤ b && b ≤ 0xBF then continuation missing (code * 64 + payload b) rest
    else (.invalid, b :: rest)

/-- Reads one character or one maximal invalid part, given its first byte. -/
def front (b : UInt8) (rest : Bytes) : Front × Bytes :=
  if b < 0x80 then (.character (Char.ofNat b.toNat), rest)
  else
    match lead b with
    | none => (.invalid, rest)
    | some (low, high, tail) =>
      match rest with
      | [] => (.cut, [])
      | second :: rest =>
        if low ≤ second && second ≤ high then
          continuation tail (leadPayload b tail * 64 + payload second) rest
        else (.invalid, second :: rest)

theorem continuation_length_le (missing code : Nat) (bytes : Bytes) :
    (continuation missing code bytes).2.length ≤ bytes.length := by
  induction missing generalizing code bytes with
  | zero => simp [continuation]
  | succ missing ih =>
    cases bytes with
    | nil => simp [continuation]
    | cons b rest =>
      simp only [continuation]
      split
      · exact Nat.le_trans (ih _ _) (by simp)
      · simp

theorem front_length_le (b : UInt8) (rest : Bytes) : (front b rest).2.length ≤ rest.length := by
  simp only [front]
  split
  · simp
  · split
    · simp
    · split
      · simp
      · split
        · exact Nat.le_trans (continuation_length_le _ _ _) (by simp)
        · simp

def replacement : Char := '\uFFFD'

/-- The characters of a byte string, with one U+FFFD for each maximal invalid part; a character cut
by the end is such a part. -/
def lossyChars : Bytes → List Char
  | [] => []
  | b :: rest =>
    let read := front b rest
    match read.1 with
    | .character c => c :: lossyChars read.2
    | .invalid => replacement :: lossyChars read.2
    | .cut => [replacement]
termination_by bytes => bytes.length
decreasing_by
  all_goals exact Nat.lt_succ_of_le (front_length_le b rest)

/-- The text of a byte string, with one U+FFFD for each maximal invalid part. -/
def lossy (bytes : Bytes) : String :=
  String.ofList (lossyChars bytes)

def settledChars : Bytes → List Char × Bytes
  | [] => ([], [])
  | b :: rest =>
    let read := front b rest
    match read.1 with
    | .character c =>
      let later := settledChars read.2
      (c :: later.1, later.2)
    | .invalid =>
      let later := settledChars read.2
      (replacement :: later.1, later.2)
    | .cut => ([], b :: rest)
termination_by bytes => bytes.length
decreasing_by
  all_goals exact Nat.lt_succ_of_le (front_length_le b rest)

structure Carry where
  held : Bytes := []
deriving Repr, DecidableEq

namespace Carry

def empty : Carry := {}

def decode (carry : Carry) (chunk : Bytes) : String × Carry :=
  let settled := settledChars (carry.held ++ chunk)
  (String.ofList settled.1, ⟨settled.2⟩)

def finish (carry : Carry) : String :=
  lossy carry.held

end Carry

def strict (bytes : Bytes) : Option String :=
  (go bytes).map String.ofList
where
  /-- The characters of a byte string without invalid parts. -/
  go : Bytes → Option (List Char)
  | [] => some []
  | b :: rest =>
    let read := front b rest
    match read.1 with
    | .character c => (go read.2).map (c :: ·)
    | .invalid | .cut => none
  termination_by bytes => bytes.length
  decreasing_by
    all_goals exact Nat.lt_succ_of_le (front_length_le b rest)

end Buildbox.Utf8
