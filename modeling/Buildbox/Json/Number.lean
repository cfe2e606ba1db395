import Buildbox.Json.Problem

/-!
JSON numbers as they are read: as many digits as 64 bits hold and a power of ten, and from these
whether a double can hold the number.
-/

set_option autoImplicit false

namespace Buildbox.Json

/-- A number, as far as its kind matters. -/
inductive Number
  /-- an unsigned 64-bit number without fraction or exponent -/
  | natural (n : Nat)
  | other
  | huge
deriving Repr, DecidableEq

def isDigit (c : Char) : Bool :=
  '0' ≤ c && c ≤ '9'

def digitValue (c : Char) : Nat :=
  c.toNat - '0'.toNat

def digitsValue (digits : List Char) : Nat :=
  digits.foldl (fun total c => total * 10 + digitValue c) 0

structure Decimal where
  significand : Nat := 0
  power : Int := 0
deriving Repr, DecidableEq

namespace Decimal

/-- The number with digits before the point added. From the first one on that no longer fits 64
bits, they only raise the power. -/
def addWhole : Decimal → List Char → Decimal
  | number, [] => number
  | number, c :: rest =>
    let significand := number.significand * 10 + digitValue c
    if significand < UInt64.size then addWhole { number with significand } rest
    else { number with power := number.power + (rest.length + 1) }

/-- The number with digits after the point added, up to the first one that no longer fits 64
bits. -/
def addFraction : Decimal → List Char → Decimal
  | number, [] => number
  | number, c :: rest =>
    let significand := number.significand * 10 + digitValue c
    if significand < UInt64.size then
      addFraction { significand, power := number.power - 1 } rest
    else number

def roundBinary (n : Nat) : Nat :=
  let excess := n.log2 + 1 - 53
  if excess == 0 then n
  else
    let kept := n >>> excess
    let lost := n - (kept <<< excess)
    let half := 1 <<< (excess - 1)
    let up := half < lost || lost == half && kept % 2 == 1
    (if up then kept + 1 else kept) <<< excess

def doubleLimit : Nat := (1 <<< 1024) - (1 <<< 970)

def maxPower : Nat := 308

/-- Whether a number is beyond the largest double: a whole power of ten is a double itself, and the
product of significand and power is rounded once more. -/
def isHuge (number : Decimal) : Bool :=
  match number.power with
  | .negSucc _ => false
  | .ofNat power =>
    number.significand != 0 && (maxPower < power ||
      doubleLimit ≤ roundBinary number.significand * roundBinary (Nat.pow 10 power))

end Decimal

namespace Number

def ofDecimal (number : Decimal) : Number :=
  if number.isHuge then .huge else .other

def ofWhole (negative : Bool) (number : Decimal) : Number :=
  if number.power == 0 && !negative then .natural number.significand else ofDecimal number

def exponent (number : Decimal) (chars : List Char) : Except Break (Number × List Char) :=
  let (minus, chars) := match chars with
    | '+' :: rest => (false, rest)
    | '-' :: rest => (true, rest)
    | _ => (false, chars)
  let digits := chars.takeWhile isDigit
  let rest := chars.dropWhile isDigit
  if digits.isEmpty then .error (.brokenNumber rest)
  else
    let shift : Int := digitsValue digits
    let power := number.power + (if minus then -shift else shift)
    .ok (ofDecimal { number with power }, rest)

def fraction (negative : Bool) (number : Decimal) (chars : List Char) :
    Except Break (Number × List Char) :=
  match chars with
  | '.' :: rest =>
    let digits := rest.takeWhile isDigit
    let rest := rest.dropWhile isDigit
    let number := number.addFraction digits
    if digits.isEmpty then .error (.brokenNumber rest)
    else
      match rest with
      | 'e' :: rest | 'E' :: rest => exponent number rest
      | _ => .ok (ofDecimal number, rest)
  | 'e' :: rest | 'E' :: rest => exponent number rest
  | _ => .ok (ofWhole negative number, chars)

def magnitude (negative : Bool) (chars : List Char) : Except Break (Number × List Char) :=
  match chars with
  | '0' :: rest =>
    match rest with
    | c :: _ => if isDigit c then .error .malformed else fraction negative {} rest
    | [] => fraction negative {} rest
  | _ =>
    let digits := chars.takeWhile isDigit
    let rest := chars.dropWhile isDigit
    if digits.isEmpty then .error (.brokenNumber rest)
    else fraction negative (({} : Decimal).addWhole digits) rest

end Number

end Buildbox.Json
