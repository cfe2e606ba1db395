import Buildbox.Engine.Value

/-!
Arithmetic of the guest machine on untyped 64-bit slots: a 32-bit value lies in the low half of its
slot, and every operator leaves the high half zero. Only a value from the host may have more there.
Each operator has its operand and result types and its evaluation, which may trap.
-/

set_option autoImplicit false

namespace Buildbox.Wasm

inductive Width
  | w32
  | w64
deriving Repr, DecidableEq

namespace Width

def int : Width → ValueType
  | .w32 => .i32
  | .w64 => .i64

def float : Width → ValueType
  | .w32 => .f32
  | .w64 => .f64

def bits : Width → Nat
  | .w32 => 32
  | .w64 => 64

end Width

/-- An untyped value on the operand stack. -/
abbrev Slot := UInt64

inductive CountOp
  | leadingZeros
  | trailingZeros
  | ones
deriving Repr, DecidableEq

inductive FloatUnaryOp
  | abs
  | neg
  | ceil
  | floor
  | trunc
  | nearest
  | sqrt
deriving Repr, DecidableEq

/-- An operator with one operand. -/
inductive UnaryOp
  | isZero (w : Width)
  | count (w : Width) (op : CountOp)
  | extendLow (w : Width) (low : Nat)
  | wrap
  | extend (signed : Bool)
  | float (w : Width) (op : FloatUnaryOp)
  /-- a floating-point number without its fraction, as an integer -/
  | truncate (source target : Width) (signed saturating : Bool)
  | convert (source target : Width) (signed : Bool)
  | demote
  | promote
  | toBits (w : Width)
  | ofBits (w : Width)
deriving Repr, DecidableEq

inductive IntOp
  | add
  | sub
  | mul
  | div (signed : Bool)
  | rem (signed : Bool)
  | and
  | or
  | xor
  | shl
  | shr (signed : Bool)
  | rotl
  | rotr
deriving Repr, DecidableEq

inductive IntRelation
  | eq
  | ne
  | lt (signed : Bool)
  | gt (signed : Bool)
  | le (signed : Bool)
  | ge (signed : Bool)
deriving Repr, DecidableEq

inductive FloatOp
  | add
  | sub
  | mul
  | div
  | min
  | max
  | copySign
deriving Repr, DecidableEq

inductive FloatRelation
  | eq
  | ne
  | lt
  | gt
  | le
  | ge
deriving Repr, DecidableEq

/-- An operator with two operands. -/
inductive BinaryOp
  | int (w : Width) (op : IntOp)
  | compare (w : Width) (relation : IntRelation)
  | float (w : Width) (op : FloatOp)
  | compareFloat (w : Width) (relation : FloatRelation)
deriving Repr, DecidableEq

namespace UnaryOp

def operand : UnaryOp → ValueType
  | .isZero w | .count w _ | .extendLow w _ => w.int
  | .wrap => .i64
  | .extend _ => .i32
  | .float w _ => w.float
  | .truncate source _ _ _ => source.float
  | .convert source _ _ => source.int
  | .demote => .f64
  | .promote => .f32
  | .toBits w => w.float
  | .ofBits w => w.int

def result : UnaryOp → ValueType
  | .isZero _ => .i32
  | .count w _ | .extendLow w _ => w.int
  | .wrap => .i32
  | .extend _ => .i64
  | .float w _ => w.float
  | .truncate _ target _ _ => target.int
  | .convert _ target _ => target.float
  | .demote => .f32
  | .promote => .f64
  | .toBits w => w.int
  | .ofBits w => w.float

end UnaryOp

namespace BinaryOp

def operand : BinaryOp → ValueType
  | .int w _ | .compare w _ => w.int
  | .float w _ | .compareFloat w _ => w.float

def result : BinaryOp → ValueType
  | .int w _ => w.int
  | .float w _ => w.float
  | .compare .. | .compareFloat .. => .i32

end BinaryOp

def ofBool (b : Bool) : Slot :=
  if b then 1 else 0

namespace CountOp

/-- The number of one bits among the low `width`. -/
def onesBelow (x : UInt64) : Nat → UInt64
  | 0 => 0
  | i + 1 => onesBelow x i + (x >>> i.toUInt64 &&& 1)

def eval (w : Width) (x : Slot) : CountOp → Slot
  | .leadingZeros => if x == 0 then w.bits.toUInt64 else (w.bits - 1).toUInt64 - x.log2
  | .trailingZeros => if x == 0 then w.bits.toUInt64 else (x &&& (0 - x)).log2
  | .ones => onesBelow x w.bits

end CountOp

def rotateLeft32 (x count : UInt32) : UInt32 :=
  (x <<< count) ||| (x >>> (32 - count % 32))

def rotateLeft64 (x count : UInt64) : UInt64 :=
  (x <<< count) ||| (x >>> (64 - count % 64))

namespace IntOp

def eval32 (x y : UInt32) : IntOp → Except Trap UInt32
  | .add => .ok (x + y)
  | .sub => .ok (x - y)
  | .mul => .ok (x * y)
  | .div signed =>
    if y == 0 then .error .divisionByZero
    else if !signed then .ok (x / y)
    else if x == 0x80000000 && y == 0xFFFFFFFF then .error .integerOverflow
    else .ok (x.toInt32 / y.toInt32).toUInt32
  | .rem signed =>
    if y == 0 then .error .divisionByZero
    else if !signed then .ok (x % y)
    else if y == 0xFFFFFFFF then .ok 0
    else .ok (x.toInt32 % y.toInt32).toUInt32
  | .and => .ok (x &&& y)
  | .or => .ok (x ||| y)
  | .xor => .ok (x ^^^ y)
  | .shl => .ok (x <<< y)
  | .shr signed => .ok (if signed then (x.toInt32 >>> y.toInt32).toUInt32 else x >>> y)
  | .rotl => .ok (rotateLeft32 x y)
  | .rotr => .ok (rotateLeft32 x (32 - y % 32))

def eval64 (x y : UInt64) : IntOp → Except Trap UInt64
  | .add => .ok (x + y)
  | .sub => .ok (x - y)
  | .mul => .ok (x * y)
  | .div signed =>
    if y == 0 then .error .divisionByZero
    else if !signed then .ok (x / y)
    else if x == 0x8000000000000000 && y == 0xFFFFFFFFFFFFFFFF then .error .integerOverflow
    else .ok (x.toInt64 / y.toInt64).toUInt64
  | .rem signed =>
    if y == 0 then .error .divisionByZero
    else if !signed then .ok (x % y)
    else if y == 0xFFFFFFFFFFFFFFFF then .ok 0
    else .ok (x.toInt64 % y.toInt64).toUInt64
  | .and => .ok (x &&& y)
  | .or => .ok (x ||| y)
  | .xor => .ok (x ^^^ y)
  | .shl => .ok (x <<< y)
  | .shr signed => .ok (if signed then (x.toInt64 >>> y.toInt64).toUInt64 else x >>> y)
  | .rotl => .ok (rotateLeft64 x y)
  | .rotr => .ok (rotateLeft64 x (64 - y % 64))

end IntOp

namespace IntRelation

def eval32 (x y : UInt32) : IntRelation → Bool
  | .eq => x == y
  | .ne => x != y
  | .lt signed => if signed then x.toInt32 < y.toInt32 else x < y
  | .gt signed => if signed then y.toInt32 < x.toInt32 else y < x
  | .le signed => if signed then x.toInt32 ≤ y.toInt32 else x ≤ y
  | .ge signed => if signed then y.toInt32 ≤ x.toInt32 else y ≤ x

def eval64 (x y : UInt64) : IntRelation → Bool
  | .eq => x == y
  | .ne => x != y
  | .lt signed => if signed then x.toInt64 < y.toInt64 else x < y
  | .gt signed => if signed then y.toInt64 < x.toInt64 else y < x
  | .le signed => if signed then x.toInt64 ≤ y.toInt64 else x ≤ y
  | .ge signed => if signed then y.toInt64 ≤ x.toInt64 else y ≤ x

end IntRelation

/-- What the bits of a floating-point number say. -/
inductive Decoded
  | nan
  | infinite (negative : Bool)
  | finite (negative : Bool) (mantissa : Nat) (exponent : Int)

/-- Takes the bits of a floating-point number apart. -/
def decodeFloat (w : Width) (bits : Slot) : Decoded :=
  let (fractionBits, exponentBits, bias) : Nat × Nat × Int := match w with
    | .w32 => (23, 8, 150)
    | .w64 => (52, 11, 1075)
  let n := bits.toNat
  let fraction := n % (1 <<< fractionBits)
  let exponent := (n >>> fractionBits) % (1 <<< exponentBits)
  let negative := (n >>> (fractionBits + exponentBits)) % 2 == 1
  if exponent == (1 <<< exponentBits) - 1 then
    if fraction == 0 then .infinite negative else .nan
  else if exponent == 0 then .finite negative fraction (1 - bias)
  else .finite negative (fraction + (1 <<< fractionBits)) (exponent - bias)

def integerPart (negative : Bool) (mantissa : Nat) (exponent : Int) : Int :=
  let size := match exponent with
    | .ofNat up => mantissa <<< up
    | .negSucc down => mantissa >>> (down + 1)
  if negative then -(size : Int) else size

def bounds (w : Width) (signed : Bool) : Int × Int :=
  let beyond : Int := if signed then (1 <<< (w.bits - 1) : Nat) else (1 <<< w.bits : Nat)
  (if signed then -beyond else 0, beyond - 1)

/-- The slot of an integer of a width, negative ones in two's complement. -/
def ofInt (w : Width) (n : Int) : Slot :=
  (n % (1 <<< w.bits : Nat)).toNat.toUInt64

/-- A floating-point number as an integer; what does not fit traps, or becomes the nearest bound. -/
def truncateFloat (source target : Width) (signed saturating : Bool) (bits : Slot) :
    Except Trap Slot :=
  let (low, high) := bounds target signed
  match decodeFloat source bits with
  | .nan => if saturating then .ok 0 else .error .invalidConversion
  | .infinite negative =>
    if saturating then .ok (ofInt target (if negative then low else high))
    else .error .integerOverflow
  | .finite negative mantissa exponent =>
    let n := integerPart negative mantissa exponent
    if low ≤ n && n ≤ high then .ok (ofInt target n)
    else if saturating then .ok (ofInt target (if n < low then low else high))
    else .error .integerOverflow

def signBit : Width → Slot
  | .w32 => 0x80000000
  | .w64 => 0x8000000000000000

/-- The bits of the NaN that stands for a missing result. -/
def nanBits : Width → Slot
  | .w32 => 0xFFC00000
  | .w64 => 0xFFF8000000000000

/-- A NaN as an operator hands it on: no longer a signalling one. -/
def quiet (w : Width) (bits : Slot) : Slot :=
  bits ||| match w with
    | .w32 => 0x00400000
    | .w64 => 0x0008000000000000

def isNan (w : Width) (bits : Slot) : Bool :=
  match decodeFloat w bits with
  | .nan => true
  | _ => false

def ofFloat32 (x : Float32) : Slot :=
  x.toBits.toUInt64

def toFloat32 (bits : Slot) : Float32 :=
  .ofBits bits.toUInt32

namespace FloatUnaryOp

def nearestFloat (x : Float) : Float :=
  let down := x.floor
  let rest := x - down
  if rest < 0.5 then down
  else if 0.5 < rest then down + 1.0
  else if (down / 2.0).floor * 2.0 == down then down
  else down + 1.0

def apply (x : Float) : FloatUnaryOp → Float
  | .abs => x.abs
  | .neg => -x
  | .ceil => x.ceil
  | .floor => x.floor
  | .trunc => if x < 0.0 then x.ceil else x.floor
  | .nearest => nearestFloat x
  | .sqrt => x.sqrt

def eval (w : Width) (bits : Slot) (op : FloatUnaryOp) : Slot :=
  let sign := bits &&& signBit w
  match op with
  | .abs => bits ^^^ sign
  | .neg => bits ^^^ signBit w
  | op =>
    if isNan w bits then quiet w bits
    else
      let result := match w with
        | .w32 => ofFloat32 (apply (toFloat32 bits).toFloat op).toFloat32
        | .w64 => (apply (Float.ofBits bits) op).toBits
      if isNan w result then nanBits w
      else
        match op with
        | .sqrt => result
        | _ => (result &&& (signBit w - 1)) ||| sign

end FloatUnaryOp

namespace FloatOp

def apply (x y : Float) : FloatOp → Float
  | .add => x + y
  | .sub => x - y
  | .mul => x * y
  | .div => x / y
  | .min => if y < x then y else x
  | .max => if x < y then y else x
  | .copySign => x

def apply32 (x y : Float32) : FloatOp → Float32
  | .add => x + y
  | .sub => x - y
  | .mul => x * y
  | .div => x / y
  | .min => if y < x then y else x
  | .max => if x < y then y else x
  | .copySign => x

def eval (w : Width) (x y : Slot) (op : FloatOp) : Slot :=
  let sign := signBit w
  match op with
  | .copySign => (x &&& (sign - 1)) ||| (y &&& sign)
  | op =>
    if isNan w x then quiet w x
    else if isNan w y then quiet w y
    else if op == .min && x ^^^ y == sign && (x ||| y) == sign then sign
    else if op == .max && x ^^^ y == sign && (x ||| y) == sign then 0
    else
      let result := match w with
        | .w32 => ofFloat32 (apply32 (toFloat32 x) (toFloat32 y) op)
        | .w64 => (apply (Float.ofBits x) (Float.ofBits y) op).toBits
      if isNan w result then nanBits w else result

end FloatOp

namespace FloatRelation

def eval (w : Width) (x y : Slot) (relation : FloatRelation) : Bool :=
  let (x, y) := match w with
    | .w32 => ((toFloat32 x).toFloat, (toFloat32 y).toFloat)
    | .w64 => (Float.ofBits x, Float.ofBits y)
  match relation with
  | .eq => x == y
  | .ne => x != y
  | .lt => x < y
  | .gt => y < x
  | .le => x ≤ y
  | .ge => y ≤ x

end FloatRelation

def convertInt (source target : Width) (signed : Bool) (x : Slot) : Slot :=
  match target, source, signed with
  | .w32, .w32, true => ofFloat32 x.toUInt32.toInt32.toFloat32
  | .w32, .w32, false => ofFloat32 x.toUInt32.toFloat32
  | .w32, .w64, true => ofFloat32 x.toInt64.toFloat32
  | .w32, .w64, false => ofFloat32 x.toFloat32
  | .w64, .w32, true => x.toUInt32.toInt32.toFloat.toBits
  | .w64, .w32, false => x.toFloat.toBits
  | .w64, .w64, true => x.toInt64.toFloat.toBits
  | .w64, .w64, false => x.toFloat.toBits

/-- A double-precision number in single precision. A NaN keeps its sign and its first bits. -/
def demote (x : Slot) : Slot :=
  if isNan .w64 x then
    let sign := (x >>> 32) &&& signBit .w32
    quiet .w32 (sign ||| (0x7F800000 : Slot) ||| ((x >>> 29) &&& 0x7FFFFF))
  else ofFloat32 (Float.ofBits x).toFloat32

/-- A single-precision number in double precision. A NaN keeps its sign and its bits. -/
def promote (x : Slot) : Slot :=
  if isNan .w32 x then
    let sign := (x <<< 32) &&& signBit .w64
    quiet .w64 (sign ||| (0x7FF0000000000000 : Slot) ||| ((x &&& 0x7FFFFF) <<< 29))
  else (toFloat32 x).toFloat.toBits

def extendLow (w : Width) (low : Nat) (x : Slot) : Slot :=
  ofInt w (Int.bmod x.toNat (1 <<< low))

def part (x : Slot) : ValueType → Slot
  | .i32 | .f32 => x.toUInt32.toUInt64
  | .i64 | .f64 => x

namespace UnaryOp

/-- The part of a slot that an operator reads. A change of type alone takes the whole slot along. -/
def reads (x : Slot) : UnaryOp → Slot
  | .toBits _ | .ofBits _ => x
  | op => part x op.operand

def eval (x : Slot) (op : UnaryOp) : Except Trap Slot :=
  let x := op.reads x
  match op with
  | .isZero _ => .ok (ofBool (x == 0))
  | .count w op => .ok (op.eval w x)
  | .extendLow w low => .ok (Wasm.extendLow w low x)
  | .wrap => .ok x.toUInt32.toUInt64
  | .extend signed =>
    .ok (if signed then x.toUInt32.toInt32.toInt64.toUInt64 else x)
  | .float w op => .ok (op.eval w x)
  | .truncate source target signed saturating => truncateFloat source target signed saturating x
  | .convert source target signed => .ok (convertInt source target signed x)
  | .demote => .ok (Wasm.demote x)
  | .promote => .ok (Wasm.promote x)
  | .toBits _ | .ofBits _ => .ok x

end UnaryOp

namespace BinaryOp

def eval (x y : Slot) : BinaryOp → Except Trap Slot
  | .int .w32 op => (op.eval32 x.toUInt32 y.toUInt32).map UInt32.toUInt64
  | .int .w64 op => op.eval64 x y
  | .compare .w32 relation => .ok (ofBool (relation.eval32 x.toUInt32 y.toUInt32))
  | .compare .w64 relation => .ok (ofBool (relation.eval64 x y))
  | .float w op => .ok (op.eval w (part x w.float) (part y w.float))
  | .compareFloat w relation => .ok (ofBool (relation.eval w x y))

end BinaryOp

end Buildbox.Wasm
