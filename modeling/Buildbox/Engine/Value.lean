/-!
The values and types at the border between host and guest, and the ways in which a guest call goes
wrong.
-/

set_option autoImplicit false

namespace Buildbox

inductive ValueType
  | i32
  | i64
  | f32
  | f64
deriving Repr, DecidableEq

/-- A value; floating-point numbers are given by their bits. -/
inductive Value
  | i32 (word : UInt32)
  | i64 (word : UInt64)
  | f32 (bits : UInt32)
  | f64 (bits : UInt64)
deriving Repr, DecidableEq

namespace Value

def type : Value → ValueType
  | .i32 _ => .i32
  | .i64 _ => .i64
  | .f32 _ => .f32
  | .f64 _ => .f64

def bits : Value → UInt64
  | .i32 word => word.toUInt64
  | .i64 word => word
  | .f32 bits => bits.toUInt64
  | .f64 bits => bits

def word (v : Value) : UInt32 :=
  v.bits.toUInt32

end Value

namespace ValueType

def ofBits (bits : UInt64) : ValueType → Value
  | .i32 => .i32 bits.toUInt32
  | .i64 => .i64 bits
  | .f32 => .f32 bits.toUInt32
  | .f64 => .f64 bits

end ValueType

inductive CallMismatch
  | parameterCount
  | parameterType
  | resultCount
deriving Repr, DecidableEq

def CallMismatch.message : CallMismatch → String
  | .parameterCount => "encountered an incorrect number of parameters"
  | .parameterType => "encountered incorrect function parameter type"
  | .resultCount => "encountered an incorrect number of results"

structure FunctionType where
  parameters : List ValueType
  results : List ValueType
deriving Repr, DecidableEq

namespace FunctionType

def check (type : FunctionType) (arguments : List ValueType) (results : Nat) :
    Except CallMismatch Unit :=
  if type.parameters.length != arguments.length then .error .parameterCount
  else if type.parameters != arguments then .error .parameterType
  else if type.results.length != results then .error .resultCount
  else .ok ()

end FunctionType

inductive ExternType
  | function (type : FunctionType)
  | memory
  | table
  | global
deriving Repr, DecidableEq

/-- A function, memory, table or global that a module wants from its host. -/
structure Import where
  space : String
  name : String
  type : ExternType
deriving Repr, DecidableEq

/-- A function, memory, table or global that a module offers. -/
structure Export where
  name : String
  type : ExternType
deriving Repr, DecidableEq

/-- Why a guest stops by itself. -/
inductive Trap
  | unreachable
  | memoryOutOfBounds
  | tableOutOfBounds
  | nullEntry
  | typeMismatch
  | divisionByZero
  | integerOverflow
  | invalidConversion
  | stackExhausted
  | segmentOutOfBounds
  /-- the steps granted to one stretch of guest code are used up -/
  | stepsExhausted
deriving Repr, DecidableEq

def Trap.message : Trap → String
  | .unreachable => "wasm `unreachable` instruction executed"
  | .memoryOutOfBounds => "out of bounds memory access"
  | .tableOutOfBounds => "undefined element: out of bounds table access"
  | .nullEntry => "uninitialized element 2"
  | .typeMismatch => "indirect call type mismatch"
  | .divisionByZero => "integer divide by zero"
  | .integerOverflow => "integer overflow"
  | .invalidConversion => "invalid conversion to integer"
  | .stackExhausted => "call stack exhausted"
  | .segmentOutOfBounds => "out of bounds segment"
  | .stepsExhausted => "all fuel consumed by WebAssembly"

end Buildbox
