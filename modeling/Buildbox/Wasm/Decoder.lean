import Buildbox.Text.Utf8
import Buildbox.Wasm.Module

/-!
Reading the binary form of modules. A reader takes bytes off the front of its input, and gives up at
the first thing that has no meaning.
-/

set_option autoImplicit false

namespace Buildbox.Wasm

abbrev Decoder := StateT Bytes Option

namespace Decoder

def byte : Decoder UInt8 := do
  match ← get with
  | [] => failure
  | b :: rest =>
    set rest
    return b

def take (count : Nat) : Decoder Bytes := do
  let input ← get
  let bytes := input.take count
  if bytes.length < count then failure
  set (input.drop count)
  return bytes

def expect (wanted : UInt8) : Decoder Unit := do
  if (← byte) != wanted then failure

/-- The seven-bit groups of an integer, the least significant first; at most `groups` of them. -/
def leb : (groups : Nat) → Decoder (List UInt8)
  | 0 => failure
  | groups + 1 => do
    let b ← byte
    if b < 0x80 then return [b]
    return (b &&& 0x7F) :: (← leb groups)

def groupsValue (groups : List UInt8) : Nat :=
  groups.foldr (fun b total => b.toNat + 128 * total) 0

def u32 : Decoder Nat := do
  let n := groupsValue (← leb 5)
  if n < UInt32.size then return n else failure

def signed (bits maxGroups : Nat) : Decoder Int := do
  let groups ← leb maxGroups
  let n := Int.bmod (groupsValue groups) (1 <<< (7 * groups.length))
  let beyond : Int := (1 <<< (bits - 1) : Nat)
  if -beyond ≤ n && n < beyond then return n else failure

def s32 : Decoder Int := signed 32 5

def s64 : Decoder Int := signed 64 10

def times {α : Type} (item : Decoder α) : Nat → Decoder (List α)
  | 0 => return []
  | count + 1 => do
    let first ← item
    return first :: (← times item count)

def vector {α : Type} (item : Decoder α) : Decoder (List α) := do
  times item (← u32)

def vectorUpTo {α : Type} (most : Nat) (item : Decoder α) : Decoder (List α) := do
  let count ← u32
  if most < count then failure
  times item count

def byteVector : Decoder Bytes := do
  take (← u32)

def maxName : Nat := 100000

/-- A name in valid UTF-8. -/
def name : Decoder String := do
  let bytes ← byteVector
  if maxName < bytes.length then failure
  match Utf8.strict bytes with
  | some text => return text
  | none => failure

/-- A reader that must use exactly this many bytes. -/
def within {α : Type} (size : Nat) (part : Decoder α) : Decoder α := do
  let bytes ← take size
  match part.run bytes with
  | some (a, []) => return a
  | _ => failure

def valueTypeOf? (code : UInt8) : Option ValueType :=
  if code == 0x7F then some .i32
  else if code == 0x7E then some .i64
  else if code == 0x7D then some .f32
  else if code == 0x7C then some .f64
  else none

def valueType : Decoder ValueType := do
  match valueTypeOf? (← byte) with
  | some type => return type
  | none => failure

def maxParameters : Nat := 1000

def functionType : Decoder FunctionType := do
  expect 0x60
  return ⟨← vectorUpTo maxParameters valueType, ← vectorUpTo maxParameters valueType⟩

def limits : Decoder Limits := do
  match ← byte with
  | 0x00 => return ⟨← u32, none⟩
  | 0x01 => return ⟨← u32, some (← u32)⟩
  | _ => failure

def tableType : Decoder Limits := do
  expect 0x70
  limits

def globalType : Decoder GlobalType := do
  let value ← valueType
  match ← byte with
  | 0x00 => return ⟨value, false⟩
  | 0x01 => return ⟨value, true⟩
  | _ => failure

def blockType (types : List FunctionType) : Decoder FunctionType := do
  let input ← get
  match input with
  | [] => failure
  | code :: rest =>
    if code == 0x40 then
      set rest
      return ⟨[], []⟩
    match valueTypeOf? code with
    | some type =>
      set rest
      return ⟨[], [type]⟩
    | none =>
      let index ← signed 33 5
      if index < 0 then failure
      match types[index.toNat]? with
      | some type => return type
      | none => failure

/-- The place of a load or a store: its alignment, which must not exceed its size, and its
offset. -/
def place (bytes : Nat) : Decoder Nat := do
  let align ← u32
  if align ≥ 32 || bytes < 1 <<< align then failure
  u32

def accessOf? (code : UInt8) : Option (Bool × ValueType × Nat × Bool) :=
  match code with
  | 0x28 => some (true, .i32, 4, false)
  | 0x29 => some (true, .i64, 8, false)
  | 0x2A => some (true, .f32, 4, false)
  | 0x2B => some (true, .f64, 8, false)
  | 0x2C => some (true, .i32, 1, true)
  | 0x2D => some (true, .i32, 1, false)
  | 0x2E => some (true, .i32, 2, true)
  | 0x2F => some (true, .i32, 2, false)
  | 0x30 => some (true, .i64, 1, true)
  | 0x31 => some (true, .i64, 1, false)
  | 0x32 => some (true, .i64, 2, true)
  | 0x33 => some (true, .i64, 2, false)
  | 0x34 => some (true, .i64, 4, true)
  | 0x35 => some (true, .i64, 4, false)
  | 0x36 => some (false, .i32, 4, false)
  | 0x37 => some (false, .i64, 8, false)
  | 0x38 => some (false, .f32, 4, false)
  | 0x39 => some (false, .f64, 8, false)
  | 0x3A => some (false, .i32, 1, false)
  | 0x3B => some (false, .i32, 2, false)
  | 0x3C => some (false, .i64, 1, false)
  | 0x3D => some (false, .i64, 2, false)
  | 0x3E => some (false, .i64, 4, false)
  | _ => none

def relations : List IntRelation :=
  [.eq, .ne, .lt true, .lt false, .gt true, .gt false, .le true, .le false, .ge true, .ge false]

def floatRelations : List FloatRelation := [.eq, .ne, .lt, .gt, .le, .ge]

def countOps : List CountOp := [.leadingZeros, .trailingZeros, .ones]

def intOps : List IntOp :=
  [.add, .sub, .mul, .div true, .div false, .rem true, .rem false, .and, .or, .xor, .shl,
    .shr true, .shr false, .rotl, .rotr]

def floatUnaryOps : List FloatUnaryOp := [.abs, .neg, .ceil, .floor, .trunc, .nearest, .sqrt]

def floatOps : List FloatOp := [.add, .sub, .mul, .div, .min, .max, .copySign]

/-- The operators with a truth value as their result, in the order of their codes. -/
def tests : List Instr := List.flatten [
  [.unary (.isZero .w32)], relations.map fun r => .binary (.compare .w32 r),
  [.unary (.isZero .w64)], relations.map fun r => .binary (.compare .w64 r),
  floatRelations.map fun r => .binary (.compareFloat .w32 r),
  floatRelations.map fun r => .binary (.compareFloat .w64 r)]

/-- The operators whose result is of the type of their operands, in the order of their codes. -/
def arithmetic : List Instr := List.flatten [
  countOps.map fun op => .unary (.count .w32 op), intOps.map fun op => .binary (.int .w32 op),
  countOps.map fun op => .unary (.count .w64 op), intOps.map fun op => .binary (.int .w64 op),
  floatUnaryOps.map fun op => .unary (.float .w32 op),
  floatOps.map fun op => .binary (.float .w32 op),
  floatUnaryOps.map fun op => .unary (.float .w64 op),
  floatOps.map fun op => .binary (.float .w64 op)]

def conversions : List Instr := [
  .unary .wrap,
  .unary (.truncate .w32 .w32 true false), .unary (.truncate .w32 .w32 false false),
  .unary (.truncate .w64 .w32 true false), .unary (.truncate .w64 .w32 false false),
  .unary (.extend true), .unary (.extend false),
  .unary (.truncate .w32 .w64 true false), .unary (.truncate .w32 .w64 false false),
  .unary (.truncate .w64 .w64 true false), .unary (.truncate .w64 .w64 false false),
  .unary (.convert .w32 .w32 true), .unary (.convert .w32 .w32 false),
  .unary (.convert .w64 .w32 true), .unary (.convert .w64 .w32 false),
  .unary .demote,
  .unary (.convert .w32 .w64 true), .unary (.convert .w32 .w64 false),
  .unary (.convert .w64 .w64 true), .unary (.convert .w64 .w64 false),
  .unary .promote,
  .unary (.toBits .w32), .unary (.toBits .w64), .unary (.ofBits .w32), .unary (.ofBits .w64),
  .unary (.extendLow .w32 8), .unary (.extendLow .w32 16),
  .unary (.extendLow .w64 8), .unary (.extendLow .w64 16), .unary (.extendLow .w64 32)]

def operators : List Instr :=
  tests ++ arithmetic ++ conversions

def saturatingOperators : List Instr :=
  [.unary (.truncate .w32 .w32 true true), .unary (.truncate .w32 .w32 false true),
    .unary (.truncate .w64 .w32 true true), .unary (.truncate .w64 .w32 false true),
    .unary (.truncate .w32 .w64 true true), .unary (.truncate .w32 .w64 false true),
    .unary (.truncate .w64 .w64 true true), .unary (.truncate .w64 .w64 false true)]

/-- A number of fixed size, the least significant byte first. -/
def littleEndian (size : Nat) : Decoder Slot := do
  let bytes ← take size
  return (bytes.foldr (fun (b : UInt8) total => b.toNat + 256 * total) 0).toUInt64

def extended : Decoder Instr := do
  let code ← u32
  match code with
  | 10 =>
    expect 0x00
    expect 0x00
    return .memoryCopy
  | 11 =>
    expect 0x00
    return .memoryFill
  | code =>
    match saturatingOperators[code]? with
    | some instr => return instr
    | none => failure

/-- The largest number of targets of a branch table, beside the default one. -/
def maxTargets : Nat := 131072

def plain (code : UInt8) : Decoder Instr := do
  match code with
  | 0x00 => return .unreachable
  | 0x01 => return .nop
  | 0x0C => return .br (← u32)
  | 0x0D => return .brIf (← u32)
  | 0x0E => return .brTable (← vectorUpTo maxTargets u32) (← u32)
  | 0x0F => return .leave
  | 0x10 => return .call (← u32)
  | 0x11 =>
    let type ← u32
    expect 0x00
    return .callIndirect type
  | 0x1A => return .drop
  | 0x1B => return .select
  | 0x20 => return .localGet (← u32)
  | 0x21 => return .localSet (← u32)
  | 0x22 => return .localTee (← u32)
  | 0x23 => return .globalGet (← u32)
  | 0x24 => return .globalSet (← u32)
  | 0x3F =>
    expect 0x00
    return .memorySize
  | 0x40 =>
    expect 0x00
    return .memoryGrow
  | 0x41 => return .const .i32 (ofInt .w32 (← s32))
  | 0x42 => return .const .i64 (ofInt .w64 (← s64))
  | 0x43 => return .const .f32 (← littleEndian 4)
  | 0x44 => return .const .f64 (← littleEndian 8)
  | 0xFC => extended
  | code =>
    match accessOf? code with
    | some (isLoad, type, bytes, signed) =>
      let offset ← place bytes
      let access : Access := ⟨type, bytes, signed, offset⟩
      return if isLoad then .load access else .store access
    | none =>
      if code < 0x45 then failure
      match operators[code.toNat - 0x45]? with
      | some instr => return instr
      | none => failure

/-- How a sequence of instructions ends. -/
inductive Ending
  | endCode
  | elseCode
deriving DecidableEq

/-- A sequence of instructions and its end. Every instruction takes a byte, so the number of bytes
is enough fuel. -/
def sequence (types : List FunctionType) : (fuel : Nat) → Decoder (List Instr × Ending)
  | 0 => failure
  | fuel + 1 => do
    let body : Decoder (List Instr) := do
      match ← sequence types fuel with
      | (instrs, .endCode) => return instrs
      | (_, .elseCode) => failure
    let rest (first : Instr) : Decoder (List Instr × Ending) := do
      let (instrs, ending) ← sequence types fuel
      return (first :: instrs, ending)
    match ← byte with
    | 0x0B => return ([], .endCode)
    | 0x05 => return ([], .elseCode)
    | 0x02 =>
      let type ← blockType types
      rest (.block type (← body))
    | 0x03 =>
      let type ← blockType types
      rest (.loop type (← body))
    | 0x04 =>
      let type ← blockType types
      match ← sequence types fuel with
      | (onTrue, .endCode) => rest (.branch type onTrue [])
      | (onTrue, .elseCode) => rest (.branch type onTrue (← body))
    | code => rest (← plain code)

def expression (types : List FunctionType) : Decoder (List Instr) := do
  match ← sequence types ((← get).length + 1) with
  | (instrs, .endCode) => return instrs
  | (_, .elseCode) => failure

def constant : Decoder Constant := do
  match ← expression [] with
  | [.const type bits] => return .value type bits
  | [.globalGet index] => return .global index
  | _ => failure

def importEntry : Decoder ImportEntry := do
  let space ← name
  let name ← name
  let kind ← match ← byte with
    | 0x00 => pure (.function (← u32))
    | 0x01 => pure (.table (← tableType))
    | 0x02 => pure (.memory (← limits))
    | 0x03 => pure (.global (← globalType))
    | _ => failure
  return ⟨space, name, kind⟩

def exportEntry : Decoder ExportEntry := do
  let name ← name
  let kind ← match ← byte with
    | 0x00 => pure (.function (← u32))
    | 0x01 => pure (.table (← u32))
    | 0x02 => pure (.memory (← u32))
    | 0x03 => pure (.global (← u32))
    | _ => failure
  return ⟨name, kind⟩

def globalEntry : Decoder GlobalEntry := do
  return ⟨← globalType, ← constant⟩

def elementSegment : Decoder ElementSegment := do
  if (← u32) != 0 then failure
  return ⟨← constant, ← vector u32⟩

def dataSegment : Decoder DataSegment := do
  match ← u32 with
  | 0 => return ⟨← constant, ← byteVector⟩
  | 2 =>
    if (← u32) != 0 then failure
    return ⟨← constant, ← byteVector⟩
  | _ => failure

def maxLocals : Nat := 50000

def localRuns : Decoder (List ValueType) := do
  let runs ← vector (do return (← u32, ← valueType))
  if maxLocals < runs.foldl (fun total run => total + run.1) 0 then failure
  return runs.flatMap fun (count, type) => List.replicate count type

def code (types : List FunctionType) : Decoder Code := do
  within (← u32) do return ⟨← localRuns, ← expression types⟩

/-- The rank of a section among the others; sections stand in this order. -/
def rank? (id : UInt8) : Option Nat :=
  if id == 0 || 12 < id then none
  else if id == 12 then some 19
  else some (2 * id.toNat)

def maxDefinitions : Nat := 1000000

/-- The largest number of imports, of exports and of segments of either kind. -/
def maxEntries : Nat := 100000

/-- The contents of one section, added to the module. -/
def contents (id : UInt8) (m : RawModule) : Decoder RawModule := do
  match id with
  | 1 => return { m with types := ← vectorUpTo maxDefinitions functionType }
  | 2 => return { m with imports := ← vectorUpTo maxEntries importEntry }
  | 3 => return { m with functions := ← vectorUpTo maxDefinitions u32 }
  | 4 => return { m with tables := ← vector tableType }
  | 5 => return { m with memories := ← vector limits }
  | 6 => return { m with globals := ← vectorUpTo maxDefinitions globalEntry }
  | 7 => return { m with exports := ← vectorUpTo maxEntries exportEntry }
  | 8 => return { m with start := some (← u32) }
  | 9 => return { m with elements := ← vectorUpTo maxEntries elementSegment }
  | 10 => return { m with codes := ← vector (code m.types) }
  | 11 => return { m with data := ← vectorUpTo maxEntries dataSegment }
  | 12 => return { m with dataCount := some (← u32) }
  | _ => failure

/-- The sections of a module to the end of the input. Every section takes a byte, so the number of
bytes is enough fuel. -/
def sections : (fuel last : Nat) → RawModule → Decoder RawModule
  | 0, _, _ => failure
  | fuel + 1, last, m => do
    if (← get).isEmpty then return m
    let id ← byte
    let size ← u32
    if id == 0 then
      within size (do
        discard name
        set ([] : Bytes))
      sections fuel last m
    else
      match rank? id with
      | none => failure
      | some rank =>
        if rank ≤ last then failure
        let m ← within size (contents id m)
        sections fuel rank m

def module : Decoder RawModule := do
  if (← take 8) != [0x00, 0x61, 0x73, 0x6D, 0x01, 0x00, 0x00, 0x00] then failure
  sections ((← get).length + 1) 0 {}

end Decoder

end Buildbox.Wasm
