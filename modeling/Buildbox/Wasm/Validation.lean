import Buildbox.Wasm.Module

/-!
Validation: every instruction finds operands of its types, every index exists, and every part of a
module agrees with the others. Code after an unconditional jump may take operands of any type.
-/

set_option autoImplicit false

namespace Buildbox.Wasm

structure Operands where
  /-- the types from the top down; an unknown one fits everywhere -/
  types : List (Option ValueType) := []
  /-- whether any further operands may be assumed below, as after a jump -/
  polymorphic : Bool := false

namespace Operands

/-- The stack with known types on top, the last one topmost. -/
def push (operands : Operands) (types : List ValueType) : Operands :=
  { operands with types := types.reverse.map some ++ operands.types }

/-- The stack after a jump: anything may be taken from it. -/
def unknown : Operands := { polymorphic := true }

def popAny (operands : Operands) : Option (Option ValueType × Operands) :=
  match operands.types with
  | type :: types => some (type, { operands with types })
  | [] => if operands.polymorphic then some (none, operands) else none

def popOne (operands : Operands) (type : ValueType) : Option Operands := do
  let (found, operands) ← operands.popAny
  if found.all (· == type) then some operands else none

/-- The stack without its topmost operands, which must have these types, the last one topmost. -/
def pop (operands : Operands) (types : List ValueType) : Option Operands :=
  types.reverse.foldlM popOne operands

def isEmpty (operands : Operands) : Bool :=
  operands.types.isEmpty

end Operands

/-- What the instructions of a function may refer to. -/
structure Scope where
  types : List FunctionType
  functions : Array FunctionType
  tables : Nat
  memories : Nat
  globals : Array GlobalType
  locals : Array ValueType
  results : List ValueType
  /-- the operands that a jump to each enclosing block takes, the innermost first -/
  labels : List (List ValueType)

namespace Scope

def enter (scope : Scope) (label : List ValueType) : Scope :=
  { scope with labels := label :: scope.labels }

def demand (condition : Bool) : Option Unit :=
  if condition then some () else none

/-- Checks the end of a block: exactly its results are left. -/
def finish (type : FunctionType) (after : Operands) : Option Unit := do
  demand (← after.pop type.results).isEmpty

/-- The stack at the start of a block. -/
def start (type : FunctionType) : Operands :=
  ({} : Operands).push type.parameters

mutual

def instr (scope : Scope) (operands : Operands) : Instr → Option Operands
  | .unreachable => some .unknown
  | .nop => some operands
  | .block type body => do
    let below ← operands.pop type.parameters
    finish type (← sequence (scope.enter type.results) (start type) body)
    return below.push type.results
  | .loop type body => do
    let below ← operands.pop type.parameters
    finish type (← sequence (scope.enter type.parameters) (start type) body)
    return below.push type.results
  | .branch type onTrue onFalse => do
    let below ← (← operands.popOne .i32).pop type.parameters
    finish type (← sequence (scope.enter type.results) (start type) onTrue)
    finish type (← sequence (scope.enter type.results) (start type) onFalse)
    return below.push type.results
  | .br depth => do
    let label ← scope.labels[depth]?
    discard (operands.pop label)
    return .unknown
  | .brIf depth => do
    let label ← scope.labels[depth]?
    let below ← (← operands.popOne .i32).pop label
    return below.push label
  | .brTable depths default => do
    let operands ← operands.popOne .i32
    let label ← scope.labels[default]?
    let labels ← depths.mapM (scope.labels[·]?)
    demand (labels.all (·.length == label.length))
    discard (labels.mapM operands.pop)
    discard (operands.pop label)
    return .unknown
  | .leave => do
    discard (operands.pop scope.results)
    return .unknown
  | .call function => do
    let type ← scope.functions[function]?
    return (← operands.pop type.parameters).push type.results
  | .callIndirect type => do
    demand (0 < scope.tables)
    let type ← scope.types[type]?
    return (← (← operands.popOne .i32).pop type.parameters).push type.results
  | .drop => do
    return (← operands.popAny).2
  | .select => do
    let operands ← operands.popOne .i32
    let (first, operands) ← operands.popAny
    let (second, operands) ← operands.popAny
    match first, second with
    | some a, some b =>
      demand (a == b)
      return operands.push [a]
    | some a, none => return operands.push [a]
    | none, some b => return operands.push [b]
    | none, none => return { operands with types := none :: operands.types }
  | .localGet index => do
    return operands.push [← scope.locals[index]?]
  | .localSet index => do
    operands.popOne (← scope.locals[index]?)
  | .localTee index => do
    let type ← scope.locals[index]?
    return (← operands.popOne type).push [type]
  | .globalGet index => do
    return operands.push [(← scope.globals[index]?).value]
  | .globalSet index => do
    let type ← scope.globals[index]?
    demand type.mutable
    operands.popOne type.value
  | .load access => do
    demand (0 < scope.memories)
    return (← operands.popOne .i32).push [access.type]
  | .store access => do
    demand (0 < scope.memories)
    operands.pop [.i32, access.type]
  | .memorySize => do
    demand (0 < scope.memories)
    return operands.push [.i32]
  | .memoryGrow => do
    demand (0 < scope.memories)
    return (← operands.popOne .i32).push [.i32]
  | .memoryCopy | .memoryFill => do
    demand (0 < scope.memories)
    operands.pop [.i32, .i32, .i32]
  | .const type _ => some (operands.push [type])
  | .unary op => do
    return (← operands.popOne op.operand).push [op.result]
  | .binary op => do
    return (← operands.pop [op.operand, op.operand]).push [op.result]

def sequence (scope : Scope) (operands : Operands) : List Instr → Option Operands
  | [] => some operands
  | first :: rest => do
    sequence scope (← instr scope operands first) rest

end

end Scope

namespace RawModule

open Scope (demand)

def maxPages : Nat := 65536

def maxTable : Nat := 10000000

def interfaceBound : Nat := 100000

def checkLimits (limits : Limits) (bound : Nat) : Option Unit := do
  demand (limits.min ≤ bound)
  match limits.max with
  | some max => demand (limits.min ≤ max && max ≤ bound)
  | none => pure ()

def checkConstant (m : RawModule) (type : ValueType) : Constant → Option Unit
  | .value found _ => demand (found == type)
  | .global index => do
    let found ← m.importedGlobals[index]?
    demand (found.value == type && !found.mutable)

def scope (m : RawModule) (functions : Array FunctionType) (type : FunctionType) (code : Code) :
    Scope where
  types := m.types
  functions := functions
  tables := m.allTables.length
  memories := m.allMemories.length
  globals := m.allGlobals.toArray
  locals := (type.parameters ++ code.locals).toArray
  results := type.results
  labels := [type.results]

def checkCode (m : RawModule) (functions : Array FunctionType) (type : FunctionType)
    (code : Code) : Option Unit := do
  let after ← (m.scope functions type code).sequence {} code.body
  demand (← after.pop type.results).isEmpty

def allDistinct (names : List String) : Bool :=
  match names with
  | [] => true
  | name :: rest => !rest.contains name && allDistinct rest

def typeSize (type : Option FunctionType) : Nat :=
  1 + (type.map fun type => type.parameters.length + type.results.length).getD 0

def interfaceSize (m : RawModule) (functions : Array FunctionType) : Nat :=
  let imports := m.imports.map fun entry => typeSize <| match entry.kind with
    | .function type => m.types[type]?
    | _ => none
  let exports := m.exports.map fun entry => typeSize <| match entry.kind with
    | .function index => functions[index]?
    | _ => none
  (imports ++ exports).foldl (· + ·) 1

def check (m : RawModule) : Option Unit := do
  let functions ← (m.functionTypes.mapM (m.types[·]?))
  let functions := functions.toArray
  demand (m.functions.length == m.codes.length)
  demand (m.dataCount.all (· == m.data.length))
  demand (m.allMemories.length ≤ 1 && m.allTables.length ≤ 1)
  m.allMemories.forM (checkLimits · maxPages)
  m.allTables.forM (checkLimits · (UInt32.size - 1))
  demand (m.allTables.all (·.min ≤ maxTable))
  m.globals.forM fun entry => m.checkConstant entry.type.value entry.value
  demand (allDistinct (m.exports.map (·.name)))
  m.exports.forM fun entry => demand <| match entry.kind with
    | .function index => index < functions.size
    | .table index => index < m.allTables.length
    | .memory index => index < m.allMemories.length
    | .global index => index < m.allGlobals.length
  demand (m.interfaceSize functions < interfaceBound)
  match m.start with
  | some index => do
    let type ← functions[index]?
    demand (type.parameters.isEmpty && type.results.isEmpty)
  | none => pure ()
  m.elements.forM fun segment => do
    demand (0 < m.allTables.length)
    m.checkConstant .i32 segment.place
    demand (segment.functions.all (· < functions.size))
  m.data.forM fun segment => do
    demand (0 < m.allMemories.length)
    m.checkConstant .i32 segment.place
  let types ← m.functions.mapM (m.types[·]?)
  (types.zip m.codes).forM fun (type, code) => m.checkCode functions type code

end RawModule

end Buildbox.Wasm
