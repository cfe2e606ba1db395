import Buildbox.Bytes
import Buildbox.Wasm.Numeric

/-!
Modules of the guest machine: their code as a tree of structured instructions, and their tables of
types, functions, exports and initial contents.
-/

set_option autoImplicit false

namespace Buildbox.Wasm

/-- The part of a slot that a load or a store moves. -/
structure Access where
  type : ValueType
  bytes : Nat
  signed : Bool
  offset : Nat
deriving Repr, DecidableEq

/-- One instruction; the bodies of blocks are part of theirs. -/
inductive Instr
  | unreachable
  | nop
  | block (type : FunctionType) (body : List Instr)
  | loop (type : FunctionType) (body : List Instr)
  | branch (type : FunctionType) (onTrue onFalse : List Instr)
  | br (depth : Nat)
  | brIf (depth : Nat)
  | brTable (depths : List Nat) (default : Nat)
  | leave
  | call (function : Nat)
  | callIndirect (type : Nat)
  | drop
  | select
  | localGet (index : Nat)
  | localSet (index : Nat)
  | localTee (index : Nat)
  | globalGet (index : Nat)
  | globalSet (index : Nat)
  | load (access : Access)
  | store (access : Access)
  | memorySize
  | memoryGrow
  | memoryCopy
  | memoryFill
  | const (type : ValueType) (bits : Slot)
  | unary (op : UnaryOp)
  | binary (op : BinaryOp)

/-- The size of a memory or a table, and its bound if there is one. -/
structure Limits where
  min : Nat
  max : Option Nat
deriving Repr, DecidableEq

structure GlobalType where
  value : ValueType
  mutable : Bool
deriving Repr, DecidableEq

/-- The value that a global or a segment's place starts from. -/
inductive Constant
  | value (type : ValueType) (bits : Slot)
  | global (index : Nat)
deriving Repr, DecidableEq

inductive ImportKind
  | function (type : Nat)
  | table (limits : Limits)
  | memory (limits : Limits)
  | global (type : GlobalType)
deriving Repr, DecidableEq

structure ImportEntry where
  space : String
  name : String
  kind : ImportKind

inductive ExportKind
  | function (index : Nat)
  | table (index : Nat)
  | memory (index : Nat)
  | global (index : Nat)
deriving Repr, DecidableEq

structure ExportEntry where
  name : String
  kind : ExportKind

structure GlobalEntry where
  type : GlobalType
  value : Constant

structure ElementSegment where
  place : Constant
  functions : List Nat

structure DataSegment where
  place : Constant
  bytes : Bytes

/-- The code of a function: its local variables beside the parameters, and its body. -/
structure Code where
  locals : List ValueType
  body : List Instr

structure RawModule where
  types : List FunctionType := []
  imports : List ImportEntry := []
  functions : List Nat := []
  tables : List Limits := []
  memories : List Limits := []
  globals : List GlobalEntry := []
  exports : List ExportEntry := []
  start : Option Nat := none
  elements : List ElementSegment := []
  dataCount : Option Nat := none
  codes : List Code := []
  data : List DataSegment := []

namespace RawModule

def functionTypes (m : RawModule) : List Nat :=
  m.imports.filterMap (fun entry => match entry.kind with
    | .function type => some type
    | _ => none) ++ m.functions

def allTables (m : RawModule) : List Limits :=
  m.imports.filterMap (fun entry => match entry.kind with
    | .table limits => some limits
    | _ => none) ++ m.tables

def allMemories (m : RawModule) : List Limits :=
  m.imports.filterMap (fun entry => match entry.kind with
    | .memory limits => some limits
    | _ => none) ++ m.memories

def importedGlobals (m : RawModule) : List GlobalType :=
  m.imports.filterMap fun entry => match entry.kind with
    | .global type => some type
    | _ => none

def allGlobals (m : RawModule) : List GlobalType :=
  m.importedGlobals ++ m.globals.map (·.type)

end RawModule

end Buildbox.Wasm
