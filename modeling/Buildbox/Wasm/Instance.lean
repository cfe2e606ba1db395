import Buildbox.Memory
import Buildbox.Wasm.Layout
import Buildbox.Wasm.Validation

/-!
Valid modules with their functions in one index space, and instances of them: a memory, globals and
a table of functions, set up from the module's segments.
-/

set_option autoImplicit false

namespace Buildbox.Wasm

inductive Function
  | imported (index : Nat) (type : FunctionType)
  /-- a function of the module's own; a call takes `size` slots -/
  | own (type : FunctionType) (locals size : Nat) (body : List Instr)

def Function.type : Function → FunctionType
  | .imported _ type => type
  | .own type _ _ _ => type

structure Module where
  raw : RawModule
  functions : Array Function
  types : Array FunctionType

namespace Module

def importedFunctions (types : List FunctionType) : Nat → List ImportEntry → List Function
  | _, [] => []
  | index, entry :: rest =>
    match entry.kind with
    | .function type =>
      .imported index (types[type]?.getD ⟨[], []⟩) :: importedFunctions types (index + 1) rest
    | _ => importedFunctions types (index + 1) rest

def globalPlace (entry : GlobalEntry) : Place :=
  match entry.type.mutable, entry.value with
  | false, .value type bits => .constant type bits
  | _, _ => .temporary

def layoutScope (m : RawModule) (functions : Array FunctionType) : Layout.Scope where
  types := m.types.toArray
  functions := functions
  globals := (m.importedGlobals.map (fun _ => Place.temporary) ++
    m.globals.map globalPlace).toArray

/-- The functions that a module defines, if none of them needs too many slots. -/
def ownFunctions? (m : RawModule) (scope : Layout.Scope) : Option (List Function) :=
  (m.functions.zip m.codes).mapM fun (index, code) => do
    let type ← m.types[index]?
    let size ← Layout.size? scope type code
    return .own type code.locals.length size code.body

def ofRaw? (raw : RawModule) : Option Module := do
  raw.check
  let functions ← raw.functionTypes.mapM (raw.types[·]?)
  let own ← ownFunctions? raw (layoutScope raw functions.toArray)
  return {
    raw
    functions := (importedFunctions raw.types 0 raw.imports ++ own).toArray
    types := raw.types.toArray }

/-- The imports of a module as the host sees them. -/
def imports (m : Module) : List Import :=
  m.raw.imports.map fun entry =>
    let type := match entry.kind with
      | .function type => .function (m.types[type]?.getD ⟨[], []⟩)
      | .table _ => .table
      | .memory _ => .memory
      | .global _ => .global
    ⟨entry.space, entry.name, type⟩

def exports (m : Module) : List Export :=
  m.raw.exports.map fun entry =>
    let type := match entry.kind with
      | .function index => .function ((m.functions[index]?.map Function.type).getD ⟨[], []⟩)
      | .table _ => .table
      | .memory _ => .memory
      | .global _ => .global
    ⟨entry.name, type⟩

def exported? (m : Module) (name : String) : Option Function :=
  m.raw.exports.findSome? fun entry =>
    match entry.kind with
    | .function index => if entry.name == name then m.functions[index]? else none
    | _ => none

end Module

/-- The size of a page of memory. -/
def pageSize : Nat := 65536

def zeroPage : ByteArray :=
  ⟨Array.replicate pageSize 0⟩

def addPages (bytes : ByteArray) : Nat → ByteArray
  | 0 => bytes
  | pages + 1 => addPages (bytes ++ zeroPage) pages

/-- What changes while an instance runs. -/
structure Store where
  memory : ByteArray
  maxPages : Nat
  globals : Array Slot
  table : Array (Option Nat)

/-- An instance between two calls. -/
structure Instance where
  module : Module
  store : Store

namespace Store

def constant : Constant → Slot
  | .value _ bits => bits
  | .global _ => 0

/-- The store of a module before its segments are put in place. -/
def empty (m : RawModule) : Store :=
  let limits := m.allMemories.headD ⟨0, some 0⟩
  { memory := addPages (ByteArray.emptyWithCapacity (limits.min * pageSize)) limits.min
    maxPages := limits.max.getD RawModule.maxPages
    globals := (m.globals.map fun entry => constant entry.value).toArray
    table := Array.replicate (m.allTables.headD ⟨0, none⟩).min none }

def putFunctions (table : Array (Option Nat)) : Nat → List Nat → Array (Option Nat)
  | _, [] => table
  | index, function :: rest =>
    putFunctions (table.setIfInBounds index (some function)) (index + 1) rest

def putElements (store : Store) (segment : ElementSegment) : Except Trap Store :=
  let place := (constant segment.place).toUInt32.toNat
  if place + segment.functions.length > store.table.size then .error .segmentOutOfBounds
  else .ok { store with table := putFunctions store.table place segment.functions }

def putData (store : Store) (segment : DataSegment) : Except Trap Store :=
  let place := (constant segment.place).toUInt32.toNat
  if place + segment.bytes.length > store.memory.size then .error .segmentOutOfBounds
  else
    .ok { store with
      memory := segment.bytes.toByteArray.copySlice 0 store.memory place segment.bytes.length }

def initial (m : RawModule) : Except Trap Store := do
  let store ← m.elements.foldlM putElements (empty m)
  m.data.foldlM putData store

def loadBytes (memory : ByteArray) (address : Nat) : Nat → Slot
  | 0 => 0
  | count + 1 => (memory.get! address).toUInt64 ||| (loadBytes memory (address + 1) count <<< 8)

def storeBytes (memory : ByteArray) (address : Nat) (value : Slot) : Nat → ByteArray
  | 0 => memory
  | count + 1 =>
    storeBytes (memory.set! address value.toUInt8) (address + 1) (value >>> 8) count

def fillBytes (memory : ByteArray) (address : Nat) (byte : UInt8) : Nat → ByteArray
  | 0 => memory
  | count + 1 => fillBytes (memory.set! address byte) (address + 1) byte count

def load (memory : ByteArray) (access : Access) (base : Slot) : Except Trap Slot :=
  let address := base.toUInt32.toNat + access.offset
  if address + access.bytes > memory.size then .error .memoryOutOfBounds
  else
    let bits := loadBytes memory address access.bytes
    if access.signed then
      .ok (extendLow (if access.type == .i32 then .w32 else .w64) (8 * access.bytes) bits)
    else .ok bits

def copy (memory : ByteArray) (target source count : Slot) : Except Trap ByteArray :=
  let target := target.toUInt32.toNat
  let source := source.toUInt32.toNat
  let count := count.toUInt32.toNat
  if source + count > memory.size || target + count > memory.size then .error .memoryOutOfBounds
  else .ok (memory.copySlice source memory target count)

def fill (memory : ByteArray) (target byte count : Slot) : Except Trap ByteArray :=
  let target := target.toUInt32.toNat
  let count := count.toUInt32.toNat
  if target + count > memory.size then .error .memoryOutOfBounds
  else .ok (fillBytes memory target byte.toUInt8 count)

/-- Grows the memory; gives its former number of pages, or all ones when it cannot grow so far. -/
def grow (store : Store) (pages : Slot) : Slot × Store :=
  let before := store.memory.size / pageSize
  let pages := pages.toUInt32.toNat
  if before + pages ≤ store.maxPages then
    (before.toUInt64, { store with memory := addPages store.memory pages })
  else (0xFFFFFFFF, store)

end Store

end Buildbox.Wasm
