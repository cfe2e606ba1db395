import Buildbox.Engine.Activity
import Buildbox.Wasm.Decoder
import Buildbox.Wasm.Instance

/-!
The guest machine: a stack of frames, each with its operands, its enclosing blocks and the code
ahead of it. `Machine.step` executes one instruction; `Machine.run` goes on to the next call of the
host or to the end.
-/

set_option autoImplicit false

namespace Buildbox.Wasm

structure Label where
  /-- how many operands a jump to the block takes along -/
  arity : Nat
  base : List Slot
  target : List Instr
  rest : List Instr

structure Frame where
  code : List Instr
  stack : List Slot
  labels : List Label
  locals : Array Slot
  arity : Nat
  size : Nat

structure Usage where
  frames : Nat := 0
  slots : Nat := 0
deriving Repr, DecidableEq

namespace Usage

def maxFrames : Nat := 1024

def maxSlots : Nat := 131072

def enter? (usage : Usage) (size : Nat) : Option Usage :=
  if usage.frames < maxFrames && usage.slots + size ≤ maxSlots then
    some ⟨usage.frames + 1, usage.slots + size⟩
  else none

def leave (usage : Usage) (size : Nat) : Usage :=
  ⟨usage.frames - 1, usage.slots - size⟩

end Usage

structure Machine where
  frame : Frame
  callers : List Frame
  usage : Usage
  store : Store

/-- What one instruction leads to. -/
inductive Step
  | next (machine : Machine)
  | returned (store : Store) (results : List Slot)
  | trapped (store : Store) (trap : Trap)
  /-- a call of the host; the machine goes on when the results are on its stack -/
  | calling (machine : Machine) (callee : Nat) (type : FunctionType) (arguments : List Slot)

namespace Machine

def enter (type : FunctionType) (locals size : Nat) (body : List Instr) (arguments : List Slot) :
    Frame where
  code := body
  stack := []
  labels := []
  locals := (arguments.reverse ++ List.replicate locals 0).toArray
  arity := type.results.length
  size := size

def leave (frame : Frame) (callers : List Frame) (usage : Usage) (store : Store) : Step :=
  let results := frame.stack.take frame.arity
  match callers with
  | [] => .returned store results.reverse
  | caller :: callers =>
    .next ⟨{ caller with stack := results ++ caller.stack }, callers, usage.leave frame.size, store⟩

def jump (frame : Frame) (depth : Nat) (callers : List Frame) (usage : Usage) (store : Store) :
    Step :=
  match frame.labels.drop depth with
  | [] => leave frame callers usage store
  | label :: labels =>
    .next ⟨{ frame with
      code := label.target
      stack := frame.stack.take label.arity ++ label.base
      labels }, callers, usage, store⟩

/-- Calls a function with the operands on top of the stack. A call of the host needs room for its
arguments and its results. -/
def invoke (function : Function) (frame : Frame) (callers : List Frame) (usage : Usage)
    (store : Store) : Step :=
  match function with
  | .own type locals size body =>
    match usage.enter? size with
    | none => .trapped store .stackExhausted
    | some usage =>
      let count := type.parameters.length
      let callee := enter type locals size body (frame.stack.take count)
      .next ⟨callee, { frame with stack := frame.stack.drop count } :: callers, usage, store⟩
  | .imported index type =>
    let count := type.parameters.length
    if Usage.maxSlots < usage.slots + max count type.results.length then
      .trapped store .stackExhausted
    else
      let arguments := (frame.stack.take count).reverse
      .calling ⟨{ frame with stack := frame.stack.drop count }, callers, usage, store⟩
        index type arguments

def holds (condition : Slot) : Bool :=
  condition.toUInt32 != 0

/-- Executes one instruction. A stack that does not fit the instruction, which no valid module
brings about, counts as unreachable. A selection looks at the whole slot of its condition. -/
def step (module : Module) : Machine → Step
  | ⟨⟨code, stack, labels, locals, arity, size⟩, callers, usage, store⟩ =>
    match code with
    | [] =>
      match labels with
      | [] => leave ⟨[], stack, [], locals, arity, size⟩ callers usage store
      | label :: labels =>
        .next ⟨⟨label.rest, stack, labels, locals, arity, size⟩, callers, usage, store⟩
    | instr :: code =>
      let go (stack : List Slot) : Step :=
        .next ⟨⟨code, stack, labels, locals, arity, size⟩, callers, usage, store⟩
      match instr, stack with
      | .unreachable, _ => .trapped store .unreachable
      | .nop, stack => go stack
      | .block type body, stack =>
        let label : Label :=
          ⟨type.results.length, stack.drop type.parameters.length, code, code⟩
        .next ⟨⟨body, stack, label :: labels, locals, arity, size⟩, callers, usage, store⟩
      | .loop type body, stack =>
        let label : Label :=
          ⟨type.parameters.length, stack.drop type.parameters.length,
            .loop type body :: code, code⟩
        .next ⟨⟨body, stack, label :: labels, locals, arity, size⟩, callers, usage, store⟩
      | .branch type onTrue onFalse, condition :: stack =>
        let label : Label :=
          ⟨type.results.length, stack.drop type.parameters.length, code, code⟩
        let body := if holds condition then onTrue else onFalse
        .next ⟨⟨body, stack, label :: labels, locals, arity, size⟩, callers, usage, store⟩
      | .br target, stack =>
        jump ⟨code, stack, labels, locals, arity, size⟩ target callers usage store
      | .brIf target, condition :: stack =>
        if holds condition then
          jump ⟨code, stack, labels, locals, arity, size⟩ target callers usage store
        else go stack
      | .brTable targets default, index :: stack =>
        jump ⟨code, stack, labels, locals, arity, size⟩ (targets.getD index.toUInt32.toNat default)
          callers usage store
      | .leave, stack => leave ⟨code, stack, labels, locals, arity, size⟩ callers usage store
      | .call index, stack =>
        match module.functions[index]? with
        | some function =>
          invoke function ⟨code, stack, labels, locals, arity, size⟩ callers usage store
        | none => .trapped store .unreachable
      | .callIndirect type, index :: stack =>
        match store.table[index.toUInt32.toNat]? with
        | none => .trapped store .tableOutOfBounds
        | some none => .trapped store .nullEntry
        | some (some function) =>
          match module.functions[function]? with
          | some function =>
            if some function.type == module.types[type]? then
              invoke function ⟨code, stack, labels, locals, arity, size⟩ callers usage store
            else .trapped store .typeMismatch
          | none => .trapped store .unreachable
      | .drop, _ :: stack => go stack
      | .select, condition :: second :: first :: stack =>
        go ((if condition != 0 then first else second) :: stack)
      | .localGet index, stack => go (locals.getD index 0 :: stack)
      | .localSet index, value :: stack =>
        .next ⟨⟨code, stack, labels, locals.setIfInBounds index value, arity, size⟩,
          callers, usage, store⟩
      | .localTee index, value :: stack =>
        .next ⟨⟨code, value :: stack, labels, locals.setIfInBounds index value, arity, size⟩,
          callers, usage, store⟩
      | .globalGet index, stack => go (store.globals.getD index 0 :: stack)
      | .globalSet index, value :: stack =>
        let ⟨memory, maxPages, globals, table⟩ := store
        .next ⟨⟨code, stack, labels, locals, arity, size⟩, callers, usage,
          ⟨memory, maxPages, globals.setIfInBounds index value, table⟩⟩
      | .load access, base :: stack =>
        match Store.load store.memory access base with
        | .ok value => go (value :: stack)
        | .error trap => .trapped store trap
      | .store access, value :: base :: stack =>
        let address := base.toUInt32.toNat + access.offset
        if address + access.bytes > store.memory.size then .trapped store .memoryOutOfBounds
        else
          let ⟨memory, maxPages, globals, table⟩ := store
          .next ⟨⟨code, stack, labels, locals, arity, size⟩, callers, usage,
            ⟨Store.storeBytes memory address value access.bytes, maxPages, globals, table⟩⟩
      | .memorySize, stack => go ((store.memory.size / pageSize).toUInt64 :: stack)
      | .memoryGrow, pages :: stack =>
        let (before, store) := store.grow pages
        .next ⟨⟨code, before :: stack, labels, locals, arity, size⟩, callers, usage, store⟩
      | .memoryCopy, count :: source :: target :: stack =>
        match Store.copy store.memory target source count with
        | .ok memory =>
          .next ⟨⟨code, stack, labels, locals, arity, size⟩, callers, usage, { store with memory }⟩
        | .error trap => .trapped store trap
      | .memoryFill, count :: byte :: target :: stack =>
        match Store.fill store.memory target byte count with
        | .ok memory =>
          .next ⟨⟨code, stack, labels, locals, arity, size⟩, callers, usage, { store with memory }⟩
        | .error trap => .trapped store trap
      | .const _ bits, stack => go (bits :: stack)
      | .unary op, x :: stack =>
        match op.eval x with
        | .ok value => go (value :: stack)
        | .error trap => .trapped store trap
      | .binary op, y :: x :: stack =>
        match op.eval x y with
        | .ok value => go (value :: stack)
        | .error trap => .trapped store trap
      | _, _ => .trapped store .unreachable

def values (types : List ValueType) (slots : List Slot) : List Value :=
  List.zipWith (fun type slot => type.ofBits slot) types slots

def slots (values : List Value) : List Slot :=
  values.map Value.bits

/-- Runs the machine on a module. The results, of these types, are handed out when the first frame
is left; a call of the host hands out the instance as it is then. -/
def run (module : Module) (results : List ValueType) : (fuel : Nat) → Machine → Activity Instance
  | 0, machine => .trapped ⟨module, machine.store⟩ .stepsExhausted
  | fuel + 1, machine =>
    match machine.step module with
    | .next machine => run module results fuel machine
    | .returned store slots => .returned ⟨module, store⟩ (values results slots)
    | .trapped store trap => .trapped ⟨module, store⟩ trap
    | .calling ⟨frame, callers, usage, store⟩ callee type arguments =>
      .calling ⟨module, store⟩ callee (values type.parameters arguments) false
        fun inst answers =>
          let pushed := (slots answers).reverse
          run module results fuel
            ⟨{ frame with stack := pushed ++ frame.stack }, callers, usage, inst.store⟩

/-- The number of instructions that a call may take: more than any machine gets to execute. -/
def fuel : Nat := 1 <<< 60

def call (inst : Instance) (function : Function) (arguments : List Value) : Activity Instance :=
  match function with
  | .imported index _ =>
    .calling inst index arguments true fun inst answers => .returned inst answers
  | .own type locals size body =>
    match ({ slots := type.results.length } : Usage).enter? size with
    | none => .trapped inst .stackExhausted
    | some usage =>
      let frame := enter type locals size body (slots arguments).reverse
      run inst.module type.results fuel ⟨frame, [], usage, inst.store⟩

end Machine

def Module.start (module : Module) : Activity Instance :=
  match Store.initial module.raw with
  | .error trap => .trapped ⟨module, Store.empty module.raw⟩ trap
  | .ok store =>
    let inst : Instance := ⟨module, store⟩
    match module.raw.start.bind (module.functions[·]?) with
    | some function => Machine.call inst function []
    | none => .returned inst []

def engine : Engine where
  Module := Module
  Instance := Instance
  load binary := do
    let (raw, rest) ← Decoder.module.run binary
    if rest.isEmpty then Module.ofRaw? raw else none
  imports := Module.imports
  exports := Module.exports
  start := Module.start
  memory inst :=
    if inst.module.raw.exports.any (fun entry => entry.name == "memory" && entry.kind == .memory 0)
    then some ⟨inst.store.memory⟩
    else none
  setMemory inst memory := { inst with store := { inst.store with memory := memory.bytes } }
  call inst name arguments :=
    match inst.module.exported? name with
    | some function => Machine.call inst function arguments
    | none => .trapped inst .unreachable

end Buildbox.Wasm
