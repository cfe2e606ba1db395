import Buildbox.Wasm.Module

/-!
How many slots a call of a function takes. Parameters and local variables have one each. Operands
need none while they are constants or unchanged variables; results of instructions are temporaries
with a slot each. A variable that changes, or a block that starts, moves the operands that refer to
variables to slots that keep them. A constant that its instruction has no place for gets a slot of
its own, once for each value.
-/

set_option autoImplicit false

namespace Buildbox.Wasm

/-- Where an operand is found. -/
inductive Place
  | variable (index : Nat)
  | temporary
  | kept (slot : Nat)
  | constant (type : ValueType) (bits : Slot)
deriving Repr, DecidableEq

namespace Place

def signed : ValueType → Slot → Option Int
  | .i32, bits => some (Int.bmod bits.toNat (1 <<< 32))
  | .i64, bits => some (Int.bmod bits.toNat (1 <<< 64))
  | _, _ => none

/-- Whether a number fits so many bits with its sign. -/
def fits (bits : Nat) (n : Int) : Bool :=
  Int.bmod n (1 <<< bits) == n

def never (_ : ValueType) (_ : Slot) : Bool := false

def always (_ : ValueType) (_ : Slot) : Bool := true

/-- The integers of 16 bits have a place. -/
def short (type : ValueType) (bits : Slot) : Bool :=
  (signed type bits).any (fits 16)

def shortNatural (type : ValueType) (bits : Slot) : Bool :=
  (type == .i32 || type == .i64) && bits < 65536

def half : ValueType → Slot → Bool
  | .i32, _ | .f32, _ => true
  | .i64, bits => (signed .i64 bits).any (fits 32)
  | .f64, bits =>
    !isNan .w64 bits && (Float.ofBits bits).toFloat32.toFloat.toBits == bits

end Place

namespace BinaryOp

def immediate : BinaryOp → (ValueType → Slot → Bool) × (ValueType → Slot → Bool)
  | .int _ op =>
    match op with
    | .div false | .rem false => (Place.shortNatural, Place.shortNatural)
    | .shl | .shr _ | .rotl | .rotr => (Place.short, Place.always)
    | _ => (Place.short, Place.short)
  | .compare _ relation =>
    match relation with
    | .lt false | .gt false | .le false | .ge false => (Place.shortNatural, Place.shortNatural)
    | _ => (Place.short, Place.short)
  | .float _ .copySign => (Place.never, Place.always)
  | .float .. | .compareFloat .. => (Place.never, Place.never)

end BinaryOp

structure Layout.Label where
  /-- how many operands a jump to the block takes along -/
  arity : Nat
  reached : Bool := false
deriving Repr, DecidableEq

/-- The operands between two instructions, and the slots needed so far. -/
structure Layout where
  places : List Place := []
  temporaries : Nat := 0
  /-- the slots that keep former values, until no operand refers to them -/
  kept : List Nat := []
  constants : List Slot := []
  labels : List Layout.Label := []
  reachable : Bool := true
  mostTemporaries : Nat := 0
  mostKept : Nat := 0
  mostBelow : Nat := 0

structure Layout.Scope where
  types : Array FunctionType
  functions : Array FunctionType
  globals : Array Place

namespace Layout

def push (l : Layout) : Place → Layout
  | .temporary =>
    let temporaries := l.temporaries + 1
    { l with
      places := .temporary :: l.places
      temporaries
      mostTemporaries := max l.mostTemporaries temporaries }
  | place => { l with places := place :: l.places }

def pushResults (l : Layout) : Nat → Layout
  | 0 => l
  | count + 1 => (l.push .temporary).pushResults count

def drop (l : Layout) : Layout :=
  match l.places with
  | [] => l
  | .temporary :: places => { l with places, temporaries := l.temporaries - 1 }
  | _ :: places => { l with places }

def dropMany (l : Layout) : Nat → Layout
  | 0 => l
  | count + 1 => l.drop.dropMany count

/-- Lets an instruction take an operand, given which constants it has a place for. -/
def use (l : Layout) (immediate : ValueType → Slot → Bool) : Place → Layout
  | .constant type bits =>
    if immediate type bits || l.constants.contains bits then l
    else { l with constants := bits :: l.constants }
  | _ => l

/-- Lets an instruction take the topmost operands from the stack, given for each, from the top
down, which constants it has a place for. -/
def take (l : Layout) : List (ValueType → Slot → Bool) → Layout
  | [] => l
  | immediate :: rest =>
    match l.places with
    | [] => l
    | place :: _ => (l.drop.use immediate place).take rest

def takeMany (l : Layout) (count : Nat) : Layout :=
  l.take (List.replicate count Place.never)

def copy (l : Layout) (count : Nat) : Layout :=
  let immediate := if count == 1 then Place.half else Place.never
  (l.places.take count).foldl (fun l place => l.use immediate place) l

def reserve (l : Layout) (count : Nat) : Layout :=
  { l with mostTemporaries := max l.mostTemporaries (l.temporaries + count) }

def cut (l : Layout) (height : Nat) : Layout :=
  l.dropMany (l.places.length - height)

def release (l : Layout) : Layout :=
  { l with kept := l.kept.filter fun slot => l.places.contains (.kept slot) }

def keeper (l : Layout) : Nat × Layout :=
  let count := l.kept.length
  let slot := ((List.range count).find? fun slot => !l.kept.contains slot).getD count
  (slot, { l with kept := slot :: l.kept, mostKept := max l.mostKept (count + 1) })

def keep (l : Layout) (index : Nat) : Layout :=
  if l.places.contains (.variable index) then
    let (slot, l) := l.keeper
    { l with places := l.places.map fun place =>
        if place == .variable index then .kept slot else place }
  else l

def keepAll (l : Layout) : Layout :=
  let (places, l) := l.places.foldr (fun place (places, l) =>
    match place with
    | .variable _ =>
      let (slot, l) := l.keeper
      (.kept slot :: places, l)
    | place => (place :: places, l)) (([] : List Place), l)
  { l with places }

def pushConstant (l : Layout) (type : ValueType) : Except Trap Slot → Layout
  | .ok bits => l.push (.constant type bits)
  | .error _ => { l with reachable := false }

def jump (l : Layout) (results depth : Nat) : Layout :=
  match l.labels[depth]? with
  | some label =>
    { l.copy label.arity with labels := l.labels.set depth { label with reached := true } }
  | none => l.copy results

def enter (l : Layout) (type : FunctionType) (arity : Nat) : Nat × Layout :=
  let below := l.places.length - type.parameters.length
  let l := { l with labels := { arity } :: l.labels, mostBelow := max l.mostBelow below }
  (below, l)

def reserveResults (l : Layout) (type : FunctionType) : Layout :=
  let most := (l.dropMany type.parameters.length).reserve type.results.length
  { l with mostTemporaries := most.mostTemporaries }

/-- Leaves a block. Its results become temporaries if anything jumps to its end. -/
def close (l : Layout) (type : FunctionType) (below : Nat) (joined : Bool) : Layout :=
  let reached := joined || (l.labels.head?.map Label.reached).getD false
  let l := { l with labels := l.labels.drop 1 }
  if reached then
    let l := if l.reachable then l.copy type.results.length else l
    { (l.cut below).pushResults type.results.length with reachable := true }
  else l

mutual

def instr (scope : Scope) (results : Nat) (l : Layout) : Instr → Layout
  | .unreachable => { l with reachable := false }
  | .nop => l
  | .block type body =>
    let (below, l) := (l.keepAll.reserveResults type).enter type type.results.length
    (sequence scope results l body).close type below false
  | .loop type body =>
    let count := type.parameters.length
    let l := ((l.keepAll.copy count).dropMany count).pushResults count
    let (_, l) := l.enter type count
    let l := sequence scope results l body
    { l with labels := l.labels.drop 1 }
  | .branch type onTrue onFalse =>
    match l.places with
    | .constant _ condition :: _ =>
      let (below, l) := (l.drop.keepAll.reserveResults type).enter type type.results.length
      if condition.toUInt32 != 0 then (sequence scope results l onTrue).close type below false
      else (sequence scope results l onFalse).close type below false
    | _ =>
      let (below, l) := (l.drop.keepAll.reserveResults type).enter type type.results.length
      let parameters := l.places.take type.parameters.length
      let l := sequence scope results l onTrue
      let joined := l.reachable
      let l := if joined then l.copy type.results.length else l
      let l := parameters.foldr (fun place l => l.push place) (l.cut below)
      let l := sequence scope results { l with reachable := true } onFalse
      l.close type below (joined || l.reachable)
  | .br depth => { l.jump results depth with reachable := false }
  | .brIf depth =>
    match l.places with
    | .constant _ condition :: _ =>
      if condition.toUInt32 == 0 then l.drop
      else { l.drop.jump results depth with reachable := false }
    | _ => l.drop.jump results depth
  | .brTable depths default =>
    match l.places with
    | .constant _ index :: _ =>
      let depth := depths.getD index.toUInt32.toNat default
      { l.drop.jump results depth with reachable := false }
    | _ =>
      let l := depths.foldl (fun l depth => l.jump results depth) (l.drop.jump results default)
      { l with reachable := false }
  | .leave => { l.copy results with reachable := false }
  | .call function =>
    match scope.functions[function]? with
    | some type => (l.takeMany type.parameters.length).pushResults type.results.length
    | none => l
  | .callIndirect type =>
    let l := l.take [Place.shortNatural]
    match scope.types[type]? with
    | some type => (l.takeMany type.parameters.length).pushResults type.results.length
    | none => l
  | .drop => l.drop
  | .select =>
    match l.places with
    | .constant _ condition :: second :: first :: _ =>
      (l.dropMany 3).push (if condition != 0 then first else second)
    | _ => (l.take [Place.never, Place.half, Place.half]).push .temporary
  | .localGet index => l.push (.variable index)
  | .localSet index =>
    if l.places.head? == some (.variable index) then l.release.drop
    else (l.release.take [Place.half]).keep index
  | .localTee index =>
    match l.places with
    | .constant type bits :: _ =>
      ((l.release.take [Place.half]).keep index).push (.constant type bits)
    | .variable source :: _ =>
      if source == index then l.release
      else ((l.release.drop).keep index).push (.variable index)
    | _ => ((l.release.drop).keep index).push (.variable index)
  | .globalGet index => l.push (scope.globals.getD index .temporary)
  | .globalSet _ => l.take [Place.short]
  | .load access =>
    match l.places with
    | .constant _ base :: _ =>
      if base.toUInt32.toNat + access.offset < UInt32.size then l.drop.push .temporary
      else { l with reachable := false }
    | _ => l.drop.push .temporary
  | .store access =>
    let truncated := access.bytes < 4 || access.type == .i64 && access.bytes < 8
    l.take [if truncated then Place.always else Place.short, Place.always]
  | .memorySize => l.push .temporary
  | .memoryGrow => (l.take [Place.shortNatural]).push .temporary
  | .memoryCopy =>
    l.take [Place.shortNatural, Place.shortNatural, Place.shortNatural]
  | .memoryFill => l.take [Place.shortNatural, Place.always, Place.shortNatural]
  | .const type bits => l.push (.constant type bits)
  | .unary op =>
    match l.places with
    | .constant _ x :: _ => l.drop.pushConstant op.result (op.eval x)
    | _ => l.drop.push .temporary
  | .binary op =>
    match l.places with
    | .constant _ y :: .constant _ x :: _ => (l.dropMany 2).pushConstant op.result (op.eval x y)
    | _ =>
      let (left, right) := op.immediate
      (l.take [right, left]).push .temporary

def sequence (scope : Scope) (results : Nat) (l : Layout) : List Instr → Layout
  | [] => l
  | first :: rest =>
    if l.reachable then sequence scope results (instr scope results l first) rest else l

end

/-- The largest number of slots that instructions can name, the constants apart. -/
def maxNamed : Nat := 32766

def maxBelow : Nat := 65535

/-- The number of slots that a call of a function takes; nothing when they are too many. -/
def size? (scope : Scope) (type : FunctionType) (code : Code) : Option Nat :=
  let locals := type.parameters.length + code.locals.length
  let results := type.results.length
  let l := sequence scope results {} code.body
  let l := if l.reachable then l.copy results else l
  let named := locals + l.mostTemporaries + l.mostKept
  if locals < maxNamed && named ≤ maxNamed && l.mostBelow ≤ maxBelow then
    some (named + l.constants.length)
  else none

end Layout

end Buildbox.Wasm
