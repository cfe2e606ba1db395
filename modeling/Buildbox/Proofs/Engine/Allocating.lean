import Buildbox.Proofs.Filesystem.NodeTable

/-!
A guest that keeps files. Its memory begins with the buffer for paths and ends with the space of the
newest file; it grows by what each file needs, and a node that words do not suffice for is refused.
-/

set_option autoImplicit false

namespace Buildbox

open Filesystem (Node)
open Filesystem.Node (spaces newest)

/-- What the guest keeps: its memory, and its nodes, newest first. -/
structure Allocator where
  memory : Memory
  nodes : List Node

namespace Memory

def grown (memory : Memory) (count : Nat) : Memory :=
  .ofBytes (memory.toBytes ++ Bytes.zeros count)

variable {memory : Memory} {count : Nat}

theorem toBytes_grown : (memory.grown count).toBytes = memory.toBytes ++ Bytes.zeros count := by
  rw [grown, toBytes, ofBytes, List.data_toByteArray]

theorem size_grown : (memory.grown count).size = memory.size + count := by
  rw [← length_toBytes, toBytes_grown, List.length_append, length_toBytes, Bytes.zeros,
    List.length_replicate]

theorem slice_grown {address length : Nat} (inside : address + length ≤ memory.size) :
    (memory.grown count).slice address length = memory.slice address length := by
  refine slice_congr fun position _ before_end => ?_
  rw [toBytes_grown, List.getElem?_append_left (by rw [length_toBytes]; omega)]

end Memory

namespace Allocator

/-- The length of the buffer for paths, which begins at address zero. -/
def pathRoom : Nat := 16

def empty : Allocator :=
  ⟨.ofBytes (Bytes.zeros pathRoom), []⟩

def staged (inst : Allocator) (length : UInt32) : Bytes :=
  inst.memory.slice 0 length.toNat

def spaceOf (inst : Allocator) (handle : UInt32) : Buffer :=
  ((inst.nodes.find? fun node => node.handle == handle).bind Node.data).getD ⟨0, 0⟩

/-- The node that is made for a path; a file gets a space behind all others. -/
def nodeFor (inst : Allocator) (path : Bytes) (size : Option UInt32) : Node :=
  ⟨(inst.nodes.length + 1).toUInt32, path, size.map fun size => ⟨inst.memory.size.toUInt32, size⟩⟩

/-- Makes a node for the staged path, where words suffice. -/
def adding (inst : Allocator) (length : UInt32) (size : Option UInt32) : Activity Allocator :=
  let room := (size.map UInt32.toNat).getD 0
  if inst.memory.size + room < UInt32.size ∧ inst.nodes.length + 1 < UInt32.size then
    let node := inst.nodeFor (inst.staged length) size
    .returned ⟨inst.memory.grown room, node :: inst.nodes⟩ [.i32 node.handle]
  else .trapped inst .unreachable

def call (inst : Allocator) (name : String) (arguments : List Value) : Activity Allocator :=
  match name, arguments with
  | "init", [] => .returned inst []
  | "GetPathBuf", [] => .returned inst [.i32 0]
  | "FindNode", [.i32 length] => .returned inst [.i32 (newest inst.nodes (inst.staged length))]
  | "AddFileNode", [.i32 length, .i32 size] => inst.adding length (some size)
  | "AddDirectoryNode", [.i32 length] => inst.adding length none
  | "GetFileNodeAddress", [.i32 handle] => .returned inst [.i32 (inst.spaceOf handle).address]
  | "GetFileNodeSize", [.i32 handle] => .returned inst [.i32 (inst.spaceOf handle).length]
  | _, _ => .trapped inst .unreachable

end Allocator

def Engine.allocating : Engine where
  Module := Unit
  Instance := Allocator
  load _ := none
  imports _ := []
  exports _ := ⟨memoryExport, .memory⟩ :: Filesystem.required.map fun (name, type) =>
    ⟨name, .function type⟩
  start _ := .returned .empty []
  memory inst := some inst.memory
  setMemory inst memory := { inst with memory }
  call := Allocator.call

def Filesystem.unused : Filesystem Engine.allocating :=
  ⟨(), .empty, {}⟩

namespace Allocator

/-- The spaces lie behind the buffer and apart from each other, and each handle is that of one
node. -/
structure Sound (inst : Allocator) : Prop where
  room : pathRoom ≤ inst.memory.size
  small : inst.memory.size < UInt32.size
  behind : ∀ space ∈ spaces inst.nodes, pathRoom ≤ space.address.toNat
  inside : ∀ space ∈ spaces inst.nodes, space.Inside inst.memory
  disjoint : (spaces inst.nodes).Pairwise Buffer.Disjoint
  named : ∀ node ∈ inst.nodes, node.handle ≠ 0
  bounded : ∀ node ∈ inst.nodes, node.handle.toNat ≤ inst.nodes.length
  distinct : (inst.nodes.map Node.handle).Nodup

theorem sound_empty : empty.Sound where
  room := by decide
  small := by decide
  behind := nofun
  inside := nofun
  disjoint := .nil
  named := nofun
  bounded := nofun
  distinct := .nil

/-- The guest is sound and has these nodes, in this memory, whose front is the buffer. -/
def Has (inst : Allocator) (memory : Memory) (buffer : UInt32) (nodes : List Node) : Prop :=
  inst = ⟨memory, nodes⟩ ∧ buffer = 0 ∧ inst.Sound

variable {inst : Allocator}

theorem Sound.placed (sound : inst.Sound) :
    Filesystem.Placed pathRoom inst.memory 0 inst.nodes where
  room := by
    rw [UInt32.toNat_zero, Nat.zero_add]
    exact sound.room
  inside := sound.inside
  apart space among position covers within := by
    have behind := sound.behind space among
    have from_start := covers.1
    have before_end := within.2
    rw [UInt32.toNat_zero] at before_end
    omega
  disjoint := sound.disjoint
  named := sound.named

theorem find?_handle {nodes : List Node} (distinct : (nodes.map Node.handle).Nodup) {node : Node}
    (among : node ∈ nodes) : nodes.find? (·.handle == node.handle) = some node := by
  induction nodes with
  | nil => cases among
  | cons first rest ih =>
    obtain ⟨fresh, distinct⟩ := List.nodup_cons.mp distinct
    rcases List.mem_cons.mp among with rfl | among
    · exact List.find?_cons_of_pos (beq_self_eq_true _)
    · have other : first.handle ≠ node.handle :=
        fun same => fresh (same ▸ List.mem_map_of_mem among)
      rw [List.find?_cons_of_neg (by simpa using other), ih distinct among]

theorem Sound.spaceOf_eq (sound : inst.Sound) {node : Node} {space : Buffer}
    (among : node ∈ inst.nodes) (file : node.data = some space) :
    inst.spaceOf node.handle = space := by
  rw [spaceOf, find?_handle sound.distinct among, Option.bind_some, file, Option.getD_some]

theorem Sound.replaced (sound : inst.Sound) {put : Memory} (size : put.size = inst.memory.size) :
    Sound ⟨put, inst.nodes⟩ where
  room := by rw [size]; exact sound.room
  small := by rw [size]; exact sound.small
  behind := sound.behind
  inside space among := by
    rw [Buffer.Inside, size]
    exact sound.inside space among
  disjoint := sound.disjoint
  named := sound.named
  bounded := sound.bounded
  distinct := sound.distinct

section Added

variable {size : Option UInt32} {path : Bytes}

theorem toNat_handle (handles : inst.nodes.length + 1 < UInt32.size) :
    (inst.nodeFor path size).handle.toNat = inst.nodes.length + 1 :=
  UInt32.toNat_ofNat_of_lt' handles

theorem Sound.fresh (sound : inst.Sound) (handles : inst.nodes.length + 1 < UInt32.size) :
    (inst.nodeFor path size).handle ∉ inst.nodes.map Node.handle := by
  intro among
  obtain ⟨node, among, same⟩ := List.mem_map.mp among
  have bounded := sound.bounded node among
  rw [same, toNat_handle handles] at bounded
  omega

theorem Sound.mem_spaces_added (sound : inst.Sound) {space : Buffer}
    (among : space ∈ spaces (inst.nodeFor path size :: inst.nodes)) :
    (space.address.toNat = inst.memory.size ∧
      space.length.toNat = (size.map UInt32.toNat).getD 0) ∨ space ∈ spaces inst.nodes := by
  cases size with
  | none => exact .inr among
  | some size =>
    rcases List.mem_cons.mp among with rfl | among
    · exact .inl ⟨UInt32.toNat_ofNat_of_lt' sound.small, rfl⟩
    · exact .inr among

theorem Sound.disjoint_added (sound : inst.Sound) :
    (spaces (inst.nodeFor path size :: inst.nodes)).Pairwise Buffer.Disjoint := by
  cases size with
  | none => exact sound.disjoint
  | some size =>
    refine .cons (fun space among position ⟨new, old⟩ => ?_) sound.disjoint
    have end_eq : inst.memory.size.toUInt32.toNat = inst.memory.size :=
      UInt32.toNat_ofNat_of_lt' sound.small
    have inside : space.address.toNat + space.length.toNat ≤ inst.memory.size :=
      sound.inside space among
    have from_end : inst.memory.size.toUInt32.toNat ≤ position := new.1
    have before_end := old.2
    omega

theorem Sound.added (sound : inst.Sound)
    (room : inst.memory.size + (size.map UInt32.toNat).getD 0 < UInt32.size)
    (handles : inst.nodes.length + 1 < UInt32.size) (path : Bytes) :
    Sound ⟨inst.memory.grown ((size.map UInt32.toNat).getD 0),
      inst.nodeFor path size :: inst.nodes⟩ where
  room := by
    rw [Memory.size_grown]
    exact Nat.le_add_right_of_le sound.room
  small := by
    rw [Memory.size_grown]
    exact room
  behind space among := by
    have room_before := sound.room
    rcases sound.mem_spaces_added among with ⟨at_end, -⟩ | among
    · omega
    · exact sound.behind space among
  inside space among := by
    rw [Buffer.Inside, Memory.size_grown]
    rcases sound.mem_spaces_added among with ⟨at_end, length_eq⟩ | among
    · omega
    · exact Nat.le_add_right_of_le (sound.inside space among)
  disjoint := sound.disjoint_added
  named := by
    refine List.forall_mem_cons.mpr ⟨fun zero => ?_, sound.named⟩
    have handle_eq : (inst.nodeFor path size).handle.toNat = inst.nodes.length + 1 :=
      toNat_handle handles
    rw [zero] at handle_eq
    exact absurd handle_eq (Nat.succ_ne_zero _).symm
  bounded := by
    refine List.forall_mem_cons.mpr ⟨(toNat_handle handles).le, fun node among => ?_⟩
    exact Nat.le_succ_of_le (sound.bounded node among)
  distinct := List.nodup_cons.mpr ⟨sound.fresh handles, sound.distinct⟩

end Added

end Allocator

namespace Filesystem

variable {fs left : Filesystem Engine.allocating} {memory : Memory} {buffer : UInt32}
  {nodes : List Node} {trace : Trace} {result : Except Failure UInt32} {name : String}
  {arguments : List Value} {length : UInt32} {size : Option UInt32}

theorem rests_same (has : Allocator.Has fs.memfs memory buffer nodes) :
    Rests Allocator.Has nodes memory fs.memfs nodes :=
  ⟨memory, buffer, has, .refl _ _⟩

theorem does_adding (has : Allocator.Has fs.memfs memory buffer nodes)
    (calls : Engine.allocating.call fs.memfs name arguments = fs.memfs.adding length size)
    (run : Host.Does (call name arguments) fs trace result left) :
    (∃ handle data, result = .ok handle ∧ data.map Buffer.length = size ∧
      Rests Allocator.Has nodes memory left.memfs
        (⟨handle, memory.slice buffer.toNat length.toNat, data⟩ :: nodes)) ∨
    (∃ failure, result = .error failure) ∧
      Rests Allocator.Has nodes memory left.memfs nodes := by
  obtain ⟨module, inst, desk⟩ := fs
  obtain ⟨rfl, rfl, sound⟩ := has
  let inst : Allocator := ⟨memory, nodes⟩
  by_cases enough : memory.size + (size.map UInt32.toNat).getD 0 < UInt32.size ∧
      nodes.length + 1 < UInt32.size
  · have returns : inst.adding length size = .returned _ [.i32 _] := if_pos enough
    obtain ⟨-, rfl, rfl⟩ := (does_call_of_returned (calls.trans returns)).mp run
    refine .inl ⟨_, _, rfl, ?_, memory.grown _, 0, ⟨rfl, rfl, ?_⟩, fun space among => ?_⟩
    · cases size with
      | none | some _ => rfl
    · exact sound.added enough.1 enough.2 _
    · exact Memory.slice_grown (sound.inside space among)
  · have traps : inst.adding length size = .trapped inst .unreachable := if_neg enough
    obtain ⟨-, rfl, rfl⟩ := (does_call_of_trapped (calls.trans traps)).mp run
    exact .inr ⟨⟨_, rfl⟩, memory, 0, ⟨rfl, rfl, sound⟩, .refl _ _⟩

end Filesystem

theorem Engine.keepsNodes_allocating :
    Filesystem.KeepsNodes Engine.allocating () Allocator.pathRoom Allocator.Has where
  exported := by
    rintro inst memory buffer nodes ⟨rfl, -, -⟩
    rfl
  placed := by
    rintro inst memory buffer nodes ⟨rfl, rfl, sound⟩
    exact sound.placed
  written := by
    rintro inst memory buffer nodes put ⟨rfl, rfl, sound⟩ alike
    exact ⟨rfl, rfl, sound.replaced alike.size⟩
  pathBuffer := by
    rintro fs memory buffer nodes trace result left - has run
    obtain ⟨-, rfl, rfl⟩ := (Filesystem.does_call_of_returned rfl).mp run
    obtain ⟨same, rfl, sound⟩ := has
    exact ⟨0, memory, rfl, ⟨same, rfl, sound⟩, .refl _ _⟩
  findNode := by
    rintro ⟨_, inst, desk⟩ memory buffer nodes length trace result left - has - run
    obtain ⟨-, rfl, rfl⟩ := (Filesystem.does_call_of_returned rfl).mp run
    refine ⟨?_, Filesystem.rests_same has⟩
    obtain ⟨rfl, rfl, -⟩ := has
    rfl
  addFileNode := by
    intro fs memory buffer nodes length size trace result left _ has _ run
    rcases Filesystem.does_adding has rfl run with
      ⟨handle, data, same, sized, rests⟩ | refused
    · obtain ⟨space, rfl, sized⟩ := Option.map_eq_some_iff.mp sized
      exact .inl ⟨handle, space, same, Option.some_inj.mp sized, rests⟩
    · exact .inr refused
  addDirectoryNode := by
    intro fs memory buffer nodes length trace result left _ has _ run
    rcases Filesystem.does_adding has rfl run with
      ⟨handle, data, same, sized, rests⟩ | refused
    · obtain rfl := Option.map_eq_none_iff.mp sized
      exact .inl ⟨handle, same, rests⟩
    · exact .inr refused
  fileAddress := by
    rintro ⟨_, inst, desk⟩ memory buffer nodes handle trace result left - has run
    obtain ⟨-, rfl, rfl⟩ := (Filesystem.does_call_of_returned rfl).mp run
    refine ⟨Filesystem.rests_same has, ?_⟩
    rintro node among rfl space file
    obtain ⟨rfl, -, sound⟩ := has
    rw [← sound.spaceOf_eq among file]
  fileSize := by
    rintro ⟨_, inst, desk⟩ memory buffer nodes handle trace result left - has run
    obtain ⟨-, rfl, rfl⟩ := (Filesystem.does_call_of_returned rfl).mp run
    refine ⟨Filesystem.rests_same has, ?_⟩
    rintro node among rfl space file
    obtain ⟨rfl, -, sound⟩ := has
    rw [← sound.spaceOf_eq among file]

end Buildbox
