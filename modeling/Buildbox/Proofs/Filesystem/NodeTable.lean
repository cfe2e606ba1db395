import Buildbox.Proofs.Filesystem.Loan
import Buildbox.Proofs.Memory.Exact

/-!
The node table of the filesystem module, as the host relies on it. The module keeps its nodes newest
first; it lends the host a buffer for one path and, for each file, the space of its contents, and
these stretches of its memory share no byte. What the host writes there changes none of the nodes,
and each of the module's exports does to them what its name says.
-/

set_option autoImplicit false

namespace Buildbox.Filesystem

structure Node where
  handle : UInt32
  path : Bytes
  data : Option Buffer
deriving Repr, DecidableEq

namespace Node

def spaces (nodes : List Node) : List Buffer :=
  nodes.filterMap data

def newest (nodes : List Node) (path : Bytes) : UInt32 :=
  ((nodes.find? fun node => node.path == path).map handle).getD 0

variable {node : Node} {nodes : List Node} {space : Buffer}

theorem mem_spaces (among : node ∈ nodes) (file : node.data = some space) : space ∈ spaces nodes :=
  List.mem_filterMap.mpr ⟨node, among, file⟩

end Node

open Node (spaces newest)

def Lent (capacity : Nat) (buffer : UInt32) (nodes : List Node) (position : Nat) : Prop :=
  (buffer.toNat ≤ position ∧ position < buffer.toNat + capacity) ∨
    ∃ space ∈ spaces nodes, space.Covers position

/-- All that is lent lies inside the memory, and no byte of it is lent twice. -/
structure Placed (capacity : Nat) (memory : Memory) (buffer : UInt32) (nodes : List Node) :
    Prop where
  room : buffer.toNat + capacity ≤ memory.size
  inside : ∀ space ∈ spaces nodes, space.Inside memory
  apart : ∀ space ∈ spaces nodes, ∀ position, space.Covers position →
    ¬ (buffer.toNat ≤ position ∧ position < buffer.toNat + capacity)
  disjoint : (spaces nodes).Pairwise Buffer.Disjoint
  named : ∀ node ∈ nodes, node.handle ≠ 0

def SameData (nodes : List Node) (memory left : Memory) : Prop :=
  ∀ space ∈ spaces nodes, left.slice space.address.toNat space.length.toNat =
    memory.slice space.address.toNat space.length.toNat

theorem SameData.refl (nodes : List Node) (memory : Memory) : SameData nodes memory memory :=
  fun _ _ => rfl

variable {engine : Engine}

/-- An instance of this memory lends this buffer for paths and has these nodes, newest first. -/
abbrev Represents (engine : Engine) :=
  engine.Instance → Memory → (buffer : UInt32) → List Node → Prop

/-- An instance that had some nodes, in this memory, now has these, the contents of the former ones
being the same. -/
def Rests (Has : Represents engine) (nodes : List Node) (memory : Memory)
    (inst : engine.Instance) (after : List Node) : Prop :=
  ∃ put place, Has inst put place after ∧ SameData nodes memory put

/-- What the host relies on: where the module's memory is lent to it, and what becomes of the nodes
in each call. A path that is staged is one that the buffer can hold. -/
structure KeepsNodes (engine : Engine) (module : engine.Module) (capacity : Nat)
    (Has : Represents engine) : Prop where
  exported : ∀ {inst memory buffer nodes}, Has inst memory buffer nodes →
    engine.memory inst = some memory
  placed : ∀ {inst memory buffer nodes}, Has inst memory buffer nodes →
    Placed capacity memory buffer nodes
  written : ∀ {inst memory buffer nodes put}, Has inst memory buffer nodes →
    memory.Alike (Lent capacity buffer nodes) put → Has (engine.setMemory inst put) put buffer nodes
  pathBuffer : ∀ {fs : Filesystem engine} {memory buffer nodes trace result left},
    fs.module = module → Has fs.memfs memory buffer nodes →
    Host.Does (call "GetPathBuf" []) fs trace result left →
    ∃ place put, result = .ok place ∧ Has left.memfs put place nodes ∧ SameData nodes memory put
  findNode : ∀ {fs : Filesystem engine} {memory buffer nodes length trace result left},
    fs.module = module → Has fs.memfs memory buffer nodes → length.toNat ≤ capacity →
    Host.Does (call "FindNode" [.i32 length]) fs trace result left →
    result = .ok (newest nodes (memory.slice buffer.toNat length.toNat)) ∧
      Rests Has nodes memory left.memfs nodes
  addFileNode : ∀ {fs : Filesystem engine} {memory buffer nodes length size trace result left},
    fs.module = module → Has fs.memfs memory buffer nodes → length.toNat ≤ capacity →
    Host.Does (call "AddFileNode" [.i32 length, .i32 size]) fs trace result left →
    (∃ handle space, result = .ok handle ∧ space.length = size ∧ Rests Has nodes memory left.memfs
      (⟨handle, memory.slice buffer.toNat length.toNat, some space⟩ :: nodes)) ∨
    (∃ failure, result = .error failure) ∧ Rests Has nodes memory left.memfs nodes
  addDirectoryNode : ∀ {fs : Filesystem engine} {memory buffer nodes length trace result left},
    fs.module = module → Has fs.memfs memory buffer nodes → length.toNat ≤ capacity →
    Host.Does (call "AddDirectoryNode" [.i32 length]) fs trace result left →
    (∃ handle, result = .ok handle ∧ Rests Has nodes memory left.memfs
      (⟨handle, memory.slice buffer.toNat length.toNat, none⟩ :: nodes)) ∨
    (∃ failure, result = .error failure) ∧ Rests Has nodes memory left.memfs nodes
  fileAddress : ∀ {fs : Filesystem engine} {memory buffer nodes handle trace result left},
    fs.module = module → Has fs.memfs memory buffer nodes →
    Host.Does (call "GetFileNodeAddress" [.i32 handle]) fs trace result left →
    Rests Has nodes memory left.memfs nodes ∧ ∀ node ∈ nodes, node.handle = handle →
      ∀ space, node.data = some space → result = .ok space.address
  fileSize : ∀ {fs : Filesystem engine} {memory buffer nodes handle trace result left},
    fs.module = module → Has fs.memfs memory buffer nodes →
    Host.Does (call "GetFileNodeSize" [.i32 handle]) fs trace result left →
    Rests Has nodes memory left.memfs nodes ∧ ∀ node ∈ nodes, node.handle = handle →
      ∀ space, node.data = some space → result = .ok space.length

section Steps

variable {fs left : Filesystem engine} {memory put : Memory} {trace : Trace} {α : Type} {a : α}

theorem module_of_call {name : String} {arguments : List Value} {result : Except Failure UInt32}
    (run : Host.Does (call name arguments) fs trace result left) : left.module = fs.module := by
  obtain ⟨calls, ended, -, -, rfl⟩ := calls_of_call run
  rfl

theorem does_call_of_returned {name : String} {arguments : List Value} {word : UInt32}
    {inst : engine.Instance} {result : Except Failure UInt32}
    (returns : engine.call fs.memfs name arguments = .returned inst [.i32 word]) :
    Host.Does (call name arguments) fs trace result left ↔
      trace = [] ∧ result = .ok word ∧ left = { fs with memfs := inst } := by
  have word_eq : (Value.i32 word).word = word := by simp [Value.word, Value.bits]
  rw [call, Host.does_get_bind, returns]
  refine Host.does_pure.trans ?_
  rw [List.headD_cons, word_eq]

theorem does_call_of_trapped {name : String} {arguments : List Value} {inst : engine.Instance}
    {trap : Trap} {result : Except Failure UInt32}
    (traps : engine.call fs.memfs name arguments = .trapped inst trap) :
    Host.Does (call name arguments) fs trace result left ↔
      trace = [] ∧ result = .error (failureOf (.fault (.trap trap))) ∧
        left = { fs with memfs := inst } := by
  rw [call, Host.does_get_bind, traps]
  exact Host.does_throw

theorem does_onMemory {access : Memory.Access α} {outcome : Except AccessFault α}
    {result : Except Failure α} (exported : engine.memory fs.memfs = some memory)
    (reached : access.run.run memory = (outcome, put)) :
    Host.Does (onMemory access) fs trace result left ↔
      trace = [] ∧ result = outcome.mapError .access ∧
        left = { fs with memfs := engine.setMemory fs.memfs put } := by
  rw [onMemory, Host.does_get_bind, exported]
  simp only [reached]
  cases outcome with
  | ok a => exact Host.does_set_bind.trans Host.does_pure
  | error fault => exact Host.does_set_bind.trans Host.does_throw

theorem does_onMemory_bind {β : Type} {access : Memory.Access α} {next : α → Action engine β}
    {result : Except Failure β} (exported : engine.memory fs.memfs = some memory)
    (yields : Memory.Access.Yields access memory a put) :
    Host.Does (onMemory access >>= next) fs trace result left ↔
      Host.Does (next a) { fs with memfs := engine.setMemory fs.memfs put } trace result left := by
  rw [Host.does_bind]
  simp only [does_onMemory exported yields]
  constructor
  · rintro (⟨failure, ⟨-, impossible, -⟩, -⟩ | ⟨b, _, first, later, ⟨rfl, same, rfl⟩, onward, rfl⟩)
    · cases impossible
    · cases same
      exact onward
  · intro onward
    exact .inr ⟨a, _, [], trace, ⟨rfl, rfl, rfl⟩, onward, rfl⟩

end Steps

end Buildbox.Filesystem
