import Mathlib.Data.List.Forall2
import Buildbox.Proofs.Filesystem.NodeTable
import Buildbox.Proofs.Text.Reading

/-!
What the filesystem serves of what the host has put into it. The host's operations are chains of
calls of the module around one buffer for paths, and between two calls the memory may grow and the
buffer may move. The nodes stand for items, newest first: each operation that adds puts one item in
front or none, and a path is answered by the first item that has it.
-/

set_option autoImplicit false

namespace Buildbox.Filesystem

open Node (spaces newest)

variable {engine : Engine}

/-- What the host puts at a path. -/
structure Item where
  path : String
  body : Archive.Body
deriving Repr, DecidableEq

namespace Item

def ofEntry (entry : Archive.Entry) : Item :=
  ⟨entry.name, entry.body⟩

def add (item : Item) : Action engine Unit :=
  match item.body with
  | .file contents => addFile item.path contents
  | .directory => addDirectory item.path

theorem addEntry_eq (entry : Archive.Entry) :
    (addEntry entry : Action engine Unit) = (ofEntry entry).add :=
  rfl

end Item

/-- The body that was put at a path last; items are newest first. -/
def latest (shelf : List Item) (path : String) : Option Archive.Body :=
  (shelf.find? fun item => item.path == path).map Item.body

/-- A path that the buffer can hold, and whose length is a word. -/
structure PathFits (capacity : Nat) (path : String) : Prop where
  held : (Bytes.ofString path).length ≤ capacity
  word : (Bytes.ofString path).length < UInt32.size

structure Item.Fits (capacity : Nat) (item : Item) : Prop where
  path : PathFits capacity item.path
  contents : ∀ contents, item.body = .file contents → contents.length < UInt32.size

/-- A node stands for an item: it has its path, and its space holds the contents of the file. -/
inductive Keeps (memory : Memory) : Node → Item → Prop
  | file {handle : UInt32} {path : String} {space : Buffer} {contents : Bytes}
      (holds : memory.slice space.address.toNat space.length.toNat = contents) :
      Keeps memory ⟨handle, Bytes.ofString path, some space⟩ ⟨path, .file contents⟩
  | directory {handle : UInt32} {path : String} :
      Keeps memory ⟨handle, Bytes.ofString path, none⟩ ⟨path, .directory⟩

section Nodes

variable {memory put : Memory} {node : Node} {item : Item} {nodes : List Node} {shelf : List Item}

theorem Keeps.path_eq (keeps : Keeps memory node item) : node.path = Bytes.ofString item.path := by
  cases keeps with
  | file _ | directory => rfl

theorem Keeps.named_alike (keeps : Keeps memory node item) (path : String) :
    (node.path == Bytes.ofString path) = (item.path == path) := by
  rw [keeps.path_eq, Bool.eq_iff_iff, beq_iff_eq, beq_iff_eq, Utf8.ofString_inj]

theorem Keeps.of_same (keeps : Keeps memory node item)
    (same : ∀ space, node.data = some space →
      put.slice space.address.toNat space.length.toNat =
        memory.slice space.address.toNat space.length.toNat) : Keeps put node item := by
  cases keeps with
  | file holds => exact .file ((same _ rfl).trans holds)
  | directory => exact .directory

theorem keeps_of_sameData (keeps : List.Forall₂ (Keeps memory) nodes shelf)
    (same : SameData nodes memory put) : List.Forall₂ (Keeps put) nodes shelf := by
  induction keeps with
  | nil => exact .nil
  | @cons node item nodes shelf first _ ih =>
    refine .cons (first.of_same fun space file => ?_) (ih fun space among => ?_)
    · exact same space (Node.mem_spaces List.mem_cons_self file)
    · exact same space ((List.sublist_cons_self node nodes).filterMap Node.data |>.subset among)

theorem found_or_not (keeps : List.Forall₂ (Keeps memory) nodes shelf) (path : String) :
    (newest nodes (Bytes.ofString path) = 0 ∧ latest shelf path = none ∧
        path ∉ shelf.map Item.path) ∨
      ∃ node ∈ nodes, ∃ item ∈ shelf, Keeps memory node item ∧ item.path = path ∧
        newest nodes (Bytes.ofString path) = node.handle ∧ latest shelf path = some item.body := by
  induction keeps with
  | nil => exact .inl ⟨rfl, rfl, List.not_mem_nil⟩
  | @cons node item nodes shelf first _ ih =>
    have alike := first.named_alike path
    unfold newest latest at ih ⊢
    rw [List.find?_cons, List.find?_cons, alike]
    cases named : item.path == path with
    | true =>
      exact .inr ⟨node, List.mem_cons_self, item, List.mem_cons_self, first, beq_iff_eq.mp named,
        rfl, rfl⟩
    | false =>
      have other : path ≠ item.path := fun same => by simp [same] at named
      rcases ih with ⟨unfound, unseen, unlisted⟩ | ⟨older, among, former, listed, rest⟩
      · refine .inl ⟨unfound, unseen, ?_⟩
        rw [List.map_cons, List.mem_cons]
        exact fun among => among.elim other unlisted
      · exact .inr ⟨older, .tail _ among, former, .tail _ listed, rest⟩

theorem file_found (keeps : List.Forall₂ (Keeps memory) nodes shelf) {path : String}
    {bytes : Bytes} (last : latest shelf path = some (.file bytes)) :
    ∃ node ∈ nodes, ∃ space, node.data = some space ∧
      node.handle = newest nodes (Bytes.ofString path) ∧
      memory.slice space.address.toNat space.length.toNat = bytes := by
  rcases found_or_not keeps path with
    ⟨-, unseen, -⟩ | ⟨node, among, item, -, first, -, found, seen⟩
  · rw [unseen] at last
    cases last
  · rw [seen] at last
    cases first with
    | file holds =>
      cases last
      exact ⟨_, among, _, rfl, found.symm, holds⟩
    | directory => cases last

end Nodes

/-- The nodes of the module, in this memory with this buffer, stand for these items. -/
structure Shelved (module : engine.Module) (Has : Represents engine) (shelf : List Item)
    (fs : Filesystem engine) (memory : Memory) (buffer : UInt32) (nodes : List Node) : Prop where
  module_eq : fs.module = module
  has : Has fs.memfs memory buffer nodes
  keeps : List.Forall₂ (Keeps memory) nodes shelf

/-- The filesystem stores these items, newest first. -/
def Stores (module : engine.Module) (Has : Represents engine) (shelf : List Item)
    (fs : Filesystem engine) : Prop :=
  ∃ memory buffer nodes, Shelved module Has shelf fs memory buffer nodes

/-- A path stands in the buffer of the filesystem; the length is what the module is told. -/
def Staged (module : engine.Module) (Has : Represents engine) (capacity : Nat) (shelf : List Item)
    (path : String) (length : UInt32) (fs : Filesystem engine) : Prop :=
  ∃ memory buffer nodes, Shelved module Has shelf fs memory buffer nodes ∧
    length.toNat ≤ capacity ∧ memory.slice buffer.toNat length.toNat = Bytes.ofString path

/-- An item is put on the shelf, or that fails and the shelf is as it was. -/
def Puts (module : engine.Module) (Has : Represents engine) (shelf : List Item) (item : Item)
    (result : Except Failure Unit) (left : Filesystem engine) : Prop :=
  (result = .ok () ∧ Stores module Has (item :: shelf) left) ∨
    (∃ failure, result = .error failure) ∧ Stores module Has shelf left

theorem Puts.stored {module : engine.Module} {Has : Represents engine} {shelf : List Item}
    {item : Item} {left : Filesystem engine} (puts : Puts module Has shelf item (.ok ()) left) :
    Stores module Has (item :: shelf) left := by
  rcases puts with ⟨-, stored⟩ | ⟨⟨_, impossible⟩, -⟩
  · exact stored
  · cases impossible

section Operations

variable {module : engine.Module} {Has : Represents engine} {capacity : Nat} {shelf : List Item}
  {fs left : Filesystem engine} {memory put : Memory} {buffer : UInt32} {nodes : List Node}
  {trace : Trace} {path : String}

theorem Shelved.stores (shelved : Shelved module Has shelf fs memory buffer nodes) :
    Stores module Has shelf fs :=
  ⟨memory, buffer, nodes, shelved⟩

theorem Shelved.rests (shelved : Shelved module Has shelf fs memory buffer nodes) {name : String}
    {arguments : List Value} {result : Except Failure UInt32}
    (run : Host.Does (call name arguments) fs trace result left)
    (rests : Rests Has nodes memory left.memfs nodes) :
    ∃ put place, Shelved module Has shelf left put place nodes := by
  obtain ⟨put, place, has, same⟩ := rests
  exact ⟨put, place, (module_of_call run).trans shelved.module_eq, has,
    keeps_of_sameData shelved.keeps same⟩

theorem Shelved.made (shelved : Shelved module Has shelf fs memory buffer nodes) {name : String}
    {arguments : List Value} {result : Except Failure UInt32} {node : Node} (item : Memory → Item)
    (run : Host.Does (call name arguments) fs trace result left)
    (rests : Rests Has nodes memory left.memfs (node :: nodes))
    (stands : ∀ put, Keeps put node (item put)) :
    ∃ put place, Shelved module Has (item put :: shelf) left put place (node :: nodes) := by
  obtain ⟨put, place, has, same⟩ := rests
  exact ⟨put, place, (module_of_call run).trans shelved.module_eq, has,
    .cons (stands put) (keeps_of_sameData shelved.keeps same)⟩

section Steps

variable (keeps : KeepsNodes engine module capacity Has)
include keeps

theorem sameData_of_staging (has : Has fs.memfs memory buffer nodes) {bytes : Bytes}
    (fits : bytes.length ≤ capacity) :
    SameData nodes memory (memory.splice buffer.toNat bytes) := by
  have placed := keeps.placed has
  have room := placed.room
  intro space among
  refine Memory.slice_congr fun position from_start before_end => ?_
  refine Memory.getElem?_splice (by omega) ?_
  have apart := placed.apart space among position ⟨from_start, before_end⟩
  omega

theorem sameData_of_filling {node : Node} {space : Buffer} {bytes : Bytes}
    (has : Has fs.memfs memory buffer (node :: nodes)) (file : node.data = some space)
    (fits : bytes.length = space.length.toNat) :
    SameData nodes memory (memory.splice space.address.toNat bytes) := by
  have placed := keeps.placed has
  have inside : space.address.toNat + space.length.toNat ≤ memory.size :=
    placed.inside space (Node.mem_spaces List.mem_cons_self file)
  have disjoint := placed.disjoint
  rw [spaces, List.filterMap_cons_some file, List.pairwise_cons] at disjoint
  intro other among
  refine Memory.slice_congr fun position from_start before_end => ?_
  refine Memory.getElem?_splice (by omega) ?_
  by_cases outside : position < space.address.toNat ∨ space.address.toNat + bytes.length ≤ position
  · exact outside
  · have common : space.Covers position := ⟨by omega, by omega⟩
    exact absurd ⟨common, from_start, before_end⟩ (disjoint.1 other among position)

theorem Stores.stagePath (stores : Stores module Has shelf fs) (fits : PathFits capacity path)
    {result : Except Failure UInt32} (run : Host.Does (stagePath path) fs trace result left) :
    ∃ length, result = .ok length ∧ Staged module Has capacity shelf path length left := by
  obtain ⟨memory, buffer, nodes, shelved⟩ := stores
  have buffered : ∀ first outcome between,
      Host.Does (call "GetPathBuf" []) fs first outcome between →
        ∃ place, outcome = .ok place ∧ ∃ put, Shelved module Has shelf between put place nodes := by
    intro first outcome between called
    obtain ⟨place, put, rfl, has, same⟩ := keeps.pathBuffer shelved.module_eq shelved.has called
    exact ⟨place, rfl, put, (module_of_call called).trans shelved.module_eq, has,
      keeps_of_sameData shelved.keeps same⟩
  obtain ⟨place, between, later, ⟨put, standing⟩, onward⟩ := Host.onward_of_bind buffered run
  have room := (keeps.placed standing.has).room
  have inside : place.toNat + (Bytes.ofString path).length ≤ put.size :=
    Nat.le_trans (Nat.add_le_add_left fits.held _) room
  have writes : Memory.Access.Yields (Memory.write place (Bytes.ofString path)) put () _ :=
    Memory.Access.yields_write.mpr ⟨inside, rfl⟩
  have onward := (does_onMemory_bind (keeps.exported standing.has) writes).mp onward
  obtain ⟨-, rfl, rfl⟩ := Host.does_pure.mp onward
  have length_eq : (Bytes.ofString path).length.toUInt32.toNat = (Bytes.ofString path).length :=
    UInt32.toNat_ofNat_of_lt' fits.word
  have lent : put.Alike (Lent capacity place nodes) (put.splice place.toNat (Bytes.ofString path)) :=
    .splice inside fun position from_start before_end =>
      .inl ⟨from_start, Nat.lt_of_lt_of_le before_end (Nat.add_le_add_left fits.held _)⟩
  have same := sameData_of_staging keeps standing.has fits.held
  refine ⟨_, rfl, _, place, nodes, ⟨standing.module_eq, keeps.written standing.has lent,
    keeps_of_sameData standing.keeps same⟩, length_eq.trans_le fits.held, ?_⟩
  rw [length_eq, Memory.slice_splice inside]

theorem Stores.find (stores : Stores module Has shelf fs) (fits : PathFits capacity path)
    {result : Except Failure UInt32} (run : Host.Does (find path) fs trace result left) :
    ∃ handle, result = .ok handle ∧ ∃ memory buffer nodes,
      Shelved module Has shelf left memory buffer nodes ∧
      handle = newest nodes (Bytes.ofString path) := by
  obtain ⟨length, between, later, ⟨memory, buffer, nodes, shelved, short, stands⟩, onward⟩ :=
    Host.onward_of_bind (fun _ _ _ => stores.stagePath keeps fits) run
  obtain ⟨rfl, rests⟩ := keeps.findNode shelved.module_eq shelved.has short onward
  obtain ⟨put, place, after⟩ := shelved.rests onward rests
  exact ⟨_, rfl, put, place, nodes, after, by rw [stands]⟩

theorem Stores.addDirectory (stores : Stores module Has shelf fs) (fits : PathFits capacity path)
    {result : Except Failure Unit} (run : Host.Does (addDirectory path) fs trace result left) :
    Puts module Has shelf ⟨path, .directory⟩ result left := by
  obtain ⟨length, between, later, ⟨memory, buffer, nodes, shelved, short, stands⟩, onward⟩ :=
    Host.onward_of_bind (fun _ _ _ => stores.stagePath keeps fits) run
  rcases Host.does_bind.mp onward with
    ⟨failure, failed, rfl⟩ | ⟨node, reached, first, last, called, ended, -⟩
  · rcases keeps.addDirectoryNode shelved.module_eq shelved.has short failed with
      ⟨handle, impossible, -⟩ | ⟨-, rests⟩
    · cases impossible
    · obtain ⟨put, place, after⟩ := shelved.rests failed rests
      exact .inr ⟨⟨failure, rfl⟩, after.stores⟩
  · obtain ⟨-, rfl, rfl⟩ := Host.does_pure.mp ended
    rcases keeps.addDirectoryNode shelved.module_eq shelved.has short called with
      ⟨handle, -, rests⟩ | ⟨⟨failure, impossible⟩, -⟩
    · rw [stands] at rests
      obtain ⟨put, place, after⟩ := shelved.made (fun _ => ⟨path, .directory⟩) called rests
        fun _ => .directory
      exact .inl ⟨rfl, after.stores⟩
    · cases impossible

section Getters

variable {handle : UInt32} {result : Except Failure UInt32}

theorem Shelved.fileAddress (shelved : Shelved module Has shelf fs memory buffer nodes)
    (run : Host.Does (call "GetFileNodeAddress" [.i32 handle]) fs trace result left) :
    (∃ put place, Shelved module Has shelf left put place nodes) ∧ ∀ node ∈ nodes,
      node.handle = handle → ∀ space, node.data = some space → result = .ok space.address := by
  obtain ⟨rests, given⟩ := keeps.fileAddress shelved.module_eq shelved.has run
  exact ⟨shelved.rests run rests, given⟩

theorem Shelved.fileSize (shelved : Shelved module Has shelf fs memory buffer nodes)
    (run : Host.Does (call "GetFileNodeSize" [.i32 handle]) fs trace result left) :
    (∃ put place, Shelved module Has shelf left put place nodes) ∧ ∀ node ∈ nodes,
      node.handle = handle → ∀ space, node.data = some space → result = .ok space.length := by
  obtain ⟨rests, given⟩ := keeps.fileSize shelved.module_eq shelved.has run
  exact ⟨shelved.rests run rests, given⟩

end Getters

theorem Shelved.filled {handle : UInt32} {space : Buffer} {stale contents : Bytes}
    (shelved : Shelved module Has (⟨path, .file stale⟩ :: shelf) fs memory buffer
      (⟨handle, Bytes.ofString path, some space⟩ :: nodes))
    (fits : contents.length = space.length.toNat) {result : Except Failure Unit}
    (run : Host.Does (onMemory (Memory.write space.address contents)) fs trace result left) :
    result = .ok () ∧ Stores module Has (⟨path, .file contents⟩ :: shelf) left := by
  have among : space ∈ spaces (⟨handle, Bytes.ofString path, some space⟩ :: nodes) :=
    List.mem_cons_self
  have inside : space.address.toNat + contents.length ≤ memory.size := by
    rw [fits]
    exact (keeps.placed shelved.has).inside space among
  have writes : Memory.Access.Yields (Memory.write space.address contents) memory () _ :=
    Memory.Access.yields_write.mpr ⟨inside, rfl⟩
  obtain ⟨-, rfl, rfl⟩ := (does_onMemory (keeps.exported shelved.has) writes).mp run
  have same := sameData_of_filling keeps shelved.has rfl fits
  refine ⟨rfl, _, buffer, _, shelved.module_eq, keeps.written shelved.has ?_, ?_⟩
  · refine .splice inside fun position from_start before_end => .inr ⟨space, among, from_start, ?_⟩
    rwa [fits] at before_end
  · have others := (List.forall₂_cons.mp shelved.keeps).2
    refine .cons (.file ?_) (keeps_of_sameData others same)
    rw [← fits, Memory.slice_splice inside]

theorem Stores.addFile (stores : Stores module Has shelf fs) (fits : PathFits capacity path)
    {contents : Bytes} (short_enough : contents.length < UInt32.size)
    {result : Except Failure Unit} (run : Host.Does (addFile path contents) fs trace result left) :
    Puts module Has shelf ⟨path, .file contents⟩ result left := by
  obtain ⟨length, between, later, ⟨memory, buffer, nodes, shelved, short, stands⟩, onward⟩ :=
    Host.onward_of_bind (fun _ _ _ => stores.stagePath keeps fits) run
  rcases Host.does_bind.mp onward with
    ⟨failure, failed, rfl⟩ | ⟨node, reached, first, last, called, filling, -⟩
  · rcases keeps.addFileNode shelved.module_eq shelved.has short failed with
      ⟨handle, space, impossible, -⟩ | ⟨-, rests⟩
    · cases impossible
    · obtain ⟨put, place, after⟩ := shelved.rests failed rests
      exact .inr ⟨⟨failure, rfl⟩, after.stores⟩
  · rcases keeps.addFileNode shelved.module_eq shelved.has short called with
      ⟨handle, space, same, sized, rests⟩ | ⟨⟨failure, impossible⟩, -⟩
    · cases same
      rw [stands] at rests
      -- the file is there already, with whatever stands in its space
      obtain ⟨put, place, made⟩ := shelved.made
        (fun put => ⟨path, .file (put.slice space.address.toNat space.length.toNat)⟩) called rests
        fun _ => .file rfl
      rcases Host.does_bind.mp filling with
        ⟨failure, failed, -⟩ | ⟨address, between, early, late, addressed, writing, -⟩
      · have impossible := (made.fileAddress keeps failed).2 _ List.mem_cons_self rfl space rfl
        cases impossible
      obtain ⟨⟨filled, buffered, standing⟩, given⟩ := made.fileAddress keeps addressed
      have same := given _ List.mem_cons_self rfl space rfl
      cases same
      have length_eq : contents.length = space.length.toNat := by
        rw [sized]
        exact (UInt32.toNat_ofNat_of_lt' short_enough).symm
      exact .inl (standing.filled keeps length_eq writing)
    · cases impossible

theorem Stores.add (stores : Stores module Has shelf fs) {item : Item} (fits : item.Fits capacity)
    {result : Except Failure Unit} (run : Host.Does item.add fs trace result left) :
    Puts module Has shelf item result left := by
  obtain ⟨path, body⟩ := item
  cases body with
  | file contents => exact stores.addFile keeps fits.path (fits.contents _ rfl) run
  | directory => exact stores.addDirectory keeps fits.path run

theorem Stores.fileExists (stores : Stores module Has shelf fs) (fits : PathFits capacity path)
    {result : Except Failure Bool} (run : Host.Does (fileExists path) fs trace result left) :
    Stores module Has shelf left ∧
      ∃ found, result = .ok found ∧ (found = true ↔ path ∈ shelf.map Item.path) := by
  obtain ⟨_, between, later, ⟨memory, buffer, nodes, shelved, rfl⟩, ended⟩ :=
    Host.onward_of_bind (fun _ _ _ => stores.find keeps fits) run
  obtain ⟨-, rfl, rfl⟩ := Host.does_pure.mp ended
  refine ⟨shelved.stores, _, rfl, ?_⟩
  rw [bne_iff_ne]
  rcases found_or_not shelved.keeps path with
    ⟨unfound, -, unlisted⟩ | ⟨node, among, item, listed, -, rfl, found, -⟩
  · rw [unfound]
    exact ⟨fun other => absurd rfl other, fun listed => absurd listed unlisted⟩
  · rw [found]
    exact ⟨fun _ => List.mem_map_of_mem listed, fun _ => (keeps.placed shelved.has).named node among⟩

theorem Shelved.fetched (shelved : Shelved module Has shelf fs memory buffer nodes)
    {handle : UInt32} (found : handle = newest nodes (Bytes.ofString path))
    {result : Except Failure Bytes}
    (run : Host.Does (do
      let address ← call "GetFileNodeAddress" [.i32 handle]
      let size ← call "GetFileNodeSize" [.i32 handle]
      onMemory (Memory.read address size.toNat)) fs trace result left) :
    Stores module Has shelf left ∧
      ∀ bytes, latest shelf path = some (.file bytes) → result = .ok bytes := by
  subst found
  rcases Host.does_bind.mp run with
    ⟨failure, failed, rfl⟩ | ⟨address, between, _, _, addressed, onward, -⟩
  · obtain ⟨⟨put, place, after⟩, given⟩ := shelved.fileAddress keeps failed
    refine ⟨after.stores, fun bytes last => ?_⟩
    obtain ⟨node, among, space, file, named, -⟩ := file_found shelved.keeps last
    have impossible := given node among named space file
    cases impossible
  obtain ⟨⟨middle, place, midway⟩, address_given⟩ := shelved.fileAddress keeps addressed
  rcases Host.does_bind.mp onward with
    ⟨failure, failed, rfl⟩ | ⟨size, reached, _, _, measured, reading, -⟩
  · obtain ⟨⟨put, place, after⟩, given⟩ := midway.fileSize keeps failed
    refine ⟨after.stores, fun bytes last => ?_⟩
    obtain ⟨node, among, space, file, named, -⟩ := file_found shelved.keeps last
    have impossible := given node among named space file
    cases impossible
  obtain ⟨⟨put, place, after⟩, size_given⟩ := midway.fileSize keeps measured
  have reads := Memory.Access.allOrNothing_read put address size.toNat
  have kept := keeps.written after.has (Memory.Alike.refl _ _)
  obtain ⟨outcome, read⟩ := Memory.Access.read_leaves put address size.toNat
  obtain ⟨-, rfl, rfl⟩ := (does_onMemory (keeps.exported after.has) read).mp reading
  refine ⟨⟨put, place, nodes, after.module_eq, kept, after.keeps⟩, fun bytes last => ?_⟩
  obtain ⟨node, among, space, file, named, rfl⟩ := file_found after.keeps last
  have same_address := address_given node among named space file
  have same_size := size_given node among named space file
  cases same_address
  cases same_size
  have inside := (keeps.placed after.has).inside space (Node.mem_spaces among file)
  rw [reads.done inside, Prod.mk.injEq] at read
  rw [← read.1]
  rfl

theorem Stores.contents (stores : Stores module Has shelf fs) (fits : PathFits capacity path)
    {result : Except Failure Bytes} (run : Host.Does (contents path) fs trace result left) :
    Stores module Has shelf left ∧
      (path ∉ shelf.map Item.path → result = .error (.fileNotFound path)) ∧
      ∀ bytes, latest shelf path = some (.file bytes) → result = .ok bytes := by
  obtain ⟨_, between, later, ⟨memory, buffer, nodes, shelved, rfl⟩, onward⟩ :=
    Host.onward_of_bind (fun _ _ _ => stores.find keeps fits) run
  dsimp only at onward
  rcases found_or_not shelved.keeps path with
    ⟨unfound, unseen, unlisted⟩ | ⟨node, among, item, listed, -, rfl, found, -⟩
  · rw [unfound, if_pos (beq_self_eq_true _)] at onward
    obtain ⟨-, rfl, rfl⟩ := Host.does_throw_bind.mp onward
    exact ⟨shelved.stores, fun _ => rfl, fun bytes last => by rw [unseen] at last; cases last⟩
  · have there : ¬ ((newest nodes (Bytes.ofString item.path) == 0) = true) := by
      rw [found, beq_iff_eq]
      exact (keeps.placed shelved.has).named node among
    rw [if_neg there] at onward
    obtain ⟨stores, file⟩ := shelved.fetched keeps rfl onward
    exact ⟨stores, fun unlisted => absurd (List.mem_map_of_mem listed) unlisted, file⟩

end Steps

end Operations

end Buildbox.Filesystem
