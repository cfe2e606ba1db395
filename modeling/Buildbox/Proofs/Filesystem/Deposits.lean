import Buildbox.Archive.Writer
import Buildbox.Proofs.Engine.Allocating
import Buildbox.Proofs.Filesystem.Shelf

/-!
Sequences of operations that put things into the filesystem. After any of them each path is answered
by what was put there last. An archive counts as its entries, put there one after another: the first
fault ends it, and what was put there by then stays.
-/

set_option autoImplicit false

namespace Buildbox.Filesystem

variable {engine : Engine}

def itemsOf (image : Bytes) : List Item :=
  (Archive.read image).1.map Item.ofEntry

inductive Deposit
  | file (path : String) (contents : Bytes)
  | directory (path : String)
  | archive (image : Bytes)

namespace Deposit

def perform : Deposit → Action engine Unit
  | file path contents => addFile path contents
  | directory path => addDirectory path
  | archive image => discard (untar image)

def items : Deposit → List Item
  | file path contents => [⟨path, .file contents⟩]
  | directory path => [⟨path, .directory⟩]
  | archive image => itemsOf image

def Fits (capacity : Nat) (deposit : Deposit) : Prop :=
  ∀ item ∈ deposit.items, item.Fits capacity

end Deposit

def stocked (deposits : List Deposit) (shelf : List Item) : List Item :=
  (deposits.flatMap Deposit.items).reverse ++ shelf

/-- What the filesystem says about a path: whether something was put there, and what. -/
structure Answers (shelf : List Item) (path : String) (fs : Filesystem engine) : Prop where
  listed : Host.Ends (fileExists path) fs fun result _ =>
    ∃ found, result = .ok found ∧ (found = true ↔ path ∈ shelf.map Item.path)
  fetched : Host.Ends (contents path) fs fun result _ =>
    (path ∉ shelf.map Item.path → result = .error (.fileNotFound path)) ∧
      ∀ bytes, latest shelf path = some (.file bytes) → result = .ok bytes

theorem Answers.of_cons {shelf : List Item} {item : Item} {path : String} {fs : Filesystem engine}
    (answers : Answers (item :: shelf) path fs) (other : path ≠ item.path) :
    Answers shelf path fs := by
  have listed : path ∈ (item :: shelf).map Item.path ↔ path ∈ shelf.map Item.path := by
    rw [List.map_cons, List.mem_cons]
    exact or_iff_right other
  have last : latest (item :: shelf) path = latest shelf path := by
    rw [latest, List.find?_cons_of_neg (by simpa using other.symm), latest]
  refine ⟨.of_every fun trace result after run => ?_, .of_every fun trace result after run => ?_⟩
  · obtain ⟨found, same, told⟩ := answers.listed.every trace result after run
    exact ⟨found, same, told.trans listed⟩
  · obtain ⟨missing, file⟩ := answers.fetched.every trace result after run
    exact ⟨fun unlisted => missing (mt listed.mp unlisted),
      fun bytes seen => file bytes (last.trans seen)⟩

/-- What becomes of an image: its items are put there in order, and these are the ones done. -/
inductive Extracts (image : Bytes) (fs : Filesystem engine) :
    List Item → Trace → Except Failure Nat → Filesystem engine → Prop
  | whole {left : Filesystem engine} {trace : Trace} (clean : (Archive.read image).2 = none)
      (adds : Host.Does ((itemsOf image).forM Item.add) fs trace (.ok ()) left) :
      Extracts image fs (itemsOf image) trace (.ok (Archive.read image).1.length) left
  | faulty {left : Filesystem engine} {trace : Trace} {fault : Archive.Fault}
      (broken : (Archive.read image).2 = some fault)
      (adds : Host.Does ((itemsOf image).forM Item.add) fs trace (.ok ()) left) :
      Extracts image fs (itemsOf image) trace (.error (.archive fault)) left
  | refused {between left : Filesystem engine} {first rest : Trace} {done later : List Item}
      {item : Item} {failure : Failure} (split : itemsOf image = done ++ item :: later)
      (adds : Host.Does (done.forM Item.add) fs first (.ok ()) between)
      (fails : Host.Does item.add between rest (.error failure) left) :
      Extracts image fs done (first ++ rest) (.error failure) left

section Extraction

variable {fs left : Filesystem engine} {trace : Trace} {image : Bytes}

theorem forM_addEntry (entries : List Archive.Entry) :
    (entries.forM addEntry : Action engine PUnit) = (entries.map Item.ofEntry).forM Item.add := by
  induction entries with
  | nil => rfl
  | cons entry later ih =>
    change addEntry entry >>= (fun _ => later.forM addEntry) = _
    rw [ih, Item.addEntry_eq]
    rfl

theorem does_untar {result : Except Failure Nat} :
    Host.Does (untar image) fs trace result left ↔
      ∃ done, Extracts image fs done trace result left := by
  unfold untar Archive.unpack
  rcases parsed : Archive.read image with ⟨entries, fault⟩
  have items_eq : itemsOf image = entries.map Item.ofEntry := by rw [itemsOf, parsed]
  have fault_eq : (Archive.read image).2 = fault := by rw [parsed]
  dsimp only
  rw [forM_addEntry, ← items_eq, Host.does_bind]
  constructor
  · rintro (⟨failure, failed, rfl⟩ | ⟨_, between, first, later, adds, ended, rfl⟩)
    · obtain ⟨done, item, behind, middle, early, late, split, adds, fails, rfl⟩ :=
        Host.does_forM_error.mp failed
      exact ⟨done, .refused split adds fails⟩
    · cases fault with
      | some fault =>
        obtain ⟨rfl, rfl, rfl⟩ := Host.does_throw.mp ended
        rw [List.append_nil]
        exact ⟨_, .faulty fault_eq adds⟩
      | none =>
        obtain ⟨rfl, rfl, rfl⟩ := Host.does_pure.mp ended
        rw [List.append_nil]
        have length_eq : entries.length = (Archive.read image).1.length := by rw [parsed]
        rw [length_eq]
        exact ⟨_, .whole fault_eq adds⟩
  · rintro ⟨done, extracts⟩
    cases extracts with
    | whole clean adds =>
      have clean := fault_eq.symm.trans clean
      subst clean
      rw [parsed]
      exact .inr ⟨_, left, trace, [], adds, Host.does_pure.mpr ⟨rfl, rfl, rfl⟩,
        (List.append_nil _).symm⟩
    | faulty broken adds =>
      have broken := fault_eq.symm.trans broken
      subst broken
      exact .inr ⟨_, left, trace, [], adds, Host.does_throw.mpr ⟨rfl, rfl, rfl⟩,
        (List.append_nil _).symm⟩
    | refused split adds fails =>
      exact .inl ⟨_, Host.does_forM_error.mpr ⟨done, _, _, _, _, _, split, adds, fails, rfl⟩, rfl⟩

end Extraction

section Deposits

variable {module : engine.Module} {Has : Represents engine} {capacity : Nat} {shelf : List Item}
  {fs left : Filesystem engine} {trace : Trace} (keeps : KeepsNodes engine module capacity Has)
include keeps

theorem Stores.addAll {items : List Item} (stores : Stores module Has shelf fs)
    (fits : ∀ item ∈ items, item.Fits capacity)
    (run : Host.Does (items.forM Item.add) fs trace (.ok ()) left) :
    Stores module Has (items.reverse ++ shelf) left := by
  induction items generalizing shelf fs trace with
  | nil =>
    obtain ⟨-, -, rfl⟩ := Host.does_pure.mp run
    exact stores
  | cons item later ih =>
    obtain ⟨_, between, first, rest, added, onward, -⟩ := Host.does_bind_ok.mp run
    obtain ⟨first_fits, others_fit⟩ := List.forall_mem_cons.mp fits
    have stored := ih (stores.add keeps first_fits added).stored others_fit onward
    rwa [List.reverse_cons, List.append_assoc, List.singleton_append]

theorem Stores.extracts {image : Bytes} {done : List Item} {result : Except Failure Nat}
    (stores : Stores module Has shelf fs) (fits : ∀ item ∈ itemsOf image, item.Fits capacity)
    (extracts : Extracts image fs done trace result left) :
    Stores module Has (done.reverse ++ shelf) left := by
  cases extracts with
  | whole _ adds | faulty _ adds => exact stores.addAll keeps fits adds
  | refused split adds fails =>
    rw [split] at fits
    obtain ⟨done_fit, fits⟩ := List.forall_mem_append.mp fits
    have stored := stores.addAll keeps done_fit adds
    rcases stored.add keeps (fits _ List.mem_cons_self) fails with ⟨impossible, -⟩ | ⟨-, stored⟩
    · cases impossible
    · exact stored

theorem Stores.answers (stores : Stores module Has shelf fs) {path : String}
    (fits : PathFits capacity path) : Answers shelf path fs :=
  ⟨.of_every fun _ _ _ run => (stores.fileExists keeps fits run).2,
    .of_every fun _ _ _ run => (stores.contents keeps fits run).2⟩

theorem Stores.deposit {deposit : Deposit} (stores : Stores module Has shelf fs)
    (fits : deposit.Fits capacity) (run : Host.Does deposit.perform fs trace (.ok ()) left) :
    Stores module Has (deposit.items.reverse ++ shelf) left := by
  cases deposit with
  | file path contents =>
    have item_fits : Item.Fits capacity ⟨path, .file contents⟩ := fits _ List.mem_cons_self
    exact (stores.add keeps item_fits run).stored
  | directory path =>
    have item_fits : Item.Fits capacity ⟨path, .directory⟩ := fits _ List.mem_cons_self
    exact (stores.add keeps item_fits run).stored
  | archive image =>
    obtain ⟨count, between, first, last, unpacked, ended, -⟩ := Host.does_bind_ok.mp run
    obtain ⟨-, -, rfl⟩ := Host.does_pure.mp ended
    obtain ⟨done, extracts⟩ := does_untar.mp unpacked
    have stored := stores.extracts keeps fits extracts
    cases extracts with
    | whole _ _ => exact stored

theorem Stores.deposits {deposits : List Deposit} (stores : Stores module Has shelf fs)
    (fits : ∀ deposit ∈ deposits, deposit.Fits capacity)
    (run : Host.Does (deposits.forM Deposit.perform) fs trace (.ok ()) left) :
    Stores module Has (stocked deposits shelf) left := by
  induction deposits generalizing shelf fs trace with
  | nil =>
    obtain ⟨-, -, rfl⟩ := Host.does_pure.mp run
    exact stores
  | cons deposit later ih =>
    obtain ⟨_, between, first, rest, performed, onward, -⟩ := Host.does_bind_ok.mp run
    obtain ⟨first_fits, others_fit⟩ := List.forall_mem_cons.mp fits
    have stored := ih (stores.deposit keeps first_fits performed) others_fit onward
    rw [stocked] at stored ⊢
    rwa [List.flatMap_cons, List.reverse_append, List.append_assoc]

/-- After any sequence of deposits each path is answered by what was put there last. What is put
elsewhere then changes nothing of that. An image is extracted by putting its items there in order, up
to its own fault or the first item that is refused, and those before it are there. -/
theorem latest_deposit_served {deposits : List Deposit} (stores : Stores module Has shelf fs)
    (fits : ∀ deposit ∈ deposits, deposit.Fits capacity)
    (run : Host.Does (deposits.forM Deposit.perform) fs trace (.ok ()) left) :
    (∀ path, PathFits capacity path → Answers (stocked deposits shelf) path left) ∧
    (∀ item path, Item.Fits capacity item → PathFits capacity path → path ≠ item.path →
      Host.Ends item.add left fun _ after => Answers (stocked deposits shelf) path after) ∧
    ∀ image, (∀ trace result after, Host.Does (untar image) left trace result after ↔
        ∃ done, Extracts image left done trace result after) ∧
      ((∀ item ∈ itemsOf image, item.Fits capacity) →
        ∀ done trace result after, Extracts image left done trace result after →
          ∀ path, PathFits capacity path →
            Answers (done.reverse ++ stocked deposits shelf) path after) := by
  have stored := stores.deposits keeps fits run
  refine ⟨fun path fits => stored.answers keeps fits, fun item path item_fits path_fits other => ?_,
    fun image => ⟨fun _ _ _ => does_untar, ?_⟩⟩
  · refine .of_every fun _ _ after added => ?_
    rcases stored.add keeps item_fits added with ⟨-, more⟩ | ⟨-, same⟩
    · exact (more.answers keeps path_fits).of_cons other
    · exact same.answers keeps path_fits
  · intro fits done _ _ after extracts path path_fits
    exact (stored.extracts keeps fits extracts).answers keeps path_fits

end Deposits

def layered : List Deposit := [
  .file "a" [1, 2],
  .archive (Archive.write [.directory "lib", .file "a" [3]])]

/-- The file of the archive hides the other one. -/
theorem file_of_archive_served :
    (∀ deposit ∈ layered, deposit.Fits Allocator.pathRoom) ∧
    ∃ left, Host.Does (layered.forM Deposit.perform) unused [] (.ok ()) left ∧
      Host.Ends (contents "a") left (fun result _ => result = .ok [3]) ∧
      Host.Ends (fileExists "lib") left (fun result _ => result = .ok true) ∧
      Host.Ends (contents "b") left (fun result _ => result = .error (.fileNotFound "b")) := by
  have items_eq : layered.flatMap Deposit.items =
      [⟨"a", .file [1, 2]⟩, ⟨"lib", .directory⟩, ⟨"a", .file [3]⟩] := by
    decide +kernel
  have path_fits (path : String) (among : path ∈ ["a", "lib", "b"]) :
      PathFits Allocator.pathRoom path := by
    simp only [List.mem_cons, List.not_mem_nil, or_false] at among
    rcases among with rfl | rfl | rfl <;> constructor <;> decide +kernel
  have fits : ∀ deposit ∈ layered, deposit.Fits Allocator.pathRoom := by
    intro deposit among item item_among
    have listed : item ∈ layered.flatMap Deposit.items :=
      List.mem_flatMap.mpr ⟨deposit, among, item_among⟩
    rw [items_eq] at listed
    simp only [List.mem_cons, List.not_mem_nil, or_false] at listed
    rcases listed with rfl | rfl | rfl
    · exact ⟨path_fits "a" (by simp), fun | _, rfl => by decide +kernel⟩
    · exact ⟨path_fits "lib" (by simp), nofun⟩
    · exact ⟨path_fits "a" (by simp), fun | _, rfl => by decide +kernel⟩
  have stores : Stores () Allocator.Has [] unused :=
    ⟨_, 0, [], rfl, ⟨rfl, rfl, Allocator.sound_empty⟩, .nil⟩
  have performed : ((Host.follow [] ((layered.forM Deposit.perform :
      Action Engine.allocating PUnit).run.run unused)).map fun reached => reached.1.isOk) =
        some true := by
    decide +kernel
  obtain ⟨⟨result, left⟩, followed, ended⟩ := Option.map_eq_some_iff.mp performed
  cases result with
  | error failure => cases ended
  | ok _ =>
    have run : Host.Does (layered.forM Deposit.perform) unused [] (.ok ()) left :=
      Host.runs_of_follow followed
    obtain ⟨served, -⟩ := latest_deposit_served Engine.keepsNodes_allocating stores fits run
    rw [stocked, items_eq] at served
    refine ⟨fits, left, run, ?_, ?_, ?_⟩
    · exact (served "a" (path_fits "a" (by simp))).fetched.mono fun _ _ ends => ends.2 [3] rfl
    · refine (served "lib" (path_fits "lib" (by simp))).listed.mono fun _ _ ends => ?_
      obtain ⟨found, rfl, told⟩ := ends
      rw [told.mpr (by simp)]
    · exact (served "b" (path_fits "b" (by simp))).fetched.mono fun _ _ ends => ends.1 (by simp)

end Buildbox.Filesystem
