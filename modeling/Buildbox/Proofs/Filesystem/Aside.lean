import Buildbox.Proofs.Filesystem.Loan

/-!
The host's own work on the filesystem. No memory is lent to the module then, so that nothing is written
and nothing shown: at most a line of input is taken.
-/

set_option autoImplicit false

namespace Buildbox.Filesystem

/-- The output is where it was, and nothing is shown. -/
structure Desk.Still (found : Desk) (trace : Trace) (left : Desk) : Prop where
  wired : left.wired = found.wired
  heard : left.heard = found.heard
  carry : left.carry = found.carry
  unlent : left.window = none
  shown : trace.shown = ""

/-- What happens while no memory is lent. -/
def Aside (found : Desk) (trace : Trace) (left : Desk) : Prop :=
  found.window = none → found.Still trace left

theorem stretch_aside : Service.Stretch Aside where
  refl desk unlent := ⟨rfl, rfl, rfl, unlent, rfl⟩
  trans {a b c first later} early late unlent := by
    have first_still := early unlent
    have still := late first_still.unlent
    refine ⟨still.wired.trans first_still.wired, still.heard.trans first_still.heard,
      still.carry.trans first_still.carry, still.unlent, ?_⟩
    rw [Trace.shown_append, first_still.shown, still.shown]
    rfl

theorem aside_serveBound (functions : List HostFunction) (callee : Nat) (arguments : List Value) :
    Service.Within Aside (serveBound functions callee arguments) := by
  unfold serveBound
  split
  · intro found left trace result run unlent
    have still_unlent := unlent_serve _ _ _ _ _ _ run unlent
    -- nothing is written or delivered without a memory to take it from or to put it into
    have served := served_of_run run
    generalize arguments.map Value.word = words at served
    cases served with
    | idle _ _ kept shows =>
      exact ⟨(congrArg Desk.wired kept :), (congrArg Desk.heard kept :),
        (congrArg Desk.carry kept :), still_unlent, shows.shown⟩
    | wrote lent _ _ =>
      rw [unlent] at lent
      cases lent
    | read reads =>
      rcases reads.ends with ⟨-, kept⟩ | ⟨_, _, _, lent, -⟩
      · exact ⟨(congrArg Desk.wired kept :), (congrArg Desk.heard kept :),
          (congrArg Desk.carry kept :), still_unlent, reads.shown⟩
      · rw [unlent] at lent
        cases lent
    | misread same nothing =>
      rw [same, nothing]
      exact ⟨rfl, rfl, rfl, unlent, rfl⟩
  · exact stretch_aside.throw _

/-- Nothing of the output is held back, and no memory is lent. -/
structure Desk.Settled (desk : Desk) : Prop where
  carry : desk.carry = .empty
  unlent : desk.window = none

namespace Desk

variable {desk left : Desk} {trace : Trace} {guest : GuestId}

theorem Still.settled (still : desk.Still trace left) (settled : desk.Settled) : left.Settled :=
  ⟨still.carry.trans settled.carry, still.unlent⟩

private theorem finish_empty : Utf8.Carry.empty.finish = "" := by
  simp [Utf8.Carry.finish, Utf8.Carry.empty, Utf8.lossy, Utf8.lossyChars]

theorem Settled.finish (settled : desk.Settled) : desk.routed desk.carry.finish = "" := by
  rw [settled.carry, finish_empty]
  exact ite_self _

theorem Settled.flushed (settled : desk.Settled) : desk.flushed = desk := by
  obtain ⟨wired, window, heard, unread, carry⟩ := desk
  obtain ⟨rfl, rfl⟩ := settled
  rw [Desk.flushed, finish_empty, hearing_empty]

/-- A settled desk passes to another holder without a word. -/
theorem Settled.wire {writesStdout : Bool} (settled : desk.Settled)
    (run : Host.Runs (desk.wire guest writesStdout) trace left) :
    left.Settled ∧ left.heard = desk.heard ∧ left.wired = some ⟨guest, writesStdout⟩ ∧
      trace.shown = "" := by
  rcases runs_wire run with ⟨-, rfl, shows⟩ | ⟨-, rfl, shows⟩
  · rw [settled.flushed]
    exact ⟨⟨settled.carry, settled.unlent⟩, rfl, rfl, shows.shown.trans settled.finish⟩
  · exact ⟨⟨settled.carry, settled.unlent⟩, rfl, rfl, shows.shown⟩

theorem Settled.unwire (settled : desk.Settled)
    (run : Host.Runs (desk.unwire guest) trace left) :
    left.Settled ∧ left.heard = desk.heard ∧ (left.wired = none ∨ left.wired = desk.wired) ∧
      trace.shown = "" := by
  rcases runs_unwire run with ⟨-, rfl, shows⟩ | ⟨-, rfl, shows⟩
  · rw [settled.flushed]
    exact ⟨⟨settled.carry, settled.unlent⟩, rfl, .inl rfl, shows.shown.trans settled.finish⟩
  · exact ⟨settled, rfl, .inr rfl, shows.shown⟩

end Desk

variable {engine : Engine}

section Parts

variable {R : Filesystem engine → Trace → Filesystem engine → Prop}

/-- What holds of each call of the module and of each access to its memory, and so of the operations
that are made of these. -/
structure Made (R : Filesystem engine → Trace → Filesystem engine → Prop) : Prop where
  stretch : Service.Stretch R
  call : ∀ name arguments, Host.Within R (call name arguments)
  onMemory : ∀ {α : Type} (access : Memory.Access α), Host.Within R (onMemory access)

namespace Made

theorem stagePath (made : Made R) (path : String) : Host.Within R (Filesystem.stagePath path) :=
  .bind made.stretch (made.call _ _) fun _ =>
    .bind made.stretch (made.onMemory _) fun _ => .pure made.stretch _

theorem find (made : Made R) (path : String) : Host.Within R (Filesystem.find path) :=
  .bind made.stretch (made.stagePath path) fun _ => made.call _ _

theorem addDirectory (made : Made R) (path : String) :
    Host.Within R (Filesystem.addDirectory path) :=
  .bind made.stretch (made.stagePath path) fun _ =>
    .bind made.stretch (made.call _ _) fun _ => .pure made.stretch _

theorem addFile (made : Made R) (path : String) (contents : Bytes) :
    Host.Within R (Filesystem.addFile path contents) :=
  .bind made.stretch (made.stagePath path) fun _ =>
    .bind made.stretch (made.call _ _) fun _ =>
      .bind made.stretch (made.call _ _) fun _ => made.onMemory _

theorem fileExists (made : Made R) (path : String) : Host.Within R (Filesystem.fileExists path) :=
  .bind made.stretch (made.find path) fun _ => .pure made.stretch _

theorem contents (made : Made R) (path : String) : Host.Within R (Filesystem.contents path) := by
  refine .bind made.stretch (made.find path) fun node => ?_
  have found : Host.Within R (do
      let address ← Filesystem.call "GetFileNodeAddress" [.i32 node]
      let size ← Filesystem.call "GetFileNodeSize" [.i32 node]
      Filesystem.onMemory (Memory.read address size.toNat)) :=
    .bind made.stretch (made.call _ _) fun _ =>
      .bind made.stretch (made.call _ _) fun _ => made.onMemory _
  split
  · exact .bind made.stretch (.throw made.stretch _) fun _ => found
  · exact found

theorem addEntry (made : Made R) (entry : Archive.Entry) :
    Host.Within R (Filesystem.addEntry entry) := by
  unfold Filesystem.addEntry
  split
  · exact made.addFile _ _
  · exact made.addDirectory _

theorem untar (made : Made R) (image : Bytes) : Host.Within R (Filesystem.untar image) := by
  unfold Filesystem.untar Archive.unpack
  refine .bind made.stretch (.forM made.stretch made.addEntry _) fun _ => ?_
  split
  · exact .throw made.stretch _
  · exact .pure made.stretch _

end Made

end Parts

/-- The module stays, and what happens to the desk happens while no memory is lent. -/
def Works (found : Filesystem engine) (trace : Trace) (left : Filesystem engine) : Prop :=
  Aside found.desk trace left.desk

theorem stretch_works : Service.Stretch (@Works engine) where
  refl fs := stretch_aside.refl fs.desk
  trans := stretch_aside.trans

theorem works_call (name : String) (arguments : List Value) :
    Host.Within (@Works engine) (call name arguments) := by
  intro found trace result left ran
  obtain ⟨calls, ended, records, rfl, rfl⟩ := calls_of_call ran
  exact records.closure stretch_aside (aside_serveBound _)

theorem works_onMemory {α : Type} (access : Memory.Access α) :
    Host.Within (@Works engine) (onMemory access) := by
  intro found trace result left ran
  obtain ⟨rfl, same⟩ := silent_of_onMemory ran
  rw [Works, same]
  exact stretch_aside.refl _

theorem made_works : Made (@Works engine) :=
  ⟨stretch_works, works_call, works_onMemory⟩

theorem works_addDirectory (path : String) : Host.Within (@Works engine) (addDirectory path) :=
  made_works.addDirectory path

theorem works_addFile (path : String) (contents : Bytes) :
    Host.Within (@Works engine) (addFile path contents) :=
  made_works.addFile path contents

theorem works_fileExists (path : String) : Host.Within (@Works engine) (fileExists path) :=
  made_works.fileExists path

theorem works_contents (path : String) : Host.Within (@Works engine) (contents path) :=
  made_works.contents path

theorem works_untar (image : Bytes) : Host.Within (@Works engine) (untar image) :=
  made_works.untar image

theorem still_of_new {module : engine.Module} {trace : Trace} {fs : Filesystem engine}
    (run : Host.Runs (new engine module).run trace (.ok fs)) :
    ({} : Desk).Still trace fs.desk := by
  obtain ⟨functions, calls, ended, later, word, -, records, rfl, ran⟩ := calls_of_new run
  have set_up := records.closure stretch_aside (aside_serveBound functions)
  exact stretch_aside.trans set_up (works_call _ _ _ _ _ _ ran) rfl

end Buildbox.Filesystem
