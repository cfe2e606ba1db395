import Buildbox.Proofs.Filesystem.Serving
import Buildbox.Proofs.Host.Action
import Buildbox.Proofs.Session.Traffic

/-!
Where lines are waited for. Whatever a builder is asked for, it waits for lines in reads of the
filesystem module only: when nothing comes, the read ends in a fault, and what is left goes on from
there.
-/

set_option autoImplicit false

namespace Buildbox

namespace Host

variable {ε σ α β : Type}

theorem continues_done {a : α} {rest : Host α} (continues : (done a).Continues rest) :
    rest = .done a := by
  induction continues with
  | start => rfl
  | answered answer _ ih => cases ih

theorem continues_ask {query : Query} {resume : query.Answer → Host α} {rest : Host α}
    (continues : (ask query resume).Continues rest) :
    rest = .ask query resume ∨ ∃ answer, (resume answer).Continues rest := by
  induction continues with
  | start => exact .inl rfl
  | answered answer _ ih =>
    rcases ih with same | ⟨first, earlier⟩
    · cases same
      exact .inr ⟨answer, .start⟩
    · exact .inr ⟨first, earlier.answered answer⟩

theorem continues_bind {c : Host α} {next : α → Host β} {rest : Host β}
    (continues : (c >>= next).Continues rest) :
    (∃ left, c.Continues left ∧ rest = left >>= next) ∨
      ∃ a, c.Continues (.done a) ∧ (next a).Continues rest := by
  induction continues with
  | start => exact .inl ⟨c, .start, rfl⟩
  | answered answer _ ih =>
    rcases ih with ⟨left, reached, same⟩ | ⟨a, reached, later⟩
    · cases left with
      | done a => exact .inr ⟨a, reached, (same ▸ .start : (next a).Continues _).answered answer⟩
      | ask query resume =>
        cases same
        exact .inl ⟨resume answer, reached.answered answer, rfl⟩
    · exact .inr ⟨a, reached, later.answered answer⟩

/-- What is left is a read that waits for its line, and what goes on after it. -/
def Reading (rest : Host α) : Prop :=
  ∃ found buffers count readOut goOn,
    rest = (Filesystem.awaitLine buffers count readOut).run.run found >>= goOn

/-- Whenever the computation waits for a line, it is reading. -/
def Heeds (c : Host α) : Prop :=
  ∀ resume, c.Continues (.ask .takeLine resume) → Reading (.ask .takeLine resume)

theorem Reading.bind {rest : Host α} (reading : rest.Reading) (next : α → Host β) :
    Reading (rest >>= next) := by
  obtain ⟨found, buffers, count, readOut, goOn, rfl⟩ := reading
  exact ⟨found, buffers, count, readOut, fun reached => goOn reached >>= next, bind_assoc ..⟩

namespace Heeds

theorem pure (a : α) : Heeds (Pure.pure a : Host α) := by
  intro resume continues
  cases continues_done continues

theorem bind {c : Host α} {next : α → Host β} (first : c.Heeds) (onward : ∀ a, (next a).Heeds) :
    (c >>= next).Heeds := by
  intro resume continues
  rcases continues_bind continues with ⟨left, reached, same⟩ | ⟨a, -, later⟩
  · cases left with
    | done a => exact onward a resume (same ▸ .start)
    | ask query rest =>
      cases same
      exact (first rest reached).bind next
  · exact onward a resume later

theorem ask {query : Query} {resume : query.Answer → Host α} (other : query ≠ .takeLine)
    (each : ∀ answer, (resume answer).Heeds) : (Host.ask query resume).Heeds := by
  intro rest continues
  rcases continues_ask continues with same | ⟨answer, later⟩
  · cases same
    exact absurd rfl other
  · exact each answer rest later

theorem query {q : Query} (other : q ≠ .takeLine) : (Host.query q).Heeds :=
  ask other pure

end Heeds

/-- An operation that waits for lines in reads only, whatever state it finds. -/
def Heedful (action : ExceptT ε (StateT σ Host) α) : Prop :=
  ∀ found, (action.run.run found).Heeds

namespace Heedful

theorem pure (a : α) : Heedful (Pure.pure a : ExceptT ε (StateT σ Host) α) :=
  fun _ => .pure _

theorem throw (failure : ε) : Heedful (MonadExcept.throw failure : ExceptT ε (StateT σ Host) α) :=
  fun _ => .pure _

theorem get : Heedful (MonadState.get : ExceptT ε (StateT σ Host) σ) :=
  fun _ => .pure _

theorem set (put : σ) : Heedful (MonadStateOf.set put : ExceptT ε (StateT σ Host) PUnit) :=
  fun _ => .pure _

theorem update (change : σ → σ) : Heedful (modify change : ExceptT ε (StateT σ Host) PUnit) :=
  fun _ => .pure _

theorem bind {action : ExceptT ε (StateT σ Host) α} {next : α → ExceptT ε (StateT σ Host) β}
    (first : Heedful action) (onward : ∀ a, Heedful (next a)) : Heedful (action >>= next) := by
  intro found
  refine Heeds.bind (first found) fun ⟨reached, between⟩ => ?_
  cases reached with
  | ok a => exact onward a between
  | error failure => exact .pure _

theorem throw_bind (failure : ε) (next : α → ExceptT ε (StateT σ Host) β) :
    Heedful (MonadExcept.throw failure >>= next) :=
  fun _ => .pure _

theorem ite {c : Prop} [Decidable c] {yes no : ExceptT ε (StateT σ Host) α} (first : Heedful yes)
    (second : Heedful no) : Heedful (if c then yes else no) := by
  split
  · exact first
  · exact second

theorem when {c : Prop} [Decidable c] {action : ExceptT ε (StateT σ Host) α}
    {rest : ExceptT ε (StateT σ Host) β} (first : Heedful action) (onward : Heedful rest) :
    Heedful (if c then action >>= fun _ => rest else rest) :=
  ite (bind first fun _ => onward) onward

theorem tryCatch {action : ExceptT ε (StateT σ Host) α}
    {handler : ε → ExceptT ε (StateT σ Host) α} (first : Heedful action)
    (onward : ∀ failure, Heedful (handler failure)) :
    Heedful (MonadExcept.tryCatch action handler) := by
  intro found
  refine Heeds.bind (first found) fun ⟨reached, between⟩ => ?_
  cases reached with
  | ok a => exact .pure _
  | error failure => exact onward failure between

theorem lift {c : Host α} (heeds : c.Heeds) :
    Heedful (liftM c : ExceptT ε (StateT σ Host) α) :=
  fun _ => .bind (.bind heeds fun _ => .pure _) fun _ => .pure _

theorem forM {visit : β → ExceptT ε (StateT σ Host) PUnit} (each : ∀ b, Heedful (visit b))
    (all : List β) : Heedful (all.forM visit) := by
  induction all with
  | nil => exact pure _
  | cons b rest ih => exact bind (each b) fun _ => ih

end Heedful

theorem Heeds.try_bind {action : ExceptT ε Host α} {next : α → ExceptT ε Host β}
    (first : action.run.Heeds) (onward : ∀ a, (next a).run.Heeds) :
    (action >>= next).run.Heeds := by
  refine .bind first fun reached => ?_
  cases reached with
  | ok a => exact onward a
  | error failure => exact .pure _

theorem Heeds.try_lift {c : Host α} (heeds : c.Heeds) : (liftM c : ExceptT ε Host α).run.Heeds :=
  .bind heeds fun _ => .pure _

end Host

theorem Progress.task_of_parts {m : Type → Type} [Monad m] [MonadLiftT Host m]
    (holds : {α : Type} → m α → Prop) (done : ∀ {α : Type} (a : α), holds (pure a))
    (chain : ∀ {α β : Type} {first : m α} {next : α → m β},
      holds first → (∀ a, holds (next a)) → holds (first >>= next))
    (asked : ∀ q, q ≠ .takeLine → holds (liftM (Host.query q) : m q.Answer)) {α : Type}
    (timing : Bool) (message : String) {work : m α} (working : holds work) :
    holds (task timing message work) := by
  have ended (a : α) : holds (do
      (liftM (Host.write "\r\n") : m Unit)
      return a) := chain (asked _ nofun) fun _ => done _
  refine chain (asked _ nofun) fun _ => chain (asked _ nofun) fun _ => chain working fun a =>
    chain (asked _ nofun) fun _ => ?_
  split
  · exact chain (asked _ nofun) fun _ => chain (asked _ nofun) fun _ => ended a
  · exact ended a

theorem Host.heeds_task {ε α : Type} (timing : Bool) (message : String)
    {work : ExceptT ε Host α} (working : work.run.Heeds) :
    (Progress.task timing message work).run.Heeds :=
  Progress.task_of_parts (fun action => Heeds (ExceptT.run action)) (fun _ => .pure _) .try_bind
    (fun _ other => .try_lift (.query other)) timing message working

theorem Host.heedful_task {ε σ α : Type} (timing : Bool) (message : String)
    {work : ExceptT ε (StateT σ Host) α} (working : Heedful work) :
    Heedful (Progress.task timing message work) :=
  Progress.task_of_parts Heedful .pure .bind (fun _ other => .lift (.query other)) timing message
    working

namespace Filesystem

open Host (Heeds Heedful)

section Services

variable {σ : Type}

theorem heedful_ofHost {α : Type} {c : Host α} (heeds : c.Heeds) :
    Heedful (Service.ofHost c : Service σ α) :=
  .lift heeds

theorem heedful_fault {α : Type} (fault : Fault) : Heedful (Service.fault fault : Service σ α) :=
  .throw _

theorem heedful_state : Heedful (Service.state : Service σ σ) :=
  .bind .get fun _ => .pure _

theorem heedful_update (change : σ → σ) : Heedful (Service.update change) :=
  .update _

theorem heedful_onMemory {α : Type} (access : Memory.Access α) :
    Heedful (Service.onMemory access : Service σ α) := by
  refine .bind .get fun ⟨memory, state⟩ => ?_
  cases memory with
  | none => exact heedful_fault _
  | some memory =>
    refine .bind (.set _) fun _ => ?_
    split
    · exact .pure _
    · exact heedful_fault _

end Services

theorem heedful_ensureOpen : Heedful ensureOpen := by
  refine .bind (heedful_ofHost (.query nofun)) fun closed => ?_
  split
  · exact heedful_fault _
  · exact .pure _

theorem heedful_onWindow {α : Type} (access : Memory.Access α) : Heedful (onWindow access) := by
  refine .bind heedful_state fun desk => ?_
  split
  · exact heedful_fault _
  · refine .bind (heedful_update _) fun _ => ?_
    split
    · exact .pure _
    · exact heedful_fault _

namespace Desk

theorem heeds_emit (desk : Desk) (text : String) : (desk.emit text).Heeds := by
  unfold emit
  split
  · exact .pure _
  · split
    · exact .bind (.query nofun) fun _ => .pure _
    · exact .pure _

variable (desk : Desk) (guest : GuestId)

theorem heeds_flush : desk.flush.Heeds :=
  heeds_emit _ _

theorem heeds_close : desk.close.Heeds :=
  .bind desk.heeds_flush fun _ => .pure _

theorem heeds_wire (writesStdout : Bool) : (desk.wire guest writesStdout).Heeds := by
  unfold wire
  split
  · exact .bind desk.heeds_close fun _ => .pure _
  · exact .bind (.pure _) fun _ => .pure _

theorem heeds_unwire : (desk.unwire guest).Heeds := by
  unfold unwire
  split
  · exact .bind desk.heeds_close fun _ => .pure _
  · exact .pure _

theorem heeds_flushOf : (desk.flushOf guest).Heeds := by
  unfold flushOf
  split
  · exact desk.heeds_flush
  · exact .pure _

end Desk

theorem heedful_hostWrite (descriptor buffers count writtenOut : UInt32) :
    Heedful (hostWrite descriptor buffers count writtenOut) := by
  refine .bind heedful_ensureOpen fun _ => ?_
  split
  case' isTrue => refine .bind (heedful_fault _) fun _ => ?_
  all_goals
    exact .bind (heedful_onWindow _) fun _ => .bind heedful_state fun _ =>
      .bind (heedful_ofHost (Desk.heeds_emit _ _)) fun _ => .bind (heedful_update _) fun _ =>
        .pure _

theorem heedful_placeUnread (buffers count readOut : UInt32) :
    Heedful (placeUnread buffers count readOut) :=
  .bind heedful_state fun _ => .bind (heedful_onWindow _) fun _ =>
    .bind (heedful_update _) fun _ => .pure _

theorem heedful_awaitLine (buffers count readOut : UInt32) :
    Heedful (awaitLine buffers count readOut) := by
  intro found resume continues
  have placed : Heedful (placeUnread buffers count readOut) := heedful_placeUnread _ _ _
  rcases Host.continues_ask continues with same | ⟨line, later⟩
  · rw [same]
    exact ⟨found, buffers, count, readOut, pure, (bind_pure _).symm⟩
  · cases line with
    | none => exact Heedful.bind (heedful_fault _) (fun _ => placed) found resume later
    | some line => exact Heedful.bind (heedful_update _) (fun _ => placed) found resume later

theorem heedful_hostRead (descriptor buffers count readOut : UInt32) :
    Heedful (hostRead descriptor buffers count readOut) := by
  have placed : Heedful (placeUnread buffers count readOut) := heedful_placeUnread _ _ _
  have reading : Heedful (do
      if (← Service.state).unread.isEmpty then
        if !(← Service.ofHost Host.askLine) then
          onWindow (Memory.writeWord readOut 0)
          return success
        awaitLine buffers count readOut
      else placeUnread buffers count readOut) := by
    refine .bind heedful_state fun desk => ?_
    split
    · refine .bind (heedful_ofHost (.query nofun)) fun answers => ?_
      split
      · exact .bind (heedful_onWindow _) fun _ => .pure _
      · exact heedful_awaitLine _ _ _
    · exact placed
  refine .bind heedful_ensureOpen fun _ => ?_
  split
  · exact .bind (heedful_fault _) fun _ => reading
  · exact reading

theorem heedful_ensureMemory : Heedful ensureMemory := by
  refine .bind .get fun _ => ?_
  split
  · exact heedful_fault _
  · exact .pure _

theorem heedful_serve (f : HostFunction) (arguments : List Value) :
    Heedful (serve f arguments) := by
  unfold serve
  split
  · exact .bind heedful_ensureOpen fun _ => .throw _
  · exact heedful_hostWrite _ _ _ _
  · exact heedful_hostRead _ _ _ _
  · exact .bind heedful_ensureOpen fun _ => .bind (heedful_onMemory _) fun _ =>
      .bind (heedful_ofHost (.query nofun)) fun _ => .pure _
  · exact .bind heedful_ensureMemory fun _ => .bind heedful_ensureOpen fun _ =>
      .bind (heedful_onWindow _) fun _ => .bind (heedful_onMemory _) fun _ => .pure _
  · exact .bind heedful_ensureMemory fun _ => .bind heedful_ensureOpen fun _ =>
      .bind (heedful_onMemory _) fun _ => .bind (heedful_onWindow _) fun _ => .pure _
  · exact heedful_fault _

end Filesystem

open Host (Heeds Heedful)

variable {engine : Engine}

/-- A guest call waits for lines where its host does. -/
theorem Activity.heeds_drive {σ : Type} {serve : Nat → List Value → Service σ (List Value)}
    (serves : ∀ callee arguments, Heedful (serve callee arguments))
    (act : Activity engine.Instance) (host : σ) : (act.drive engine serve host).Heeds := by
  induction act generalizing host with
  | returned inst results => exact .pure _
  | trapped inst trap => exact .pure _
  | calling inst callee arguments direct resume ih =>
    rw [drive_calling]
    refine .bind (serves callee arguments _) fun ⟨result, memory, left⟩ => ?_
    cases result with
    | ok values => exact ih _ _ _
    | error signal => exact .pure _

namespace Filesystem

theorem heedful_serveBound (functions : List HostFunction) (callee : Nat)
    (arguments : List Value) : Heedful (serveBound functions callee arguments) := by
  unfold serveBound
  split
  · exact heedful_serve _ _
  · exact heedful_fault _

theorem heedful_call (name : String) (arguments : List Value) :
    Heedful (call name arguments : Action engine UInt32) := by
  refine .bind .get fun fs => .bind (.lift (Activity.heeds_drive ?_ _ _)) fun ended =>
    .bind (.set _) fun _ => ?_
  · exact heedful_serveBound _
  · split
    · exact .pure _
    · exact .throw _

theorem heedful_access {α : Type} (access : Memory.Access α) :
    Heedful (onMemory access : Action engine α) := by
  refine .bind .get fun fs => ?_
  split
  · exact .throw _
  · refine .bind (.set _) fun _ => ?_
    split
    · exact .pure _
    · exact .throw _

theorem heedful_stagePath (path : String) : Heedful (stagePath path : Action engine UInt32) :=
  .bind (heedful_call _ _) fun _ => .bind (heedful_access _) fun _ => .pure _

theorem heedful_find (path : String) : Heedful (find path : Action engine UInt32) :=
  .bind (heedful_stagePath path) fun _ => heedful_call _ _

theorem heedful_addDirectory (path : String) :
    Heedful (addDirectory path : Action engine Unit) :=
  .bind (heedful_stagePath path) fun _ => .bind (heedful_call _ _) fun _ => .pure _

theorem heedful_addFile (path : String) (contents : Bytes) :
    Heedful (addFile path contents : Action engine Unit) :=
  .bind (heedful_stagePath path) fun _ => .bind (heedful_call _ _) fun _ =>
    .bind (heedful_call _ _) fun _ => heedful_access _

theorem heedful_contents (path : String) : Heedful (contents path : Action engine Bytes) := by
  refine .bind (heedful_find path) fun node => ?_
  have found : Heedful (do
      let address ← call "GetFileNodeAddress" [.i32 node]
      let size ← call "GetFileNodeSize" [.i32 node]
      onMemory (Memory.read address size.toNat) : Action engine Bytes) :=
    .bind (heedful_call _ _) fun _ => .bind (heedful_call _ _) fun _ => heedful_access _
  split
  · exact .bind (.throw _) fun _ => found
  · exact found

theorem heedful_untar (image : Bytes) : Heedful (untar image : Action engine Nat) := by
  have each (entry : Archive.Entry) : Heedful (addEntry entry : Action engine Unit) := by
    unfold addEntry
    split
    · exact heedful_addFile _ _
    · exact heedful_addDirectory _
  unfold untar Archive.unpack
  refine .bind (.forM each _) fun _ => ?_
  split
  · exact .throw _
  · exact .pure _

theorem heeds_new (module : engine.Module) : (new engine module).run.Heeds := by
  have lifted {α : Type} (result : Except Failure α) : (new.liftExcept result).run.Heeds := by
    cases result with
    | ok a => exact .pure _
    | error failure => exact .pure _
  refine .try_bind (lifted _) fun functions => .try_bind (.try_lift ?_) fun ended => ?_
  · exact Activity.heeds_drive (heedful_serveBound functions) _ _
  · split
    · exact .pure _
    · refine .try_bind (lifted _) fun _ =>
        .try_bind (.try_lift (heedful_call _ _ _)) fun ⟨result, fs⟩ => ?_
      cases result with
      | ok _ => exact .pure _
      | error failure => exact .pure _

section Desk

variable (fs : Filesystem engine) (guest : GuestId)

private theorem heeds_onDesk {change : Desk → Host Desk} (heeds : ∀ desk, (change desk).Heeds) :
    (fs.onDesk change).Heeds :=
  .bind (heeds _) fun _ => .pure _

theorem heeds_wire (writesStdout : Bool) : (fs.wire guest writesStdout).Heeds :=
  fs.heeds_onDesk fun desk => desk.heeds_wire guest writesStdout

theorem heeds_unwire : (fs.unwire guest).Heeds :=
  fs.heeds_onDesk fun desk => desk.heeds_unwire guest

theorem heeds_flushOf : (fs.flushOf guest).Heeds :=
  fs.heeds_onDesk fun desk => desk.heeds_flushOf guest

theorem heeds_forward (name : String) (memory : Memory) (arguments : List Value) (results : Nat) :
    (fs.forward guest name memory arguments results).Heeds := by
  refine .bind (.query nofun) fun closed => ?_
  split
  · exact .pure _
  split
  · exact .pure _
  split
  · exact .pure _
  split
  · exact .pure _
  · exact .bind (Activity.heeds_drive (heedful_serveBound _) _ _) fun _ => .pure _

end Desk

end Filesystem

section Link

variable {σ : Type} (self : Identity) (arguments : List Value)

theorem Syscall.heedful_serve (argv : List String) (call : Syscall) :
    Heedful (call.serve argv arguments : Service σ (List Value)) := by
  have onMemory {α : Type} (access : Memory.Access α) :
      Heedful (Service.onMemory access : Service σ α) := Filesystem.heedful_onMemory access
  have answered (access : Memory.Access Unit) : Heedful (do
      Service.onMemory access
      return success : Service σ (List Value)) := .bind (onMemory _) fun _ => .pure _
  have laid (access : Memory.Access Unit) : Heedful (do
      Service.checked (Service.onMemory access)
      return success : Service σ (List Value)) := by
    refine .bind (.tryCatch (onMemory _) fun signal => ?_) fun _ => .pure _
    exact .when (.lift (.query nofun)) (.throw _)
  unfold serve
  split
  · exact .throw _
  · exact answered _
  · exact laid _
  · exact answered _
  · exact laid _
  · exact .bind (onMemory _) fun _ => .bind (.lift (.query nofun)) fun _ => answered _
  · exact .bind (.lift (.query nofun)) fun _ => laid _
  · exact .throw _
  · exact .throw _

theorem Binding.heedful_serve (binding : Binding) :
    Heedful (binding.serve self arguments : Service (Filesystem engine) (List Value)) := by
  cases binding with
  | process call => exact call.heedful_serve _ _
  | missing name => exact .throw _
  | forwarded name type =>
    refine .bind .get fun ⟨memory, fs⟩ => ?_
    cases memory with
    | none => exact .throw _
    | some memory =>
      refine .bind (.lift (fs.heeds_forward _ _ _ _ _)) fun ⟨result, memory, fs⟩ =>
        .bind (.set _) fun _ => ?_
      cases result with
      | ok values => exact .pure _
      | error signal => exact .throw _

theorem heedful_serveBindings (bindings : List Binding) (callee : Nat) :
    Heedful (serveBindings self bindings callee arguments :
      Service (Filesystem engine) (List Value)) := by
  unfold serveBindings
  split
  · exact Binding.heedful_serve _ _ _
  · exact .throw _

end Link

namespace Guest

variable (guest : Guest engine) (fs : Filesystem engine)

theorem heeds_instantiate : (guest.instantiate fs).Heeds := by
  unfold instantiate
  split
  · exact .pure _
  · exact .pure _
  split
  · exact .pure _
  refine .bind (Activity.heeds_drive (fun _ _ => heedful_serveBindings _ _ _ _) _ _) fun ended => ?_
  split
  · exact .pure _
  split
  · exact .pure _
  · exact .bind (Filesystem.heeds_wire _ _ _) fun _ => .pure _

theorem heeds_settle (outcome : Outcome) (mode : RunMode) :
    (guest.settle fs outcome mode).Heeds := by
  refine .bind (fs.heeds_flushOf _) fun _ => ?_
  split
  · exact .pure _
  split
  · exact .bind (.query nofun) fun _ => .pure _
  · exact .pure _

theorem heeds_invoke (state : engine.Instance) (bindings : List Binding) (type : FunctionType)
    (name : String) (mode : RunMode) : (guest.invoke fs state bindings type name mode).Heeds := by
  unfold invoke
  split
  case' h_1 => refine .bind (.pure _) fun _ => ?_
  case' h_2 =>
    refine .bind (Activity.heeds_drive (fun _ _ => heedful_serveBindings _ _ _ _) _ _) fun _ =>
      .bind (.pure _) fun _ => ?_
  all_goals exact .bind (heeds_settle _ _ _ _) fun _ => .pure _

theorem heeds_run (mode : RunMode) : (guest.run fs mode).Heeds := by
  unfold run
  split
  · exact heeds_invoke _ _ _ _ _ _ _
  · exact .pure _

theorem heeds_callAgain (name : String) : (guest.callAgain fs name).Heeds := by
  unfold callAgain
  split
  · split
    · exact .pure _
    split
    · exact .pure _
    · exact .bind (fs.heeds_wire _ _) fun _ => .bind (heeds_invoke _ _ _ _ _ _ _) fun _ => .pure _
  · exact .pure _

theorem heeds_drop : (guest.drop fs).Heeds :=
  fs.heeds_unwire _

end Guest

namespace ModuleCache

theorem heeds_fetchArtifact (name : String) : (fetchArtifact name).run.Heeds := by
  refine .try_bind (.try_lift (.query nofun)) fun fetched => ?_
  cases fetched with
  | ok bytes => exact .pure _
  | error fault => exact .pure _

theorem heeds_get (cache : ModuleCache engine) (timing : Bool) (name : String) :
    (cache.get timing name).Heeds := by
  have loads : (load engine timing name).run.Heeds := by
    refine Host.heeds_task timing _ (.try_bind (heeds_fetchArtifact name) fun bytes => ?_)
    split
    · exact .pure _
    · exact .pure _
  unfold get
  dsimp only
  split
  · exact .pure _
  · exact .bind loads fun _ => .pure _

end ModuleCache

namespace Toolchain

theorem heedful_raise {α : Type} (result : Except Failure α) :
    Heedful (raise result : Action engine α) := by
  cases result with
  | ok a => exact .pure _
  | error failure => exact .throw _

theorem heeds_prepare (config : Config) (timing : Bool) :
    (prepare engine config timing).run.Heeds := by
  refine .try_bind (ModuleCache.heeds_fetchArtifact _) fun binary => ?_
  split
  · exact .pure _
  · refine .try_bind (Filesystem.heeds_new _) fun fs => Host.heeds_task timing _ ?_
    refine .try_bind (ModuleCache.heeds_fetchArtifact _) fun image =>
      .try_bind (.try_lift (Filesystem.heedful_untar image fs)) fun ⟨result, fs⟩ => ?_
    cases result with
    | ok _ => exact .pure _
    | error failure => exact .pure _

theorem heedful_ready : Heedful (ready : Action engine (Filesystem engine)) := by
  refine .bind .get fun self => ?_
  split
  · exact heedful_raise _
  · exact .bind (.lift (heeds_prepare _ _)) fun _ => .bind (.set _) fun _ => heedful_raise _

theorem heedful_keep (fs : Filesystem engine) : Heedful (keep fs) :=
  .update _

theorem heedful_onFilesystem {α : Type} {action : Filesystem.Action engine α}
    (heedful : Heedful action) : Heedful (onFilesystem action) :=
  .bind heedful_ready fun fs => .bind (.lift (heedful fs)) fun _ =>
    .bind (heedful_keep _) fun _ => heedful_raise _

theorem heedful_module (name : String) : Heedful (module name : Action engine engine.Module) :=
  .bind .get fun self => .bind (.lift (self.cache.heeds_get _ name)) fun _ =>
    .bind (.update _) fun _ => heedful_raise _

theorem heedful_drop (guest : Guest engine) : Heedful (drop guest) :=
  .bind heedful_ready fun fs => .bind (.lift (guest.heeds_drop fs)) fun _ => heedful_keep _

theorem heeds_runTiming (timing : Bool) (instantiation run : Nat) :
    (Progress.runTiming timing instantiation run).Heeds := by
  unfold Progress.runTiming
  split
  · exact .query nofun
  · exact .pure _

theorem heedful_run (module : engine.Module) (stage : Stage) (program : String)
    (arguments : List String) : Heedful (run module stage program arguments) := by
  have elapsed : Heedful ((Host.elapsed : Host Nat) : Action engine Nat) := .lift (.query nofun)
  have ended (started instantiated finished : Nat) (outcome : Outcome) (guest : Guest engine) :
      Heedful (do
        if stage.writesStdout then
          (Host.write "\r\n" : Host Unit)
          (Progress.runTiming (← get).showTiming (instantiated - started)
            (finished - instantiated) : Host Unit)
        return (outcome, guest) : Action engine (Outcome × Guest engine)) := by
    split
    · exact .bind (.lift (.query nofun)) fun _ => .bind .get fun _ =>
        .bind (.lift (heeds_runTiming _ _ _)) fun _ => .pure _
    · exact .pure _
  refine .when (.lift (.query nofun)) ?_
  refine .bind elapsed fun started => .bind .get fun self => .bind (.set _) fun _ =>
    .bind heedful_ready fun fs => .bind (.lift (Guest.heeds_instantiate _ fs)) fun reached => ?_
  obtain ⟨result, guest, fs⟩ := reached
  refine .bind (heedful_keep fs) fun _ => ?_
  cases result with
  | error failure => exact .bind (heedful_drop guest) fun _ => .throw_bind _ _
  | ok _ =>
    refine .bind elapsed fun instantiated => .bind heedful_ready fun fs =>
      .bind (.lift (guest.heeds_run fs _)) fun reached => ?_
    obtain ⟨outcome, guest, fs⟩ := reached
    refine .bind (heedful_keep fs) fun _ => .bind elapsed fun finished =>
      .ite ?_ (ended started instantiated finished outcome guest)
    cases outcome.failure? program with
    | some failure => exact .bind (heedful_drop guest) fun _ => .throw_bind _ _
    | none => exact ended _ _ _ _ _

theorem heedful_compile (source : String) : Heedful (compile source : Action engine String) :=
  .bind heedful_ready fun _ =>
    .bind (heedful_onFilesystem (Filesystem.heedful_addFile _ _)) fun _ =>
    .bind .get fun _ => .bind (heedful_module _) fun _ => .bind .get fun _ =>
      .bind (heedful_run _ _ _ _) fun _ => .bind (heedful_drop _) fun _ => .pure _

theorem heedful_link (object : String) : Heedful (link object : Action engine String) :=
  .bind heedful_ready fun _ => .bind .get fun _ => .bind (heedful_module _) fun _ =>
    .bind .get fun _ => .bind (heedful_run _ _ _ _) fun _ => .bind (heedful_drop _) fun _ => .pure _

theorem heedful_compileLinkRun (source : String) :
    Heedful (compileLinkRun source : Action engine (Option (Guest engine))) := by
  refine .bind (heedful_compile source) fun object => .bind (heedful_link object) fun executable =>
    .bind .get fun self => .bind (Host.heedful_task _ _ ?_) fun program =>
      .bind (heedful_run _ _ _ _) fun ⟨outcome, guest⟩ =>
        .ite (.pure _) (.bind (heedful_drop guest) fun _ => .pure _)
  exact .bind (heedful_onFilesystem (Filesystem.heedful_contents _)) fun _ => heedful_raise _

theorem heedful_runAnalysis (source : Bytes) :
    Heedful (runAnalysis source : Action engine (List Diagnostic)) :=
  .bind heedful_ready fun _ => .bind .get fun _ => .bind (heedful_module _) fun _ =>
    .bind (heedful_onFilesystem (Filesystem.heedful_addFile _ _)) fun _ =>
      .bind heedful_ready fun _ => .bind (heedful_keep _) fun _ => .bind .get fun _ =>
        .bind (.tryCatch (.bind (heedful_run _ _ _ _) fun _ => heedful_drop _) fun _ => .pure _)
          fun _ => .bind heedful_ready fun _ => .bind (heedful_keep _) fun _ => .pure _

theorem heedful_callAgain (guest : Guest engine) (name : String) :
    Heedful (callAgain guest name) :=
  .bind heedful_ready fun fs => .bind (.lift (guest.heeds_callAgain fs name)) fun _ =>
    .bind (heedful_keep _) fun _ => .pure _

end Toolchain

namespace Session.Builder

theorem heedful_onToolchain {α : Type} {action : Toolchain.Action engine α}
    (heedful : Heedful action) : Heedful (onToolchain action) := by
  refine .bind .get fun self => .bind (.lift (heedful _)) fun ⟨result, toolchain⟩ =>
    .bind (.update _) fun _ => ?_
  cases result with
  | ok a => exact .pure _
  | error failure => exact .throw _

theorem heedful_release : Heedful (release : Action engine Unit) := by
  refine .bind .get fun self => ?_
  split
  · exact .bind (.update _) fun _ => heedful_onToolchain (Toolchain.heedful_drop _)
  · exact .pure _

theorem heedful_execute (request : Request) :
    Heedful (execute request : Action engine Response) := by
  unfold execute
  split
  · exact .bind heedful_release fun _ =>
      .bind (heedful_onToolchain (Toolchain.heedful_compileLinkRun _)) fun _ =>
        .bind (.update _) fun _ => .pure _
  · exact .bind (heedful_onToolchain (Toolchain.heedful_runAnalysis _)) fun _ => .pure _
  · refine .bind .get fun self => ?_
    split
    · exact .throw _
    · refine .bind (heedful_onToolchain (Toolchain.heedful_callAgain _ _)) fun ⟨result, guest⟩ =>
        .bind (.update _) fun _ => ?_
      cases result with
      | error failure => exact .throw _
      | ok outcome =>
        refine .bind .get fun self => .when heedful_release ?_
        split
        · exact .throw_bind _ _
        · exact .pure _

/-- Whatever a builder is asked for, it waits for lines in reads only. -/
theorem heeds_serve (self : Builder engine) (request : Request) : (self.serve request).Heeds := by
  refine .bind (heedful_execute request self) fun ⟨result, left⟩ => ?_
  cases result with
  | ok response => exact .pure _
  | error failure => exact .pure _

end Session.Builder

end Buildbox
