import Mathlib.Logic.Relation
import Buildbox.Proofs.Cache.Sharing
import Buildbox.Proofs.Filesystem.Aside
import Buildbox.Proofs.Guest.Deed
import Buildbox.Proofs.Guest.Speech

/-!
One filesystem in use. Its module stays, and so does the instance of it: that is called and its
memory is written to, but it is never set up again. Nothing is fetched meanwhile.
-/

set_option autoImplicit false

namespace Buildbox

open ModuleCache (fetched_append)

namespace Trace

@[simp] theorem fetched_nil : fetched [] = [] :=
  rfl

theorem fetched_other {exchange : Exchange} (other : ∀ name, exchange.query ≠ .fetch name) :
    fetched [exchange] = [] := by
  obtain ⟨query, answer⟩ := exchange
  cases query with
  | fetch name => exact absurd rfl (other name)
  | _ => rfl

end Trace

theorem Progress.Frames.fetched {ε α : Type} {timing : Bool} {message : String}
    {during trace : Trace} {result : Except ε α}
    (frames : Frames timing message during result trace) : trace.fetched = during.fetched := by
  cases frames with
  | failed begun failure =>
    rw [fetched_append]
    rfl
  | done a closes =>
    rw [fetched_append, fetched_append, ModuleCache.fetched_closes closes, List.append_nil]
    rfl

namespace Host

variable {α β : Type}

/-- The computation fetches nothing, however it is answered. -/
def Abstains (c : Host α) : Prop :=
  ∀ trace a, Runs c trace a → trace.fetched = []

namespace Abstains

theorem pure (a : α) : Abstains (Pure.pure a : Host α) := by
  intro trace b run
  obtain ⟨rfl, -⟩ := runs_pure.mp run
  rfl

theorem bind {c : Host α} {next : α → Host β} (first : c.Abstains)
    (onward : ∀ a, (next a).Abstains) : (c >>= next).Abstains := by
  intro trace b run
  obtain ⟨a, early, late, ran, went, rfl⟩ := runs_bind.mp run
  rw [fetched_append, first _ _ ran, onward a _ _ went]
  rfl

theorem query {q : Query} (other : ∀ name, q ≠ .fetch name) : (Host.query q).Abstains := by
  intro trace answer run
  rw [runs_query.mp run]
  exact Trace.fetched_other other

end Abstains

/-- The operation fetches nothing, whatever state it finds. -/
def Abstinent {ε σ : Type} (action : ExceptT ε (StateT σ Host) α) : Prop :=
  ∀ found, (action.run.run found).Abstains

namespace Abstinent

variable {ε σ : Type}

theorem pure (a : α) : Abstinent (Pure.pure a : ExceptT ε (StateT σ Host) α) :=
  fun _ => .pure _

theorem throw (failure : ε) :
    Abstinent (MonadExcept.throw failure : ExceptT ε (StateT σ Host) α) :=
  fun _ => .pure _

theorem get : Abstinent (MonadState.get : ExceptT ε (StateT σ Host) σ) :=
  fun _ => .pure _

theorem set (put : σ) : Abstinent (MonadStateOf.set put : ExceptT ε (StateT σ Host) PUnit) :=
  fun _ => .pure _

theorem update (change : σ → σ) :
    Abstinent (modify change : ExceptT ε (StateT σ Host) PUnit) :=
  fun _ => .pure _

theorem bind {action : ExceptT ε (StateT σ Host) α} {next : α → ExceptT ε (StateT σ Host) β}
    (first : Abstinent action) (onward : ∀ a, Abstinent (next a)) :
    Abstinent (action >>= next) := by
  intro found
  refine Abstains.bind (first found) fun ⟨reached, between⟩ => ?_
  cases reached with
  | ok a => exact onward a between
  | error failure => exact .pure _

theorem lift {c : Host α} (abstains : c.Abstains) :
    Abstinent (liftM c : ExceptT ε (StateT σ Host) α) :=
  fun _ => .bind (.bind abstains fun _ => .pure _) fun _ => .pure _

end Abstinent

end Host

namespace Filesystem

namespace Desk

variable (desk : Desk) (guest : GuestId)

theorem abstains_emit (text : String) : (desk.emit text).Abstains := by
  unfold emit
  split
  · exact .pure _
  split
  · exact .bind (.query nofun) fun _ => .pure _
  · exact .pure _

theorem abstains_flush : desk.flush.Abstains :=
  abstains_emit _ _

theorem abstains_close : desk.close.Abstains :=
  .bind desk.abstains_flush fun _ => .pure _

theorem abstains_wire (writesStdout : Bool) : (desk.wire guest writesStdout).Abstains := by
  unfold wire
  split
  · exact .bind desk.abstains_close fun _ => .pure _
  · exact .bind (.pure _) fun _ => .pure _

theorem abstains_unwire : (desk.unwire guest).Abstains := by
  unfold unwire
  split
  · exact .bind desk.abstains_close fun _ => .pure _
  · exact .pure _

theorem abstains_flushOf : (desk.flushOf guest).Abstains := by
  unfold flushOf
  split
  · exact desk.abstains_flush
  · exact .pure _

end Desk

open Host (Abstinent)

section Services

variable {α : Type}

private theorem abstinent_onMemory (access : Memory.Access α) :
    Abstinent (Service.onMemory access : DeskService α) := by
  refine .bind .get fun ⟨memory, desk⟩ => ?_
  cases memory with
  | none => exact .throw _
  | some memory =>
    refine .bind (.set _) fun _ => ?_
    split
    · exact .pure _
    · exact .throw _

private theorem abstinent_onWindow (access : Memory.Access α) : Abstinent (onWindow access) := by
  refine .bind (.bind .get fun _ => .pure _) fun desk => ?_
  split
  · exact .throw _
  · refine .bind (.update _) fun _ => ?_
    split
    · exact .pure _
    · exact .throw _

private theorem abstinent_ensureOpen : Abstinent ensureOpen := by
  refine .bind (.lift (.query nofun)) fun closed => ?_
  split
  · exact .throw _
  · exact .pure _

private theorem abstinent_ensureMemory : Abstinent ensureMemory := by
  refine .bind .get fun found => ?_
  split
  · exact .throw _
  · exact .pure _

private theorem abstinent_state : Abstinent (Service.state : DeskService Desk) :=
  .bind .get fun _ => .pure _

private theorem abstinent_hostWrite (descriptor buffers count writtenOut : UInt32) :
    Abstinent (hostWrite descriptor buffers count writtenOut) := by
  refine .bind abstinent_ensureOpen fun _ => ?_
  split
  case' isTrue => refine .bind (.throw _) fun _ => ?_
  all_goals
    exact .bind (abstinent_onWindow _) fun _ => .bind abstinent_state fun _ =>
      .bind (.lift (Desk.abstains_emit _ _)) fun _ => .bind (.update _) fun _ => .pure _

private theorem abstinent_hostRead (descriptor buffers count readOut : UInt32) :
    Abstinent (hostRead descriptor buffers count readOut) := by
  have placed : Abstinent (do
      let unread := (← Service.state).unread
      let placed ← onWindow do
        let placed ← Memory.scatter (← Memory.buffers buffers count) unread
        Memory.writeWord readOut placed.toUInt32
        return placed
      Service.update fun desk => { desk with unread := desk.unread.drop placed }
      return success) :=
    .bind abstinent_state fun _ => .bind (abstinent_onWindow _) fun _ =>
      .bind (.update _) fun _ => .pure _
  refine .bind abstinent_ensureOpen fun _ => ?_
  split
  case' isTrue => refine .bind (.throw _) fun _ => ?_
  all_goals
    refine .bind abstinent_state fun desk => ?_
    split
    · refine .bind (.lift (.query nofun)) fun answers => ?_
      split
      · exact .bind (abstinent_onWindow _) fun _ => .pure _
      · refine .bind (.lift (.query nofun)) fun line => ?_
        cases line with
        | none => exact .bind (.throw _) fun _ => placed
        | some line => exact .bind (.update _) fun _ => placed
    · exact placed

private theorem abstinent_serve (f : HostFunction) (arguments : List Value) :
    Abstinent (serve f arguments) := by
  unfold serve
  split
  · exact .bind abstinent_ensureOpen fun _ => .throw _
  · exact abstinent_hostWrite _ _ _ _
  · exact abstinent_hostRead _ _ _ _
  · exact .bind abstinent_ensureOpen fun _ => .bind (abstinent_onMemory _) fun _ =>
      .bind (.lift (.query nofun)) fun _ => .pure _
  · exact .bind abstinent_ensureMemory fun _ => .bind abstinent_ensureOpen fun _ =>
      .bind (abstinent_onWindow _) fun _ => .bind (abstinent_onMemory _) fun _ => .pure _
  · exact .bind abstinent_ensureMemory fun _ => .bind abstinent_ensureOpen fun _ =>
      .bind (abstinent_onMemory _) fun _ => .bind (abstinent_onWindow _) fun _ => .pure _
  · exact .throw _

private theorem abstinent_serveBound (functions : List HostFunction) (callee : Nat)
    (arguments : List Value) : Abstinent (serveBound functions callee arguments) := by
  unfold serveBound
  split
  · exact abstinent_serve _ _
  · exact .throw _

end Services

variable {engine : Engine}

theorem unfetched_of_records {functions : List HostFunction} {act : Activity engine.Instance}
    {desk : Desk} {calls : List (HostCall Desk)} {ended : Activity.End engine.Instance Desk}
    (records : Activity.Records engine (serveBound functions) act desk calls ended) :
    Trace.fetched (calls.flatMap HostCall.trace) = [] := by
  have unfetched : Service.Stretch fun (_ : Desk) trace (_ : Desk) => trace.fetched = [] := by
    refine ⟨fun _ => rfl, fun early late => ?_⟩
    rw [fetched_append, early, late]
    rfl
  exact records.closure unfetched fun callee arguments found left trace result served =>
    abstinent_serveBound functions callee arguments found trace (result, left) served

/-- One use of an instance: an export is called, or the memory is written to. -/
inductive Touches (engine : Engine) (module : engine.Module) :
    engine.Instance → engine.Instance → Prop
  | called {inst : engine.Instance} {name : String} {arguments : List Value} {desk : Desk}
      {calls : List (HostCall Desk)} {ended : Activity.End engine.Instance Desk}
      (records : Activity.Records engine (serveOf engine module) (engine.call inst name arguments)
        desk calls ended) :
      Touches engine module inst ended.guest
  | written (inst : engine.Instance) (memory : Memory) :
      Touches engine module inst (engine.setMemory inst memory)

/-- It is the same filesystem: the same module, and the same instance after some use. -/
structure Same (fs left : Filesystem engine) : Prop where
  module : left.module = fs.module
  memfs : Relation.ReflTransGen (Touches engine fs.module) fs.memfs left.memfs

namespace Same

variable {fs between left : Filesystem engine}

theorem refl (fs : Filesystem engine) : fs.Same fs :=
  ⟨rfl, .refl⟩

theorem trans (early : fs.Same between) (late : between.Same left) : fs.Same left where
  module := late.module.trans early.module
  memfs := early.memfs.trans (early.module ▸ late.memfs)

theorem beside (desk : Desk) : fs.Same { fs with desk } :=
  ⟨rfl, .refl⟩

theorem called {name : String} {arguments : List Value} {desk after : Desk}
    {calls : List (HostCall Desk)} {ended : Activity.End engine.Instance Desk}
    (records : Activity.Records engine (serveOf engine fs.module)
      (engine.call fs.memfs name arguments) desk calls ended) :
    fs.Same { fs with memfs := ended.guest, desk := after } :=
  ⟨rfl, .single (.called records)⟩

end Same

/-- It is the same filesystem afterwards, and nothing was fetched. -/
structure Lasts (found : Filesystem engine) (trace : Trace) (left : Filesystem engine) : Prop where
  same : found.Same left
  unfetched : trace.fetched = []

theorem stretch_lasts : Service.Stretch (@Lasts engine) where
  refl fs := ⟨.refl fs, rfl⟩
  trans early late := by
    refine ⟨early.same.trans late.same, ?_⟩
    rw [fetched_append, early.unfetched, late.unfetched]
    rfl

theorem lasts_call (name : String) (arguments : List Value) :
    Host.Within (@Lasts engine) (call name arguments) := by
  intro found trace result left ran
  obtain ⟨calls, ended, records, rfl, rfl⟩ := calls_of_call ran
  exact ⟨.called records, unfetched_of_records records⟩

theorem lasts_onMemory {α : Type} (access : Memory.Access α) :
    Host.Within (@Lasts engine) (onMemory access) := by
  intro found trace result left run
  have run := Host.does_get_bind.mp run
  split at run
  · obtain ⟨rfl, -, rfl⟩ := Host.does_throw.mp run
    exact stretch_lasts.refl _
  · next memory exported =>
    rcases reached : (access.run.run memory : Except AccessFault α × Memory) with ⟨outcome, put⟩
    rw [reached] at run
    have run := Host.does_set_bind.mp run
    have written : found.Lasts [] { found with memfs := engine.setMemory found.memfs put } :=
      ⟨⟨rfl, .single (.written _ _)⟩, rfl⟩
    cases outcome with
    | ok a =>
      obtain ⟨rfl, -, rfl⟩ := Host.does_pure.mp run
      exact written
    | error fault =>
      obtain ⟨rfl, -, rfl⟩ := Host.does_throw.mp run
      exact written

/-- Whatever the host does with the filesystem on its own behalf, it lasts. -/
theorem made_lasts : Made (@Lasts engine) :=
  ⟨stretch_lasts, lasts_call, lasts_onMemory⟩

section Desk

variable {fs left : Filesystem engine} {trace : Trace}

theorem lasts_of_onDesk {change : Desk → Host Desk} (abstains : (change fs.desk).Abstains)
    (run : Host.Runs (fs.onDesk change) trace left) : fs.Lasts trace left := by
  obtain ⟨desk, changing, rfl⟩ := runs_onDesk run
  exact ⟨.beside desk, abstains _ _ changing⟩

theorem lasts_of_unwire {guest : GuestId} (run : Host.Runs (fs.unwire guest) trace left) :
    fs.Lasts trace left :=
  lasts_of_onDesk (fs.desk.abstains_unwire guest) run

theorem lasts_of_forward {guest : GuestId} {name : String} {memory : Memory}
    {arguments : List Value} {results : Nat}
    {reached : Except Signal (List Value) × Memory × Filesystem engine}
    (run : Host.Runs (fs.forward guest name memory arguments results) trace reached) :
    fs.Lasts trace reached.2.2 := by
  obtain ⟨steps, recorded, rfl⟩ := recorded_of_forward run
  generalize reached.2.2 = left at recorded
  cases recorded with
  | refused reason => exact ⟨.refl fs, rfl⟩
  | @forwarded _ _ _ _ _ _ calls ended holds found checked records =>
    refine ⟨.called records, ?_⟩
    have served : Trace.fetched
        ((calls.map (Step.ofCall (bound engine fs.module) guest)).flatMap Step.trace) = [] := by
      rw [List.flatMap_map]
      exact unfetched_of_records records
    rw [traceOf_cons, traceOf, List.flatMap_append, fetched_append, fetched_append, served]
    rfl

end Desk

end Filesystem

section Guests

variable {engine : Engine}

open Filesystem (Lasts stretch_lasts)

theorem lasts_of_drive {self : Identity} {bindings : List Binding}
    {act : Activity engine.Instance} {fs : Filesystem engine} {trace : Trace}
    {ended : Activity.End engine.Instance (Filesystem engine)}
    (run : Host.Runs (act.drive engine (serveBindings self bindings) fs) trace ended) :
    fs.Lasts trace ended.host := by
  obtain ⟨calls, records, rfl⟩ := Activity.runs_drive.mp run
  refine records.closure stretch_lasts (within_serveBindings stretch_lasts self ?_ ?_ bindings)
  · exact fun fs exchange _ other => ⟨.refl fs, Trace.fetched_other other⟩
  · exact fun _ _ _ _ _ _ _ run => Filesystem.lasts_of_forward run

namespace Guest

variable {guest after : Guest engine} {fs left : Filesystem engine} {trace : Trace}

theorem fetched_report (outcome : Outcome) (mode : RunMode) :
    Trace.fetched (guest.report outcome mode) = [] := by
  unfold report
  split <;> rfl

theorem Entered.lasts {state put : engine.Instance} {bindings : List Binding}
    {type : FunctionType} {name : String} {outcome : Outcome}
    (entered : Entered guest fs state bindings type name trace outcome put left) :
    fs.Lasts trace left := by
  cases entered with
  | mismatched _ => exact stretch_lasts.refl fs
  | called _ ran => exact lasts_of_drive ran

theorem Invoked.lasts {state : engine.Instance} {bindings : List Binding} {type : FunctionType}
    {name : String} {mode : RunMode} {outcome : Outcome}
    (invoked : Invoked guest fs state bindings type name mode trace outcome after left) :
    fs.Lasts trace left := by
  obtain ⟨entered, flushing⟩ := invoked
  next said flushed put reached desk =>
  have ended : reached.Lasts flushed { reached with desk } :=
    ⟨.beside desk, reached.desk.abstains_flushOf guest.id _ _ flushing⟩
  have reported : Filesystem.Lasts { reached with desk } (guest.report outcome mode)
      { reached with desk } := ⟨.refl _, guest.fetched_report outcome mode⟩
  exact stretch_lasts.trans (stretch_lasts.trans entered.lasts ended) reported

theorem lasts_of_taking {writesStdout : Bool} {desk : Filesystem.Desk}
    (taking : Host.Runs (fs.desk.wire guest.id writesStdout) trace desk) :
    fs.Lasts trace { fs with desk } :=
  ⟨.beside desk, fs.desk.abstains_wire guest.id writesStdout _ _ taking⟩

theorem Deed.Done.lasts {deed : Deed engine} (done : deed.Done) :
    deed.found.Lasts deed.trace deed.left := by
  obtain ⟨operation, before, found, trace, answer, after, left⟩ := deed
  have comes : Comes before found operation trace answer after left := done.comes
  cases comes with
  | unlinked | unready | refused | revoked => exact stretch_lasts.refl found
  | unstarted _ ran => exact lasts_of_drive ran
  | started _ _ ran taking =>
    exact stretch_lasts.trans (lasts_of_drive ran) (lasts_of_taking taking)
  | ran _ invoked => exact invoked.lasts
  | calledAgain _ _ taking invoked =>
    exact stretch_lasts.trans (lasts_of_taking taking) invoked.lasts

theorem lasts_of_instantiate {result : Except Failure Unit}
    (ran : Host.Runs (guest.instantiate fs) trace (result, after, left)) : fs.Lasts trace left := by
  have done : Deed.Done ⟨.instantiate, guest, fs, trace, .instantiated result, after, left⟩ :=
    Host.runs_bind.mpr ⟨_, trace, [], ran, .done _, (List.append_nil _).symm⟩
  exact done.lasts

theorem lasts_of_run {mode : RunMode} {outcome : Outcome}
    (ran : Host.Runs (guest.run fs mode) trace (outcome, after, left)) : fs.Lasts trace left := by
  have done : Deed.Done ⟨.run mode, guest, fs, trace, .ran outcome, after, left⟩ :=
    Host.runs_bind.mpr ⟨_, trace, [], ran, .done _, (List.append_nil _).symm⟩
  exact done.lasts

theorem lasts_of_callAgain {name : String} {result : Except Failure Outcome}
    (ran : Host.Runs (guest.callAgain fs name) trace (result, after, left)) :
    fs.Lasts trace left := by
  have done : Deed.Done ⟨.callAgain name, guest, fs, trace, .calledAgain result, after, left⟩ :=
    Host.runs_bind.mpr ⟨_, trace, [], ran, .done _, (List.append_nil _).symm⟩
  exact done.lasts

end Guest

end Guests

end Buildbox
