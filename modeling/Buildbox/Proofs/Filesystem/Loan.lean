import Buildbox.Proofs.Filesystem.History
import Buildbox.Proofs.Host.Action

/-!
The memory that is lent to the filesystem. It is lent for the length of a forwarded call, and a call
that is refused lends nothing and changes nothing. While none is lent, no function that would reach
it succeeds.
-/

set_option autoImplicit false

namespace Buildbox.Filesystem

/-- Whether a function reaches the memory of a guest. -/
def HostFunction.borrows : HostFunction → Bool
  | .hostWrite | .hostRead | .copyIn | .copyOut => true
  | .abort | .log => false

/-- Where no memory was lent, none is lent. -/
def Unlent (before : Desk) (_ : Trace) (after : Desk) : Prop :=
  before.window = none → after.window = none

theorem stretch_unlent : Service.Stretch Unlent where
  refl _ := id
  trans early late := late ∘ early

/-- While no memory is lent the service fails, and does not change that. -/
def NeedsLoan {α : Type} (service : DeskService α) : Prop :=
  ∀ found left trace result, found.2.window = none →
    Service.Runs service found trace result left →
      left.2.window = none ∧ ∃ signal, result = .error signal

section Parts

variable {α β : Type}

private theorem unlent_ensureOpen : Service.Within Unlent ensureOpen := by
  refine stretch_unlent.ofHost_bind (fun _ _ _ _ => id) fun closed => ?_
  split
  · exact stretch_unlent.throw _
  · exact stretch_unlent.pure _

private theorem unlent_ensureMemory : Service.Within Unlent ensureMemory := by
  intro found left trace result run
  rw [ensureMemory, Service.runs_get_bind] at run
  split at run
  · exact stretch_unlent.throw _ _ _ _ _ run
  · exact stretch_unlent.pure _ _ _ _ _ run

private theorem needsLoan_fault (fault : Fault) :
    NeedsLoan (Service.fault fault : DeskService α) := by
  intro found left trace result unlent run
  obtain ⟨-, rfl, rfl⟩ := Service.runs_fault.mp run
  exact ⟨unlent, _, rfl⟩

private theorem needsLoan_onWindow (access : Memory.Access α) : NeedsLoan (onWindow access) := by
  intro found left trace result unlent run
  rw [onWindow, Service.runs_state_bind, unlent] at run
  obtain ⟨-, rfl, rfl⟩ := Service.runs_fault.mp run
  exact ⟨unlent, _, rfl⟩

private theorem NeedsLoan.bind {service : DeskService α} (needs : NeedsLoan service)
    (next : α → DeskService β) : NeedsLoan (service >>= next) := by
  intro found left trace result unlent run
  rcases Service.runs_bind.mp run with ⟨signal, ran, rfl⟩ | ⟨a, between, first, later, ran, -, -⟩
  · exact ⟨(needs _ _ _ _ unlent ran).1, signal, rfl⟩
  · obtain ⟨-, signal, impossible⟩ := needs _ _ _ _ unlent ran
    cases impossible

private theorem NeedsLoan.after {service : DeskService α} {next : α → DeskService β}
    (keeps : Service.Within Unlent service) (needs : ∀ a, NeedsLoan (next a)) :
    NeedsLoan (service >>= next) := by
  intro found left trace result unlent run
  rcases Service.runs_bind.mp run with ⟨signal, ran, rfl⟩ | ⟨a, between, first, later, ran, went, -⟩
  · exact ⟨keeps _ _ _ _ ran unlent, signal, rfl⟩
  · exact needs a _ _ _ _ (keeps _ _ _ _ ran unlent) went

private theorem NeedsLoan.ofHost {c : Host α} {next : α → DeskService β}
    (needs : ∀ a, NeedsLoan (next a)) : NeedsLoan (Service.ofHost c >>= next) := by
  intro found left trace result unlent run
  obtain ⟨a, first, later, -, went, -⟩ := Service.runs_ofHost_bind.mp run
  exact needs a _ _ _ _ unlent went

private theorem NeedsLoan.state {next : Desk → DeskService β}
    (needs : ∀ desk, NeedsLoan (next desk)) : NeedsLoan (Service.state >>= next) :=
  fun found left trace result unlent run =>
    needs found.2 found left trace result unlent (Service.runs_state_bind.mp run)

private theorem NeedsLoan.update {change : Desk → Desk} {next : Unit → DeskService β}
    (same : ∀ desk, (change desk).window = desk.window) (needs : NeedsLoan (next ())) :
    NeedsLoan (Service.update change >>= next) := by
  intro found left trace result unlent run
  exact needs _ _ _ _ ((same found.2).trans unlent) (Service.runs_update_bind.mp run)

end Parts

private theorem needsLoan_hostWrite (descriptor buffers count writtenOut : UInt32) :
    NeedsLoan (hostWrite descriptor buffers count writtenOut) := by
  refine .after unlent_ensureOpen fun _ => ?_
  split
  · exact (needsLoan_fault _).bind _
  · exact (needsLoan_onWindow _).bind _

private theorem needsLoan_hostRead (descriptor buffers count readOut : UInt32) :
    NeedsLoan (hostRead descriptor buffers count readOut) := by
  refine .after unlent_ensureOpen fun _ => ?_
  split
  · exact (needsLoan_fault _).bind _
  refine .state fun desk => ?_
  split
  · refine .ofHost fun answered => ?_
    split
    · exact (needsLoan_onWindow _).bind _
    · refine .ofHost fun line => ?_
      cases line with
      | none => exact (needsLoan_fault _).bind _
      | some line => exact .update (fun _ => rfl) (.state fun _ => (needsLoan_onWindow _).bind _)
  · exact .state fun _ => (needsLoan_onWindow _).bind _

theorem needsLoan_serve {f : HostFunction} (borrows : f.borrows = true) (arguments : List Value) :
    NeedsLoan (serve f arguments) := by
  unfold serve
  split
  · cases borrows
  · exact needsLoan_hostWrite _ _ _ _
  · exact needsLoan_hostRead _ _ _ _
  · cases borrows
  · refine .after unlent_ensureMemory fun _ => .after unlent_ensureOpen fun _ => ?_
    exact (needsLoan_onWindow _).bind _
  · refine .after unlent_ensureMemory fun _ => .after unlent_ensureOpen fun _ => ?_
    exact .after (stretch_unlent.onMemory _) fun _ => (needsLoan_onWindow _).bind _
  · exact needsLoan_fault _

theorem unlent_serve (f : HostFunction) (arguments : List Value) :
    Service.Within Unlent (serve f arguments) := by
  by_cases borrows : f.borrows = true
  · intro found left trace result run unlent
    exact (needsLoan_serve borrows arguments _ _ _ _ unlent run).1
  · unfold serve
    split
    · exact stretch_unlent.bind unlent_ensureOpen fun _ => stretch_unlent.throw _
    · exact absurd rfl borrows
    · exact absurd rfl borrows
    · refine stretch_unlent.bind unlent_ensureOpen fun _ => ?_
      refine stretch_unlent.bind (stretch_unlent.onMemory _) fun _ => ?_
      exact stretch_unlent.ofHost_bind (fun _ _ _ _ => id) fun _ => stretch_unlent.pure _
    · exact absurd rfl borrows
    · exact absurd rfl borrows
    · exact stretch_unlent.throw _

/-- The holder is the same, and where no memory was lent, none is lent. -/
structure Desk.Keeps (before : Desk) (trace : Trace) (after : Desk) : Prop where
  wired : after.wired = before.wired
  unlent : Unlent before trace after

theorem stretch_keeps : Service.Stretch Desk.Keeps where
  refl _ := ⟨rfl, id⟩
  trans early late := ⟨late.wired.trans early.wired, stretch_unlent.trans early.unlent late.unlent⟩

theorem Desk.keeps_of_flushOf {desk left : Desk} {guest : GuestId} {trace : Trace}
    (run : Host.Runs (desk.flushOf guest) trace left) : desk.Keeps trace left := by
  rcases runs_flushOf run with ⟨-, rfl, -⟩ | ⟨-, rfl, -⟩
  · exact ⟨rfl, id⟩
  · exact ⟨rfl, id⟩

theorem Desk.taken_of_wire {desk left : Desk} {guest : GuestId} {writesStdout : Bool}
    {trace : Trace} (run : Host.Runs (desk.wire guest writesStdout) trace left) :
    left.wired = some ⟨guest, writesStdout⟩ ∧ left.window = desk.window := by
  rcases runs_wire run with ⟨-, rfl, -⟩ | ⟨-, rfl, -⟩
  · exact ⟨rfl, rfl⟩
  · exact ⟨rfl, rfl⟩

theorem keeps_serveBound (functions : List HostFunction) (callee : Nat) (arguments : List Value) :
    Service.Within Desk.Keeps (serveBound functions callee arguments) := by
  unfold serveBound
  split
  · exact fun found left trace result run =>
      ⟨(served_of_run run).wired_eq, unlent_serve _ _ _ _ _ _ run⟩
  · exact stretch_keeps.throw _

/-- A call of the module for which no memory is lent: if it is to reach one, it fails. -/
structure Unaided (functions : List HostFunction) (call : HostCall Desk) : Prop where
  found : call.found.2.window = none
  left : call.left.2.window = none
  barred : ∀ f, functions[call.callee]? = some f → f.borrows = true →
    ∃ signal, call.result = .error signal

section Module

variable {engine : Engine} {functions : List HostFunction} {act : Activity engine.Instance}
  {desk : Desk} {calls : List (HostCall Desk)} {ended : Activity.End engine.Instance Desk}

theorem unaided_of_records
    (records : Activity.Records engine (serveBound functions) act desk calls ended)
    (unlent : desk.window = none) : ∀ call ∈ calls, Unaided functions call := by
  intro call among
  obtain ⟨served, ⟨_, finds⟩, _, leaves⟩ :=
    records.each stretch_keeps (keeps_serveBound functions) call among
  refine ⟨finds.unlent unlent, leaves.unlent unlent, fun f bound borrows => ?_⟩
  rw [HostCall.Served, serveBound, bound] at served
  exact (needsLoan_serve borrows _ _ _ _ _ (finds.unlent unlent) served).2

theorem keeps_of_records
    (records : Activity.Records engine (serveBound functions) act desk calls ended) :
    desk.Keeps (calls.flatMap HostCall.trace) ended.host :=
  records.closure stretch_keeps (keeps_serveBound functions)

end Module

section Own

variable {engine : Engine} {fs left : Filesystem engine} {trace : Trace}

theorem calls_of_call {name : String} {arguments : List Value} {result : Except Failure UInt32}
    (run : Host.Does (call name arguments) fs trace result left) :
    ∃ calls ended, Activity.Records engine (serveOf engine fs.module)
      (engine.call fs.memfs name arguments) fs.desk calls ended ∧
      trace = calls.flatMap HostCall.trace ∧
      left = { fs with memfs := ended.guest, desk := ended.host } := by
  obtain ⟨ended, first, later, driven, went, rfl⟩ :=
    Host.does_lift_bind.mp (Host.does_get_bind.mp run)
  obtain ⟨calls, records, rfl⟩ := Activity.runs_drive.mp driven
  have went := Host.does_set_bind.mp went
  split at went
  · obtain ⟨rfl, -, rfl⟩ := Host.does_pure.mp went
    exact ⟨calls, ended, records, List.append_nil _, rfl⟩
  · obtain ⟨rfl, -, rfl⟩ := Host.does_throw.mp went
    exact ⟨calls, ended, records, List.append_nil _, rfl⟩

theorem silent_of_onMemory {α : Type} {access : Memory.Access α} {result : Except Failure α}
    (run : Host.Does (onMemory access) fs trace result left) :
    trace = [] ∧ left.desk = fs.desk := by
  have run := Host.does_get_bind.mp run
  split at run
  · obtain ⟨rfl, -, rfl⟩ := Host.does_throw.mp run
    exact ⟨rfl, rfl⟩
  · next memory exported =>
    rcases reached : (access.run.run memory : Except AccessFault α × Memory) with ⟨outcome, put⟩
    rw [reached] at run
    have run := Host.does_set_bind.mp run
    split at run
    · obtain ⟨rfl, -, rfl⟩ := Host.does_pure.mp run
      exact ⟨rfl, rfl⟩
    · obtain ⟨rfl, -, rfl⟩ := Host.does_throw.mp run
      exact ⟨rfl, rfl⟩

theorem kept_of_onMemory {α : Type} {access : Memory.Access α} {result : Except Failure α}
    (run : Host.Does (onMemory access) fs trace result left) : left.desk = fs.desk :=
  (silent_of_onMemory run).2

private theorem liftExcept_bind {α β : Type} {given : Except Failure α}
    {next : α → ExceptT Failure Host β} {b : β}
    (run : Host.Runs (new.liftExcept given >>= next).run trace (.ok b)) :
    ∃ a, given = .ok a ∧ Host.Runs (next a).run trace (.ok b) := by
  cases given with
  | ok a => exact ⟨a, rfl, run⟩
  | error failure =>
    obtain ⟨-, impossible⟩ := Host.runs_pure.mp run
    cases impossible

theorem calls_of_new {module : engine.Module}
    (run : Host.Runs (new engine module).run trace (.ok fs)) :
    ∃ functions calls ended later word, link engine module = .ok functions ∧
      Activity.Records engine (serveBound functions) (engine.start module) {} calls ended ∧
      trace = calls.flatMap HostCall.trace ++ later ∧
      Host.Does (call "init" []) ⟨module, ended.guest, ended.host⟩ later (.ok word) fs := by
  obtain ⟨functions, linked, run⟩ := liftExcept_bind run
  obtain ⟨ended, first, later, driven, went, rfl⟩ := Host.runs_try_lift_bind.mp run
  obtain ⟨calls, records, rfl⟩ := Activity.runs_drive.mp driven
  split at went
  · obtain ⟨-, impossible⟩ := Host.runs_pure.mp went
    cases impossible
  obtain ⟨_, -, went⟩ := liftExcept_bind went
  obtain ⟨⟨result, reached⟩, init, last, ran, went, rfl⟩ := Host.runs_try_lift_bind.mp went
  cases result with
  | ok word =>
    obtain ⟨rfl, same⟩ := Host.runs_pure.mp went
    cases same
    refine ⟨functions, calls, ended, init, word, linked, records, ?_, ran⟩
    rw [List.append_nil]
  | error failure =>
    obtain ⟨-, impossible⟩ := Host.runs_pure.mp went
    cases impossible

/-- A call on the host's own behalf, in the course of which no memory is lent to the module. -/
def CallsUnaided (fs : Filesystem engine) (name : String) (arguments : List Value)
    (trace : Trace) : Prop :=
  ∃ calls ended, Activity.Records engine (serveOf engine fs.module)
    (engine.call fs.memfs name arguments) fs.desk calls ended ∧
    trace = calls.flatMap HostCall.trace ∧ ∀ call ∈ calls, Unaided (bound engine fs.module) call

theorem unaided_of_call {name : String} {arguments : List Value} {result : Except Failure UInt32}
    (unlent : fs.desk.window = none) (run : Host.Does (call name arguments) fs trace result left) :
    fs.CallsUnaided name arguments trace := by
  obtain ⟨calls, ended, records, traced, -⟩ := calls_of_call run
  exact ⟨calls, ended, records, traced, unaided_of_records records unlent⟩

/-- A module is brought up, and no memory is lent to it meanwhile. -/
def BroughtUp (module : engine.Module) (trace : Trace) : Prop :=
  ∃ functions calls ended init, link engine module = .ok functions ∧
    Activity.Records engine (serveBound functions) (engine.start module) {} calls ended ∧
    trace = calls.flatMap HostCall.trace ++ init ∧ (∀ call ∈ calls, Unaided functions call) ∧
    CallsUnaided (⟨module, ended.guest, ended.host⟩ : Filesystem engine) "init" [] init

theorem unaided_of_new {module : engine.Module}
    (run : Host.Runs (new engine module).run trace (.ok fs)) :
    fs.desk.wired = none ∧ fs.desk.window = none ∧ BroughtUp module trace := by
  obtain ⟨functions, calls, ended, init, word, linked, records, traced, ran⟩ := calls_of_new run
  have set_up := keeps_of_records records
  have unlent : ended.host.window = none := set_up.unlent rfl
  have unaided := unaided_of_records records rfl
  obtain ⟨more, reached, called, -, rfl⟩ := calls_of_call ran
  have initialized := keeps_of_records called
  refine ⟨initialized.wired.trans set_up.wired, initialized.unlent unlent, ?_⟩
  exact ⟨functions, calls, ended, init, linked, records, traced, unaided,
    unaided_of_call unlent ran⟩

end Own

section Forward

variable {engine : Engine} {fs : Filesystem engine} {guest : GuestId} {name : String}
  {memory : Memory} {arguments : List Value} {results : Nat} {trace : Trace}
  {reached : Except Signal (List Value) × Memory × Filesystem engine}

theorem wiredGuest_congr {left : Filesystem engine} (same : left.desk.wired = fs.desk.wired) :
    left.wiredGuest = fs.wiredGuest := by
  rw [wiredGuest, same]
  rfl

theorem wiredGuest_of_wired {writesStdout : Bool}
    (wired : fs.desk.wired = some ⟨guest, writesStdout⟩) : fs.wiredGuest = some guest := by
  rw [wiredGuest, wired]
  rfl

theorem wiredGuest_eq_iff :
    fs.wiredGuest = some guest ↔ fs.desk.isHeldBy guest = true := by
  rw [Desk.isHeldBy_iff, wiredGuest, Option.map_eq_some_iff]

/-- Why a call is not forwarded: the other end is given up, the caller does not hold the filesystem,
or there is no function of that name, the first of these that is so. -/
def refusal (fs : Filesystem engine) (closed : Bool) (guest : GuestId) (name : String) :
    Option Signal :=
  if closed then some (.fault .terminated)
  else if fs.wiredGuest ≠ some guest then some (.fault (.notWired name guest))
  else if fs.hasFunction name = false then some (.notImplemented systemSpace name)
  else none

theorem refused_of_forward
    (run : Host.Runs (fs.forward guest name memory arguments results) trace reached) :
    ∃ closed rest, trace = ⟨.isClosed, closed⟩ :: rest ∧
      ∀ signal, fs.refusal closed guest name = some signal →
        rest = [] ∧ reached = (.error signal, memory, fs) := by
  obtain ⟨closed, first, later, asking, entered, rfl⟩ := Host.runs_bind.mp run
  rw [Host.runs_query.mp asking]
  refine ⟨closed, later, rfl, fun signal refused => ?_⟩
  unfold refusal at refused
  split at entered
  · next gone =>
    rw [if_pos gone] at refused
    cases refused
    exact Host.runs_pure.mp entered
  next still_open =>
  rw [if_neg still_open] at refused
  split at entered
  · next other =>
    have stranger : fs.wiredGuest ≠ some guest := by
      rw [Ne, wiredGuest_eq_iff]
      simpa using other
    rw [if_pos stranger] at refused
    cases refused
    exact Host.runs_pure.mp entered
  next holds =>
  have holder : fs.wiredGuest = some guest := wiredGuest_eq_iff.mpr (by simpa using holds)
  rw [if_neg (not_not_intro holder)] at refused
  split at entered
  · next missing =>
    have absent : fs.hasFunction name = false := by rw [hasFunction, missing, Option.isSome_none]
    rw [if_pos absent] at refused
    cases refused
    exact Host.runs_pure.mp entered
  · next type found =>
    have present : ¬ fs.hasFunction name = false := by simp [hasFunction, found]
    rw [if_neg present] at refused
    cases refused

/-- A forwarded call leaves the filesystem with its holder and the memory with its guest, however it
ends. -/
theorem keeps_of_forward
    (run : Host.Runs (fs.forward guest name memory arguments results) trace reached) :
    fs.desk.Keeps trace reached.2.2.desk := by
  obtain ⟨steps, recorded, -⟩ := recorded_of_forward run
  rcases reached with ⟨result, put, left⟩
  cases recorded with
  | refused reason => exact ⟨rfl, id⟩
  | forwarded holds found checked records => exact ⟨(keeps_of_records records).wired, fun _ => rfl⟩

end Forward

end Buildbox.Filesystem
