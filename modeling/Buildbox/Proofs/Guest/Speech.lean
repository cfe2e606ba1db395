import Buildbox.Guest.Link
import Buildbox.Proofs.Filesystem.History
import Buildbox.Proofs.Host.Action

/-!
What a guest can say while it is called. Whatever it does, the filesystem stays with its holder, and
the terminal shows of what the listener hears just what the holder's flag lets through.
-/

set_option autoImplicit false

namespace Buildbox

namespace Filesystem

/-- The holder is the same; what the listener hears the terminal shows, if the holder writes there. -/
structure Desk.Speaks (found : Desk) (trace : Trace) (left : Desk) : Prop where
  wired : left.wired = found.wired
  said : ∃ text, left.heard = found.heard.map (· ++ text) ∧ trace.shown = found.routed text

namespace Desk

variable {found between left : Desk} {trace : Trace}

theorem routed_empty (desk : Desk) : desk.routed "" = "" :=
  ite_self _

theorem routed_congr {text : String} (same : left.wired = found.wired) :
    left.routed text = found.routed text := by
  rw [routed, routed, same]

theorem routed_append (desk : Desk) (text more : String) :
    desk.routed (text ++ more) = desk.routed text ++ desk.routed more := by
  unfold routed
  split
  · rfl
  · rfl

theorem Speaks.silent (wired : left.wired = found.wired) (heard : left.heard = found.heard)
    (shown : trace.shown = "") : Speaks found trace left := by
  refine ⟨wired, "", ?_, ?_⟩
  · have nothing_more : found.heard = (found.hearing "").heard := by rw [hearing_empty]
    exact heard.trans nothing_more
  · rw [shown, routed_empty]

theorem Speaks.of_shut (kept : left.shut = found.shut) (shown : trace.shown = "") :
    Speaks found trace left :=
  .silent (congrArg Desk.wired kept :) (congrArg Desk.heard kept :) shown

theorem Speaks.of_flush (run : Host.Runs found.flush trace left) : Speaks found trace left := by
  obtain ⟨rfl, shows⟩ := runs_flush run
  exact ⟨rfl, _, rfl, shows.shown⟩

theorem stretch_speaks : Service.Stretch Speaks where
  refl desk := .silent rfl rfl rfl
  trans {a b c first later} early late := by
    obtain ⟨text, heard, shown⟩ := early.said
    obtain ⟨more, heard_more, shown_more⟩ := late.said
    refine ⟨late.wired.trans early.wired, text ++ more, ?_, ?_⟩
    · rw [heard_more, heard, Option.map_map]
      congr 1
      funext earlier
      exact String.append_assoc
    · rw [Trace.shown_append, shown, shown_more, routed_congr early.wired, routed_append]

/-- A flush says what was held, so that the holder's output ends there. -/
theorem speaks_flushOf {guest : GuestId} (run : Host.Runs (found.flushOf guest) trace left) :
    found.Speaks trace left ∧ (left.isHeldBy guest = true → left.carry = .empty) := by
  unfold flushOf at run
  split at run
  · have speaks := Speaks.of_flush run
    obtain ⟨rfl, -⟩ := runs_flush run
    exact ⟨speaks, fun _ => rfl⟩
  · next other =>
    obtain ⟨rfl, rfl⟩ := Host.runs_pure.mp run
    exact ⟨stretch_speaks.refl _, fun holds => absurd holds other⟩

end Desk

variable {found left : Desk} {trace : Trace}

theorem Served.speaks {f : HostFunction} {words : List UInt32} {result : Except Signal (List Value)}
    (served : Served found trace left f words result) : found.Speaks trace left := by
  cases served with
  | idle _ _ kept shows => exact .of_shut kept shows.shown
  | wrote _ written shows =>
    exact ⟨(congrArg Desk.wired written :), _, (congrArg Desk.heard written :), shows.shown⟩
  | read reads =>
    rcases reads.ends with ⟨-, kept⟩ | ⟨_, _, _, -, -, -, -, kept, -⟩
    · exact .silent (congrArg Desk.wired kept :) (congrArg Desk.heard kept :) reads.shown
    · exact .silent (congrArg Desk.wired kept :) (congrArg Desk.heard kept :) reads.shown
  | misread same nothing =>
    rw [same, nothing]
    exact Desk.stretch_speaks.refl _

theorem Act.speaks {act : Act} {operation : Operation} {guest : GuestId} {name : String}
    {memory : Memory} {arguments : List Value} {results : Nat} (part : act.Of operation)
    (forwarded : operation = .forward guest name memory arguments results)
    (taken : act.Takes found trace left) : found.Speaks trace left := by
  subst forwarded
  cases act with
  | wire _ _ | unwire _ | flush _ => cases part
  | enter caller =>
    obtain ⟨⟨closed, rfl⟩, rfl | ⟨-, lent, rfl⟩⟩ := taken
    · exact .silent rfl rfl rfl
    · exact .silent rfl rfl rfl
  | serve caller function values result =>
    cases function with
    | none =>
      obtain ⟨-, -, rfl, rfl⟩ := taken
      exact Desk.stretch_speaks.refl _
    | some f =>
      obtain ⟨-, lent, put, ran⟩ := taken
      exact (served_of_run ran).speaks
  | leave caller =>
    obtain ⟨rfl, rfl⟩ := taken
    exact .of_shut rfl rfl

theorem History.speaks {steps : List Step} (history : History found steps left)
    (each : ∀ step ∈ steps, step.act.Takes step.before step.trace step.after →
      step.before.Speaks step.trace step.after) : found.Speaks (traceOf steps) left := by
  induction history with
  | nil => exact Desk.stretch_speaks.refl _
  | cons taken _ ih =>
    rw [traceOf_cons]
    have first := each _ List.mem_cons_self taken
    exact Desk.stretch_speaks.trans first (ih fun step member => each step (.tail _ member))

variable {engine : Engine}

theorem speaks_of_forward {fs : Filesystem engine} {guest : GuestId} {name : String}
    {memory : Memory} {arguments : List Value} {results : Nat} {trace : Trace}
    {reached : Except Signal (List Value) × Memory × Filesystem engine}
    (run : Host.Runs (fs.forward guest name memory arguments results) trace reached) :
    fs.desk.Speaks trace reached.2.2.desk := by
  obtain ⟨steps, recorded, rfl⟩ := recorded_of_forward run
  refine recorded.history.speaks fun step member taken => ?_
  exact Act.speaks (recorded.act_of step member) rfl taken

end Filesystem

section Serving

variable {σ : Type} {engine : Engine}

/-- The process system calls leave the host's state alone, and ask for random bytes and the time at
most. -/
theorem Syscall.within_serve {R : σ → Trace → σ → Prop} (stretch : Service.Stretch R)
    (asks : ∀ (host : σ) (exchange : Exchange), (∀ text, exchange.query ≠ .write text) →
      (∀ name, exchange.query ≠ .fetch name) → R host [exchange] host)
    (argv : List String) (call : Syscall) (parameters : List Value) :
    Service.Within R (call.serve argv parameters) := by
  have written (access : Memory.Access Unit) :
      Service.Within R (do
        Service.onMemory access
        return success : Service σ (List Value)) :=
    stretch.bind (stretch.onMemory _) fun _ => stretch.pure _
  have laid (access : Memory.Access Unit) :
      Service.Within R (do
        Service.checked (Service.onMemory access)
        return success : Service σ (List Value)) := by
    refine stretch.bind (stretch.checked (fun host => ?_) (stretch.onMemory _)) fun _ =>
      stretch.pure _
    exact asks host _ (fun _ => nofun) fun _ => nofun
  unfold serve
  split
  · exact stretch.throw _
  · exact written _
  · exact laid _
  · exact written _
  · exact laid _
  · refine stretch.bind (stretch.onMemory _) fun _ => stretch.ofHost_bind ?_ fun bytes => written _
    intro host trace bytes run
    rw [Host.runs_query.mp run]
    exact asks _ _ (fun _ => nofun) fun _ => nofun
  · refine stretch.ofHost_bind ?_ fun now => laid _
    intro host trace now run
    rw [Host.runs_query.mp run]
    exact asks _ _ (fun _ => nofun) fun _ => nofun
  · exact stretch.throw _
  · exact stretch.throw _

/-- What serving a guest's calls does to the filesystem. -/
def Filesystem.Speaks (found : Filesystem engine) (trace : Trace) (left : Filesystem engine) : Prop :=
  found.desk.Speaks trace left.desk

theorem Filesystem.stretch_speaks : Service.Stretch (@Speaks engine) where
  refl fs := Desk.stretch_speaks.refl fs.desk
  trans := Desk.stretch_speaks.trans

section Bindings

variable {R : Filesystem engine → Trace → Filesystem engine → Prop}

theorem Binding.within_serve (stretch : Service.Stretch R) (self : Identity)
    (asks : ∀ (fs : Filesystem engine) (exchange : Exchange),
      (∀ text, exchange.query ≠ .write text) → (∀ name, exchange.query ≠ .fetch name) →
        R fs [exchange] fs)
    (forwards : ∀ (fs : Filesystem engine) (name : String) (memory : Memory)
      (arguments : List Value) (results : Nat) (trace : Trace)
      (reached : Except Signal (List Value) × Memory × Filesystem engine),
      Host.Runs (fs.forward self.id name memory arguments results) trace reached →
        R fs trace reached.2.2)
    (binding : Binding) (arguments : List Value) :
    Service.Within R (binding.serve self arguments) := by
  cases binding with
  | process call => exact Syscall.within_serve stretch asks _ _ _
  | missing name => exact stretch.throw _
  | forwarded name type =>
    intro found left trace result run
    rw [Binding.serve, Service.runs_get_bind] at run
    split at run
    · exact stretch.throw _ _ _ _ _ run
    · next memory fs =>
      obtain ⟨reached, first, later, forwarded, ended, rfl⟩ := Service.runs_ofHost_bind.mp run
      have done := forwards _ _ _ _ _ _ _ forwarded
      have ended := Service.runs_set_bind.mp ended
      split at ended
      · obtain ⟨rfl, -, rfl⟩ := Service.runs_pure.mp ended
        rw [List.append_nil]
        exact done
      · obtain ⟨rfl, -, rfl⟩ := Service.runs_throw.mp ended
        rw [List.append_nil]
        exact done

theorem within_serveBindings (stretch : Service.Stretch R) (self : Identity)
    (asks : ∀ (fs : Filesystem engine) (exchange : Exchange),
      (∀ text, exchange.query ≠ .write text) → (∀ name, exchange.query ≠ .fetch name) →
        R fs [exchange] fs)
    (forwards : ∀ (fs : Filesystem engine) (name : String) (memory : Memory)
      (arguments : List Value) (results : Nat) (trace : Trace)
      (reached : Except Signal (List Value) × Memory × Filesystem engine),
      Host.Runs (fs.forward self.id name memory arguments results) trace reached →
        R fs trace reached.2.2)
    (bindings : List Binding) (callee : Nat) (arguments : List Value) :
    Service.Within R (serveBindings self bindings callee arguments) := by
  unfold serveBindings
  split
  · exact Binding.within_serve stretch self asks forwards _ _
  · exact stretch.throw _

end Bindings

theorem speaks_serveBindings (self : Identity) (bindings : List Binding) (callee : Nat)
    (arguments : List Value) :
    Service.Within (@Filesystem.Speaks engine)
      (serveBindings self bindings callee arguments) :=
  within_serveBindings Filesystem.stretch_speaks self
    (fun _ _ silent _ => .silent rfl rfl (Trace.shown_silent silent))
    (fun _ _ _ _ _ _ _ run => Filesystem.speaks_of_forward run) bindings callee arguments

theorem speaks_of_drive {self : Identity} {bindings : List Binding}
    {act : Activity engine.Instance} {fs : Filesystem engine} {trace : Trace}
    {ended : Activity.End engine.Instance (Filesystem engine)}
    (run : Host.Runs (act.drive engine (serveBindings self bindings) fs) trace ended) :
    fs.desk.Speaks trace ended.host.desk := by
  obtain ⟨calls, records, rfl⟩ := Activity.runs_drive.mp run
  exact records.closure Filesystem.stretch_speaks (speaks_serveBindings self bindings)

end Serving

end Buildbox
