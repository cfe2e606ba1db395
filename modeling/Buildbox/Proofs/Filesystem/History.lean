import Buildbox.Filesystem.Basic
import Buildbox.Proofs.Filesystem.Serving

/-!
A filesystem in use, step by step. Guests take it, give it up, flush their output and forward calls;
a forwarded call is a series of calls that the filesystem module makes to the host's desk. Every
sequence of operations is a chain of such steps, and its trace is that of the steps in order.
-/

set_option autoImplicit false

namespace Buildbox.Filesystem

variable {engine : Engine}

/-- What a guest does with the filesystem. -/
inductive Operation
  | wire (guest : GuestId) (writesStdout : Bool)
  | unwire (guest : GuestId)
  | flush (guest : GuestId)
  | forward (guest : GuestId) (name : String) (memory : Memory) (arguments : List Value)
      (results : Nat)

def perform (fs : Filesystem engine) : Operation → Host (Filesystem engine)
  | .wire guest writesStdout => fs.wire guest writesStdout
  | .unwire guest => fs.unwire guest
  | .flush guest => fs.flushOf guest
  | .forward guest name memory arguments results => do
    let (_, _, fs) ← fs.forward guest name memory arguments results
    return fs

def performAll (fs : Filesystem engine) : List Operation → Host (Filesystem engine)
  | [] => pure fs
  | operation :: later => do (← fs.perform operation).performAll later

/-- What happens at the desk. -/
inductive Act
  | wire (guest : GuestId) (writesStdout : Bool)
  | unwire (guest : GuestId)
  | flush (guest : GuestId)
  | enter (guest : GuestId)
  /-- a call of the module on behalf of a guest, to what its import is bound to -/
  | serve (guest : GuestId) (function : Option HostFunction) (arguments : List Value)
      (result : Except Signal (List Value))
  | leave (guest : GuestId)

def Act.Of : Act → Operation → Prop
  | .wire guest writesStdout, operation => operation = .wire guest writesStdout
  | .unwire guest, operation => operation = .unwire guest
  | .flush guest, operation => operation = .flush guest
  | .enter guest, operation | .serve guest _ _ _, operation | .leave guest, operation =>
    ∃ name memory arguments results, operation = .forward guest name memory arguments results

def Act.Takes (before : Desk) (trace : Trace) (after : Desk) : Act → Prop
  | .wire guest writesStdout => Host.Runs (before.wire guest writesStdout) trace after
  | .unwire guest => Host.Runs (before.unwire guest) trace after
  | .flush guest => Host.Runs (before.flushOf guest) trace after
  | .enter guest =>
    (∃ closed, trace = [⟨.isClosed, closed⟩]) ∧
      (after = before ∨ before.isHeldBy guest = true ∧
        ∃ memory, after = { before with window := some memory })
  | .serve guest (some f) arguments result =>
    before.isHeldBy guest = true ∧ ∃ memory put,
      Service.Runs (Filesystem.serve f arguments) (memory, before) trace result (put, after)
  | .serve guest none _ result =>
    before.isHeldBy guest = true ∧ (∃ signal, result = .error signal) ∧ trace = [] ∧ after = before
  | .leave _ => trace = [] ∧ after = before.shut

structure Step where
  act : Act
  before : Desk
  trace : Trace
  after : Desk

/-- All that steps show outside, in order. -/
def traceOf (steps : List Step) : Trace :=
  steps.flatMap Step.trace

theorem traceOf_cons (step : Step) (steps : List Step) :
    traceOf (step :: steps) = step.trace ++ traceOf steps :=
  List.flatMap_cons

def Step.ofCall (functions : List HostFunction) (guest : GuestId) (call : HostCall Desk) : Step :=
  ⟨.serve guest functions[call.callee]? call.arguments call.result, call.found.2, call.trace,
    call.left.2⟩

/-- Steps of the desk, each from where the last one left it. -/
inductive History : Desk → List Step → Desk → Prop
  | nil {desk : Desk} : History desk [] desk
  | cons {act : Act} {before after left : Desk} {trace : Trace} {steps : List Step}
      (taken : act.Takes before trace after) (later : History after steps left) :
      History before (⟨act, before, trace, after⟩ :: steps) left

theorem History.append {desk between left : Desk} {first later : List Step}
    (early : History desk first between) (late : History between later left) :
    History desk (first ++ later) left := by
  induction early with
  | nil => exact late
  | cons taken _ ih => exact .cons taken (ih late)

def bound (engine : Engine) (module : engine.Module) : List HostFunction :=
  (engine.imports module).filterMap HostFunction.ofImport?

/-- An operation with the steps that it takes. -/
inductive Recorded (fs : Filesystem engine) : Operation → List Step → Filesystem engine → Prop
  | wire {guest : GuestId} {writesStdout : Bool} {trace : Trace} {desk : Desk}
      (ran : Host.Runs (fs.desk.wire guest writesStdout) trace desk) :
      Recorded fs (.wire guest writesStdout) [⟨.wire guest writesStdout, fs.desk, trace, desk⟩]
        { fs with desk }
  | unwire {guest : GuestId} {trace : Trace} {desk : Desk}
      (ran : Host.Runs (fs.desk.unwire guest) trace desk) :
      Recorded fs (.unwire guest) [⟨.unwire guest, fs.desk, trace, desk⟩] { fs with desk }
  | flush {guest : GuestId} {trace : Trace} {desk : Desk}
      (ran : Host.Runs (fs.desk.flushOf guest) trace desk) :
      Recorded fs (.flush guest) [⟨.flush guest, fs.desk, trace, desk⟩] { fs with desk }
  | refused {guest : GuestId} {name : String} {memory : Memory} {arguments : List Value}
      {results : Nat} {closed : Bool}
      (reason : closed = true ∨ fs.desk.isHeldBy guest = false ∨
        ∀ type, engine.functionType? fs.module name = some type →
          ∃ mismatch, type.check (arguments.map Value.type) results = .error mismatch) :
      Recorded fs (.forward guest name memory arguments results)
        [⟨.enter guest, fs.desk, [⟨.isClosed, closed⟩], fs.desk⟩] fs
  | forwarded {guest : GuestId} {name : String} {memory : Memory} {arguments : List Value}
      {results : Nat} {type : FunctionType} {calls : List (HostCall Desk)}
      {ended : Activity.End engine.Instance Desk} (holds : fs.desk.isHeldBy guest = true)
      (found : engine.functionType? fs.module name = some type)
      (checked : type.check (arguments.map Value.type) results = .ok ())
      (records : Activity.Records engine (serveOf engine fs.module)
        (engine.call fs.memfs name arguments) { fs.desk with window := some memory } calls ended) :
      Recorded fs (.forward guest name memory arguments results)
        (⟨.enter guest, fs.desk, [⟨.isClosed, false⟩], { fs.desk with window := some memory }⟩ ::
          (calls.map (Step.ofCall (bound engine fs.module) guest) ++
            [⟨.leave guest, ended.host, [], ended.host.shut⟩]))
        { fs with memfs := ended.guest, desk := ended.host.shut }

/-- Operations one after another, with all their steps. -/
inductive RecordedAll : Filesystem engine → List Operation → List Step → Filesystem engine → Prop
  | nil {fs : Filesystem engine} : RecordedAll fs [] [] fs
  | cons {fs between left : Filesystem engine} {operation : Operation} {later : List Operation}
      {first steps : List Step} (recorded : Recorded fs operation first between)
      (onward : RecordedAll between later steps left) :
      RecordedAll fs (operation :: later) (first ++ steps) left

theorem runs_onDesk {fs left : Filesystem engine} {change : Desk → Host Desk} {trace : Trace}
    (run : Host.Runs (fs.onDesk change) trace left) :
    ∃ desk, Host.Runs (change fs.desk) trace desk ∧ left = { fs with desk } := by
  obtain ⟨desk, first, later, changing, ended, rfl⟩ := Host.runs_bind.mp run
  obtain ⟨rfl, rfl⟩ := Host.runs_pure.mp ended
  rw [List.append_nil]
  exact ⟨desk, changing, rfl⟩

theorem recorded_of_forward {fs : Filesystem engine} {guest : GuestId} {name : String}
    {memory : Memory} {arguments : List Value} {results : Nat} {trace : Trace}
    {reached : Except Signal (List Value) × Memory × Filesystem engine}
    (run : Host.Runs (fs.forward guest name memory arguments results) trace reached) :
    ∃ steps, Recorded fs (.forward guest name memory arguments results) steps reached.2.2 ∧
      trace = traceOf steps := by
  obtain ⟨closed, first, later, asking, entered, rfl⟩ := Host.runs_bind.mp run
  rw [Host.runs_query.mp asking]
  split at entered
  · next gone =>
    obtain ⟨rfl, rfl⟩ := Host.runs_pure.mp entered
    exact ⟨_, .refused (.inl gone), rfl⟩
  split at entered
  · next other =>
    obtain ⟨rfl, rfl⟩ := Host.runs_pure.mp entered
    exact ⟨_, .refused (.inr (.inl (by simpa using other))), rfl⟩
  next still_open holds =>
  split at entered
  · next missing =>
    obtain ⟨rfl, rfl⟩ := Host.runs_pure.mp entered
    refine ⟨_, .refused (.inr (.inr fun type found => ?_)), rfl⟩
    rw [missing] at found
    cases found
  · next type found =>
    split at entered
    · next mismatch checked =>
      obtain ⟨rfl, rfl⟩ := Host.runs_pure.mp entered
      refine ⟨_, .refused (.inr (.inr fun other same => ?_)), rfl⟩
      rw [found] at same
      cases same
      exact ⟨mismatch, checked⟩
    · next checked =>
      have still_open : closed = false := by simpa using still_open
      have holds : fs.desk.isHeldBy guest = true := by simpa using holds
      obtain ⟨ended, served, rest, driven, leaving, rfl⟩ := Host.runs_bind.mp entered
      obtain ⟨rfl, rfl⟩ := Host.runs_pure.mp leaving
      obtain ⟨calls, records, rfl⟩ := Activity.runs_drive.mp driven
      refine ⟨_, .forwarded holds found checked records, ?_⟩
      rw [still_open, traceOf, List.flatMap_cons, List.flatMap_append, List.flatMap_map]
      rfl

theorem recorded_of_run {fs left : Filesystem engine} {operation : Operation} {trace : Trace}
    (run : Host.Runs (fs.perform operation) trace left) :
    ∃ steps, Recorded fs operation steps left ∧ trace = traceOf steps := by
  cases operation with
  | wire guest writesStdout =>
    change Host.Runs (fs.wire guest writesStdout) trace left at run
    obtain ⟨desk, ran, rfl⟩ := runs_onDesk run
    exact ⟨_, .wire ran, (List.append_nil trace).symm⟩
  | unwire guest =>
    change Host.Runs (fs.unwire guest) trace left at run
    obtain ⟨desk, ran, rfl⟩ := runs_onDesk run
    exact ⟨_, .unwire ran, (List.append_nil trace).symm⟩
  | flush guest =>
    change Host.Runs (fs.flushOf guest) trace left at run
    obtain ⟨desk, ran, rfl⟩ := runs_onDesk run
    exact ⟨_, .flush ran, (List.append_nil trace).symm⟩
  | forward guest name memory arguments results =>
    obtain ⟨reached, first, later, forwarded, ended, rfl⟩ := Host.runs_bind.mp run
    obtain ⟨rfl, rfl⟩ := Host.runs_pure.mp ended
    rw [List.append_nil]
    exact recorded_of_forward forwarded

theorem recordedAll_of_run {fs left : Filesystem engine} {operations : List Operation}
    {trace : Trace} (run : Host.Runs (fs.performAll operations) trace left) :
    ∃ steps, RecordedAll fs operations steps left ∧ trace = traceOf steps := by
  induction operations generalizing fs trace with
  | nil =>
    obtain ⟨rfl, rfl⟩ := Host.runs_pure.mp run
    exact ⟨[], .nil, rfl⟩
  | cons operation later ih =>
    obtain ⟨between, early, late, ran, went, rfl⟩ := Host.runs_bind.mp run
    obtain ⟨first, recorded, rfl⟩ := recorded_of_run ran
    obtain ⟨steps, onward, rfl⟩ := ih went
    exact ⟨first ++ steps, .cons recorded onward, List.flatMap_append.symm⟩

theorem Served.wired_eq {found left : Desk} {trace : Trace} {f : HostFunction}
    {words : List UInt32} {result : Except Signal (List Value)}
    (served : Served found trace left f words result) : left.wired = found.wired := by
  cases served with
  | idle _ _ kept _ => exact (congrArg Desk.wired kept :)
  | wrote _ written _ => exact (congrArg Desk.wired written :)
  | read reads =>
    rcases reads.ends with ⟨-, kept⟩ | ⟨_, _, _, -, -, -, -, kept, -⟩
    · exact (congrArg Desk.wired kept :)
    · exact (congrArg Desk.wired kept :)
  | misread same _ => rw [same]

theorem Act.wired_of_serve {guest : GuestId} {function : Option HostFunction}
    {arguments : List Value} {result : Except Signal (List Value)} {before after : Desk}
    {trace : Trace}
    (taken : (Act.serve guest function arguments result).Takes before trace after) :
    after.wired = before.wired := by
  cases function with
  | none =>
    obtain ⟨-, -, -, same⟩ := taken
    exact congrArg Desk.wired same
  | some f =>
    obtain ⟨-, memory, put, ran⟩ := taken
    exact (served_of_run ran).wired_eq

private theorem takes_of_served {functions : List HostFunction} {guest : GuestId}
    {call : HostCall Desk} (holds : call.found.2.isHeldBy guest = true)
    (served : call.Served (serveBound functions)) :
    (Act.serve guest functions[call.callee]? call.arguments call.result).Takes call.found.2 call.trace
      call.left.2 := by
  unfold HostCall.Served serveBound at served
  split at served
  · next f bound =>
    rw [bound]
    exact ⟨holds, call.found.1, call.left.1, served⟩
  · next unbound =>
    rw [unbound]
    obtain ⟨nothing, failed, same⟩ := Service.runs_fault.mp served
    exact ⟨holds, ⟨_, failed⟩, nothing, congrArg Prod.snd same⟩

theorem history_of_records {functions : List HostFunction} {guest : GuestId}
    {act : Activity engine.Instance} {desk : Desk} {calls : List (HostCall Desk)}
    {ended : Activity.End engine.Instance Desk}
    (records : Activity.Records engine (serveBound functions) act desk calls ended)
    (holds : desk.isHeldBy guest = true) :
    History desk (calls.map (Step.ofCall functions guest)) ended.host := by
  induction records with
  | returned => exact .nil
  | trapped => exact .nil
  | @stopped inst direct resume call signal served lent stops =>
    exact .cons (takes_of_served holds served) .nil
  | @answered inst direct resume call values calls ended served lent answers later ih =>
    have taken := takes_of_served holds served
    have still_holds : call.left.2.isHeldBy guest = true := by
      rw [Desk.isHeldBy_congr (Act.wired_of_serve taken)]
      exact holds
    exact .cons taken (ih still_holds)

theorem Recorded.history {fs left : Filesystem engine} {operation : Operation} {steps : List Step}
    (recorded : Recorded fs operation steps left) : History fs.desk steps left.desk := by
  cases recorded with
  | wire ran => exact .cons ran .nil
  | unwire ran => exact .cons ran .nil
  | flush ran => exact .cons ran .nil
  | refused reason => exact .cons ⟨⟨_, rfl⟩, .inl rfl⟩ .nil
  | forwarded holds found checked records =>
    have served := history_of_records records holds
    exact .cons ⟨⟨false, rfl⟩, .inr ⟨holds, _, rfl⟩⟩ (served.append (.cons ⟨rfl, rfl⟩ .nil))

theorem RecordedAll.history {fs left : Filesystem engine} {operations : List Operation}
    {steps : List Step} (recorded : RecordedAll fs operations steps left) :
    History fs.desk steps left.desk := by
  induction recorded with
  | nil => exact .nil
  | cons recorded _ ih => exact recorded.history.append ih

theorem Recorded.act_of {fs left : Filesystem engine} {operation : Operation}
    {steps : List Step} (recorded : Recorded fs operation steps left) :
    ∀ step ∈ steps, step.act.Of operation := by
  intro step member
  cases recorded with
  | wire _ | unwire _ | flush _ =>
    cases List.mem_singleton.mp member
    rfl
  | refused _ =>
    cases List.mem_singleton.mp member
    exact ⟨_, _, _, _, rfl⟩
  | forwarded =>
    rcases List.mem_cons.mp member with rfl | member
    · exact ⟨_, _, _, _, rfl⟩
    · rcases List.mem_append.mp member with served | left
      · obtain ⟨call, -, rfl⟩ := List.mem_map.mp served
        exact ⟨_, _, _, _, rfl⟩
      · cases List.mem_singleton.mp left
        exact ⟨_, _, _, _, rfl⟩

theorem RecordedAll.act_of {fs left : Filesystem engine} {operations : List Operation}
    {steps : List Step} (recorded : RecordedAll fs operations steps left) :
    ∀ step ∈ steps, ∃ operation ∈ operations, step.act.Of operation := by
  induction recorded with
  | nil =>
    intro step member
    cases member
  | cons first _ ih =>
    intro step member
    rcases List.mem_append.mp member with early | late
    · exact ⟨_, List.mem_cons_self, first.act_of step early⟩
    · obtain ⟨operation, among, part⟩ := ih step late
      exact ⟨operation, List.mem_cons_of_mem _ among, part⟩

end Buildbox.Filesystem
