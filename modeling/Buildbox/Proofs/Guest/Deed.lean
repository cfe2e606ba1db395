import Buildbox.Guest.Basic
import Buildbox.Proofs.Filesystem.History

/-!
A guest in the hands of its owner. The owner instantiates it, runs it, calls it again, and takes its
permission away, in any order and as often as it likes; each of these deeds comes to one of eight
things. A life is a list of deeds; what others do with the filesystem in between is left open.
-/

set_option autoImplicit false

namespace Buildbox

namespace Outcome

def ofResult : Except Signal (List Value) → Outcome
  | .ok _ => .exited 0
  | .error signal => .ofSignal signal

theorem isSuccess_iff {outcome : Outcome} :
    outcome.isSuccess = true ↔ outcome = .exited 0 ∨ outcome = .paused := by
  cases outcome <;> simp [isSuccess]

theorem isSuccess_iff_failure {outcome : Outcome} {program : String} :
    outcome.isSuccess = true ↔ outcome.failure? program = none := by
  cases outcome <;> simp [isSuccess, failure?]

end Outcome

namespace Guest

variable {engine : Engine}

/-- What an owner does with a guest. -/
inductive Operation
  | instantiate
  | run (mode : RunMode)
  | callAgain (name : String)
  | revoke

inductive Answer
  | instantiated (result : Except Failure Unit)
  | ran (outcome : Outcome)
  | calledAgain (result : Except Failure Outcome)
  | revoked

def perform (guest : Guest engine) (fs : Filesystem engine) :
    Operation → Host (Answer × Guest engine × Filesystem engine)
  | .instantiate => do
    let (result, guest, fs) ← guest.instantiate fs
    return (.instantiated result, guest, fs)
  | .run mode => do
    let (outcome, guest, fs) ← guest.run fs mode
    return (.ran outcome, guest, fs)
  | .callAgain name => do
    let (result, guest, fs) ← guest.callAgain fs name
    return (.calledAgain result, guest, fs)
  | .revoke => return (.revoked, guest.revoke, fs)

/-- Deeds one after another, on a filesystem that nobody else uses. -/
def performAll (guest : Guest engine) (fs : Filesystem engine) :
    List Operation → Host (Guest engine × Filesystem engine)
  | [] => pure (guest, fs)
  | operation :: later => do
    let (_, guest, fs) ← guest.perform fs operation
    guest.performAll fs later

/-- An operation on a guest, with what it found and what it left. -/
structure Deed (engine : Engine) where
  operation : Operation
  before : Guest engine
  found : Filesystem engine
  trace : Trace
  answer : Answer
  after : Guest engine
  left : Filesystem engine

def Deed.Done (deed : Deed engine) : Prop :=
  Host.Runs (deed.before.perform deed.found deed.operation) deed.trace
    (deed.answer, deed.after, deed.left)

/-- Deeds on one guest in order. Each finds the guest as the last one left it, and the filesystem as
it may be by then. -/
inductive Life : Guest engine → List (Deed engine) → Guest engine → Prop
  | nil {guest : Guest engine} : Life guest [] guest
  | cons {deed : Deed engine} {later : List (Deed engine)} {last : Guest engine} (done : deed.Done)
      (onward : Life deed.after later last) : Life deed.before (deed :: later) last

theorem life_of_run {guest last : Guest engine} {fs left : Filesystem engine}
    {operations : List Operation} {trace : Trace}
    (run : Host.Runs (guest.performAll fs operations) trace (last, left)) :
    ∃ deeds : List (Deed engine), Life guest deeds last ∧ deeds.map Deed.operation = operations ∧
      deeds.flatMap Deed.trace = trace := by
  induction operations generalizing guest fs trace with
  | nil =>
    obtain ⟨rfl, same⟩ := Host.runs_pure.mp run
    cases same
    exact ⟨[], .nil, rfl, rfl⟩
  | cons operation later ih =>
    obtain ⟨⟨answer, after, between⟩, first, rest, done, went, rfl⟩ := Host.runs_bind.mp run
    obtain ⟨deeds, life, rfl, rfl⟩ := ih went
    have done : Deed.Done ⟨operation, guest, fs, first, answer, after, between⟩ := done
    exact ⟨_ :: deeds, .cons done life, rfl, rfl⟩

/-- What settling writes after the output: a bad outcome is reported, unless the guest is silent or
the pass is for its diagnostics. -/
def report (guest : Guest engine) (outcome : Outcome) (mode : RunMode) : Trace :=
  if !outcome.isSuccess && (mode == .standard && guest.writesStdout) then
    [⟨.write (banner outcome), ()⟩]
  else []

/-- A guest call up to its settlement: an export of another type is not called. -/
inductive Entered (guest : Guest engine) (fs : Filesystem engine) (state : engine.Instance)
    (bindings : List Binding) (type : FunctionType) (name : String) :
    Trace → Outcome → engine.Instance → Filesystem engine → Prop
  | mismatched {mismatch : CallMismatch} (checked : type.check [] 0 = .error mismatch) :
      Entered guest fs state bindings type name [] (.faulted (.mismatch mismatch)) state fs
  | called {trace : Trace} {ended : Activity.End engine.Instance (Filesystem engine)}
      (checked : type.check [] 0 = .ok ())
      (ran : Host.Runs (Activity.drive engine (serveBindings guest.identity bindings)
        (engine.call state name []) fs) trace ended) :
      Entered guest fs state bindings type name trace (.ofResult ended.result) ended.guest ended.host

inductive Invoked (guest : Guest engine) (fs : Filesystem engine) (state : engine.Instance)
    (bindings : List Binding) (type : FunctionType) (name : String) (mode : RunMode) :
    Trace → Outcome → Guest engine → Filesystem engine → Prop
  | settled {said flushed : Trace} {outcome : Outcome} {put : engine.Instance}
      {reached : Filesystem engine} {desk : Filesystem.Desk}
      (entered : Entered guest fs state bindings type name said outcome put reached)
      (flushing : Host.Runs (reached.desk.flushOf guest.id) flushed desk) :
      Invoked guest fs state bindings type name mode (said ++ flushed ++ guest.report outcome mode)
        outcome
        { guest with phase := .finished put bindings, allowed := guest.allowed && outcome.isSuccess }
        { reached with desk }

inductive Comes (guest : Guest engine) (fs : Filesystem engine) :
    Operation → Trace → Answer → Guest engine → Filesystem engine → Prop
  | unlinked {failure : Failure} :
      Comes guest fs .instantiate [] (.instantiated (.error failure)) guest fs
  | unstarted {failure : Failure} {bindings : List Binding} {said : Trace}
      {ended : Activity.End engine.Instance (Filesystem engine)} (fresh : guest.phase = .created)
      (ran : Host.Runs (Activity.drive engine (serveBindings guest.identity bindings)
        (engine.start guest.module) fs) said ended) :
      Comes guest fs .instantiate said (.instantiated (.error failure)) guest ended.host
  | started {bindings : List Binding} {said wiring : Trace}
      {ended : Activity.End engine.Instance (Filesystem engine)} {desk : Filesystem.Desk}
      (fresh : guest.phase = .created)
      (entry : (engine.functionType? guest.module startExport).isSome = true)
      (ran : Host.Runs (Activity.drive engine (serveBindings guest.identity bindings)
        (engine.start guest.module) fs) said ended)
      (taking : Host.Runs (ended.host.desk.wire guest.id guest.writesStdout) wiring desk) :
      Comes guest fs .instantiate (said ++ wiring) (.instantiated (.ok ()))
        { guest with phase := .instantiated ended.guest bindings } { ended.host with desk }
  | unready {mode : RunMode}
      (not_ready : ∀ state bindings, guest.phase = .instantiated state bindings →
        engine.functionType? guest.module startExport = none) :
      Comes guest fs (.run mode) [] (.ran (.faulted (.notReady guest.program))) guest fs
  | ran {mode : RunMode} {state : engine.Instance} {bindings : List Binding} {type : FunctionType}
      {trace : Trace} {outcome : Outcome} {after : Guest engine} {left : Filesystem engine}
      (ready : guest.phase = .instantiated state bindings)
      (invoked : Invoked guest fs state bindings type startExport mode trace outcome after left) :
      Comes guest fs (.run mode) trace (.ran outcome) after left
  | refused {name : String} {failure : Failure} :
      Comes guest fs (.callAgain name) [] (.calledAgain (.error failure)) guest fs
  | calledAgain {name : String} {state : engine.Instance} {bindings : List Binding}
      {type : FunctionType} {wiring trace : Trace} {outcome : Outcome} {desk : Filesystem.Desk}
      {after : Guest engine} {left : Filesystem engine}
      (finished : guest.phase = .finished state bindings) (allowed : guest.allowed = true)
      (taking : Host.Runs (fs.desk.wire guest.id guest.writesStdout) wiring desk)
      (invoked : Invoked guest { fs with desk } state bindings type name .standard trace outcome
        after left) :
      Comes guest fs (.callAgain name) (wiring ++ trace) (.calledAgain (.ok outcome)) after left
  | revoked : Comes guest fs .revoke [] .revoked guest.revoke fs

section Comes

variable {guest after : Guest engine} {fs left : Filesystem engine} {trace : Trace}

private theorem runs_settle {outcome : Outcome} {mode : RunMode}
    (run : Host.Runs (guest.settle fs outcome mode) trace (after, left)) :
    ∃ flushed desk, Host.Runs (fs.desk.flushOf guest.id) flushed desk ∧
      trace = flushed ++ guest.report outcome mode ∧
      after = { guest with allowed := guest.allowed && outcome.isSuccess } ∧
      left = { fs with desk } := by
  obtain ⟨reached, flushed, later, flushing, went, rfl⟩ := Host.runs_bind.mp run
  obtain ⟨desk, ran, rfl⟩ := Filesystem.runs_onDesk flushing
  refine ⟨flushed, desk, ran, ?_⟩
  unfold report
  split at went
  · next good =>
    obtain ⟨rfl, same⟩ := Host.runs_pure.mp went
    cases same
    simp [good]
  · next bad =>
    have bad : outcome.isSuccess = false := by simpa using bad
    split at went
    · next reported =>
      obtain ⟨_, first, rest, writing, ended, rfl⟩ := Host.runs_bind.mp went
      have writing := Host.runs_query.mp writing
      obtain ⟨rfl, same⟩ := Host.runs_pure.mp ended
      cases same
      simp [bad, reported, writing, revoke]
    · next silent =>
      obtain ⟨rfl, same⟩ := Host.runs_pure.mp went
      cases same
      simp [bad, silent, revoke]

private def enter (guest : Guest engine) (fs : Filesystem engine) (state : engine.Instance)
    (bindings : List Binding) (type : FunctionType) (name : String) :
    Host (Outcome × engine.Instance × Filesystem engine) :=
  match type.check [] 0 with
  | .error mismatch => pure (.faulted (.mismatch mismatch), state, fs)
  | .ok () => do
    let ended ← Activity.drive engine (serveBindings guest.identity bindings)
      (engine.call state name []) fs
    return (.ofResult ended.result, ended.guest, ended.host)

private theorem invoke_eq (guest : Guest engine) (fs : Filesystem engine) (state : engine.Instance)
    (bindings : List Binding) (type : FunctionType) (name : String) (mode : RunMode) :
    guest.invoke fs state bindings type name mode = do
      let (outcome, state, fs) ← enter guest fs state bindings type name
      let (after, left) ← settle { guest with phase := .finished state bindings } fs outcome mode
      return (outcome, after, left) := by
  unfold invoke enter
  cases type.check [] 0 with
  | error mismatch => rfl
  | ok fits =>
    simp only [bind_assoc, pure_bind]
    rfl

private theorem entered_of_run {state put : engine.Instance} {bindings : List Binding}
    {type : FunctionType} {name : String} {outcome : Outcome}
    (run : Host.Runs (enter guest fs state bindings type name) trace (outcome, put, left)) :
    Entered guest fs state bindings type name trace outcome put left := by
  unfold enter at run
  split at run
  · next mismatch checked =>
    obtain ⟨rfl, same⟩ := Host.runs_pure.mp run
    cases same
    exact .mismatched checked
  · next checked =>
    obtain ⟨ended, first, rest, ran, classified, rfl⟩ := Host.runs_bind.mp run
    obtain ⟨rfl, same⟩ := Host.runs_pure.mp classified
    cases same
    rw [List.append_nil]
    exact .called checked ran

theorem invoked_of_run {state : engine.Instance} {bindings : List Binding}
    {type : FunctionType} {name : String} {mode : RunMode} {outcome : Outcome}
    (run : Host.Runs (guest.invoke fs state bindings type name mode) trace (outcome, after, left)) :
    Invoked guest fs state bindings type name mode trace outcome after left := by
  rw [invoke_eq] at run
  obtain ⟨⟨reached_outcome, put, reached⟩, said, later, entering, settling, rfl⟩ :=
    Host.runs_bind.mp run
  obtain ⟨⟨settled, desk⟩, ending, nothing, ran, ended, rfl⟩ := Host.runs_bind.mp settling
  obtain ⟨rfl, same⟩ := Host.runs_pure.mp ended
  cases same
  obtain ⟨flushed, desk, flushing, rfl, rfl, rfl⟩ := runs_settle ran
  rw [List.append_nil, ← List.append_assoc]
  exact .settled (entered_of_run entering) flushing

theorem exports_start {module : engine.Module}
    (exported : engine.checkExports module [startExport] = .ok ()) :
    (engine.functionType? module startExport).isSome = true := by
  unfold Engine.checkExports at exported
  split at exported
  · cases exported
  split at exported
  · cases exported
  next found =>
  simpa [Option.isSome_iff_ne_none] using found

private theorem comes_of_instantiate {result : Except Failure Unit}
    (run : Host.Runs (guest.instantiate fs) trace (result, after, left)) :
    Comes guest fs .instantiate trace (.instantiated result) after left := by
  unfold Guest.instantiate at run
  split at run
  · obtain ⟨rfl, same⟩ := Host.runs_pure.mp run
    cases same
    exact .unlinked
  · obtain ⟨rfl, same⟩ := Host.runs_pure.mp run
    cases same
    exact .unlinked
  next fresh =>
  split at run
  · obtain ⟨rfl, same⟩ := Host.runs_pure.mp run
    cases same
    exact .unlinked
  next bindings linked =>
  obtain ⟨ended, said, later, ran, went, rfl⟩ := Host.runs_bind.mp run
  split at went
  · obtain ⟨rfl, same⟩ := Host.runs_pure.mp went
    cases same
    rw [List.append_nil]
    exact .unstarted fresh ran
  split at went
  · obtain ⟨rfl, same⟩ := Host.runs_pure.mp went
    cases same
    rw [List.append_nil]
    exact .unstarted fresh ran
  next exported =>
  obtain ⟨reached, wiring, rest, taking, last, rfl⟩ := Host.runs_bind.mp went
  obtain ⟨rfl, same⟩ := Host.runs_pure.mp last
  cases same
  obtain ⟨desk, taken, rfl⟩ := Filesystem.runs_onDesk taking
  rw [List.append_nil]
  exact .started fresh (exports_start exported) ran taken

private theorem comes_of_callAgain {name : String} {result : Except Failure Outcome}
    (run : Host.Runs (guest.callAgain fs name) trace (result, after, left)) :
    Comes guest fs (.callAgain name) trace (.calledAgain result) after left := by
  unfold Guest.callAgain at run
  split at run
  · next state bindings finished =>
    split at run
    · obtain ⟨rfl, same⟩ := Host.runs_pure.mp run
      cases same
      exact .refused
    next kept =>
    split at run
    · obtain ⟨rfl, same⟩ := Host.runs_pure.mp run
      cases same
      exact .refused
    · obtain ⟨reached, wiring, rest, taking, went, rfl⟩ := Host.runs_bind.mp run
      obtain ⟨⟨outcome, put, between⟩, said, nothing, invoking, last, rfl⟩ := Host.runs_bind.mp went
      obtain ⟨rfl, same⟩ := Host.runs_pure.mp last
      cases same
      obtain ⟨desk, taken, rfl⟩ := Filesystem.runs_onDesk taking
      rw [List.append_nil]
      exact .calledAgain finished (by simpa using kept) taken (invoked_of_run invoking)
  · obtain ⟨rfl, same⟩ := Host.runs_pure.mp run
    cases same
    exact .refused

private theorem comes_of_ran {mode : RunMode} {outcome : Outcome}
    (run : Host.Runs (guest.run fs mode) trace (outcome, after, left)) :
    Comes guest fs (.run mode) trace (.ran outcome) after left := by
  unfold Guest.run at run
  split at run
  · next ready exported => exact .ran ready (invoked_of_run run)
  · next unready =>
    obtain ⟨rfl, same⟩ := Host.runs_pure.mp run
    cases same
    refine .unready fun state bindings ready => ?_
    cases exported : engine.functionType? guest.module startExport with
    | none => rfl
    | some type => exact absurd exported (unready _ _ _ ready)

theorem runs_answered {α : Type} {c : Host (α × Guest engine × Filesystem engine)}
    {answer : Answer} {answer_of : α → Answer}
    (run : Host.Runs (do let (a, guest, fs) ← c; return (answer_of a, guest, fs)) trace
      (answer, after, left)) :
    ∃ a, Host.Runs c trace (a, after, left) ∧ answer = answer_of a := by
  obtain ⟨⟨a, put, reached⟩, first, later, ran, ended, rfl⟩ := Host.runs_bind.mp run
  obtain ⟨rfl, same⟩ := Host.runs_pure.mp ended
  cases same
  rw [List.append_nil]
  exact ⟨a, ran, rfl⟩

private theorem comes_of_run {operation : Operation} {answer : Answer}
    (run : Host.Runs (guest.perform fs operation) trace (answer, after, left)) :
    Comes guest fs operation trace answer after left := by
  cases operation with
  | instantiate =>
    obtain ⟨result, ran, rfl⟩ := runs_answered run
    exact comes_of_instantiate ran
  | run mode =>
    obtain ⟨outcome, ran, rfl⟩ := runs_answered run
    exact comes_of_ran ran
  | callAgain name =>
    obtain ⟨result, ran, rfl⟩ := runs_answered run
    exact comes_of_callAgain ran
  | revoke =>
    obtain ⟨rfl, same⟩ := Host.runs_pure.mp run
    cases same
    exact .revoked

theorem Deed.Done.comes {deed : Deed engine} (done : deed.Done) :
    Comes deed.before deed.found deed.operation deed.trace deed.answer deed.after deed.left :=
  comes_of_run done

end Comes

end Guest

end Buildbox
