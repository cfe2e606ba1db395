import Buildbox.Proofs.Filesystem.Aside
import Buildbox.Proofs.Filesystem.Output
import Buildbox.Proofs.Guest.Company

/-!
What a guest writes while it is called, read off the calls that it makes to its host. Everything that
it writes, and nothing else, is heard and shown as its text when it ends.
-/

set_option autoImplicit false

namespace Buildbox

namespace Filesystem

/-- The desk takes these writes of its holder, in order. -/
structure Desk.Hears (found : Desk) (trace : Trace) (writes : List Bytes) (left : Desk) : Prop where
  wired : left.wired = found.wired
  heard : left.heard = found.heard.map (· ++ (found.carry.feed writes).1)
  carry : left.carry = (found.carry.feed writes).2
  shown : trace.shown = found.routed (found.carry.feed writes).1

namespace Desk

variable {found between left : Desk} {first later : Trace} {writes more : List Bytes}

theorem Hears.silent {trace : Trace} (wired : left.wired = found.wired)
    (heard : left.heard = found.heard) (carry : left.carry = found.carry)
    (shown : trace.shown = "") : found.Hears trace [] left := by
  refine ⟨wired, ?_, carry, ?_⟩
  · have nothing_more : found.heard = (found.hearing "").heard := by rw [hearing_empty]
    exact heard.trans nothing_more
  · rw [shown]
    exact (routed_empty found).symm

theorem Hears.append (early : found.Hears first writes between)
    (late : between.Hears later more left) : found.Hears (first ++ later) (writes ++ more) left := by
  have fed := Utf8.Carry.feed_append found.carry writes more
  rw [← early.carry] at fed
  refine ⟨late.wired.trans early.wired, ?_, ?_, ?_⟩
  · rw [fed, late.heard, early.heard, Option.map_map]
    congr 1
    funext earlier
    exact String.append_assoc
  · rw [fed, late.carry]
  · rw [fed, Trace.shown_append, early.shown, late.shown, routed_congr early.wired, routed_append]

/-- What was written has been heard and shown, as its text. -/
structure Closes (found : Desk) (trace : Trace) (writes : List Bytes) (left : Desk) : Prop where
  shown : trace.shown = found.routed (Utf8.lossy writes.flatten)
  heard : left.heard = found.heard.map (· ++ Utf8.lossy writes.flatten)
  settled : left.Settled
  wired : left.wired = found.wired

theorem Hears.finish {guest : GuestId} (hears : found.Hears first writes between)
    (settled : found.Settled) (holds : found.isHeldBy guest = true)
    (unlent : between.window = none) (flushing : Host.Runs (between.flushOf guest) later left) :
    found.Closes (first ++ later) writes left := by
  have still_holds : between.isHeldBy guest = true := by rw [isHeldBy_congr hears.wired, holds]
  have whole : (found.carry.feed writes).1 ++ between.carry.finish =
      Utf8.lossy writes.flatten := by
    rw [hears.carry, settled.carry, ← Utf8.Carry.stream_eq_lossy, Utf8.Carry.stream]
  rcases runs_flushOf flushing with ⟨-, rfl, shows⟩ | ⟨other, -⟩
  · refine ⟨?_, ?_, ⟨rfl, unlent⟩, hears.wired⟩
    · rw [Trace.shown_append, hears.shown, shows.shown, routed_congr hears.wired, ← routed_append,
        whole]
    · change Option.map _ between.heard = _
      rw [hears.heard, Option.map_map, ← whole]
      congr 1
      funext earlier
      exact String.append_assoc
  · rw [still_holds] at other
    cases other

end Desk

private theorem hears_of_served {guest : GuestId} {f : HostFunction} {arguments : List Value}
    {result : Except Signal (List Value)} {found left : Desk} {trace : Trace}
    (served : Served found trace left f (arguments.map Value.word) result) :
    found.Hears trace
      (Step.written ⟨.serve guest (some f) arguments result, found, trace, left⟩).toList left := by
  generalize words : arguments.map Value.word = w at served
  cases served with
  | idle _ failed kept shows =>
    rw [written_eq_none failed]
    exact .silent (congrArg Desk.wired kept :) (congrArg Desk.heard kept :)
      (congrArg Desk.carry kept :) shows.shown
  | @wrote descriptor buffers count writtenOut window lent written shows =>
    rw [written_eq lent words]
    have fed : found.carry.feed [window.held (window.bufferList buffers count)] =
        (found.settled (window.held (window.bufferList buffers count)),
          (found.carry.decode (window.held (window.bufferList buffers count))).2) := by
      simp [Utf8.Carry.feed, Desk.settled]
    refine ⟨(congrArg Desk.wired written :), ?_, ?_, ?_⟩
    · rw [Option.toList_some, fed]
      exact (congrArg Desk.heard written :)
    · rw [Option.toList_some, fed]
      exact (congrArg Desk.carry written :)
    · rw [Option.toList_some, fed]
      exact shows.shown
  | read reads =>
    rw [written_eq_none (fun impossible => by cases impossible)]
    rcases reads.ends with ⟨-, kept⟩ | ⟨_, _, _, -, -, -, -, kept, -⟩
    · exact .silent (congrArg Desk.wired kept :) (congrArg Desk.heard kept :)
        (congrArg Desk.carry kept :) reads.shown
    · exact .silent (congrArg Desk.wired kept :) (congrArg Desk.heard kept :)
        (congrArg Desk.carry kept :) reads.shown
  | misread same nothing =>
    rw [written_eq_none (fun impossible => by cases impossible), same, nothing]
    exact .silent rfl rfl rfl rfl

private theorem hears_of_taken {act : Act} {found left : Desk} {trace : Trace}
    {operation : Operation} {guest : GuestId} {name : String} {memory : Memory}
    {arguments : List Value} {results : Nat} (part : act.Of operation)
    (forwarded : operation = .forward guest name memory arguments results)
    (taken : act.Takes found trace left) :
    found.Hears trace (Step.written ⟨act, found, trace, left⟩).toList left := by
  subst forwarded
  cases act with
  | wire _ _ | unwire _ | flush _ => cases part
  | enter caller =>
    obtain ⟨⟨closed, rfl⟩, rfl | ⟨-, lent, rfl⟩⟩ := taken
    · exact .silent rfl rfl rfl rfl
    · exact .silent rfl rfl rfl rfl
  | serve caller function values result =>
    cases function with
    | none =>
      obtain ⟨-, -, rfl, rfl⟩ := taken
      exact .silent rfl rfl rfl rfl
    | some f =>
      obtain ⟨-, lent, put, ran⟩ := taken
      exact hears_of_served (served_of_run ran)
  | leave caller =>
    obtain ⟨rfl, rfl⟩ := taken
    exact .silent rfl rfl rfl rfl

def writesOf (steps : List Step) : List Bytes :=
  steps.flatMap fun step => step.written.toList

private theorem hears_of_history {found left : Desk} {steps : List Step}
    (history : History found steps left)
    (each : ∀ step ∈ steps, step.act.Takes step.before step.trace step.after →
      step.before.Hears step.trace step.written.toList step.after) :
    found.Hears (traceOf steps) (writesOf steps) left := by
  induction history with
  | nil => exact .silent rfl rfl rfl rfl
  | cons taken _ ih =>
    rw [traceOf_cons, writesOf, List.flatMap_cons]
    exact (each _ List.mem_cons_self taken).append (ih fun step member => each step (.tail _ member))

theorem Recorded.hears {engine : Engine} {fs left : Filesystem engine} {guest : GuestId}
    {name : String} {memory : Memory} {arguments : List Value} {results : Nat} {steps : List Step}
    (recorded : Recorded fs (.forward guest name memory arguments results) steps left) :
    fs.desk.Hears (traceOf steps) (writesOf steps) left.desk := by
  refine hears_of_history recorded.history fun step member taken => ?_
  exact hears_of_taken (recorded.act_of step member) rfl taken

theorem Recorded.writes_nothing {engine : Engine} {fs left : Filesystem engine} {guest : GuestId}
    {name : String} {memory : Memory} {arguments : List Value} {results : Nat} {steps : List Step}
    (recorded : Recorded fs (.forward guest name memory arguments results) steps left)
    (other : fs.desk.isHeldBy guest = false) : writesOf steps = [] := by
  cases recorded with
  | refused reason => rfl
  | forwarded holds _ _ _ =>
    rw [other] at holds
    cases holds

end Filesystem

namespace Guest

variable {engine : Engine} {self : Identity} {bindings : List Binding}

/-- A call of a guest to its host is forwarded to the filesystem in these steps. -/
structure Forwards (self : Identity) (bindings : List Binding)
    (call : HostCall (Filesystem engine)) (steps : List Filesystem.Step) : Prop where
  recorded : ∃ name type memory, bindings[call.callee]? = some (.forwarded name type) ∧
    call.found.1 = some memory ∧
    Filesystem.Recorded call.found.2
      (.forward self.id name memory call.arguments type.results.length) steps call.left.2
  traced : call.trace = Filesystem.traceOf steps

/-- A call of a guest to its host does not reach the filesystem. -/
structure Bypasses (bindings : List Binding) (call : HostCall (Filesystem engine)) : Prop where
  unbound : ∀ name type, bindings[call.callee]? = some (.forwarded name type) →
    call.found.1 = none
  kept : call.left.2 = call.found.2
  silent : ∀ exchange ∈ call.trace, ∀ text, exchange.query ≠ .write text

/-- What a guest writes by its calls to its host, in order. -/
inductive Writes (self : Identity) (bindings : List Binding) :
    List (HostCall (Filesystem engine)) → List Bytes → Prop
  | nil : Writes self bindings [] []
  | forwarded {call : HostCall (Filesystem engine)} {steps : List Filesystem.Step}
      {later : List (HostCall (Filesystem engine))} {writes : List Bytes}
      (forwards : Forwards self bindings call steps) (onward : Writes self bindings later writes) :
      Writes self bindings (call :: later) (Filesystem.writesOf steps ++ writes)
  | bypassed {call : HostCall (Filesystem engine)} {later : List (HostCall (Filesystem engine))}
      {writes : List Bytes} (bypasses : Bypasses bindings call)
      (onward : Writes self bindings later writes) :
      Writes self bindings (call :: later) writes

private def LeavesAlone {σ : Type} (found : σ) (trace : Trace) (left : σ) : Prop :=
  left = found ∧ ∀ exchange ∈ trace, ∀ text, exchange.query ≠ .write text

private theorem stretch_leavesAlone {σ : Type} : Service.Stretch (@LeavesAlone σ) where
  refl _ := ⟨rfl, fun _ => nofun⟩
  trans := by
    rintro a b c first later ⟨rfl, silent⟩ ⟨rfl, still_silent⟩
    refine ⟨rfl, fun exchange among => ?_⟩
    rcases List.mem_append.mp among with early | late
    · exact silent exchange early
    · exact still_silent exchange late

theorem forwards_or_bypasses {call : HostCall (Filesystem engine)}
    (served : call.Served (serveBindings self bindings)) :
    (∃ steps, Forwards self bindings call steps) ∨ Bypasses bindings call := by
  obtain ⟨callee, arguments, ⟨memory, fs⟩, trace, result, left⟩ := call
  have served : Service.Runs (serveBindings self bindings callee arguments) (memory, fs) trace
    result left := served
  unfold serveBindings at served
  split at served
  · next binding bound =>
    cases binding with
    | process syscall =>
      have left_alone := Syscall.within_serve stretch_leavesAlone
        (fun _ _ silent _ => ⟨rfl, by simpa using silent⟩) _ _ _ _ _ _ _ served
      refine .inr ⟨fun name type same => ?_, left_alone.1, left_alone.2⟩
      cases bound.symm.trans same
    | missing name =>
      obtain ⟨rfl, -, rfl⟩ := Service.runs_throw.mp served
      refine .inr ⟨fun name type same => ?_, rfl, List.forall_mem_nil _⟩
      cases bound.symm.trans same
    | forwarded name type =>
      rw [Binding.serve, Service.runs_get_bind] at served
      cases memory with
      | none =>
        obtain ⟨rfl, -, rfl⟩ := Service.runs_fault.mp served
        exact .inr ⟨fun _ _ _ => rfl, rfl, List.forall_mem_nil _⟩
      | some memory =>
        obtain ⟨reached, first, later, forwarding, ended, rfl⟩ := Service.runs_ofHost_bind.mp served
        obtain ⟨steps, recorded, rfl⟩ := Filesystem.recorded_of_forward forwarding
        have ended := Service.runs_set_bind.mp ended
        split at ended
        · obtain ⟨rfl, -, rfl⟩ := Service.runs_pure.mp ended
          exact .inl ⟨steps, ⟨name, type, memory, bound, rfl, recorded⟩, List.append_nil _⟩
        · obtain ⟨rfl, -, rfl⟩ := Service.runs_throw.mp ended
          exact .inl ⟨steps, ⟨name, type, memory, bound, rfl, recorded⟩, List.append_nil _⟩
  · next unbound =>
    obtain ⟨rfl, -, rfl⟩ := Service.runs_fault.mp served
    refine .inr ⟨fun name type same => ?_, rfl, List.forall_mem_nil _⟩
    cases unbound.symm.trans same

theorem Forwards.hears {call : HostCall (Filesystem engine)} {steps : List Filesystem.Step}
    (forwards : Forwards self bindings call steps) :
    call.found.2.desk.Hears call.trace (Filesystem.writesOf steps) call.left.2.desk := by
  obtain ⟨⟨name, type, memory, -, -, recorded⟩, traced⟩ := forwards
  rw [traced]
  exact recorded.hears

theorem Bypasses.hears {call : HostCall (Filesystem engine)} (bypasses : Bypasses bindings call) :
    call.found.2.desk.Hears call.trace [] call.left.2.desk := by
  rw [bypasses.kept]
  exact .silent rfl rfl rfl (Trace.shown_eq_empty bypasses.silent)

theorem writes_of_records {act : Activity engine.Instance} {fs : Filesystem engine}
    {calls : List (HostCall (Filesystem engine))}
    {ended : Activity.End engine.Instance (Filesystem engine)}
    (records : Activity.Records engine (serveBindings self bindings) act fs calls ended) :
    ∃ writes, Writes self bindings calls writes ∧
      fs.desk.Hears (calls.flatMap HostCall.trace) writes ended.host.desk := by
  induction records with
  | returned => exact ⟨[], .nil, .silent rfl rfl rfl rfl⟩
  | trapped => exact ⟨[], .nil, .silent rfl rfl rfl rfl⟩
  | @stopped inst direct resume call signal served lent stops =>
    rw [List.flatMap_singleton]
    rcases forwards_or_bypasses served with ⟨steps, forwards⟩ | bypasses
    · refine ⟨Filesystem.writesOf steps, ?_, forwards.hears⟩
      simpa using Writes.forwarded forwards .nil
    · exact ⟨[], .bypassed bypasses .nil, bypasses.hears⟩
  | @answered inst direct resume call values calls ended served lent answers later ih =>
    obtain ⟨writes, onward, hears⟩ := ih
    rw [List.flatMap_cons]
    rcases forwards_or_bypasses served with ⟨steps, forwards⟩ | bypasses
    · exact ⟨_, .forwarded forwards onward, forwards.hears.append hears⟩
    · exact ⟨_, .bypassed bypasses onward, bypasses.hears.append hears⟩

/-- While the guest does not hold the filesystem, that is left alone and nothing is shown. -/
private def Barred (guest : GuestId) (found : Filesystem engine) (trace : Trace)
    (left : Filesystem engine) : Prop :=
  found.desk.isHeldBy guest = false → left = found ∧ trace.shown = ""

private theorem stretch_barred (guest : GuestId) : Service.Stretch (@Barred engine guest) where
  refl _ _ := ⟨rfl, rfl⟩
  trans early late other := by
    obtain ⟨rfl, silent⟩ := early other
    obtain ⟨rfl, still_silent⟩ := late other
    refine ⟨rfl, ?_⟩
    rw [Trace.shown_append, silent, still_silent]
    rfl

private theorem barred_serveBindings (self : Identity) (bindings : List Binding) (callee : Nat)
    (arguments : List Value) : Service.Within (@Barred engine self.id)
      (serveBindings self bindings callee arguments) := by
  refine within_serveBindings (stretch_barred self.id) self ?_ ?_ bindings callee arguments
  · exact fun fs exchange silent _ _ => ⟨rfl, Trace.shown_silent silent⟩
  · intro fs name memory arguments results trace reached run other
    obtain ⟨closed, rest, rfl, refused⟩ := Filesystem.refused_of_forward run
    have stranger : fs.wiredGuest ≠ some self.id := by
      rw [Ne, Filesystem.wiredGuest_eq_iff, other]
      exact Bool.false_ne_true
    cases closed with
    | true =>
      obtain ⟨rfl, rfl⟩ := refused (.fault .terminated) rfl
      exact ⟨rfl, rfl⟩
    | false =>
      obtain ⟨rfl, rfl⟩ := refused (.fault (.notWired name self.id)) (by
        simp [Filesystem.refusal, stranger])
      exact ⟨rfl, rfl⟩

theorem Forwards.writes_nothing {call : HostCall (Filesystem engine)}
    {steps : List Filesystem.Step} (forwards : Forwards self bindings call steps)
    (other : call.found.2.desk.isHeldBy self.id = false) : Filesystem.writesOf steps = [] := by
  obtain ⟨⟨name, type, memory, -, -, recorded⟩, -⟩ := forwards
  exact recorded.writes_nothing other

theorem Writes.nothing {calls : List (HostCall (Filesystem engine))} {writes : List Bytes}
    (written : Writes self bindings calls writes)
    (other : ∀ call ∈ calls, call.found.2.desk.isHeldBy self.id = false) : writes = [] := by
  induction written with
  | nil => rfl
  | forwarded forwards onward ih =>
    rw [forwards.writes_nothing (other _ List.mem_cons_self),
      ih fun call among => other call (.tail _ among)]
    rfl
  | bypassed bypasses onward ih => exact ih fun call among => other call (.tail _ among)

theorem barred_of_records {act : Activity engine.Instance} {fs : Filesystem engine}
    {calls : List (HostCall (Filesystem engine))}
    {ended : Activity.End engine.Instance (Filesystem engine)}
    (records : Activity.Records engine (serveBindings self bindings) act fs calls ended)
    (other : fs.desk.isHeldBy self.id = false) :
    ended.host = fs ∧ Trace.shown (calls.flatMap HostCall.trace) = "" ∧
      Writes self bindings calls [] := by
  have stretch : Service.Stretch (@Barred engine self.id) := stretch_barred self.id
  obtain ⟨same, silent⟩ := records.closure stretch (barred_serveBindings self bindings) other
  obtain ⟨writes, written, -⟩ := writes_of_records records
  have nothing := written.nothing fun call among => by
    obtain ⟨-, ⟨_, finds⟩, -⟩ := records.each stretch (barred_serveBindings self bindings) call among
    rw [(finds other).1, other]
  exact ⟨same, silent, nothing ▸ written⟩

def entry? (guest : Guest engine) (state : engine.Instance) (name : String) :
    Option (Activity engine.Instance) :=
  match engine.functionType? guest.module name with
  | none => none
  | some type =>
    match type.check [] 0 with
    | .ok () => some (engine.call state name [])
    | .error _ => none

namespace Deed

def activity? (deed : Deed engine) : Option (List Binding × Activity engine.Instance) :=
  match deed.operation, deed.before.phase with
  | .instantiate, .created =>
    match link (engine.imports deed.before.module) deed.found.hasFunction with
    | .ok bindings => some (bindings, engine.start deed.before.module)
    | .error _ => none
  | .run _, .instantiated state bindings =>
    (deed.before.entry? state startExport).map (bindings, ·)
  | .callAgain name, .finished state bindings =>
    if deed.before.allowed then (deed.before.entry? state name).map (bindings, ·) else none
  | _, _ => none

def Wrote (deed : Deed engine) (writes : List Bytes) : Prop :=
  match deed.activity? with
  | none => writes = []
  | some (bindings, act) => ∃ opening desk calls ended,
    deed.before.Opens deed.found.desk deed.operation opening desk ∧
      Activity.Records engine (serveBindings deed.before.identity bindings) act
        { deed.found with desk } calls ended ∧
      Writes deed.before.identity bindings calls writes ∧
      opening ++ calls.flatMap HostCall.trace <+: deed.trace

/-- What the instantiation of a guest does to a filesystem that it does not hold. -/
structure Begins (deed : Deed engine) : Prop where
  wrote : deed.Wrote []
  shown : deed.trace.shown = ""
  heard : deed.left.desk.heard = deed.found.desk.heard
  settled : deed.left.desk.Settled
  wired : deed.answer = .instantiated (.ok ()) ∧
      deed.left.desk.wired = some ⟨deed.before.id, deed.before.writesStdout⟩ ∨
    (∃ failure, deed.answer = .instantiated (.error failure)) ∧ deed.left = deed.found

/-- What the run of a guest does to the filesystem that it holds. -/
structure Plays (deed : Deed engine) (mode : RunMode) (outcome : Outcome) (writes : List Bytes) :
    Prop where
  wrote : deed.Wrote writes
  said : ∃ output, deed.trace = output ++ deed.before.report outcome mode ∧
    output.shown = deed.found.desk.routed (Utf8.lossy writes.flatten)
  heard : deed.left.desk.heard = deed.found.desk.heard.map (· ++ Utf8.lossy writes.flatten)
  settled : deed.left.desk.Settled
  wired : deed.left.desk.wired = deed.found.desk.wired

private theorem begins_of_instantiate {guest after : Guest engine} {fs left : Filesystem engine}
    {trace : Trace} {result : Except Failure Unit}
    (run : Host.Runs (guest.instantiate fs) trace (result, after, left))
    (fresh : guest.phase = .created) (settled : fs.desk.Settled)
    (other : fs.desk.isHeldBy guest.id = false) :
    Begins ⟨.instantiate, guest, fs, trace, .instantiated result, after, left⟩ := by
  -- the guest is not given the filesystem, which is as it was
  have refused {failure : Failure} {trace : Trace}
      (wrote : Wrote ⟨.instantiate, guest, fs, trace, .instantiated (.error failure), after, fs⟩ [])
      (silent : trace.shown = "") :
      Begins ⟨.instantiate, guest, fs, trace, .instantiated (.error failure), after, fs⟩ :=
    ⟨wrote, silent, rfl, settled, .inr ⟨⟨failure, rfl⟩, rfl⟩⟩
  unfold Guest.instantiate at run
  rw [fresh] at run
  dsimp only at run
  split at run
  · next failure unlinked =>
    obtain ⟨rfl, same⟩ := Host.runs_pure.mp run
    cases same
    refine refused ?_ rfl
    simp only [Wrote, activity?, fresh, unlinked]
  next bindings linked =>
  obtain ⟨ended, said, later, driven, went, rfl⟩ := Host.runs_bind.mp run
  obtain ⟨calls, records, rfl⟩ := Activity.runs_drive.mp driven
  obtain ⟨same, silent, nothing⟩ := barred_of_records records other
  have wrote {answer : Answer} {left : Filesystem engine} :
      Wrote ⟨.instantiate, guest, fs, calls.flatMap HostCall.trace ++ later, answer, after, left⟩
        [] := by
    simp only [Wrote, activity?, fresh, linked]
    exact ⟨[], fs.desk, calls, ended, ⟨rfl, rfl⟩, records, nothing, List.prefix_append _ _⟩
  split at went
  · obtain ⟨rfl, failed⟩ := Host.runs_pure.mp went
    cases failed
    rw [same]
    exact refused wrote (by rw [Trace.shown_append, silent]; rfl)
  split at went
  · obtain ⟨rfl, failed⟩ := Host.runs_pure.mp went
    cases failed
    rw [same]
    exact refused wrote (by rw [Trace.shown_append, silent]; rfl)
  obtain ⟨reached, wiring, rest, taking, last, rfl⟩ := Host.runs_bind.mp went
  obtain ⟨desk, taken, rfl⟩ := Filesystem.runs_onDesk taking
  obtain ⟨rfl, done⟩ := Host.runs_pure.mp last
  cases done
  rw [same] at taken
  obtain ⟨still_settled, heard, wired, wired_silent⟩ := settled.wire taken
  refine ⟨wrote, ?_, heard, still_settled, .inl ⟨rfl, wired⟩⟩
  rw [Trace.shown_append, Trace.shown_append, silent, wired_silent]
  rfl

theorem Done.begins {deed : Deed engine} (done : deed.Done)
    (operation : deed.operation = .instantiate) (fresh : deed.before.phase = .created)
    (settled : deed.found.desk.Settled)
    (other : deed.found.desk.isHeldBy deed.before.id = false) : deed.Begins := by
  obtain ⟨did, before, found, trace, answer, after, left⟩ := deed
  cases operation
  obtain ⟨result, run, same⟩ := runs_answered done
  cases same
  exact begins_of_instantiate run fresh settled other

private theorem plays_of_run {guest after : Guest engine} {fs left : Filesystem engine}
    {mode : RunMode} {trace : Trace} {outcome : Outcome} {state : engine.Instance}
    {bindings : List Binding} {type : FunctionType}
    (run : Host.Runs (guest.run fs mode) trace (outcome, after, left))
    (ready : guest.phase = .instantiated state bindings)
    (entry : engine.functionType? guest.module startExport = some type)
    (settled : fs.desk.Settled) (holds : fs.desk.isHeldBy guest.id = true) :
    ∃ writes, Plays ⟨.run mode, guest, fs, trace, .ran outcome, after, left⟩ mode outcome writes := by
  unfold Guest.run at run
  rw [ready, entry] at run
  cases invoked_of_run run with
  | @settled said flushed _ put reached desk entered flushing =>
    cases entered with
    | mismatched checked =>
      have nothing : fs.desk.Hears [] [] fs.desk := .silent rfl rfl rfl rfl
      have ended := nothing.finish settled holds settled.unlent flushing
      refine ⟨[], ?_, ⟨_, rfl, ended.shown⟩, ended.heard, ended.settled, ended.wired⟩
      simp [Wrote, activity?, ready, entry?, entry, checked]
    | @called _ ended checked ran =>
      have unlent := (keeps_of_drive ran).unlent settled.unlent
      obtain ⟨calls, records, rfl⟩ := Activity.runs_drive.mp ran
      obtain ⟨writes, written, hears⟩ := writes_of_records records
      have finished := hears.finish settled holds unlent flushing
      refine ⟨writes, ?_, ⟨_, rfl, finished.shown⟩, finished.heard, finished.settled,
        finished.wired⟩
      simp only [Wrote, activity?, ready, entry?, entry, checked, Option.map_some]
      refine ⟨[], fs.desk, calls, ended, ⟨rfl, rfl⟩, records, written, ?_⟩
      rw [List.append_assoc]
      exact List.prefix_append _ _

theorem Done.plays {deed : Deed engine} {mode : RunMode} {outcome : Outcome} (done : deed.Done)
    (operation : deed.operation = .run mode) (answer : deed.answer = .ran outcome)
    (ready : deed.before.stage = .instantiated)
    (entry : (engine.functionType? deed.before.module startExport).isSome = true)
    (settled : deed.found.desk.Settled)
    (holds : deed.found.desk.isHeldBy deed.before.id = true) :
    ∃ writes, deed.Plays mode outcome writes := by
  obtain ⟨state, bindings, phase⟩ := stage_eq_instantiated_iff.mp ready
  obtain ⟨type, typed⟩ := Option.isSome_iff_exists.mp entry
  obtain ⟨did, before, found, trace, answered, after, left⟩ := deed
  cases operation
  cases answer
  obtain ⟨_, run, same⟩ := runs_answered done
  cases same
  exact plays_of_run run phase typed settled holds

end Deed

theorem Invoked.settles {guest after : Guest engine} {fs left : Filesystem engine}
    {state : engine.Instance} {bindings : List Binding} {type : FunctionType} {name : String}
    {mode : RunMode} {trace : Trace} {outcome : Outcome}
    (invoked : Invoked guest fs state bindings type name mode trace outcome after left)
    (settled : fs.desk.Settled) (holds : fs.desk.isHeldBy guest.id = true) :
    left.desk.Settled ∧ left.desk.wired = fs.desk.wired ∧
      ∃ text, left.desk.heard = fs.desk.heard.map (· ++ text) := by
  obtain ⟨_, keeps⟩ := invoked.keeps
  have still_holds : left.desk.isHeldBy guest.id = true := by
    rw [Filesystem.Desk.isHeldBy_congr keeps.wired, holds]
  cases invoked with
  | settled entered flushing =>
    obtain ⟨flushed, complete⟩ := Filesystem.Desk.speaks_flushOf flushing
    obtain ⟨text, heard, -⟩ := (Filesystem.Desk.stretch_speaks.trans entered.speaks flushed).said
    exact ⟨⟨complete still_holds, keeps.unlent settled.unlent⟩, keeps.wired, text, heard⟩

end Guest

end Buildbox
