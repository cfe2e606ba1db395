import Buildbox.Proofs.Engine.Logged
import Buildbox.Proofs.Engine.Scripted
import Buildbox.Proofs.Guest.Life

/-!
Which exports of a guest its host calls, and when. A guest that keeps a record of its calls shows it:
a run calls the entry, once; a later call adds its own name, as long as the permission lasts; nothing
else calls anything.
-/

set_option autoImplicit false

namespace Buildbox.Guest

variable {engine : Engine}

/-- The names of the exports that the host has called. -/
def log (guest : Guest engine.logged) : List String :=
  match guest.phase with
  | .created => []
  | .instantiated state _ | .finished state _ => state.2

theorem log_of_instantiated {guest : Guest engine.logged} {state : engine.logged.Instance}
    {bindings : List Binding} (ready : guest.phase = .instantiated state bindings) :
    guest.log = state.2 := by
  rw [log, ready]

theorem log_of_finished {guest : Guest engine.logged} {state : engine.logged.Instance}
    {bindings : List Binding} (finished : guest.phase = .finished state bindings) :
    guest.log = state.2 := by
  rw [log, finished]

namespace Deed

def Adds (deed : Deed engine.logged) (names : List String) : Prop :=
  deed.after.log = deed.before.log ++ names

def Recorded (deed : Deed engine.logged) : Prop :=
  match deed.operation with
  | .run _ => deed.Adds [] ∨ deed.before.stage = .instantiated ∧ deed.Adds [startExport]
  | .callAgain name => deed.Adds [] ∨
    deed.before.stage = .finished ∧ deed.before.allowed = true ∧ deed.Adds [name]
  | .instantiate | .revoke => deed.Adds []

theorem adds_nil {deed : Deed engine.logged} (same : deed.after.log = deed.before.log) :
    deed.Adds [] := by
  rw [Adds, List.append_nil, same]

theorem Idle.adds_nil {deed : Deed engine.logged} (idle : deed.Idle) : deed.Adds [] :=
  Deed.adds_nil (congrArg log idle.guest)

end Deed

theorem Invoked.log {guest after : Guest engine.logged} {fs left : Filesystem engine.logged}
    {state : engine.logged.Instance} {bindings : List Binding} {type : FunctionType} {name : String}
    {mode : RunMode} {trace : Trace} {outcome : Outcome}
    (invoked : Invoked guest fs state bindings type name mode trace outcome after left) :
    after.log = state.2 ∨ after.log = state.2 ++ [name] := by
  cases invoked with
  | settled entered flushing =>
    cases entered with
    | mismatched checked => exact .inl rfl
    | called checked ran => exact .inr (Activity.record_of_drive ran)

theorem Deed.Done.recorded {deed : Deed engine.logged} (done : deed.Done) : deed.Recorded := by
  obtain ⟨operation, before, found, trace, answer, after, left⟩ := deed
  have comes : Comes before found operation trace answer after left := done.comes
  cases comes with
  | unlinked | unstarted _ _ | revoked => exact adds_nil rfl
  | unready not_ready => exact .inl (adds_nil rfl)
  | refused => exact .inl (adds_nil rfl)
  | started fresh entry ran taking =>
    have nothing_called := Activity.record_of_drive ran
    have nothing_before : before.log = [] := by rw [log, fresh]
    exact adds_nil (nothing_called.trans nothing_before.symm)
  | ran ready invoked =>
    have earlier := log_of_instantiated ready
    refine invoked.log.imp (fun same => adds_nil (same.trans earlier.symm)) fun called => ?_
    refine ⟨stage_eq_instantiated_iff.mpr ⟨_, _, ready⟩, ?_⟩
    rw [Adds, earlier]
    exact called
  | calledAgain finished allowed taking invoked =>
    have earlier := log_of_finished finished
    refine invoked.log.imp (fun same => adds_nil (same.trans earlier.symm)) fun called => ?_
    refine ⟨stage_eq_finished_iff.mpr ⟨_, _, finished⟩, allowed, ?_⟩
    rw [Adds, earlier]
    exact called

/-- What a deed calls, in its place in the life of a guest. -/
structure Deed.Noted (early : List (Deed engine.logged)) (deed : Deed engine.logged)
    (late : List (Deed engine.logged)) : Prop where
  /-- a run calls the entry, once in a life and after the guest was instantiated -/
  run : ∀ mode, deed.operation = .run mode → deed.Adds [] ∨
    deed.before.log = [] ∧ deed.Adds [startExport] ∧ (∃ start ∈ early, start.Starts) ∧
      ∀ later ∈ late, ∀ mode, later.operation = .run mode → later.Adds []
  again : ∀ name, deed.operation = .callAgain name → deed.Adds [] ∨
    deed.before.stage = .finished ∧ deed.before.allowed = true ∧ deed.Adds [name]
  others : deed.operation = .instantiate ∨ deed.operation = .revoke → deed.Adds []

private def Uncalled (guest : Guest engine.logged) : Prop :=
  guest.stage ≠ .finished → guest.log = []

private theorem uncalled_of_created {guest : Guest engine.logged} (fresh : guest.stage = .created) :
    Uncalled guest := by
  intro _
  rw [log, stage_eq_created_iff.mp fresh]

private theorem uncalled_after {deed : Deed engine.logged} (done : deed.Done)
    (kept : Uncalled deed.before) : Uncalled deed.after := by
  obtain ⟨operation, before, found, trace, answer, after, left⟩ := deed
  have comes : Comes before found operation trace answer after left := done.comes
  cases comes with
  | unlinked | unstarted _ _ | unready _ | refused | revoked => exact kept
  | started fresh entry ran taking => exact fun _ => Activity.record_of_drive ran
  | ran ready invoked | calledAgain _ _ _ invoked =>
    cases invoked
    exact fun unfinished => absurd rfl unfinished

theorem Life.noted {guest last : Guest engine.logged} {early late : List (Deed engine.logged)}
    {deed : Deed engine.logged} (life : Life guest (early ++ deed :: late) last)
    (fresh : guest.stage = .created) : deed.Noted early late := by
  obtain ⟨earlier, done, onward⟩ := life.split
  have recorded := done.recorded
  unfold Deed.Recorded at recorded
  refine ⟨fun mode operation => ?_, fun name operation => ?_, fun operation => ?_⟩
  · rw [operation] at recorded
    refine recorded.imp_right fun ⟨ready, adds⟩ => ?_
    -- the guest had not run, and only guest calls are recorded
    have uncalled := (earlier.keeps (fun _ => uncalled_after) (uncalled_of_created fresh)).1
    have nothing : deed.before.log = [] := uncalled (by rw [ready]; exact nofun)
    obtain ⟨starts, later_runs⟩ := (life.placed fresh).once ready mode operation
    refine ⟨nothing, adds, starts, ?_⟩
    exact fun later member mode operation => (later_runs later member mode operation).adds_nil
  · rw [operation] at recorded
    exact recorded
  · rcases operation with operation | operation
    · rw [operation] at recorded
      exact recorded
    · rw [operation] at recorded
      exact recorded

/-- Whatever a guest and its owner do, each deed keeps to its place: the stage goes on and never back,
a guest runs once, what is refused changes nothing, a lost permission stays lost, the report of a bad
outcome is the last that is seen of a guest, and its host calls nothing but what it is allowed to. -/
theorem guest_lives_lawfully (engine : Engine) :
    (∀ (guest last : Guest engine) (early late : List (Deed engine)) (deed : Deed engine),
      guest.stage = .created → Life guest (early ++ deed :: late) last → deed.Placed early late) ∧
    ∀ (guest last : Guest engine.logged) (early late : List (Deed engine.logged))
      (deed : Deed engine.logged), guest.stage = .created →
      Life guest (early ++ deed :: late) last → deed.Noted early late :=
  ⟨fun _ _ _ _ _ fresh life => life.placed fresh, fun _ _ _ _ _ fresh life => life.noted fresh⟩

def newcomer {engine : Engine} (module : engine.Module) : Guest engine :=
  ⟨1, "test", [], module, true, true, .created⟩

def recordingConsole : Filesystem Engine.scripted.logged :=
  ⟨Filesystem.consoleModule, (Filesystem.consoleModule, []), { heard := some "" }⟩

def failingModule : ScriptedModule where
  imports := [
    ⟨systemSpace, "fd_write", .function ⟨[], []⟩⟩,
    ⟨systemSpace, Syscall.procExit.name, .function Syscall.procExit.type⟩]
  scripts := [{ name := startExport, calls := [(0, []), (1, [.i32 3])] }]
  memory := Filesystem.consoleMemory [0x68, 0xC3]

def failingTrace : Trace :=
  [⟨.isClosed, false⟩, ⟨.isClosed, false⟩, ⟨.write "h", ()⟩, ⟨.write "\uFFFD", ()⟩,
    ⟨.write (banner (.exited 3)), ()⟩]

private theorem life_of_two {guest last : Guest engine} {fs left : Filesystem engine}
    {first second : Operation} {trace : Trace}
    (followed : Host.follow trace (guest.performAll fs [first, second]) = some (last, left)) :
    ∃ start run : Deed engine, Life guest ([start] ++ run :: []) last ∧
      start.trace ++ run.trace = trace := by
  obtain ⟨deeds, life, operations, traced⟩ := life_of_run (Host.runs_of_follow followed)
  obtain ⟨start, more, rfl, -, operations⟩ := List.map_eq_cons_iff.mp operations
  obtain ⟨run, rest, rfl, -, operations⟩ := List.map_eq_cons_iff.mp operations
  obtain rfl := List.map_eq_nil_iff.mp operations
  exact ⟨start, run, life, by simpa using traced⟩

/-- The broken character comes before the report, and the entry is called once. -/
theorem failing_guest_reports_last :
    (∃ (start run : Deed Engine.scripted) (last : Guest Engine.scripted),
      Life (newcomer failingModule) ([start] ++ run :: []) last ∧
        start.trace ++ run.trace = failingTrace ∧ run.Placed [start] []) ∧
    ∃ (start run : Deed Engine.scripted.logged) (last : Guest Engine.scripted.logged),
      Life (newcomer failingModule) ([start] ++ run :: []) last ∧ last.log = [startExport] ∧
        run.Noted [start] [] := by
  constructor
  · have evaluated : (Host.follow failingTrace ((newcomer failingModule).performAll
        Filesystem.console [.instantiate, .run .standard])).map (·.1.allowed) = some false := by
      decide +kernel
    obtain ⟨⟨last, left⟩, followed, -⟩ := Option.map_eq_some_iff.mp evaluated
    obtain ⟨start, run, life, shown⟩ := life_of_two followed
    have placed := (guest_lives_lawfully _).1 _ last [start] [] run rfl life
    exact ⟨start, run, last, life, shown, placed⟩
  · have evaluated : (Host.follow failingTrace ((newcomer failingModule).performAll
        recordingConsole [.instantiate, .run .standard])).map (·.1.log) = some [startExport] := by
      decide +kernel
    obtain ⟨⟨last, left⟩, followed, called⟩ := Option.map_eq_some_iff.mp evaluated
    obtain ⟨start, run, life, -⟩ := life_of_two followed
    have noted := (guest_lives_lawfully _).2 _ last [start] [] run rfl life
    exact ⟨start, run, last, life, called, noted⟩

def idleModule : ScriptedModule where
  scripts := [{ name := startExport }]
  memory := .ofBytes []

/-- A guest that ended well may be called again at its entry, which is then called twice. -/
theorem entry_not_called_once_only :
    ¬ ∀ (guest last : Guest Engine.scripted.logged) (deeds : List (Deed Engine.scripted.logged)),
      guest.stage = .created → Life guest deeds last → last.log.count startExport ≤ 1 := by
  intro once_only
  have evaluated : (Host.follow [] ((newcomer idleModule).performAll recordingConsole
      [.instantiate, .run .standard, .callAgain startExport])).map (·.1.log.count startExport) =
      some 2 := by decide +kernel
  obtain ⟨⟨last, left⟩, followed, twice⟩ := Option.map_eq_some_iff.mp evaluated
  obtain ⟨deeds, life, -, -⟩ := life_of_run (Host.runs_of_follow followed)
  have once := once_only _ last deeds rfl life
  rw [twice] at once
  exact absurd once (by decide)

end Buildbox.Guest
