import Buildbox.Proofs.Guest.Life
import Buildbox.Proofs.Host.Task
import Buildbox.Toolchain.Basic

/-!
What the operations of a toolchain do with guests. A stage creates a guest, instantiates it and runs
it, and gives it up when one of these fails. Once the filesystem is up, it stays up.
-/

set_option autoImplicit false

namespace Buildbox.Toolchain

variable {engine : Engine} {found left : Toolchain engine} {fs : Filesystem engine} {trace : Trace}

/-- The toolchain with its filesystem up, in this state. -/
def upon (self : Toolchain engine) (fs : Filesystem engine) : Toolchain engine :=
  { self with filesystem := some (.ok fs) }

section Parts

variable {α : Type} {result : Except Failure α}

theorem does_raise {given : Except Failure α} :
    Host.Does (raise given) found trace result left ↔
      trace = [] ∧ result = given ∧ left = found := by
  cases given with
  | ok a => exact Host.does_pure
  | error failure => exact Host.does_throw

theorem does_ready {result : Except Failure (Filesystem engine)}
    (up : found.filesystem = some (.ok fs)) :
    Host.Does ready found trace result left ↔ trace = [] ∧ result = .ok fs ∧ left = found := by
  rw [ready, Host.does_get_bind, up]
  exact does_raise

theorem does_ready_bind {next : Filesystem engine → Action engine α}
    (up : found.filesystem = some (.ok fs)) :
    Host.Does (ready >>= next) found trace result left ↔
      Host.Does (next fs) found trace result left := by
  have whole : (ready >>= next).run.run found = (next fs).run.run found := by
    obtain ⟨config, showTiming, cache, filesystem, nextGuest⟩ := found
    cases up
    rfl
  rw [Host.Does, whole]
  rfl

theorem does_keep_bind {next : Unit → Action engine α} :
    Host.Does (keep fs >>= next) found trace result left ↔
      Host.Does (next ()) (found.upon fs) trace result left :=
  Iff.rfl

theorem does_keep {result : Except Failure Unit} :
    Host.Does (keep fs) found trace result left ↔
      trace = [] ∧ result = .ok () ∧ left = found.upon fs := by
  rw [← Prod.mk.injEq]
  exact Host.runs_pure

theorem does_drop {guest : Guest engine} {result : Except Failure Unit}
    (up : found.filesystem = some (.ok fs)) :
    Host.Does (drop guest) found trace result left ↔
      ∃ put, Host.Runs (guest.drop fs) trace put ∧ result = .ok () ∧ left = found.upon put := by
  rw [drop, does_ready_bind up]
  exact Host.does_lift_last fun _ _ _ _ => does_keep

theorem given_up {β : Type} {guest : Guest engine} {failure : Failure}
    {next : β → Action engine α} (up : found.filesystem = some (.ok fs))
    (ran : Host.Does (drop guest >>= fun _ => throw failure >>= next) found trace result left) :
    ∃ put, Host.Runs (guest.drop fs) trace put ∧ result = .error failure ∧
      left = found.upon put := by
  rcases Host.does_bind.mp ran with ⟨_, dropped, -⟩ | ⟨_, _, first, later, dropped, thrown, rfl⟩
  · obtain ⟨_, -, impossible, -⟩ := (does_drop up).mp dropped
    cases impossible
  · obtain ⟨put, dropping, -, rfl⟩ := (does_drop up).mp dropped
    obtain ⟨rfl, rfl, rfl⟩ := Host.does_throw_bind.mp thrown
    rw [List.append_nil]
    exact ⟨put, dropping, rfl, rfl⟩

theorem up_of_ready (ran : Host.Does ready found trace (.ok fs) left) :
    left.filesystem = some (.ok fs) := by
  have ran := Host.does_get_bind.mp ran
  split at ran
  · next reached up =>
    obtain ⟨-, rfl, rfl⟩ := does_raise.mp ran
    exact up
  · obtain ⟨reached, first, later, -, ran, -⟩ := Host.does_lift_bind.mp ran
    obtain ⟨-, rfl, rfl⟩ := does_raise.mp (Host.does_set_bind.mp ran)
    rfl

theorem does_onFilesystem {action : Filesystem.Action engine α}
    (up : found.filesystem = some (.ok fs)) :
    Host.Does (onFilesystem action) found trace result left ↔
      ∃ put, Host.Does action fs trace result put ∧ left = found.upon put := by
  rw [onFilesystem, does_ready_bind up,
    Host.does_lift_last fun _ _ _ _ => does_keep_bind.trans does_raise]
  constructor
  · rintro ⟨⟨reached, put⟩, ran, rfl, rfl⟩
    exact ⟨put, ran, rfl⟩
  · rintro ⟨put, ran, rfl⟩
    exact ⟨⟨result, put⟩, ran, rfl, rfl⟩

theorem does_module {name : String} {result : Except Failure engine.Module} :
    Host.Does (module name) found trace result left ↔
      ∃ cache, Host.Runs (found.cache.get found.showTiming name) trace (result, cache) ∧
        left = { found with cache } := by
  rw [module, Host.does_get_bind,
    Host.does_lift_last fun _ _ _ _ => Host.does_modify_bind.trans does_raise]
  constructor
  · rintro ⟨⟨reached, cache⟩, ran, rfl, rfl⟩
    exact ⟨cache, ran, rfl⟩
  · rintro ⟨cache, ran, rfl⟩
    exact ⟨⟨result, cache⟩, ran, rfl, rfl⟩

end Parts

def newcomer (self : Toolchain engine) (module : engine.Module) (stage : Stage) (program : String)
    (arguments : List String) : Guest engine :=
  { id := self.nextGuest, program, arguments, module, writesStdout := stage.writesStdout }

/-- This guest is instantiated on this filesystem. -/
structure Opens (guest : Guest engine) (fs : Filesystem engine) (start : Guest.Deed engine) :
    Prop where
  done : start.Done
  operation : start.operation = .instantiate
  before : start.before = guest
  found : start.found = fs

/-- The guest that was instantiated is run at once, with this outcome. -/
structure Follows (start : Guest.Deed engine) (mode : RunMode) (outcome : Outcome)
    (run : Guest.Deed engine) : Prop where
  starts : start.Starts
  done : run.Done
  operation : run.operation = .run mode
  answer : run.answer = .ran outcome
  before : run.before = start.after
  found : run.found = start.left

/-- Whether a stage does not mind an outcome that would be a failure elsewhere. -/
def Stage.tolerates (stage : Stage) (outcome : Outcome) : Bool :=
  match stage.mode, outcome with
  | .diagnostics, .exited _ => true
  | _, _ => false

/-- The line that shows the command of a stage, if the stage shows anything. -/
def Stage.echo (stage : Stage) (command : List String) : String :=
  let color := if stage.gray then Progress.gray else ""
  let echo := " ".intercalate command
  if stage.writesStdout then Progress.arrow ++ s!"{color}{echo}\r\n" else ""

/-- The end of a stage that succeeded: a blank line, and the durations when they are wanted. -/
def Stage.Closes (stage : Stage) (timing : Bool) (closing : Trace) : Prop :=
  ∃ durations, (timing = false → durations = "") ∧
    closing.shown = if stage.writesStdout then "\r\n" ++ durations else ""

/-- What a stage with this guest comes to. -/
inductive Ends (guest : Guest engine) (stage : Stage) (program : String) (timing : Bool)
    (fs : Filesystem engine) (trace : Trace) :
    Except Failure (Outcome × Guest engine) → Filesystem engine → Prop
  | unstarted {start : Guest.Deed engine} {failure : Failure} {opening closing : Trace}
      {put : Filesystem engine} (opens : Opens guest fs start)
      (answer : start.answer = .instantiated (.error failure))
      (dropping : Host.Runs (start.after.drop start.left) closing put)
      (echoed : opening.shown = stage.echo (program :: guest.arguments))
      (traced : trace = opening ++ start.trace ++ closing) :
      Ends guest stage program timing fs trace (.error failure) put
  | failed {start run : Guest.Deed engine} {outcome : Outcome} {failure : Failure}
      {opening between clock closing : Trace} {put : Filesystem engine}
      (opens : Opens guest fs start) (follows : Follows start stage.mode outcome run)
      (strict : stage.tolerates outcome = false) (bad : outcome.failure? program = some failure)
      (dropping : Host.Runs (run.after.drop run.left) closing put)
      (echoed : opening.shown = stage.echo (program :: guest.arguments))
      (silent : between.shown = "" ∧ clock.shown = "")
      (traced : trace = opening ++ start.trace ++ between ++ run.trace ++ clock ++ closing) :
      Ends guest stage program timing fs trace (.error failure) put
  | ended {start run : Guest.Deed engine} {outcome : Outcome}
      {opening between clock closing : Trace} (opens : Opens guest fs start)
      (follows : Follows start stage.mode outcome run)
      (good : stage.tolerates outcome = true ∨ outcome.failure? program = none)
      (echoed : opening.shown = stage.echo (program :: guest.arguments))
      (silent : between.shown = "" ∧ clock.shown = "") (closes : stage.Closes timing closing)
      (traced : trace = opening ++ start.trace ++ between ++ run.trace ++ clock ++ closing) :
      Ends guest stage program timing fs trace (.ok (outcome, run.after)) run.left

theorem opens_of_instantiate {guest after : Guest engine} {reply : Except Failure Unit}
    {put : Filesystem engine} (ran : Host.Runs (guest.instantiate fs) trace (reply, after, put)) :
    ∃ start : Guest.Deed engine, Opens guest fs start ∧ start.trace = trace ∧
      start.answer = .instantiated reply ∧ start.after = after ∧ start.left = put := by
  refine ⟨⟨.instantiate, guest, fs, trace, .instantiated reply, after, put⟩,
    ⟨?_, rfl, rfl, rfl⟩, rfl, rfl, rfl, rfl⟩
  exact Host.runs_bind.mpr ⟨_, trace, [], ran, .done _, (List.append_nil _).symm⟩

theorem follows_of_run {start : Guest.Deed engine} {mode : RunMode} {outcome : Outcome}
    {after : Guest engine} {put : Filesystem engine} (starts : start.Starts)
    (ran : Host.Runs (start.after.run start.left mode) trace (outcome, after, put)) :
    ∃ run : Guest.Deed engine, Follows start mode outcome run ∧ run.trace = trace ∧
      run.after = after ∧ run.left = put := by
  refine ⟨⟨.run mode, start.after, start.left, trace, .ran outcome, after, put⟩,
    ⟨starts, ?_, rfl, rfl, rfl, rfl⟩, rfl, rfl, rfl⟩
  exact Host.runs_bind.mpr ⟨_, trace, [], ran, .done _, (List.append_nil _).symm⟩

theorem ends_of_run {module : engine.Module} {stage : Stage} {program : String}
    {arguments : List String} {result : Except Failure (Outcome × Guest engine)}
    (up : found.filesystem = some (.ok fs))
    (ran : Host.Does (run module stage program arguments) found trace result left) :
    ∃ put, Ends (found.newcomer module stage program arguments) stage program found.showTiming fs
        trace result put ∧
      left = { found with filesystem := some (.ok put), nextGuest := found.nextGuest + 1 } := by
  unfold run at ran
  extract_lets proceed color echo at ran
  obtain ⟨echoed, rest, shown, opening, rfl⟩ :
      ∃ first rest, Trace.shown first = stage.echo (program :: arguments) ∧
        Host.Does (proceed ()) found rest result left ∧ trace = first ++ rest := by
    split at ran
    · next writes =>
      obtain ⟨_, first, rest, shows, went, rfl⟩ := Host.does_lift_bind.mp ran
      refine ⟨first, rest, ?_, went, rfl⟩
      rw [Host.runs_query.mp shows, Stage.echo, if_pos writes]
      exact String.append_empty
    · next silent =>
      refine ⟨[], trace, ?_, ran, rfl⟩
      rw [Stage.echo, if_neg silent]
      rfl
  clear ran
  obtain ⟨started, clock, rest, reading, setting, rfl⟩ := Host.does_lift_bind.mp opening
  obtain rfl := Host.runs_query.mp reading
  have setting := Host.does_get_bind.mp setting
  have setting := (does_ready_bind (by exact up)).mp (Host.does_set_bind.mp setting)
  obtain ⟨⟨reply, guest, between⟩, said, rest, starting, kept, rfl⟩ :=
    Host.does_lift_bind.mp setting
  have kept := does_keep_bind.mp kept
  extract_lets onward at kept
  obtain ⟨start, opens, rfl, answer, rfl, rfl⟩ := opens_of_instantiate starting
  have opened : Trace.shown (echoed ++ [⟨.elapsed, started⟩]) =
      stage.echo (program :: arguments) := by
    rw [Trace.shown_append, shown]
    exact String.append_empty
  cases reply with
  | error failure =>
    obtain ⟨put, dropping, rfl, rfl⟩ := given_up rfl kept
    have traced : echoed ++ ([⟨.elapsed, started⟩] ++ (start.trace ++ rest)) =
        (echoed ++ [⟨.elapsed, started⟩]) ++ start.trace ++ rest := by
      simp only [List.append_assoc]
    exact ⟨put, .unstarted opens answer dropping opened traced, rfl⟩
  | ok _ =>
    obtain ⟨instantiated, tick, rest, reading, entering, rfl⟩ := Host.does_lift_bind.mp kept
    obtain rfl := Host.runs_query.mp reading
    have entering := (does_ready_bind rfl).mp entering
    obtain ⟨⟨outcome, after, put⟩, output, rest, running, ended, rfl⟩ :=
      Host.does_lift_bind.mp entering
    have ended := does_keep_bind.mp ended
    obtain ⟨run, follows, rfl, rfl, rfl⟩ := follows_of_run ⟨opens.operation, answer⟩ running
    obtain ⟨finished, tock, rest, reading, judged, rfl⟩ := Host.does_lift_bind.mp ended
    obtain rfl := Host.runs_query.mp reading
    extract_lets tolerated reported conclude at judged
    -- what is shown at the end changes nothing
    have concluded {self : Toolchain engine} {trace : Trace}
        (ran : Host.Does (conclude ()) self trace result left)
        (same : self.showTiming = found.showTiming) :
        result = .ok (outcome, run.after) ∧ left = self ∧ stage.Closes found.showTiming trace := by
      dsimp only [conclude] at ran
      split at ran
      · next writes =>
        obtain ⟨_, first, later, blank, shown, rfl⟩ := Host.does_lift_bind.mp ran
        obtain rfl := Host.runs_query.mp blank
        have shown := Host.does_get_bind.mp shown
        obtain ⟨_, durations, last, timed, ended, rfl⟩ := Host.does_lift_bind.mp shown
        obtain ⟨rfl, rfl, rfl⟩ := Host.does_pure.mp ended
        refine ⟨rfl, rfl, durations.shown, fun off => ?_, ?_⟩
        · rw [same, off] at timed
          obtain ⟨rfl, -⟩ := Host.runs_pure.mp timed
          rfl
        · rw [if_pos writes, Trace.shown_append, List.append_nil]
          rfl
      · next silent =>
        obtain ⟨rfl, rfl, rfl⟩ := Host.does_pure.mp ran
        exact ⟨rfl, rfl, "", fun _ => rfl, (if_neg silent).symm⟩
    have traced : echoed ++ ([⟨.elapsed, started⟩] ++ (start.trace ++ ([⟨.elapsed, instantiated⟩] ++
        (run.trace ++ ([⟨.elapsed, finished⟩] ++ rest))))) =
        (echoed ++ [⟨.elapsed, started⟩]) ++ start.trace ++ [⟨.elapsed, instantiated⟩] ++
          run.trace ++ [⟨.elapsed, finished⟩] ++ rest := by
      simp only [List.append_assoc]
    have silent : Trace.shown [⟨.elapsed, instantiated⟩] = "" ∧
        Trace.shown [⟨.elapsed, finished⟩] = "" := ⟨rfl, rfl⟩
    have same : tolerated = stage.tolerates outcome := rfl
    rw [same] at judged
    cases fine : stage.tolerates outcome with
    | true =>
      rw [fine] at judged
      obtain ⟨rfl, rfl, closes⟩ := concluded judged rfl
      exact ⟨_, .ended opens follows (.inl fine) opened silent closes traced, rfl⟩
    | false =>
      rw [fine] at judged
      cases bad : outcome.failure? program with
      | none =>
        rw [bad] at judged
        obtain ⟨rfl, rfl, closes⟩ := concluded judged rfl
        exact ⟨_, .ended opens follows (.inr bad) opened silent closes traced, rfl⟩
      | some failure =>
        rw [bad] at judged
        obtain ⟨put, dropping, rfl, rfl⟩ := given_up rfl judged
        exact ⟨put, .failed opens follows fine bad dropping opened silent traced, rfl⟩

theorem Follows.called {guest : Guest engine} {start run : Guest.Deed engine} {mode : RunMode}
    {outcome : Outcome} (follows : Follows start mode outcome run) (opens : Opens guest fs start)
    (fresh : guest.stage = .created) :
    run.after.Sound ∧ run.Called mode outcome ∧ run.before.allowed = guest.allowed := by
  have created : start.before.stage = .created := opens.before ▸ fresh
  have begun := opens.done.lawful (.inl created)
  have sound : run.before.Sound := follows.before ▸ opens.done.sound (.inl created)
  rw [Guest.Deed.Lawful, follows.starts.1, follows.starts.2] at begun
  obtain ⟨-, instantiated, kept⟩ := begun
  have ready : run.before.stage = .instantiated := follows.before ▸ instantiated
  refine ⟨follows.done.sound sound, ?_, ?_⟩
  · exact (follows.done.lawful sound).called (.inl ⟨ready, follows.operation, follows.answer⟩)
  · rw [follows.before, kept, opens.before]

def Up (self : Toolchain engine) : Prop :=
  ∃ fs, self.filesystem = some (.ok fs)

section Up

variable {α : Type}

theorem up_upon (self : Toolchain engine) (fs : Filesystem engine) : (self.upon fs).Up :=
  ⟨fs, rfl⟩

/-- The filesystem is up, the elapsed times are shown or not, and as many guests as this came
already. -/
structure Upheld (on : Bool) (guests : GuestId) (kept : Toolchain engine) : Prop where
  up : kept.Up
  same : kept.showTiming = on
  since : guests ≤ kept.nextGuest

variable {on : Bool} {guests : GuestId}

theorem upheld_raise (result : Except Failure α) :
    Host.Preserves (Upheld on guests) (raise result : Action engine α) := by
  intro found trace reached left ran upheld
  obtain ⟨-, -, rfl⟩ := does_raise.mp ran
  exact upheld

theorem upheld_ready :
    Host.Preserves (Upheld on guests) (ready : Action engine (Filesystem engine)) := by
  rintro found trace result left ran ⟨⟨fs, up⟩, same, since⟩
  obtain ⟨-, -, rfl⟩ := (does_ready up).mp ran
  exact ⟨⟨fs, up⟩, same, since⟩

theorem upheld_keep (fs : Filesystem engine) : Host.Preserves (Upheld on guests) (keep fs) := by
  rintro found trace result left ran ⟨-, same, since⟩
  obtain ⟨-, -, rfl⟩ := does_keep.mp ran
  exact ⟨up_upon found fs, same, since⟩

theorem upheld_onFilesystem (action : Filesystem.Action engine α) :
    Host.Preserves (Upheld on guests) (onFilesystem action) := by
  rintro found trace result left ran ⟨⟨fs, up⟩, same, since⟩
  obtain ⟨put, -, rfl⟩ := (does_onFilesystem up).mp ran
  exact ⟨up_upon found put, same, since⟩

theorem upheld_module (name : String) :
    Host.Preserves (Upheld on guests) (module name : Action engine _) := by
  rintro found trace result left ran ⟨up, same, since⟩
  obtain ⟨cache, -, rfl⟩ := does_module.mp ran
  exact ⟨up, same, since⟩

theorem upheld_drop (guest : Guest engine) : Host.Preserves (Upheld on guests) (drop guest) := by
  rintro found trace result left ran ⟨⟨fs, up⟩, same, since⟩
  obtain ⟨put, -, -, rfl⟩ := (does_drop up).mp ran
  exact ⟨up_upon found put, same, since⟩

theorem upheld_task {work : Action engine α} {timing : Bool} {message : String}
    (working : Host.Preserves (Upheld on guests) work) :
    Host.Preserves (Upheld on guests) (Progress.task timing message work) := by
  intro found trace result left ran upheld
  obtain ⟨during, worked, -⟩ := Progress.does_task.mp ran
  exact working _ _ _ _ worked upheld

theorem upheld_run (module : engine.Module) (stage : Stage) (program : String)
    (arguments : List String) :
    Host.Preserves (Upheld on guests) (run module stage program arguments) := by
  rintro found trace result left ran ⟨⟨fs, up⟩, same, since⟩
  obtain ⟨put, -, rfl⟩ := ends_of_run up ran
  exact ⟨⟨put, rfl⟩, same, Nat.le_succ_of_le since⟩

theorem upheld_compile (source : String) :
    Host.Preserves (Upheld on guests) (compile source : Action engine _) :=
  upheld_ready.bind fun _ => (upheld_onFilesystem _).bind fun _ => .get_bind fun _ =>
    (upheld_module _).bind fun _ => .get_bind fun _ => (upheld_run _ _ _ _).bind fun _ =>
      (upheld_drop _).bind fun _ => .pure _

theorem upheld_link (object : String) :
    Host.Preserves (Upheld on guests) (link object : Action engine _) :=
  upheld_ready.bind fun _ => .get_bind fun _ => (upheld_module _).bind fun _ => .get_bind fun _ =>
    (upheld_run _ _ _ _).bind fun _ => (upheld_drop _).bind fun _ => .pure _

theorem upheld_runAnalysis (source : Bytes) :
    Host.Preserves (Upheld on guests) (runAnalysis source : Action engine _) := by
  refine upheld_ready.bind fun _ => .get_bind fun self => (upheld_module _).bind fun clang => ?_
  refine (upheld_onFilesystem _).bind fun _ => upheld_ready.bind fun fs => ?_
  refine (upheld_keep _).bind fun _ => .get_bind fun self => .bind ?_ fun _ => ?_
  · refine .tryCatch ?_ fun _ => .pure ()
    exact (upheld_run _ _ _ _).bind fun ended => upheld_drop ended.2
  · exact upheld_ready.bind fun fs => (upheld_keep _).bind fun _ => .pure _

theorem upheld_callAgain (guest : Guest engine) (name : String) :
    Host.Preserves (Upheld on guests) (callAgain guest name) := by
  rintro found trace result left ran ⟨⟨fs, up⟩, same, since⟩
  rw [callAgain, does_ready_bind up] at ran
  obtain ⟨⟨reply, after, put⟩, _, _, -, kept, -⟩ := Host.does_lift_bind.mp ran
  have kept := does_keep_bind.mp kept
  obtain ⟨-, -, rfl⟩ := Host.does_pure.mp kept
  exact ⟨up_upon found put, same, since⟩

/-- The switch stands as it stood, and no identity of a guest is given twice. -/
structure Onward (found left : Toolchain engine) : Prop where
  same : left.showTiming = found.showTiming
  since : found.nextGuest ≤ left.nextGuest

theorem onward_ready {result : Except Failure (Filesystem engine)}
    (ran : Host.Does ready found trace result left) : found.Onward left := by
  have ran := Host.does_get_bind.mp ran
  split at ran
  · obtain ⟨-, -, rfl⟩ := does_raise.mp ran
    exact ⟨rfl, Nat.le_refl _⟩
  · obtain ⟨reached, _, _, -, ran, -⟩ := Host.does_lift_bind.mp ran
    obtain ⟨-, -, rfl⟩ := does_raise.mp (Host.does_set_bind.mp ran)
    exact ⟨rfl, Nat.le_refl _⟩

theorem onward_of_upheld {next : Filesystem engine → Action engine α} {result : Except Failure α}
    (upheld : Host.Preserves (Upheld found.showTiming found.nextGuest) (ready >>= next))
    (ran : Host.Does (ready >>= next) found trace result left) :
    found.Onward left ∧ (result.isOk = true → left.Up) := by
  rcases Host.does_bind.mp ran with ⟨_, failed, rfl⟩ | ⟨fs, between, _, _, readied, later, -⟩
  · exact ⟨onward_ready failed, nofun⟩
  · have onward := onward_ready readied
    have up := up_of_ready readied
    have again := (does_ready_bind up).mpr later
    obtain ⟨still, same, since⟩ := upheld _ _ _ _ again ⟨⟨fs, up⟩, onward.same, onward.since⟩
    exact ⟨⟨same, since⟩, fun _ => still⟩

theorem onward_compileLinkRun {source : String} {result : Except Failure (Option (Guest engine))}
    (ran : Host.Does (compileLinkRun source) found trace result left) : found.Onward left := by
  rcases Host.does_bind.mp ran with ⟨_, failed, -⟩ | ⟨object, between, _, _, compiled, onward, -⟩
  · exact (onward_of_upheld (upheld_compile source) failed).1
  obtain ⟨⟨same, since⟩, up⟩ := onward_of_upheld (upheld_compile source) compiled
  -- with the object file there is a filesystem, and from here on it stays up
  have last : Upheld found.showTiming found.nextGuest left := by
    refine Host.Preserves.bind (P := Upheld found.showTiming found.nextGuest) (upheld_link object)
      (fun executable => .get_bind fun self => .bind (upheld_task ?_) fun program =>
        (upheld_run _ _ _ _).bind fun ended => ?_) _ _ _ _ onward ⟨up rfl, same, since⟩
    · exact (upheld_onFilesystem _).bind fun binary => upheld_raise _
    · dsimp only
      split
      · exact .pure _
      · exact (upheld_drop _).bind fun _ => .pure _
  exact ⟨last.same, last.since⟩

end Up

theorem executable_of_link {object executable : String}
    (ran : Host.Does (link object) found trace (.ok executable) left) :
    executable = executableFile := by
  obtain ⟨_, _, _, _, -, ran, -⟩ := Host.does_bind_ok.mp ran
  have ran := Host.does_get_bind.mp ran
  obtain ⟨_, _, _, _, -, ran, -⟩ := Host.does_bind_ok.mp ran
  have ran := Host.does_get_bind.mp ran
  obtain ⟨_, _, _, _, -, ran, -⟩ := Host.does_bind_ok.mp ran
  obtain ⟨_, _, _, _, -, ran, -⟩ := Host.does_bind_ok.mp ran
  obtain ⟨-, same, -⟩ := Host.does_pure.mp ran
  exact Except.ok.inj same

/-- The program of a build that succeeded: it is a guest that did not exist before, kept when it
paused, and given up when it exited. -/
structure Builds (found : Toolchain engine) (trace : Trace) (left : Toolchain engine)
    (start run : Guest.Deed engine) (outcome : Outcome) (held : Option (Guest engine)) : Prop where
  within : ∃ opening between closing,
    trace = opening ++ start.trace ++ between ++ run.trace ++ closing
  opens : ∃ (self : Toolchain engine) (module : engine.Module) (fs : Filesystem engine),
    Opens (self.newcomer module .program executableFile []) fs start
  fresh : found.nextGuest ≤ start.before.id ∧ start.before.id < left.nextGuest
  follows : Follows start .standard outcome run
  held : outcome = .paused ∧ held = some run.after ∨ outcome = .exited 0 ∧ held = none
  up : left.Up

theorem builds_of_compileLinkRun {source : String} {held : Option (Guest engine)}
    (ran : Host.Does (compileLinkRun source) found trace (.ok held) left) :
    ∃ start run outcome, Builds found trace left start run outcome held := by
  obtain ⟨object, compiled, first, _, compiling, linking, rfl⟩ := Host.does_bind_ok.mp ran
  obtain ⟨executable, joined, second, _, joining, loading, rfl⟩ := Host.does_bind_ok.mp linking
  obtain rfl := executable_of_link joining
  have loading := Host.does_get_bind.mp loading
  obtain ⟨program, loaded, third, _, working, running, rfl⟩ := Host.does_bind_ok.mp loading
  have upheld : Upheld found.showTiming found.nextGuest loaded := by
    obtain ⟨onward, up⟩ := onward_of_upheld (upheld_compile source) compiling
    have linked := upheld_link _ _ _ _ _ joining ⟨up rfl, onward.same, onward.since⟩
    refine upheld_task (.bind (upheld_onFilesystem _) fun _ => ?_) _ _ _ _ working linked
    exact upheld_raise _
  obtain ⟨⟨outcome, guest⟩, ended, fourth, last, played, judged, rfl⟩ :=
    Host.does_bind_ok.mp running
  obtain ⟨fs, here⟩ := upheld.up
  obtain ⟨put, ends, rfl⟩ := ends_of_run here played
  cases ends with
  | @ended start run _ opening between clock closing opens follows good _ _ _ traced =>
    have strict : Stage.program.tolerates outcome = false := by cases outcome <;> rfl
    have within : ∃ opening between closing, first ++ (second ++ (third ++ (fourth ++ last))) =
        opening ++ start.trace ++ between ++ run.trace ++ closing := by
      refine ⟨first ++ second ++ third ++ opening, between, clock ++ closing ++ last, ?_⟩
      simp only [traced, List.append_assoc]
    have success := Outcome.isSuccess_iff.mp
      (Outcome.isSuccess_iff_failure.mpr (good.resolve_left (by simp [strict])))
    have identity : start.before.id = loaded.nextGuest := by
      rw [opens.before]
      rfl
    have since : found.nextGuest ≤ start.before.id := identity ▸ upheld.since
    have until_now : start.before.id < loaded.nextGuest + 1 := identity ▸ Nat.lt_succ_self _
    dsimp only at judged
    split at judged
    · next kept =>
      have paused : outcome = .paused := by simpa using kept
      obtain ⟨-, same, rfl⟩ := Host.does_pure.mp judged
      cases same
      exact ⟨start, run, outcome, within, ⟨loaded, program, fs, opens⟩, ⟨since, until_now⟩,
        follows, .inl ⟨paused, rfl⟩, _, rfl⟩
    · next other =>
      have exited : outcome = .exited 0 := success.resolve_right (by simpa using other)
      obtain ⟨_, dropped, _, _, dropping, gone, -⟩ := Host.does_bind_ok.mp judged
      obtain ⟨-, same, rfl⟩ := Host.does_pure.mp gone
      cases same
      obtain ⟨_, -, -, rfl⟩ := (does_drop (by exact rfl)).mp dropping
      exact ⟨start, run, outcome, within, ⟨loaded, program, fs, opens⟩, ⟨since, until_now⟩,
        follows, .inr ⟨exited, rfl⟩, up_upon _ _⟩

theorem calls_of_callAgain {guest : Guest engine} {name : String}
    {result : Except Failure (Except Failure Outcome × Guest engine)}
    (up : found.filesystem = some (.ok fs)) (finished : guest.stage = .finished)
    (allowed : guest.allowed = true)
    (ran : Host.Does (callAgain guest name) found trace result left) :
    (engine.functionType? guest.module name = none ∧
      trace = [] ∧ result = .ok (.error (.missingExport name), guest) ∧ left = found) ∨
    engine.functionType? guest.module name ≠ none ∧
      ∃ deed : Guest.Deed engine, deed.Done ∧ deed.before = guest ∧ deed.found = fs ∧
        deed.trace = trace ∧ ∃ outcome, deed.operation = .callAgain name ∧
          deed.answer = .calledAgain (.ok outcome) ∧ result = .ok (.ok outcome, deed.after) ∧
          left = found.upon deed.left := by
  rw [callAgain, does_ready_bind up, Host.does_lift_bind] at ran
  obtain ⟨⟨reply, after, put⟩, first, later, called, kept, rfl⟩ := ran
  have kept := does_keep_bind.mp kept
  obtain ⟨rfl, rfl, rfl⟩ := Host.does_pure.mp kept
  rw [List.append_nil]
  have done : Guest.Deed.Done
      ⟨.callAgain name, guest, fs, first, .calledAgain reply, after, put⟩ :=
    Host.runs_bind.mpr ⟨_, first, [], called, .done _, (List.append_nil _).symm⟩
  obtain ⟨state, bindings, phase⟩ := Guest.stage_eq_finished_iff.mp finished
  unfold Guest.callAgain at called
  rw [phase, allowed] at called
  cases exported : engine.functionType? guest.module name with
  | none =>
    simp only [exported] at called
    obtain ⟨rfl, same⟩ := Host.runs_pure.mp called
    cases same
    have still : found.upon fs = found := by
      obtain ⟨config, showTiming, cache, filesystem, nextGuest⟩ := found
      cases up
      rfl
    exact .inl ⟨rfl, rfl, rfl, still⟩
  | some type =>
    simp only [exported] at called
    obtain ⟨_, _, _, -, invoking, -⟩ := Host.runs_bind.mp called
    obtain ⟨⟨outcome, _, _⟩, _, _, -, answered, -⟩ := Host.runs_bind.mp invoking
    obtain ⟨-, same⟩ := Host.runs_pure.mp answered
    cases same
    exact .inr ⟨nofun, _, done, rfl, rfl, rfl, outcome, rfl, rfl, rfl, rfl⟩

end Buildbox.Toolchain
