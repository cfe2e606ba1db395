import Buildbox.Proofs.Guest.Writing
import Buildbox.Proofs.Toolchain.Stages

/-!
A toolchain at rest. Between two operations no output is held back, no memory is lent and nobody
listens, and so the guest of a stage shows just what it writes itself.
-/

set_option autoImplicit false

namespace Buildbox

namespace Filesystem

/-- The desk is settled, and its holder is an earlier guest than the next one. -/
structure Idle {engine : Engine} (fs : Filesystem engine) (next : GuestId) : Prop where
  settled : fs.desk.Settled
  past : ∀ wiring, fs.desk.wired = some wiring → wiring.guest < next

variable {engine : Engine} {fs left : Filesystem engine} {next : GuestId}

theorem Idle.other (idle : fs.Idle next) : fs.desk.isHeldBy next = false := by
  rw [Bool.eq_false_iff, Ne, Desk.isHeldBy_iff]
  rintro ⟨wiring, wired, same⟩
  exact Nat.ne_of_lt (idle.past wiring wired) same

theorem Idle.mono {later : GuestId} (idle : fs.Idle next) (le : next ≤ later) : fs.Idle later :=
  ⟨idle.settled, fun wiring wired => Nat.lt_of_lt_of_le (idle.past wiring wired) le⟩

theorem Idle.works {trace : Trace} (idle : fs.Idle next) (works : Works fs trace left) :
    left.Idle next := by
  have still := works idle.settled.unlent
  exact ⟨still.settled idle.settled, fun wiring wired => idle.past wiring (still.wired ▸ wired)⟩

theorem Idle.unwire {guest : GuestId} {trace : Trace} (idle : fs.Idle next)
    (run : Host.Runs (fs.unwire guest) trace left) :
    left.Idle next ∧ left.desk.heard = fs.desk.heard ∧ trace.shown = "" := by
  obtain ⟨desk, unwiring, rfl⟩ := runs_onDesk run
  obtain ⟨settled, heard, holder, silent⟩ := idle.settled.unwire unwiring
  refine ⟨⟨settled, fun wiring wired => ?_⟩, heard, silent⟩
  rcases holder with nobody | same
  · have wired : desk.wired = some wiring := wired
    rw [nobody] at wired
    cases wired
  · exact idle.past wiring (same ▸ wired)

theorem Idle.again {deed : Guest.Deed engine} (idle : deed.found.Idle next) (done : deed.Done)
    (finished : deed.before.stage = .finished) (past : deed.before.id < next) :
    deed.left.Idle next ∧ (deed.found.desk.heard = none → deed.left.desk.heard = none) := by
  obtain ⟨operation, before, found, trace, answer, after, left⟩ := deed
  obtain ⟨_, _, phase⟩ := Guest.stage_eq_finished_iff.mp finished
  have comes : Guest.Comes before found operation trace answer after left := done.comes
  cases comes with
  | unlinked | unready | refused | revoked => exact ⟨idle, fun quiet => quiet⟩
  | unstarted fresh _ | started fresh _ _ _ =>
    rw [phase] at fresh
    cases fresh
  | ran ready _ =>
    rw [phase] at ready
    cases ready
  | @calledAgain _ _ _ _ _ _ _ desk _ _ _ allowed taking invoked =>
    obtain ⟨settled, heard, wired, -⟩ := idle.settled.wire taking
    have holds : desk.isHeldBy before.id = true := Desk.isHeldBy_iff.mpr ⟨_, wired, rfl⟩
    obtain ⟨still_settled, still_wired, text, more⟩ := invoked.settles settled holds
    refine ⟨⟨still_settled, fun wiring holder => ?_⟩, fun quiet => ?_⟩
    · rw [still_wired] at holder
      cases wired.symm.trans holder
      exact past
    · rw [more, show desk.heard = none from heard.trans quiet]
      rfl

end Filesystem

namespace Toolchain

variable {engine : Engine} {found left : Toolchain engine} {fs put : Filesystem engine}
  {trace : Trace}

section Stage

variable {guest : Guest engine} {stage : Stage} {program : String} {timing : Bool}
  {start run : Guest.Deed engine} {outcome : Outcome}

def Stage.report (stage : Stage) (outcome : Outcome) : String :=
  if !outcome.isSuccess && (stage.mode == .standard && stage.writesStdout) then
    Guest.banner outcome
  else ""

theorem Opens.begins (opens : Opens guest fs start) (fresh : guest.phase = .created)
    (idle : fs.Idle guest.id) : start.Begins := by
  obtain ⟨done, operation, rfl, rfl⟩ := opens
  exact done.begins operation fresh idle.settled idle.other

theorem Follows.plays {mode : RunMode} (follows : Follows start mode outcome run)
    (opens : Opens guest fs start) (fresh : guest.phase = .created) (begins : start.Begins) :
    ∃ writes, run.Plays mode outcome writes := by
  have created : start.before.stage = .created := by
    rw [opens.before]
    exact Guest.stage_eq_created_iff.mpr fresh
  have begun := opens.done.lawful (.inl created)
  rw [Guest.Deed.Lawful, follows.starts.1, follows.starts.2] at begun
  have ready : run.before.stage = .instantiated := follows.before ▸ begun.2.1
  have sound : run.before.Sound := follows.before ▸ opens.done.sound (.inl created)
  have entry := sound.resolve_left (by simp [ready])
  have settled : run.found.desk.Settled := follows.found ▸ begins.settled
  refine follows.done.plays follows.operation follows.answer ready entry settled ?_
  rcases begins.wired with ⟨-, wired⟩ | ⟨⟨failure, failed⟩, -⟩
  · refine Filesystem.Desk.isHeldBy_iff.mpr ⟨_, follows.found ▸ wired, ?_⟩
    rw [follows.before, opens.done.same]
  · rw [follows.starts.2] at failed
    cases failed

/-- A stage whose guest is not started shows its command, and leaves the output as it was. -/
structure Unstarted (guest : Guest engine) (stage : Stage) (fs : Filesystem engine)
    (start : Guest.Deed engine) (trace : Trace) (put : Filesystem engine) : Prop where
  opens : Opens guest fs start
  begins : start.Begins
  within : ∃ opening closing, trace = opening ++ start.trace ++ closing ∧
    Host.Runs (start.after.drop start.left) closing put
  heard : put.desk.heard = fs.desk.heard
  shown : trace.shown = stage.echo (guest.program :: guest.arguments)

/-- What is left of the filesystem after a run: a guest that is held leaves it as the run did, and
any other one is given up last of all. -/
inductive Leaves (run : Guest.Deed engine) (closing : Trace) : Bool → Filesystem engine → Prop
  | held : Leaves run closing true run.left
  | dropped {early dropping : Trace} {put : Filesystem engine} (last : closing = early ++ dropping)
      (gone : Host.Runs (run.after.drop run.left) dropping put) : Leaves run closing false put

/-- A stage whose guest is run shows its command, what the guest writes, the report of a bad end,
and what comes at the end of a good one. -/
structure Played (guest : Guest engine) (stage : Stage) (fs : Filesystem engine)
    (start run : Guest.Deed engine) (outcome : Outcome) (writes : List Bytes) (trace : Trace)
    (ending : String) (held : Bool) (put : Filesystem engine) : Prop where
  opens : Opens guest fs start
  begins : start.Begins
  follows : Follows start stage.mode outcome run
  plays : run.Plays stage.mode outcome writes
  within : ∃ opening between closing,
    trace = opening ++ start.trace ++ between ++ run.trace ++ closing ∧
      Leaves run closing held put
  heard : put.desk.heard = fs.desk.heard.map (· ++ Utf8.lossy writes.flatten)
  shown : trace.shown = stage.echo (guest.program :: guest.arguments) ++
    (if stage.writesStdout then Utf8.lossy writes.flatten else "") ++ stage.report outcome ++ ending

theorem Played.given_up {next : Filesystem engine} {writes : List Bytes} {more : Trace}
    {ending : String}
    (played : Played guest stage fs start run outcome writes trace ending true put)
    (gone : Host.Runs (run.after.drop put) more next) (silent : more.shown = "")
    (heard : next.desk.heard = put.desk.heard) :
    Played guest stage fs start run outcome writes (trace ++ more) ending false next where
  opens := played.opens
  begins := played.begins
  follows := played.follows
  plays := played.plays
  within := by
    obtain ⟨opening, between, closing, rfl, ⟨⟩⟩ := played.within
    exact ⟨opening, between, closing ++ more, (List.append_assoc ..), .dropped rfl gone⟩
  heard := heard.trans played.heard
  shown := by
    rw [Trace.shown_append, silent, String.append_empty]
    exact played.shown

/-- What a stage on an idle filesystem comes to, with what it shows. -/
inductive Tells (guest : Guest engine) (stage : Stage) (timing : Bool) (fs : Filesystem engine)
    (trace : Trace) : Except Failure (Outcome × Guest engine) → Filesystem engine → Prop
  | unstarted {start : Guest.Deed engine} {failure : Failure} {put : Filesystem engine}
      (unstarted : Unstarted guest stage fs start trace put)
      (answer : start.answer = .instantiated (.error failure)) :
      Tells guest stage timing fs trace (.error failure) put
  | failed {start run : Guest.Deed engine} {outcome : Outcome} {failure : Failure}
      {writes : List Bytes} {put : Filesystem engine}
      (played : Played guest stage fs start run outcome writes trace "" false put)
      (strict : stage.tolerates outcome = false)
      (bad : outcome.failure? guest.program = some failure) :
      Tells guest stage timing fs trace (.error failure) put
  | ended {start run : Guest.Deed engine} {outcome : Outcome} {writes : List Bytes}
      {durations : String}
      (played : Played guest stage fs start run outcome writes trace
        (if stage.writesStdout then "\r\n" ++ durations else "") true run.left)
      (untimed : timing = false → durations = "")
      (good : stage.tolerates outcome = true ∨ outcome.failure? guest.program = none) :
      Tells guest stage timing fs trace (.ok (outcome, run.after)) run.left

theorem Follows.report_shown (follows : Follows start stage.mode outcome run)
    (opens : Opens guest fs start) (writes : guest.writesStdout = stage.writesStdout) :
    Trace.shown (run.before.report outcome stage.mode) = stage.report outcome := by
  have same : run.before.writesStdout = stage.writesStdout := by
    rw [follows.before, opens.done.same, opens.before]
    exact writes
  rw [Guest.report, Stage.report, same]
  split
  · exact String.append_empty
  · rfl

theorem Follows.routed (follows : Follows start stage.mode outcome run)
    (opens : Opens guest fs start) (begins : start.Begins)
    (writes : guest.writesStdout = stage.writesStdout) (text : String) :
    run.found.desk.routed text = if stage.writesStdout then text else "" := by
  rcases begins.wired with ⟨-, wired⟩ | ⟨⟨failure, failed⟩, -⟩
  · rw [Filesystem.Desk.routed, follows.found, wired, opens.before, writes]
    rfl
  · rw [follows.starts.2] at failed
    cases failed

theorem played_of_parts {opening between clock closing : Trace} {ending : String}
    (opens : Opens guest fs start) (follows : Follows start stage.mode outcome run)
    (fresh : guest.phase = .created) (writes : guest.writesStdout = stage.writesStdout)
    (idle : fs.Idle guest.id)
    (echoed : opening.shown = stage.echo (guest.program :: guest.arguments))
    (silent : between.shown = "" ∧ clock.shown = "") (ends : closing.shown = ending) :
    ∃ writes, Played guest stage fs start run outcome writes
        (opening ++ start.trace ++ between ++ run.trace ++ clock ++ closing) ending true run.left ∧
      run.left.Idle (guest.id + 1) := by
  have begins := opens.begins fresh idle
  obtain ⟨written, plays⟩ := follows.plays opens fresh begins
  obtain ⟨output, said, shown⟩ := plays.said
  refine ⟨written, ⟨opens, begins, follows, plays, ?_, ?_, ?_⟩, plays.settled, ?_⟩
  · exact ⟨opening, between, clock ++ closing, (List.append_assoc ..), .held⟩
  · rw [plays.heard, follows.found, begins.heard, opens.found]
  · rw [follows.routed opens begins writes] at shown
    simp only [Trace.shown_append, echoed, begins.shown, silent.1, silent.2, said, shown, ends,
      follows.report_shown opens writes, String.append_empty, String.append_assoc]
  · intro wiring wired
    rcases begins.wired with ⟨-, held⟩ | ⟨⟨failure, failed⟩, -⟩
    · rw [plays.wired, follows.found, held, opens.before] at wired
      cases wired
      exact Nat.lt_succ_self _
    · rw [follows.starts.2] at failed
      cases failed

end Stage

theorem tells_of_ends {guest : Guest engine} {stage : Stage} {timing : Bool}
    {result : Except Failure (Outcome × Guest engine)}
    (ends : Ends guest stage guest.program timing fs trace result put)
    (fresh : guest.phase = .created) (writes : guest.writesStdout = stage.writesStdout)
    (idle : fs.Idle guest.id) :
    Tells guest stage timing fs trace result put ∧ put.Idle (guest.id + 1) := by
  cases ends with
  | @unstarted start failure opening closing put opens answer dropping echoed traced =>
    have begins := opens.begins fresh idle
    have same : start.left = fs := by
      rcases begins.wired with ⟨instantiated, -⟩ | ⟨-, same⟩
      · rw [answer] at instantiated
        cases instantiated
      · rw [same, opens.found]
    have started : start.left.Idle (guest.id + 1) := same ▸ idle.mono (Nat.le_succ _)
    obtain ⟨still_idle, heard, silent⟩ := started.unwire dropping
    refine ⟨.unstarted ⟨opens, begins, ⟨_, _, traced, dropping⟩, ?_, ?_⟩ answer, still_idle⟩
    · rw [heard, same]
    · rw [traced, Trace.shown_append, Trace.shown_append, echoed, begins.shown, silent,
        String.append_empty, String.append_empty]
  | @failed start run outcome failure opening between clock closing put opens follows strict bad
      dropping echoed silent traced =>
    subst traced
    obtain ⟨written, played, ended⟩ := played_of_parts opens follows fresh writes idle echoed silent
      (rfl : Trace.shown [] = "")
    obtain ⟨still_idle, heard, dropped⟩ := ended.unwire dropping
    rw [List.append_nil] at played
    exact ⟨.failed (played.given_up dropping dropped heard) strict bad, still_idle⟩
  | @ended start run outcome opening between clock closing opens follows good echoed silent closes
      traced =>
    subst traced
    obtain ⟨durations, untimed, shown⟩ := closes
    obtain ⟨written, played, ended⟩ := played_of_parts opens follows fresh writes idle echoed silent
      shown
    exact ⟨.ended played untimed good, ended⟩

theorem tells_of_run {module : engine.Module} {stage : Stage} {program : String}
    {arguments : List String} {result : Except Failure (Outcome × Guest engine)}
    (up : found.filesystem = some (.ok fs)) (idle : fs.Idle found.nextGuest)
    (ran : Host.Does (run module stage program arguments) found trace result left) :
    ∃ put, Tells (found.newcomer module stage program arguments) stage found.showTiming fs trace
        result put ∧
      left = { found with filesystem := some (.ok put), nextGuest := found.nextGuest + 1 } ∧
      put.Idle left.nextGuest := by
  obtain ⟨put, ends, rfl⟩ := ends_of_run up ran
  obtain ⟨tells, still_idle⟩ := tells_of_ends ends rfl rfl idle
  exact ⟨put, tells, rfl, still_idle⟩

/-- The filesystem is up and idle, and nobody listens; as many guests as this came already. -/
structure Quiet (guests : GuestId) (kept : Toolchain engine) : Prop where
  since : guests ≤ kept.nextGuest
  calm : ∃ fs, kept.filesystem = some (.ok fs) ∧ fs.Idle kept.nextGuest ∧ fs.desk.heard = none

/-- Once it is up, the filesystem is idle, and nobody listens; as many guests as this came
already. -/
structure Rests (guests : GuestId) (kept : Toolchain engine) : Prop where
  since : guests ≤ kept.nextGuest
  calm : ∀ fs, kept.filesystem = some (.ok fs) → fs.Idle kept.nextGuest ∧ fs.desk.heard = none

theorem quiet_iff {guests : GuestId} : found.Quiet guests ↔ found.Rests guests ∧ found.Up := by
  constructor
  · rintro ⟨since, fs, here, idle, heard⟩
    refine ⟨⟨since, fun other up => ?_⟩, fs, here⟩
    cases here.symm.trans up
    exact ⟨idle, heard⟩
  · rintro ⟨rests, fs, up⟩
    exact ⟨rests.since, fs, up, rests.calm fs up⟩

theorem still_of_prepare {config : Config} {timing : Bool}
    (ran : Host.Runs (prepare engine config timing).run trace (.ok fs)) :
    ∃ first, ({} : Filesystem.Desk).Still first fs.desk := by
  rcases Host.runs_try_bind.mp ran with ⟨_, -, impossible⟩ | ⟨binary, _, rest, -, compiling, -⟩
  · cases impossible
  split at compiling
  · obtain ⟨-, impossible⟩ := Host.runs_pure.mp compiling
    cases impossible
  rcases Host.runs_try_bind.mp compiling with
    ⟨_, -, impossible⟩ | ⟨fresh, first, later, bringing, extracting, -⟩
  · cases impossible
  have still := Filesystem.still_of_new bringing
  obtain ⟨during, worked, -⟩ := Progress.runs_task.mp extracting
  rcases Host.runs_try_bind.mp worked with ⟨_, -, impossible⟩ | ⟨image, _, last, -, unpacking, -⟩
  · cases impossible
  obtain ⟨⟨result, reached⟩, unpacked, nothing, untarring, ended, -⟩ :=
    Host.runs_try_lift_bind.mp unpacking
  have works := Filesystem.works_untar image fresh unpacked result reached untarring
  have together := Filesystem.stretch_aside.trans (fun _ => still) works rfl
  cases result with
  | ok count =>
    obtain ⟨-, same⟩ := Host.runs_pure.mp ended
    cases same
    exact ⟨_, together⟩
  | error failure =>
    obtain ⟨-, impossible⟩ := Host.runs_pure.mp ended
    cases impossible

section Keeping

variable {α β : Type} {guests : GuestId}

theorem quiet_works {action : Filesystem.Action engine α}
    (works : Host.Within Filesystem.Works action) :
    Host.Preserves (Quiet guests) (onFilesystem action) := by
  rintro found trace result left ran ⟨since, fs, up, idle, heard⟩
  obtain ⟨put, worked, rfl⟩ := (does_onFilesystem up).mp ran
  have done := works _ _ _ _ worked
  exact ⟨since, put, rfl, idle.works done, (done idle.settled.unlent).heard.trans heard⟩

theorem quiet_module (name : String) :
    Host.Preserves (Quiet guests) (module name : Action engine _) := by
  rintro found trace result left ran ⟨since, calm⟩
  obtain ⟨cache, -, rfl⟩ := does_module.mp ran
  exact ⟨since, calm⟩

theorem quiet_drop (guest : Guest engine) : Host.Preserves (Quiet guests) (drop guest) := by
  rintro found trace result left ran ⟨since, fs, up, idle, heard⟩
  obtain ⟨put, dropping, -, rfl⟩ := (does_drop up).mp ran
  obtain ⟨still_idle, same, -⟩ := idle.unwire dropping
  exact ⟨since, put, rfl, still_idle, same.trans heard⟩

theorem quiet_run (module : engine.Module) (stage : Stage) (program : String)
    (arguments : List String) :
    Host.Preserves (Quiet guests) (run module stage program arguments) := by
  rintro found trace result left ran ⟨since, fs, up, idle, heard⟩
  obtain ⟨put, tells, rfl, still_idle⟩ := tells_of_run up idle ran
  refine ⟨Nat.le_succ_of_le since, put, rfl, still_idle, ?_⟩
  cases tells with
  | unstarted unstarted _ => exact unstarted.heard.trans heard
  | failed played _ _ | ended played _ _ =>
    rw [played.heard, heard]
    rfl

theorem quiet_ready : Host.Preserves (Quiet guests) (ready : Action engine _) := by
  rintro found trace result left ran ⟨since, fs, up, calm⟩
  obtain ⟨-, -, rfl⟩ := (does_ready up).mp ran
  exact ⟨since, fs, up, calm⟩

theorem rests_ready : Host.Preserves (Rests guests) (ready : Action engine _) := by
  intro found trace result left ran rests
  have ran := Host.does_get_bind.mp ran
  split at ran
  · obtain ⟨-, -, rfl⟩ := does_raise.mp ran
    exact rests
  · obtain ⟨reached, first, later, preparing, ran, -⟩ := Host.does_lift_bind.mp ran
    obtain ⟨-, rfl, rfl⟩ := does_raise.mp (Host.does_set_bind.mp ran)
    refine ⟨rests.since, fun fs up => ?_⟩
    cases up
    obtain ⟨_, still⟩ := still_of_prepare preparing
    refine ⟨⟨still.settled ⟨rfl, rfl⟩, fun wiring wired => ?_⟩, still.heard⟩
    cases still.wired.symm.trans wired

theorem rests_of_quiet {next : Filesystem engine → Action engine α}
    (quiet : Host.Preserves (Quiet guests) (ready >>= next)) :
    Host.Preserves (Rests guests) (ready >>= next) := by
  intro found trace result left ran rests
  rcases Host.does_bind.mp ran with ⟨_, failed, -⟩ | ⟨fs, between, _, _, readied, later, -⟩
  · exact rests_ready _ _ _ _ failed rests
  · have up := up_of_ready readied
    have calm := quiet_iff.mpr ⟨rests_ready _ _ _ _ readied rests, fs, up⟩
    exact (quiet_iff.mp (quiet _ _ _ _ ((does_ready_bind up).mpr later) calm)).1

end Keeping

end Toolchain

end Buildbox
