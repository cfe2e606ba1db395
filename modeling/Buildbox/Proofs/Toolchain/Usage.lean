import Buildbox.Proofs.Engine.Scripted
import Buildbox.Proofs.Toolchain.Build
import Buildbox.Proofs.Toolchain.Check

/-!
Whatever is done with a toolchain and with the programs that it gave out, between two operations it
is at rest, and these programs have finished and can be called again.
-/

set_option autoImplicit false

namespace Buildbox.Toolchain

variable {engine : Engine}

/-- A toolchain with the programs that it gave out and that are not given up yet. -/
structure Bench (engine : Engine) where
  toolchain : Toolchain engine
  programs : List (Guest engine) := []

/-- What is done with a toolchain and the programs that it gave out. -/
inductive Operation
  | showTiming (on : Bool)
  | ready
  | module (name : String)
  | addDirectory (path : String)
  | addFile (path : String) (contents : Bytes)
  | fileExists (path : String)
  | contents (path : String)
  | untar (image : Bytes)
  | compile (source : String)
  | link (object : String)
  | compileLinkRun (source : String)
  | runAnalysis (source : Bytes)
  | use (index : Nat) (operation : Guest.Operation)
  | drop (index : Nat)

def use (guest : Guest engine) (operation : Guest.Operation) : Action engine (Guest engine) := do
  let (_, guest, fs) ← (guest.perform (← Toolchain.ready) operation : Host _)
  keep fs
  return guest

namespace Bench

/-- The toolchain acts, and gives no program out. -/
def act {α : Type} (bench : Bench engine) (action : Action engine α) : Host (Bench engine) := do
  let (_, toolchain) ← action.run.run bench.toolchain
  return { bench with toolchain }

def perform (bench : Bench engine) : Operation → Host (Bench engine)
  | .showTiming on => return { bench with toolchain := { bench.toolchain with showTiming := on } }
  | .ready => bench.act Toolchain.ready
  | .module name => bench.act (Toolchain.module name)
  | .addDirectory path => bench.act (onFilesystem (Filesystem.addDirectory path))
  | .addFile path contents => bench.act (onFilesystem (Filesystem.addFile path contents))
  | .fileExists path => bench.act (onFilesystem (Filesystem.fileExists path))
  | .contents path => bench.act (onFilesystem (Filesystem.contents path))
  | .untar image => bench.act (onFilesystem (Filesystem.untar image))
  | .compile source => bench.act (Toolchain.compile source)
  | .link object => bench.act (Toolchain.link object)
  | .compileLinkRun source => do
    let (result, toolchain) ← (Toolchain.compileLinkRun source).run.run bench.toolchain
    return { toolchain, programs := bench.programs ++ result.toOption.join.toList }
  | .runAnalysis source => bench.act (Toolchain.runAnalysis source)
  | .use index operation => do
    match bench.programs[index]? with
    | none => return bench
    | some guest =>
      let (result, toolchain) ← (Toolchain.use guest operation).run.run bench.toolchain
      return { toolchain, programs := bench.programs.set index (result.toOption.getD guest) }
  | .drop index => do
    match bench.programs[index]? with
    | none => return bench
    | some guest =>
      let (_, toolchain) ← (Toolchain.drop guest).run.run bench.toolchain
      return { toolchain, programs := bench.programs.eraseIdx index }

def performAll (bench : Bench engine) : List Operation → Host (Bench engine)
  | [] => pure bench
  | operation :: later => do
    let bench ← bench.perform operation
    bench.performAll later

end Bench

structure Held (owner : Toolchain engine) (guest : Guest engine) : Prop where
  sound : guest.Sound
  stage : guest.stage = .finished
  past : guest.id < owner.nextGuest
  up : owner.Up

/-- Whatever rested or kept quiet before still does so after it. -/
structure Keeps {α : Type} (action : Action engine α) : Prop where
  rests : ∀ guests, Host.Preserves (Rests guests) action
  quiet : ∀ guests, Host.Preserves (Quiet guests) action

section Keeps

variable {α : Type}

theorem keeps_of_quiet {next : Filesystem engine → Action engine α}
    (quiet : ∀ guests, Host.Preserves (Quiet guests) (ready >>= next)) : Keeps (ready >>= next) :=
  ⟨fun guests => rests_of_quiet (quiet guests), quiet⟩

theorem keeps_ready : Keeps (ready : Action engine _) :=
  ⟨fun _ => rests_ready, fun _ => quiet_ready⟩

theorem keeps_module (name : String) : Keeps (module name : Action engine _) where
  rests guests := by
    rintro found trace result left ran ⟨since, calm⟩
    obtain ⟨cache, -, rfl⟩ := does_module.mp ran
    exact ⟨since, calm⟩
  quiet guests := quiet_module name

theorem keeps_works {action : Filesystem.Action engine α}
    (works : Host.Within Filesystem.Works action) : Keeps (onFilesystem action) :=
  keeps_of_quiet fun _ => quiet_works works

theorem keeps_drop (guest : Guest engine) : Keeps (drop guest) :=
  keeps_of_quiet fun _ => quiet_drop guest

theorem quiet_fetch (artifact : Config → String) (guests : GuestId) :
    Host.Preserves (Quiet guests) (fetch artifact : Action engine _) :=
  .get_bind fun _ => quiet_module _

theorem quiet_execute (tool : Tool) (module : engine.Module) (guests : GuestId) :
    Host.Preserves (Quiet guests) (execute tool module) :=
  .get_bind fun _ => (quiet_run _ _ _ _).bind fun _ => quiet_drop _

theorem keeps_compile (source : String) : Keeps (compile source : Action engine _) := by
  rw [compile_eq]
  refine keeps_of_quiet fun guests => quiet_ready.bind fun _ => ?_
  refine (quiet_works (Filesystem.works_addFile _ _)).bind fun _ => ?_
  refine (quiet_fetch _ _).bind fun clang => (quiet_execute _ _ _).bind fun _ => .pure _

theorem keeps_link (object : String) : Keeps (link object : Action engine _) := by
  refine keeps_of_quiet fun guests => quiet_ready.bind fun _ => .get_bind fun _ => ?_
  refine (quiet_module _).bind fun lld => .get_bind fun _ => ?_
  exact (quiet_run _ _ _ _).bind fun ended => (quiet_drop _).bind fun _ => .pure _

theorem quiet_load (executable : String) (guests : GuestId) :
    Host.Preserves (Quiet guests) (load executable : Action engine _) := by
  refine .get_bind fun self => ?_
  intro found trace result left ran quiet
  obtain ⟨during, worked, -⟩ := Progress.does_task.mp ran
  refine Host.Preserves.bind (quiet_works (Filesystem.works_contents _)) (fun binary => ?_)
    _ _ _ _ worked quiet
  intro found trace result left ran quiet
  obtain ⟨-, -, rfl⟩ := does_raise.mp ran
  exact quiet

theorem quiet_launch (executable : String) (program : engine.Module) (guests : GuestId) :
    Host.Preserves (Quiet guests) (launch executable program) := by
  refine (quiet_run _ _ _ _).bind fun ended => ?_
  dsimp only
  split
  · exact .pure _
  · exact (quiet_drop _).bind fun _ => .pure _

theorem keeps_compileLinkRun (source : String) :
    Keeps (compileLinkRun source : Action engine _) := by
  have quiet guests : Host.Preserves (Quiet guests)
      (compileLinkRun source : Action engine (Option (Guest engine))) := by
    rw [compileLinkRun_eq]
    refine ((keeps_compile source).quiet guests).bind fun object => ?_
    refine ((keeps_link object).quiet guests).bind fun executable => ?_
    exact (quiet_load executable guests).bind fun program => quiet_launch executable program guests
  rw [compileLinkRun_eq, compile_eq, bind_assoc] at quiet ⊢
  exact keeps_of_quiet quiet

theorem keeps_runAnalysis (source : Bytes) : Keeps (runAnalysis source : Action engine _) := by
  refine keeps_of_quiet fun guests => ?_
  rintro found trace result left ran ⟨since, fs, up, idle, heard⟩
  cases checks_of_run up idle ran with
  | unloaded loading => exact ⟨since, fs, up, idle, heard⟩
  | unstaged loading staging =>
    have works := Filesystem.works_addFile _ _ _ _ _ _ staging
    exact ⟨since, _, rfl, idle.works works, (works idle.settled.unlent).heard.trans heard⟩
  | checked loading staging examines heard silent still_idle =>
    exact ⟨Nat.le_succ_of_le since, _, rfl, still_idle.listen false, rfl⟩

end Keeps

section Held

variable {found left : Toolchain engine} {guest : Guest engine} {trace : Trace}

theorem Held.quiet (held : Held found guest) (rests : found.Rests 0) :
    found.Quiet found.nextGuest :=
  quiet_iff.mpr ⟨⟨Nat.le_refl _, rests.calm⟩, held.up⟩

theorem Held.later (held : Held found guest) (quiet : left.Quiet found.nextGuest) :
    Held left guest :=
  ⟨held.sound, held.stage, Nat.lt_of_lt_of_le held.past quiet.since, (quiet_iff.mp quiet).2⟩

theorem Held.kept {α : Type} {action : Action engine α} {result : Except Failure α}
    (held : Held found guest) (rests : found.Rests 0) (keeps : Keeps action)
    (ran : Host.Does action found trace result left) : Held left guest :=
  held.later (keeps.quiet _ _ _ _ _ ran (held.quiet rests))

theorem Happens.held {task : Task engine} {tool : Tool} {run : Guest.Deed engine}
    {outcome : Outcome} {writes : List Bytes}
    (happens : Happens found task (.ran tool run outcome writes) trace left) :
    Held left run.after := by
  cases happens with
  | @ran _ module _ _ put _ _ _ _ _ up played _ =>
    obtain ⟨sound, called, -⟩ := played.follows.called played.opens rfl
    have same : run.after.id = found.nextGuest := by
      rw [played.follows.done.same, played.follows.before, played.opens.done.same,
        played.opens.before]
      rfl
    exact ⟨sound, called.stage, same ▸ Nat.lt_succ_self _, put, rfl⟩

theorem held_of_build {source : String} (rests : found.Rests 0)
    (ran : Host.Does (compileLinkRun source) found trace (.ok (some guest)) left) :
    Held left guest := by
  have begins : (compileLinkRun source : Action engine _) = _ := compileLinkRun_eq source
  rw [compile_eq, bind_assoc] at begins
  obtain ⟨fs, between, _, later, readied, rest, -⟩ := Host.does_bind_ok.mp (begins ▸ ran)
  have up := up_of_ready readied
  have quiet := quiet_iff.mpr ⟨rests_ready _ _ _ _ readied rests, fs, up⟩
  -- with the filesystem up, it is a build from its beginning
  have whole : Host.Does (compileLinkRun source) between later (.ok (some guest)) left := by
    rw [begins]
    exact (does_ready_bind up).mpr rest
  obtain ⟨_, -, log, early, ⟨event, _⟩, rfl, given⟩ :=
    completes_compileLinkRun source _ _ _ _ _ quiet whole
  obtain ⟨⟨_, _, happens⟩, -⟩ := log.last
  obtain ⟨run, writes, rfl, rfl⟩ := Event.held_of_result given.symm
  exact happens.held

theorem Held.used {operation : Guest.Operation} {result : Except Failure (Guest engine)}
    {guests : GuestId} (held : Held found guest) (quiet : found.Quiet guests)
    (ran : Host.Does (use guest operation) found trace result left) :
    ∃ after, result = .ok after ∧ Held left after ∧ left.Quiet guests := by
  obtain ⟨since, fs, up, idle, heard⟩ := quiet
  have ran := (does_ready_bind up).mp ran
  obtain ⟨⟨answer, after, put⟩, first, later, performed, ended, rfl⟩ := Host.does_lift_bind.mp ran
  have ended := does_keep_bind.mp (by exact ended)
  obtain ⟨rfl, rfl, rfl⟩ := Host.does_pure.mp ended
  have done : Guest.Deed.Done ⟨operation, guest, fs, first, answer, after, put⟩ := performed
  obtain ⟨still_idle, still_unheard⟩ := idle.again done held.stage held.past
  have lawful := done.lawful held.sound
  refine ⟨after, rfl, ⟨done.sound held.sound, ?_, ?_, put, rfl⟩,
    ⟨since, put, rfl, still_idle, still_unheard heard⟩⟩
  · rcases lawful.moves with same | ⟨created, -⟩ | ⟨ready, -⟩
    · exact same.trans held.stage
    · rw [held.stage] at created
      cases created
    · rw [held.stage] at ready
      cases ready
  · have same : after.id = guest.id := (congrArg Guest.id done.same :)
    exact same ▸ held.past

def Callable (owner : Toolchain engine) (guest : Guest engine) : Prop :=
  ∀ name trace result left, Host.Does (callAgain guest name) owner trace result left →
    engine.functionType? guest.module name ≠ none →
      ∃ (deed : Guest.Deed engine) (outcome : Outcome), deed.Done ∧ deed.before = guest ∧
        owner.filesystem = some (.ok deed.found) ∧ deed.operation = .callAgain name ∧
        deed.trace = trace ∧ deed.answer = .calledAgain (.ok outcome) ∧ result = .ok (.ok outcome, deed.after)

theorem Held.callable (held : Held found guest)
    (allowed : guest.allowed = true) : Callable found guest := by
  intro name trace result left ran exported
  obtain ⟨fs, up⟩ := held.up
  rcases calls_of_callAgain up held.stage allowed ran with ⟨missing, -⟩ | ⟨-, called⟩
  · exact absurd missing exported
  · obtain ⟨deed, done, before, rfl, traced, outcome, operation, answer, given, -⟩ := called
    exact ⟨deed, outcome, done, before, up, operation, traced, answer, given⟩

end Held

namespace Bench

variable {bench after : Bench engine} {trace : Trace}

/-- The toolchain rests, and the programs that it gave out have finished. -/
structure Sound (bench : Bench engine) : Prop where
  rests : bench.toolchain.Rests 0
  held : ∀ guest ∈ bench.programs, Held bench.toolchain guest

theorem sound_new (config : Config) (next : GuestId) :
    Sound ({ toolchain := .new config next } : Bench engine) where
  rests := ⟨Nat.zero_le _, nofun⟩
  held := nofun

theorem Sound.act {α : Type} {action : Action engine α} (sound : bench.Sound)
    (keeps : Keeps action) (run : Host.Runs (bench.act action) trace after) : after.Sound := by
  obtain ⟨⟨result, toolchain⟩, first, later, ran, ended, -⟩ := Host.runs_bind.mp run
  obtain ⟨-, rfl⟩ := Host.runs_pure.mp ended
  have ran : Host.Does action bench.toolchain first result toolchain := ran
  exact ⟨keeps.rests _ _ _ _ _ ran sound.rests,
    fun guest among => (sound.held guest among).kept sound.rests keeps ran⟩

theorem Sound.perform {operation : Operation} (sound : bench.Sound)
    (run : Host.Runs (bench.perform operation) trace after) : after.Sound := by
  cases operation with
  | showTiming on =>
    obtain ⟨-, rfl⟩ := Host.runs_pure.mp run
    refine ⟨⟨Nat.zero_le _, sound.rests.calm⟩, fun guest among => ?_⟩
    obtain ⟨whole, stage, past, up⟩ := sound.held guest among
    exact ⟨whole, stage, past, up⟩
  | ready => exact sound.act keeps_ready run
  | module name => exact sound.act (keeps_module name) run
  | addDirectory path => exact sound.act (keeps_works (Filesystem.works_addDirectory _)) run
  | addFile path contents => exact sound.act (keeps_works (Filesystem.works_addFile _ _)) run
  | fileExists path => exact sound.act (keeps_works (Filesystem.works_fileExists _)) run
  | contents path => exact sound.act (keeps_works (Filesystem.works_contents _)) run
  | untar image => exact sound.act (keeps_works (Filesystem.works_untar _)) run
  | compile source => exact sound.act (keeps_compile source) run
  | link object => exact sound.act (keeps_link object) run
  | runAnalysis source => exact sound.act (keeps_runAnalysis source) run
  | compileLinkRun source =>
    obtain ⟨⟨result, toolchain⟩, first, later, ran, ended, -⟩ := Host.runs_bind.mp run
    obtain ⟨-, rfl⟩ := Host.runs_pure.mp ended
    have ran : Host.Does (compileLinkRun source) bench.toolchain first result toolchain := ran
    refine ⟨(keeps_compileLinkRun source).rests _ _ _ _ _ ran sound.rests, fun guest among => ?_⟩
    rcases List.mem_append.mp among with earlier | given
    · exact (sound.held guest earlier).kept sound.rests (keeps_compileLinkRun source) ran
    · rcases result with failure | _ | held
      · cases given
      · cases given
      · rw [List.mem_singleton.mp given]
        exact held_of_build sound.rests ran
  | use index operation =>
    rw [Bench.perform] at run
    split at run
    · obtain ⟨-, rfl⟩ := Host.runs_pure.mp run
      exact sound
    · next guest given =>
      obtain ⟨⟨result, toolchain⟩, first, later, ran, ended, -⟩ := Host.runs_bind.mp run
      obtain ⟨-, rfl⟩ := Host.runs_pure.mp ended
      have held := sound.held guest (List.mem_of_getElem? given)
      obtain ⟨used, rfl, still_held, quiet⟩ := held.used (held.quiet sound.rests) ran
      refine ⟨⟨Nat.zero_le _, (quiet_iff.mp quiet).1.calm⟩, fun other among => ?_⟩
      rcases List.mem_or_eq_of_mem_set among with earlier | rfl
      · exact (sound.held other earlier).later quiet
      · exact still_held
  | drop index =>
    rw [Bench.perform] at run
    split at run
    · obtain ⟨-, rfl⟩ := Host.runs_pure.mp run
      exact sound
    · next guest given =>
      obtain ⟨⟨result, toolchain⟩, first, later, ran, ended, -⟩ := Host.runs_bind.mp run
      obtain ⟨-, rfl⟩ := Host.runs_pure.mp ended
      refine ⟨(keeps_drop guest).rests _ _ _ _ _ ran sound.rests, fun other among => ?_⟩
      have earlier := List.mem_of_mem_eraseIdx among
      exact (sound.held other earlier).kept sound.rests (keeps_drop guest) ran

theorem Sound.performAll {operations : List Operation} (sound : bench.Sound)
    (run : Host.Runs (bench.performAll operations) trace after) : after.Sound := by
  induction operations generalizing bench trace with
  | nil =>
    obtain ⟨-, rfl⟩ := Host.runs_pure.mp run
    exact sound
  | cons operation later ih =>
    obtain ⟨between, _, _, ran, onward, -⟩ := Host.runs_bind.mp run
    exact ih (sound.perform ran) onward

/-- A check of a source hears its own guest and nobody else, and leaves nothing behind. -/
structure ChecksApart (bench : Bench engine) (fs : Filesystem engine) (source : Bytes) : Prop where
  returns : ∀ answers, ∃ trace result left,
    Host.Does (runAnalysis source) bench.toolchain trace result left ∧
      Host.AnsweredBy answers trace
  comes : ∀ trace result left, Host.Does (runAnalysis source) bench.toolchain trace result left →
    Checks bench.toolchain fs source trace result left
  /-- whatever is done later, nobody listens -/
  deaf : ∀ trace result left, Host.Does (runAnalysis source) bench.toolchain trace result left →
    ∀ operations later after,
      Host.Runs (performAll { bench with toolchain := left } operations) later after →
        ∀ put, after.toolchain.filesystem = some (.ok put) → put.desk.heard = none
  /-- the programs that were given out are as they were, and can still be called -/
  callable : ∀ trace result left,
    Host.Does (runAnalysis source) bench.toolchain trace result left →
      ∀ guest ∈ bench.programs, guest.allowed = true → Callable left guest

/-- After whatever was done with a toolchain and its programs, a check of a source gives what the
guest of the check wrote, whatever became of that guest. -/
theorem check_keeps_to_itself {config : Config} {next : GuestId} {operations : List Operation}
    {earlier : Trace} {bench : Bench engine} {fs : Filesystem engine} {source : Bytes}
    (history : Host.Runs (performAll { toolchain := .new config next } operations) earlier bench)
    (up : bench.toolchain.filesystem = some (.ok fs)) : bench.ChecksApart fs source where
  returns answers := Host.exists_does answers _ _
  comes trace result left ran := by
    have sound := (sound_new config next).performAll history
    exact checks_of_run up (sound.rests.calm fs up).1 ran
  deaf trace result left ran operations later after onward put still_up := by
    have sound := (sound_new config next).performAll history
    have checked : Host.Runs (bench.perform (.runAnalysis source)) trace
        { bench with toolchain := left } :=
      Host.runs_bind.mpr ⟨_, trace, [], ran, .done _, (List.append_nil _).symm⟩
    exact (((sound.perform checked).performAll onward).rests.calm put still_up).2
  callable trace result left ran guest among allowed := by
    have sound := (sound_new config next).performAll history
    have held := (sound.held guest among).kept sound.rests (keeps_runAnalysis source) ran
    exact held.callable allowed

def warned : Engine :=
  .workshop (.saying "program.cpp:1:2: warning: w\n" 0) (.saying "" 0) (.saying "hi\n" 0xC0C0A)

/-- While a program waits to be called again, a source is checked. -/
theorem check_beside_held_program : ∃ (bench : Bench warned) (fs : Filesystem warned)
    (trace : Trace) (left : Toolchain warned),
    bench.toolchain.filesystem = some (.ok fs) ∧ bench.programs.length = 1 ∧
      Host.Does (runAnalysis [120]) bench.toolchain trace
        (.ok [⟨"program.cpp", 1, 2, "warning", "w"⟩]) left ∧
      trace.shown = "" ∧ bench.ChecksApart fs [120] := by
  obtain ⟨built, begun⟩ : ∃ built, built = Host.answered Engine.supplies []
      (performAll ({ toolchain := .new {} 1 } : Bench warned) [.compileLinkRun ""]) := ⟨_, rfl⟩
  have history : Host.Runs _ built.1 built.2 := begun ▸ Host.runs_answered _ _ _
  have held : built.2.programs.length = 1 := by
    rw [begun]
    decide +kernel
  have sound := (sound_new {} 1).performAll history
  obtain ⟨fs, up⟩ := (sound.held _ (List.getElem_mem (by rw [held]; decide : 0 < _))).up
  obtain ⟨checked, ended⟩ : ∃ checked, checked = Host.answered Engine.supplies []
      ((runAnalysis [120] : Action warned _).run.run built.2.toolchain) := ⟨_, rfl⟩
  have ran : Host.Runs _ checked.1 checked.2 := ended ▸ Host.runs_answered _ _ _
  have result : checked.2.1.toOption = some [⟨"program.cpp", 1, 2, "warning", "w"⟩] := by
    rw [ended, begun]
    decide +kernel
  have silent : checked.1.shown = "" := by
    rw [ended, begun]
    decide +kernel
  refine ⟨built.2, fs, checked.1, checked.2.2, up, held, ?_, silent,
    check_keeps_to_itself history up⟩
  obtain ⟨trace, reached, left⟩ := checked
  cases reached with
  | error failure => cases result
  | ok found =>
    cases result
    exact ran

end Bench

end Buildbox.Toolchain
