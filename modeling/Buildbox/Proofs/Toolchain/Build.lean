import Buildbox.Proofs.Toolchain.Rest

/-!
The steps of a build. Each of them ends the build by failing or leads to the next one, and what a
build shows is what its steps show.
-/

set_option autoImplicit false

namespace Buildbox

namespace Engine

variable {engine : Engine}

/-- A binary that can be run: a module with a memory and an entry. -/
structure Executable (engine : Engine) (binary : Bytes) (module : engine.Module) : Prop where
  loaded : engine.load binary = some module
  memory : engine.exportsMemory module memoryExport = true
  entry : (engine.functionType? module startExport).isSome = true

private theorem checkExports_start_eq_ok_iff {module : engine.Module} :
    engine.checkExports module [startExport] = .ok () ↔
      engine.exportsMemory module memoryExport = true ∧
        (engine.functionType? module startExport).isSome = true := by
  unfold checkExports
  cases engine.exportsMemory module memoryExport with
  | false => simp
  | true => cases entry : engine.functionType? module startExport <;> simp [entry]

theorem compile_start_eq_ok_iff {binary : Bytes} {module : engine.Module} :
    engine.compile binary [startExport] = .ok module ↔ engine.Executable binary module := by
  unfold compile
  cases loading : engine.load binary with
  | none =>
    refine ⟨nofun, fun executable => ?_⟩
    rw [executable.loaded] at loading
    cases loading
  | some found =>
    dsimp only
    constructor
    · intro compiled
      cases checked : engine.checkExports found [startExport] with
      | error failure =>
        rw [checked] at compiled
        cases compiled
      | ok _ =>
        rw [checked] at compiled
        cases compiled
        obtain ⟨memory, entry⟩ := checkExports_start_eq_ok_iff.mp checked
        exact ⟨loading, memory, entry⟩
    · intro executable
      rw [executable.loaded] at loading
      cases loading
      have checked := checkExports_start_eq_ok_iff.mpr ⟨executable.memory, executable.entry⟩
      rw [checked]
      rfl

end Engine

namespace Toolchain

/-- Whom a build runs. -/
inductive Tool
  | compiler
  | linker
  | program
deriving Repr, DecidableEq

namespace Tool

def stage : Tool → Stage
  | .compiler => .tool
  | .linker => .quiet
  | .program => .program

/-- Its name, under which its failures are reported. -/
def name : Tool → String
  | .compiler => "clang"
  | .linker => "wasm-ld"
  | .program => executableFile

def command (config : Config) : Tool → List String
  | .compiler => compileArguments config
  | .linker => linkArguments config objectFile
  | .program => [executableFile]

def artifact? (config : Config) : Tool → Option String
  | .compiler => some config.clang
  | .linker => some config.lld
  | .program => none

def next : Tool → Option Tool
  | .compiler => some .linker
  | .linker => some .program
  | .program => none

end Tool

variable {engine : Engine}

def worker (self : Toolchain engine) (tool : Tool) (module : engine.Module) : Guest engine :=
  self.newcomer module tool.stage ((tool.command self.config).headD "")
    (tool.command self.config).tail

/-- A step of a build. -/
inductive Task (engine : Engine)
  | staging (source : String)
  | obtaining (tool : Tool)
  | executing (tool : Tool) (module : engine.Module)

/-- What a step of a build comes to. -/
inductive Event (engine : Engine)
  | staged (result : Except Failure Unit)
  | obtained (tool : Tool) (result : Except Failure engine.Module)
  | unstarted (tool : Tool) (failure : Failure)
  | ran (tool : Tool) (run : Guest.Deed engine) (outcome : Outcome) (writes : List Bytes)

namespace Event

/-- Why the build fails with this step, if it does. -/
def failure? : Event engine → Option Failure
  | .staged (.error failure) | .obtained _ (.error failure) | .unstarted _ failure => some failure
  | .ran tool _ outcome _ => outcome.failure? tool.name
  | _ => none

/-- What comes after this step. -/
def next : Event engine → Option (Task engine)
  | .staged (.ok _) => some (.obtaining .compiler)
  | .obtained tool (.ok module) => some (.executing tool module)
  | .ran tool _ outcome _ => if outcome.isSuccess then tool.next.map .obtaining else none
  | _ => none

/-- The program that is given out after this step, because it asked to continue. -/
def held : Event engine → Option (Guest engine)
  | .ran .program run .paused _ => some run.after
  | _ => none

/-- The result of a build of which this is the last step. -/
def result (event : Event engine) : Except Failure (Option (Guest engine)) :=
  match event.failure? with
  | some failure => .error failure
  | none => .ok event.held

def report : Event engine → Trace
  | .ran tool run outcome _ => run.before.report outcome tool.stage.mode
  | _ => []

end Event

inductive Stage.Ending (stage : Stage) (timing : Bool) (outcome : Outcome) : String → Prop
  | nothing (reason : outcome.isSuccess = false ∨ stage.writesStdout = false) :
      Ending stage timing outcome ""
  | shown {durations : String} (good : outcome.isSuccess = true)
      (writes : stage.writesStdout = true) (untimed : timing = false → durations = "") :
      Ending stage timing outcome ("\r\n" ++ durations)

inductive Happens (found : Toolchain engine) :
    Task engine → Event engine → Trace → Toolchain engine → Prop
  | staged {source : String} {trace : Trace} {fs put : Filesystem engine}
      {result : Except Failure Unit} (up : found.filesystem = some (.ok fs))
      (staging : Host.Does (Filesystem.addFile inputFile (Bytes.ofString source)) fs trace result
        put) :
      Happens found (.staging source) (.staged result) trace (found.upon put)
  | fetched {tool : Tool} {name : String} {trace : Trace} {result : Except Failure engine.Module}
      {cache : ModuleCache engine} (artifact : tool.artifact? found.config = some name)
      (fetching : Host.Runs (found.cache.get found.showTiming name) trace (result, cache)) :
      Happens found (.obtaining tool) (.obtained tool result) trace { found with cache }
  | loaded {during trace : Trace} {fs put : Filesystem engine} {binary : Except Failure Bytes}
      (up : found.filesystem = some (.ok fs))
      (reading : Host.Does (Filesystem.contents executableFile) fs during binary put)
      (frames : Progress.Frames found.showTiming s!"{Progress.gray}Compiling {executableFile}"
        during (binary.bind fun bytes => engine.compile bytes [startExport]) trace) :
      Happens found (.obtaining .program)
        (.obtained .program (binary.bind fun bytes => engine.compile bytes [startExport])) trace
        (found.upon put)
  | unstarted {tool : Tool} {module : engine.Module} {trace : Trace} {fs put : Filesystem engine}
      {start : Guest.Deed engine} {failure : Failure} (up : found.filesystem = some (.ok fs))
      (unstarted : Unstarted (found.worker tool module) tool.stage fs start trace put)
      (answer : start.answer = .instantiated (.error failure)) :
      Happens found (.executing tool module) (.unstarted tool failure) trace
        { found with filesystem := some (.ok put), nextGuest := found.nextGuest + 1 }
  | ran {tool : Tool} {module : engine.Module} {trace : Trace} {fs put : Filesystem engine}
      {start run : Guest.Deed engine} {outcome : Outcome} {writes : List Bytes} {ending : String}
      (up : found.filesystem = some (.ok fs))
      (played : Played (found.worker tool module) tool.stage fs start run outcome writes trace
        ending (Event.ran tool run outcome writes).held.isSome put)
      (ends : tool.stage.Ending found.showTiming outcome ending) :
      Happens found (.executing tool module) (.ran tool run outcome writes) trace
        { found with filesystem := some (.ok put), nextGuest := found.nextGuest + 1 }

/-- A step of a build, with its exchanges. -/
structure Entry (engine : Engine) where
  event : Event engine
  trace : Trace

/-- Steps of a build, from one task to another or to the end. -/
inductive Log : Toolchain engine → Option (Task engine) → List (Entry engine) →
    Option (Task engine) → Toolchain engine → Prop
  | nil {self : Toolchain engine} {task : Option (Task engine)} : Log self task [] task self
  | cons {found between left : Toolchain engine} {task : Task engine} {entry : Entry engine}
      {entries : List (Entry engine)} {last : Option (Task engine)}
      (happens : Happens found task entry.event entry.trace between)
      (onward : Log between entry.event.next entries last left) :
      Log found (some task) (entry :: entries) last left

theorem Log.append {found between left : Toolchain engine}
    {start middle last : Option (Task engine)} {early late : List (Entry engine)}
    (first : Log found start early middle between)
    (onward : Log between middle late last left) : Log found start (early ++ late) last left := by
  induction first with
  | nil => exact onward
  | cons happens _ ih => exact .cons happens (ih onward)

theorem Log.of_nil {found left : Toolchain engine} {start last : Option (Task engine)}
    (log : Log found start [] last left) : left = found ∧ last = start := by
  cases log
  exact ⟨rfl, rfl⟩

theorem Log.split {found left : Toolchain engine} {start last : Option (Task engine)}
    {early late : List (Entry engine)} {entry : Entry engine}
    (log : Log found start (early ++ entry :: late) last left) :
    ∃ before task after, Log found start early (some task) before ∧
      Happens before task entry.event entry.trace after ∧
      Log after entry.event.next late last left := by
  induction early generalizing found start with
  | nil =>
    cases log with
    | cons happens onward => exact ⟨_, _, _, .nil, happens, onward⟩
  | cons first rest ih =>
    cases log with
    | cons happens onward =>
      obtain ⟨before, task, after, earlier, there, later⟩ := ih onward
      exact ⟨before, task, after, .cons happens earlier, there, later⟩

theorem Log.last {found left : Toolchain engine} {start last : Option (Task engine)}
    {entries : List (Entry engine)} {entry : Entry engine}
    (log : Log found start (entries ++ [entry]) last left) :
    (∃ between task, Happens between task entry.event entry.trace left) ∧
      last = entry.event.next := by
  obtain ⟨before, task, after, -, happens, onward⟩ := log.split
  obtain ⟨rfl, same⟩ := onward.of_nil
  exact ⟨⟨before, task, happens⟩, same⟩

/-- The exchanges of steps one after another. -/
def traceOf (entries : List (Entry engine)) : Trace :=
  entries.flatMap Entry.trace

def Concludes (entries : List (Entry engine)) (result : Except Failure (Option (Guest engine))) :
    Prop :=
  ∃ early last, entries = early ++ [last] ∧ result = last.event.result

theorem Concludes.append {entries : List (Entry engine)}
    {result : Except Failure (Option (Guest engine))} (concludes : Concludes entries result)
    (early : List (Entry engine)) : Concludes (early ++ entries) result := by
  obtain ⟨first, last, rfl, same⟩ := concludes
  exact ⟨early ++ first, last, (List.append_assoc ..).symm, same⟩

theorem Event.result_of_failure {event : Event engine} {failure : Failure}
    (fails : event.failure? = some failure) : event.result = .error failure := by
  rw [Event.result, fails]

theorem Event.held_of_result {event : Event engine} {guest : Guest engine}
    (given : event.result = .ok (some guest)) :
    ∃ run writes, event = .ran .program run .paused writes ∧ guest = run.after := by
  unfold Event.result at given
  split at given
  · cases given
  · unfold Event.held at given
    split at given
    · next run writes _ =>
      cases given
      exact ⟨run, writes, rfl, rfl⟩
    · cases given

theorem Event.held_isSome {tool : Tool} {run : Guest.Deed engine} {outcome : Outcome}
    {writes : List Bytes} (given_up : tool ≠ .program ∨ outcome ≠ .paused) :
    (Event.ran tool run outcome writes).held.isSome = false := by
  unfold Event.held
  split
  · next same =>
    cases same
    simp at given_up
  · rfl

theorem Event.next_of_failure {event : Event engine} {failure : Failure}
    (fails : event.failure? = some failure) : event.next = none := by
  cases event with
  | staged result | obtained _ result =>
    cases result with
    | ok _ => cases fails
    | error _ => rfl
  | unstarted tool failure => rfl
  | ran tool run outcome writes =>
    have bad : outcome.isSuccess = false := by
      rw [Bool.eq_false_iff, Ne, Outcome.isSuccess_iff_failure]
      exact fun good => Option.some_ne_none failure (fails.symm.trans good)
    rw [Event.next, bad]
    rfl

section Actions

variable {α β : Type}

/-- A part of a build: it goes through steps of it, and ends the build or gives what the rest of it
needs. -/
def Carries (start : Task engine) (action : Action engine α) (goal : α → Task engine → Prop) :
    Prop :=
  ∀ guests found trace result left, Quiet guests found → Host.Does action found trace result left →
    ∃ entries, trace = traceOf entries ∧
      ((∃ failure, result = .error failure ∧ Log found (some start) entries none left ∧
          Concludes entries (.error failure)) ∨
        ∃ a task, result = .ok a ∧ goal a task ∧ Log found (some start) entries (some task) left ∧
          left.Quiet guests)

def Completes (start : Task engine) (action : Action engine (Option (Guest engine))) : Prop :=
  ∀ guests found trace result left, Quiet guests found → Host.Does action found trace result left →
    ∃ entries, trace = traceOf entries ∧ Log found (some start) entries none left ∧
      Concludes entries result

theorem Carries.bind {start : Task engine} {action : Action engine α} {next : α → Action engine β}
    {middle : α → Task engine → Prop} {goal : β → Task engine → Prop}
    (first : Carries start action middle)
    (onward : ∀ a task, middle a task → Carries task (next a) goal) :
    Carries start (action >>= next) goal := by
  intro guests found trace result left quiet ran
  rcases Host.does_bind.mp ran with ⟨failure, failed, rfl⟩ | ⟨a, between, _, _, went, later, rfl⟩
  · obtain ⟨entries, rfl, ⟨_, same, log, concludes⟩ | ⟨_, _, impossible, -⟩⟩ :=
      first _ _ _ _ _ quiet failed
    · cases same
      exact ⟨entries, rfl, .inl ⟨failure, rfl, log, concludes⟩⟩
    · cases impossible
  · obtain ⟨early, rfl, ⟨_, impossible, -⟩ | ⟨_, task, same, reached, log, still_quiet⟩⟩ :=
      first _ _ _ _ _ quiet went
    · cases impossible
    cases same
    have append (late : List (Entry engine)) :
        traceOf early ++ traceOf late = traceOf (early ++ late) := List.flatMap_append.symm
    obtain ⟨late, rfl, ⟨failure, rfl, ended, concludes⟩ | ⟨b, last, rfl, done, ended, quieter⟩⟩ :=
      onward a task reached _ _ _ _ _ still_quiet later
    · exact ⟨early ++ late, append late,
        .inl ⟨failure, rfl, log.append ended, concludes.append early⟩⟩
    · exact ⟨early ++ late, append late, .inr ⟨b, last, rfl, done, log.append ended, quieter⟩⟩

theorem Carries.completes {start : Task engine} {action : Action engine α}
    {next : α → Action engine (Option (Guest engine))} {middle : α → Task engine → Prop}
    (first : Carries start action middle)
    (onward : ∀ a task, middle a task → Completes task (next a)) :
    Completes start (action >>= next) := by
  intro guests found trace result left quiet ran
  rcases Host.does_bind.mp ran with ⟨failure, failed, rfl⟩ | ⟨a, between, _, _, went, later, rfl⟩
  · obtain ⟨entries, rfl, ⟨_, same, log, concludes⟩ | ⟨_, _, impossible, -⟩⟩ :=
      first _ _ _ _ _ quiet failed
    · cases same
      exact ⟨entries, rfl, log, concludes⟩
    · cases impossible
  · obtain ⟨early, rfl, ⟨_, impossible, -⟩ | ⟨_, task, same, reached, log, still_quiet⟩⟩ :=
      first _ _ _ _ _ quiet went
    · cases impossible
    cases same
    obtain ⟨late, rfl, ended, concludes⟩ := onward a task reached _ _ _ _ _ still_quiet later
    exact ⟨early ++ late, List.flatMap_append.symm, log.append ended, concludes.append early⟩

theorem Happens.ends {found left : Toolchain engine} {task : Task engine} {event : Event engine}
    {trace : Trace} (happens : Happens found task event trace left) (last : event.next = none) :
    ∃ entries, trace = traceOf entries ∧ Log found (some task) entries none left ∧
      Concludes entries event.result := by
  refine ⟨[⟨event, trace⟩], (List.append_nil _).symm, ?_, [], _, rfl, rfl⟩
  have log : Log found (some task) [⟨event, trace⟩] event.next left := .cons happens .nil
  rwa [last] at log

theorem Happens.stops {found left : Toolchain engine} {task : Task engine} {event : Event engine}
    {trace : Trace} {failure : Failure} (happens : Happens found task event trace left)
    (fails : event.failure? = some failure) :
    ∃ entries, trace = traceOf entries ∧ Log found (some task) entries none left ∧
      Concludes entries (.error failure) :=
  Event.result_of_failure fails ▸ happens.ends (Event.next_of_failure fails)

theorem Happens.leads {found left : Toolchain engine} {task later : Task engine}
    {event : Event engine} {trace : Trace} (happens : Happens found task event trace left)
    (next : event.next = some later) :
    ∃ entries, trace = traceOf entries ∧ Log found (some task) entries (some later) left := by
  refine ⟨[⟨event, trace⟩], (List.append_nil _).symm, ?_⟩
  have log : Log found (some task) [⟨event, trace⟩] event.next left := .cons happens .nil
  rwa [next] at log

theorem Happens.carries {found left : Toolchain engine} {task : Task engine} {trace : Trace}
    {event : Except Failure α → Event engine} {result : Except Failure α} {guests : GuestId}
    {goal : α → Task engine → Prop} (happens : Happens found task (event result) trace left)
    (fails : ∀ failure, (event (.error failure)).failure? = some failure)
    (leads : ∀ a, ∃ later, (event (.ok a)).next = some later ∧ goal a later)
    (quiet : left.Quiet guests) :
    ∃ entries, trace = traceOf entries ∧
      ((∃ failure, result = .error failure ∧ Log found (some task) entries none left ∧
          Concludes entries (.error failure)) ∨
        ∃ a later, result = .ok a ∧ goal a later ∧ Log found (some task) entries (some later) left ∧
          left.Quiet guests) := by
  cases result with
  | error failure =>
    obtain ⟨entries, traced, log, concludes⟩ := happens.stops (fails failure)
    exact ⟨entries, traced, .inl ⟨failure, rfl, log, concludes⟩⟩
  | ok a =>
    obtain ⟨later, next, reached⟩ := leads a
    obtain ⟨entries, traced, log⟩ := happens.leads next
    exact ⟨entries, traced, .inr ⟨a, later, rfl, reached, log, quiet⟩⟩

theorem carries_staging (source : String) :
    Carries (.staging source)
      (onFilesystem (Filesystem.addFile inputFile (Bytes.ofString source)) : Action engine Unit)
      fun _ task => task = .obtaining .compiler := by
  intro guests found trace result left quiet ran
  have still_quiet := quiet_works (Filesystem.works_addFile _ _) _ _ _ _ ran quiet
  obtain ⟨-, fs, up, -⟩ := quiet
  obtain ⟨put, staging, rfl⟩ := (does_onFilesystem up).mp ran
  have happens := Happens.staged up staging
  exact happens.carries (fun _ => rfl) (fun _ => ⟨_, rfl, rfl⟩) still_quiet

def fetch (artifact : Config → String) : Action engine engine.Module := do
  module (artifact (← get).config)

theorem carries_fetch {tool : Tool} {artifact : Config → String}
    (named : ∀ config, tool.artifact? config = some (artifact config)) :
    Carries (.obtaining tool) (fetch artifact : Action engine engine.Module)
      fun module task => task = .executing tool module := by
  intro guests found trace result left quiet ran
  have ran := Host.does_get_bind.mp ran
  have still_quiet := quiet_module _ _ _ _ _ ran quiet
  obtain ⟨cache, fetching, rfl⟩ := does_module.mp ran
  have happens := Happens.fetched (named found.config) fetching
  exact happens.carries (fun _ => rfl) (fun _ => ⟨_, rfl, rfl⟩) still_quiet

def load (executable : String) : Action engine engine.Module := do
  Progress.task (← get).showTiming s!"{Progress.gray}Compiling {executable}" do
    let binary ← onFilesystem (Filesystem.contents executable)
    raise (engine.compile binary [startExport])

theorem carries_load :
    Carries (.obtaining .program) (load executableFile : Action engine engine.Module)
      fun module task => task = .executing .program module := by
  intro guests found trace result left quiet ran
  have ran := Host.does_get_bind.mp ran
  obtain ⟨during, worked, frames⟩ := Progress.does_task.mp ran
  obtain ⟨binary, put, reading, compiled, reached⟩ :
      ∃ binary between, Host.Does (onFilesystem (Filesystem.contents executableFile)) found during
        binary between ∧ result = binary.bind (fun bytes => engine.compile bytes [startExport]) ∧
          left = between := by
    rcases Host.does_bind.mp worked with
      ⟨failure, failed, rfl⟩ | ⟨bytes, put, _, _, read, ended, rfl⟩
    · exact ⟨.error failure, left, failed, rfl, rfl⟩
    · obtain ⟨rfl, rfl, rfl⟩ := does_raise.mp ended
      rw [List.append_nil]
      exact ⟨.ok bytes, _, read, rfl, rfl⟩
  subst reached
  have still_quiet := quiet_works (Filesystem.works_contents _) _ _ _ _ reading quiet
  obtain ⟨-, fs, up, -⟩ := quiet
  obtain ⟨put, read, rfl⟩ := (does_onFilesystem up).mp reading
  have happens := Happens.loaded up read (compiled ▸ frames)
  rw [← compiled] at happens
  exact happens.carries (fun _ => rfl) (fun _ => ⟨_, rfl, rfl⟩) still_quiet

theorem happens_of_run {found left : Toolchain engine} {fs : Filesystem engine} {tool : Tool}
    {module : engine.Module} {trace : Trace} {result : Except Failure (Outcome × Guest engine)}
    (up : found.filesystem = some (.ok fs)) (idle : fs.Idle found.nextGuest)
    (ran : Host.Does (run module tool.stage ((tool.command found.config).headD "")
      (tool.command found.config).tail) found trace result left) :
    (∃ failure event, result = .error failure ∧ event.failure? = some failure ∧
      Happens found (.executing tool module) event trace left) ∨
    ∃ start run outcome writes ending put, result = .ok (outcome, run.after) ∧
      outcome.isSuccess = true ∧
      Played (found.worker tool module) tool.stage fs start run outcome writes trace ending true
        put ∧
      tool.stage.Ending found.showTiming outcome ending ∧
      left = { found with filesystem := some (.ok put), nextGuest := found.nextGuest + 1 } := by
  have strict (outcome : Outcome) : tool.stage.tolerates outcome = false := by
    cases tool <;> cases outcome <;> rfl
  have named : (tool.command found.config).headD "" = tool.name := by
    cases tool <;> rfl
  obtain ⟨put, tells, rfl, -⟩ := tells_of_run up idle ran
  cases tells with
  | unstarted unstarted answer =>
    exact .inl ⟨_, _, rfl, rfl, .unstarted up unstarted answer⟩
  | @failed _ run outcome _ writes _ played _ bad =>
    have fails : (Event.ran tool run outcome writes).failure? = some _ := named ▸ bad
    have bad : outcome.isSuccess = false := by
      rw [Bool.eq_false_iff, Ne, Outcome.isSuccess_iff_failure]
      exact fun good => Option.some_ne_none _ (fails.symm.trans good)
    have unheld : (Event.ran tool run outcome writes).held.isSome = false :=
      Event.held_isSome (.inr fun paused => by rw [paused] at bad; cases bad)
    rw [← unheld] at played
    exact .inl ⟨_, _, rfl, fails, .ran up played (.nothing (.inl bad))⟩
  | @ended start run outcome writes durations played untimed good =>
    have good : outcome.isSuccess = true :=
      Outcome.isSuccess_iff_failure.mpr (good.resolve_left (by simp [strict]))
    refine .inr ⟨start, run, outcome, writes, _, _, rfl, good, played, ?_, rfl⟩
    split
    · next writes => exact .shown good writes untimed
    · next silent => exact .nothing (.inr (by simpa using silent))

def execute (tool : Tool) (module : engine.Module) : Action engine Unit := do
  let arguments := tool.command (← get).config
  let ended ← run module tool.stage (arguments.headD "") arguments.tail
  drop ended.2

theorem happens_of_drop {found between left : Toolchain engine} {fs put : Filesystem engine}
    {tool : Tool} {module : engine.Module} {start run : Guest.Deed engine} {outcome : Outcome}
    {writes : List Bytes} {ending : String} {first last : Trace} {guests : GuestId}
    {result : Except Failure Unit} (up : found.filesystem = some (.ok fs))
    (played : Played (found.worker tool module) tool.stage fs start run outcome writes first ending
      true put)
    (unheld : (Event.ran tool run outcome writes).held.isSome = false)
    (ends : tool.stage.Ending found.showTiming outcome ending)
    (reached : between =
      { found with filesystem := some (.ok put), nextGuest := found.nextGuest + 1 })
    (quiet : between.Quiet guests) (ran : Host.Does (drop run.after) between last result left) :
    result = .ok () ∧
      Happens found (.executing tool module) (.ran tool run outcome writes) (first ++ last)
        left := by
  subst reached
  obtain ⟨-, _, here, idle, -⟩ := quiet
  cases here
  obtain ⟨dropped, unwiring, rfl, rfl⟩ := (does_drop (by exact rfl)).mp ran
  obtain ⟨-, heard, silent⟩ := idle.unwire unwiring
  have given_up := played.given_up unwiring silent heard
  rw [← unheld] at given_up
  exact ⟨rfl, .ran up given_up ends⟩

theorem carries_execute {tool later : Tool} (next : tool.next = some later)
    (module : engine.Module) :
    Carries (.executing tool module) (execute tool module)
      fun _ task => task = .obtaining later := by
  intro guests found trace result left quiet ran
  have ran := Host.does_get_bind.mp ran
  obtain ⟨-, fs, up, idle, -⟩ := id quiet
  rcases Host.does_bind.mp ran with
    ⟨failure, failed, rfl⟩ | ⟨_, between, first, last, running, dropping, rfl⟩
  · rcases happens_of_run up idle failed with
      ⟨_, _, same, fails, happens⟩ | ⟨_, _, _, _, _, _, impossible, -⟩
    · cases same
      obtain ⟨entries, traced, log, concludes⟩ := happens.stops fails
      exact ⟨entries, traced, .inl ⟨failure, rfl, log, concludes⟩⟩
    · cases impossible
  · have quiet := quiet_run _ _ _ _ _ _ _ _ running quiet
    rcases happens_of_run up idle running with
      ⟨_, _, impossible, -⟩ |
        ⟨start, run, outcome, writes, _, put, same, good, played, ends, reached⟩
    · cases impossible
    cases same
    have unheld : (Event.ran tool run outcome writes).held.isSome = false :=
      Event.held_isSome (.inl fun program => by rw [program] at next; cases next)
    obtain ⟨rfl, happens⟩ := happens_of_drop up played unheld ends reached quiet dropping
    obtain ⟨entries, traced, log⟩ := happens.leads (by rw [Event.next, good, if_pos rfl, next]; rfl)
    have quieter := quiet_drop _ _ _ _ _ dropping quiet
    exact ⟨entries, traced, .inr ⟨(), _, rfl, rfl, log, quieter⟩⟩

def launch (executable : String) (program : engine.Module) :
    Action engine (Option (Guest engine)) := do
  let (outcome, guest) ← run program .program executable []
  if outcome == .paused then return some guest
  drop guest
  return none

theorem completes_launch (module : engine.Module) :
    Completes (.executing .program module) (launch executableFile module) := by
  intro guests found trace result left quiet ran
  obtain ⟨-, fs, up, idle, -⟩ := id quiet
  have happens {first : Trace} {between : Toolchain engine}
      {ended : Except Failure (Outcome × Guest engine)}
      (ran : Host.Does (run module (Tool.stage .program)
        ((Tool.command found.config .program).headD "") (Tool.command found.config .program).tail)
        found first ended between) :=
    happens_of_run up idle ran
  rcases Host.does_bind.mp ran with
    ⟨failure, failed, rfl⟩ | ⟨_, between, first, last, running, ended, rfl⟩
  · rcases happens failed with ⟨_, _, same, fails, happens⟩ | ⟨_, _, _, _, _, _, impossible, -⟩
    · cases same
      exact happens.stops fails
    · cases impossible
  have quiet := quiet_run _ _ _ _ _ _ _ _ running quiet
  rcases happens running with
    ⟨_, _, impossible, -⟩ |
      ⟨start, run, outcome, writes, _, put, same, good, played, ends, reached⟩
  · cases impossible
  cases same
  dsimp only at ended
  split at ended
  · next kept =>
    have paused : outcome = .paused := by simpa using kept
    obtain ⟨rfl, rfl, rfl⟩ := Host.does_pure.mp ended
    subst paused
    subst reached
    rw [List.append_nil]
    exact Happens.ends (.ran up played ends) rfl
  · next other =>
    have exited : outcome = .exited 0 :=
      (Outcome.isSuccess_iff.mp good).resolve_right (by simpa using other)
    subst exited
    have unheld : (Event.ran .program run (.exited 0) writes).held.isSome = false :=
      Event.held_isSome (.inr nofun)
    rcases Host.does_bind.mp ended with ⟨_, failed, -⟩ | ⟨_, _, _, _, dropping, gone, rfl⟩
    · obtain ⟨impossible, -⟩ := happens_of_drop up played unheld ends reached quiet failed
      cases impossible
    · obtain ⟨-, happens⟩ := happens_of_drop up played unheld ends reached quiet dropping
      obtain ⟨rfl, rfl, rfl⟩ := Host.does_pure.mp gone
      rw [List.append_nil]
      exact Happens.ends happens rfl

theorem compile_eq (source : String) :
    (compile source : Action engine String) = do
      let _ ← ready
      onFilesystem (Filesystem.addFile inputFile (Bytes.ofString source))
      let clang ← fetch Config.clang
      execute .compiler clang
      return objectFile := by
  simp only [compile, fetch, execute, bind_assoc]
  rfl

private theorem link_eq :
    (link objectFile : Action engine String) = do
      let _ ← ready
      let lld ← fetch Config.lld
      execute .linker lld
      return executableFile := by
  simp only [link, fetch, execute, bind_assoc]
  rfl

theorem compileLinkRun_eq (source : String) :
    (compileLinkRun source : Action engine (Option (Guest engine))) =
      (compile source >>= fun object => link object >>= fun executable =>
        load executable >>= fun program => launch executable program) := by
  simp only [compileLinkRun, load, launch, bind_assoc]

theorem Carries.ready {start : Task engine} {next : Filesystem engine → Action engine α}
    {goal : α → Task engine → Prop} (onward : ∀ fs, Carries start (next fs) goal) :
    Carries start (Toolchain.ready >>= next) goal := by
  intro guests found trace result left quiet ran
  obtain ⟨-, fs, up, -⟩ := id quiet
  exact onward fs _ _ _ _ _ quiet ((does_ready_bind up).mp ran)

theorem Carries.return {task : Task engine} {a : α} {goal : α → Task engine → Prop}
    (reached : goal a task) : Carries task (pure a : Action engine α) goal := by
  intro guests found trace result left quiet ran
  obtain ⟨rfl, rfl, rfl⟩ := Host.does_pure.mp ran
  exact ⟨[], rfl, .inr ⟨a, task, rfl, reached, .nil, quiet⟩⟩

theorem carries_compile (source : String) :
    Carries (.staging source) (compile source : Action engine String)
      fun object task => object = objectFile ∧ task = .obtaining .linker := by
  rw [compile_eq]
  refine .ready fun _ => (carries_staging source).bind ?_
  rintro _ _ rfl
  refine (carries_fetch fun _ => rfl).bind ?_
  rintro clang _ rfl
  refine (carries_execute rfl clang).bind ?_
  rintro _ _ rfl
  exact .return ⟨rfl, rfl⟩

theorem carries_link :
    Carries (.obtaining .linker) (link objectFile : Action engine String)
      fun executable task => executable = executableFile ∧ task = .obtaining .program := by
  rw [link_eq]
  refine .ready fun _ => (carries_fetch fun _ => rfl).bind ?_
  rintro lld _ rfl
  refine (carries_execute rfl lld).bind ?_
  rintro _ _ rfl
  exact .return ⟨rfl, rfl⟩

theorem completes_compileLinkRun (source : String) :
    Completes (.staging source) (compileLinkRun source : Action engine _) := by
  rw [compileLinkRun_eq]
  refine (carries_compile source).completes ?_
  rintro _ _ ⟨rfl, rfl⟩
  refine carries_link.completes ?_
  rintro _ _ ⟨rfl, rfl⟩
  refine carries_load.completes ?_
  rintro program _ rfl
  exact completes_launch program

end Actions

end Toolchain

end Buildbox
