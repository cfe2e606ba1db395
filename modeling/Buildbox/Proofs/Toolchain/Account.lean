import Buildbox.Proofs.Toolchain.Usage

/-!
The account of a build. Its steps come in one order, only the last of them may fail, and the result,
the reports and the text of the build are read off them.
-/

set_option autoImplicit false

namespace Buildbox.Toolchain

variable {engine : Engine} {found left : Toolchain engine}

/-- A step of a build, without what it comes to. -/
inductive Part
  | staging
  | obtaining (tool : Tool)
  | executing (tool : Tool)
deriving Repr, DecidableEq

namespace Part

/-- The steps of a whole build. -/
def order : List Part := [
  .staging,
  .obtaining .compiler, .executing .compiler,
  .obtaining .linker, .executing .linker,
  .obtaining .program, .executing .program]

/-- A step and all that come after it. -/
def onward (part : Part) : List Part :=
  order.dropWhile (· != part)

theorem onward_eq_cons (part : Part) : ∃ later, part.onward = part :: later := by
  rcases part with _ | tool | tool
  · exact ⟨_, rfl⟩
  · cases tool <;> exact ⟨_, rfl⟩
  · cases tool <;> exact ⟨_, rfl⟩

theorem eq_order {parts : List Part} (among : parts ++ [executing .program] <+: order) :
    parts ++ [executing .program] = order := by
  obtain ⟨rest, split⟩ := among
  have last : order.dropLast ++ [executing .program] = order := rfl
  have whole : order.dropLast ++ [executing .program] = parts ++ executing .program :: rest := by
    rw [last, ← split, List.append_assoc, List.singleton_append]
  rcases split_concat whole with ⟨same, -, -⟩ | ⟨_, twice, -⟩
  · rw [← same]
    exact last
  · have among : executing .program ∈ order.dropLast := by
      rw [twice]
      exact List.mem_append_right _ List.mem_cons_self
    exact absurd among (by decide)

end Part

def Task.part : Task engine → Part
  | .staging _ => .staging
  | .obtaining tool => .obtaining tool
  | .executing tool _ => .executing tool

def Event.part : Event engine → Part
  | .staged _ => .staging
  | .obtained tool _ => .obtaining tool
  | .unstarted tool _ | .ran tool _ _ _ => .executing tool

theorem Happens.part {task : Task engine} {event : Event engine} {trace : Trace}
    (happens : Happens found task event trace left) : event.part = task.part := by
  cases happens <;> rfl

theorem Event.onward_of_next {event : Event engine} {later : Task engine}
    (next : event.next = some later) :
    event.part.onward = event.part :: later.part.onward := by
  cases event with
  | staged result =>
    cases result with
    | ok _ =>
      cases next
      rfl
    | error _ => cases next
  | obtained tool result =>
    cases result with
    | ok _ =>
      cases next
      cases tool <;> rfl
    | error _ => cases next
  | unstarted _ _ => cases next
  | ran tool run outcome writes =>
    rw [Event.next] at next
    split at next
    · cases tool <;> cases next <;> rfl
    · cases next

theorem Log.order {start last : Option (Task engine)} {entries : List (Entry engine)}
    (log : Log found start entries last left) :
    ∀ task, start = some task → entries.map (·.event.part) <+: task.part.onward := by
  induction log with
  | nil => exact fun _ _ => List.nil_prefix
  | @cons _ _ _ task entry entries _ happens onward ih =>
    rintro _ ⟨⟩
    rw [List.map_cons, ← happens.part]
    cases next : entry.event.next with
    | none =>
      rw [next] at onward
      cases onward
      obtain ⟨later, whole⟩ := entry.event.part.onward_eq_cons
      rw [whole]
      exact List.prefix_append [_] later
    | some later =>
      rw [Event.onward_of_next next]
      exact List.prefix_cons_inj _ |>.mpr (ih later next)

theorem Log.good {start last : Option (Task engine)} {entries : List (Entry engine)}
    (log : Log found start entries last left) :
    ∀ early entry late, entries = early ++ entry :: late → late ≠ [] →
      entry.event.failure? = none := by
  induction log with
  | nil => simp
  | @cons _ _ _ task entry entries _ happens onward ih =>
    intro early step late split more
    cases early with
    | nil =>
      cases split
      cases fails : entry.event.failure? with
      | none => rfl
      | some failure =>
        rw [Event.next_of_failure fails] at onward
        cases onward
        exact absurd rfl more
    | cons first rest =>
      cases split
      exact ih rest step late rfl more

namespace Event

variable {event : Event engine} {tool : Tool}

theorem eq_staged (staging : event.part = .staging) (good : event.failure? = none) :
    event = .staged (.ok ()) := by
  cases event with
  | staged result =>
    cases result with
    | ok _ => rfl
    | error _ => cases good
  | obtained _ _ | unstarted _ _ | ran _ _ _ _ => cases staging

theorem eq_obtained (obtaining : event.part = .obtaining tool) (good : event.failure? = none) :
    ∃ module, event = .obtained tool (.ok module) := by
  cases event with
  | obtained tool result =>
    cases obtaining
    cases result with
    | ok module => exact ⟨module, rfl⟩
    | error _ => cases good
  | staged _ | unstarted _ _ | ran _ _ _ _ => cases obtaining

theorem eq_ran (executing : event.part = .executing tool) (good : event.failure? = none) :
    ∃ run outcome writes, event = .ran tool run outcome writes ∧
      (outcome = .exited 0 ∨ outcome = .paused) := by
  cases event with
  | ran tool run outcome writes =>
    cases executing
    have success := Outcome.isSuccess_iff.mp (Outcome.isSuccess_iff_failure.mpr good)
    exact ⟨run, outcome, writes, rfl, success⟩
  | unstarted _ _ => cases good
  | staged _ | obtained _ _ => cases executing

theorem part_of_end (good : event.failure? = none) (ends : event.next = none) :
    event.part = .executing .program := by
  cases event with
  | staged result =>
    cases result with
    | ok _ => cases ends
    | error _ => cases good
  | obtained tool result =>
    cases result with
    | ok _ => cases ends
    | error _ => cases good
  | unstarted _ _ => cases good
  | ran tool run outcome writes =>
    have success : outcome.isSuccess = true := Outcome.isSuccess_iff_failure.mpr good
    rw [next, if_pos success] at ends
    cases tool with
    | program => rfl
    | compiler | linker => cases ends

end Event

/-- Every step of a build succeeds, and the program runs with this outcome. -/
inductive Succeeds : List (Event engine) → Guest.Deed engine → Outcome → Prop
  | whole {clang lld program : engine.Module} {compiling linking run : Guest.Deed engine}
      {compilation linkage outcome : Outcome} {object executable output : List Bytes}
      (compiled : compilation = .exited 0 ∨ compilation = .paused)
      (linked : linkage = .exited 0 ∨ linkage = .paused)
      (ran : outcome = .exited 0 ∨ outcome = .paused) :
      Succeeds [
        .staged (.ok ()),
        .obtained .compiler (.ok clang), .ran .compiler compiling compilation object,
        .obtained .linker (.ok lld), .ran .linker linking linkage executable,
        .obtained .program (.ok program), .ran .program run outcome output] run outcome

theorem Log.succeeds {source : String} {early : List (Entry engine)} {last : Entry engine}
    (log : Log found (some (.staging source)) (early ++ [last]) none left)
    (good : last.event.failure? = none) :
    ∃ run outcome, Succeeds ((early ++ [last]).map Entry.event) run outcome := by
  have all : ∀ entry ∈ early ++ [last], entry.event.failure? = none := by
    intro entry among
    rcases List.mem_append.mp among with earlier | latest
    · obtain ⟨before, after, rfl⟩ := List.append_of_mem earlier
      exact log.good before entry (after ++ [last]) (by simp) (by simp)
    · exact List.mem_singleton.mp latest ▸ good
  have parts : (early ++ [last]).map (·.event.part) = Part.order := by
    have among := log.order _ rfl
    have program := last.event.part_of_end good log.last.2.symm
    rw [List.map_append, List.map_singleton, program] at among ⊢
    exact Part.eq_order among
  generalize early ++ [last] = entries at all parts
  obtain ⟨staged, _, rfl, staging, parts⟩ := List.map_eq_cons_iff.mp parts
  obtain ⟨fetched, _, rfl, fetching, parts⟩ := List.map_eq_cons_iff.mp parts
  obtain ⟨compiled, _, rfl, compiling, parts⟩ := List.map_eq_cons_iff.mp parts
  obtain ⟨brought, _, rfl, bringing, parts⟩ := List.map_eq_cons_iff.mp parts
  obtain ⟨linked, _, rfl, linking, parts⟩ := List.map_eq_cons_iff.mp parts
  obtain ⟨loaded, _, rfl, loading, parts⟩ := List.map_eq_cons_iff.mp parts
  obtain ⟨ran, _, rfl, running, parts⟩ := List.map_eq_cons_iff.mp parts
  obtain rfl := List.map_eq_nil_iff.mp parts
  simp only [List.forall_mem_cons] at all
  obtain ⟨no_staging, no_fetching, no_compiling, no_bringing, no_linking, no_loading, no_running,
    -⟩ := all
  obtain ⟨clang, clang_obtained⟩ := Event.eq_obtained fetching no_fetching
  obtain ⟨_, _, _, compiler_ran, compilation⟩ := Event.eq_ran compiling no_compiling
  obtain ⟨lld, lld_obtained⟩ := Event.eq_obtained bringing no_bringing
  obtain ⟨_, _, _, linker_ran, linkage⟩ := Event.eq_ran linking no_linking
  obtain ⟨program, program_obtained⟩ := Event.eq_obtained loading no_loading
  obtain ⟨run, outcome, _, program_ran, success⟩ := Event.eq_ran running no_running
  refine ⟨run, outcome, ?_⟩
  simp only [List.map_cons, List.map_nil, Event.eq_staged staging no_staging, clang_obtained,
    compiler_ran, lld_obtained, linker_ran, program_obtained, program_ran]
  exact .whole compilation linkage success

theorem Succeeds.last {events early : List (Event engine)} {event : Event engine}
    {run : Guest.Deed engine} {outcome : Outcome} (succeeds : Succeeds events run outcome)
    (split : events = early ++ [event]) :
    (∃ output, event = .ran .program run outcome output) ∧ outcome.isSuccess = true := by
  cases succeeds with
  | @whole _ _ _ _ _ _ _ _ _ _ _ output _ _ ran =>
    have same := congrArg List.getLast? split
    rw [List.getLast?_concat] at same
    exact ⟨⟨output, (Option.some.inj same).symm⟩, Outcome.isSuccess_iff.mpr ran⟩

theorem Succeeds.outcome {events : List (Event engine)} {run : Guest.Deed engine}
    {outcome : Outcome} (succeeds : Succeeds events run outcome) :
    outcome = .exited 0 ∨ outcome = .paused := by
  cases succeeds with
  | whole _ _ ran => exact ran

section Result

variable {source : String} {entries : List (Entry engine)}
  {result : Except Failure (Option (Guest engine))}

theorem Concludes.error_iff {failure : Failure} (concludes : Concludes entries result) :
    result = .error failure ↔
      ∃ early last, entries = early ++ [last] ∧ last.event.failure? = some failure := by
  obtain ⟨early, last, rfl, rfl⟩ := concludes
  constructor
  · intro failed
    refine ⟨early, last, rfl, ?_⟩
    unfold Event.result at failed
    split at failed
    · next other fails =>
      cases failed
      exact fails
    · cases failed
  · rintro ⟨_, other, same, fails⟩
    obtain ⟨-, last_same⟩ := List.append_inj' same rfl
    cases last_same
    exact Event.result_of_failure fails

theorem Log.ok_iff {held : Option (Guest engine)}
    (log : Log found (some (.staging source)) entries none left)
    (concludes : Concludes entries result) :
    result = .ok held ↔ ∃ run outcome, Succeeds (entries.map Entry.event) run outcome ∧
      held = (Event.ran .program run outcome []).held := by
  obtain ⟨early, last, rfl, rfl⟩ := concludes
  constructor
  · intro given
    unfold Event.result at given
    split at given
    · cases given
    next good =>
    obtain ⟨run, outcome, succeeds⟩ := log.succeeds good
    refine ⟨run, outcome, succeeds, ?_⟩
    obtain ⟨⟨output, same⟩, -⟩ := succeeds.last List.map_append
    cases given
    rw [same]
    cases outcome <;> rfl
  · rintro ⟨run, outcome, succeeds, rfl⟩
    obtain ⟨⟨output, same⟩, success⟩ := succeeds.last List.map_append
    have good : last.event.failure? = none := by
      rw [same]
      exact Outcome.isSuccess_iff_failure.mp success
    rw [Event.result, good, same]
    cases outcome <;> rfl

end Result

/-- The reports of bad ends that a step is expected to show. -/
def Event.banners : Event engine → Trace
  | .ran tool _ outcome _ =>
    if outcome.isSuccess || tool == .linker then [] else [⟨.write (Guest.banner outcome), ()⟩]
  | _ => []

theorem Event.banners_of_good {event : Event engine} (good : event.failure? = none) :
    event.banners = [] := by
  cases event with
  | ran tool run outcome writes =>
    have success : outcome.isSuccess = true := Outcome.isSuccess_iff_failure.mpr good
    rw [banners, success]
    rfl
  | staged _ | obtained _ _ | unstarted _ _ => rfl

theorem Happens.reports {task : Task engine} {event : Event engine} {trace : Trace}
    (happens : Happens found task event trace left) :
    event.report = event.banners ∧ event.report <:+: trace := by
  cases happens with
  | staged _ _ | fetched _ _ | loaded _ _ _ | unstarted _ _ _ =>
    exact ⟨rfl, List.nil_infix⟩
  | @ran tool module _ _ _ start run outcome writes _ up played ends =>
    have same : run.before.writesStdout = tool.stage.writesStdout := by
      rw [played.follows.before, played.opens.done.same, played.opens.before]
      rfl
    have shows : (tool.stage.mode == .standard && tool.stage.writesStdout) = (tool != .linker) := by
      cases tool <;> rfl
    constructor
    · rw [Event.report, Guest.report, same, Event.banners, shows]
      cases outcome.isSuccess <;> simp
    · obtain ⟨opening, between, closing, rfl, -⟩ := played.within
      obtain ⟨output, said, -⟩ := played.plays.said
      rw [said]
      refine ⟨opening ++ start.trace ++ between ++ output, closing, ?_⟩
      simp only [Event.report, List.append_assoc]

theorem Happens.kept {task : Task engine} {event : Event engine} {trace : Trace}
    (happens : Happens found task event trace left) :
    left.config = found.config ∧ left.showTiming = found.showTiming := by
  cases happens <;> exact ⟨rfl, rfl⟩

theorem Log.kept {start last : Option (Task engine)} {entries : List (Entry engine)}
    (log : Log found start entries last left) :
    left.config = found.config ∧ left.showTiming = found.showTiming := by
  induction log with
  | nil => exact ⟨rfl, rfl⟩
  | cons happens _ ih => exact ⟨ih.1.trans happens.kept.1, ih.2.trans happens.kept.2⟩

theorem Log.each {start last : Option (Task engine)} {entries : List (Entry engine)}
    (log : Log found start entries last left) :
    ∀ entry ∈ entries, ∃ before task after, Happens before task entry.event entry.trace after ∧
      before.config = found.config ∧ before.showTiming = found.showTiming := by
  intro entry among
  obtain ⟨early, late, rfl⟩ := List.append_of_mem among
  obtain ⟨before, task, after, earlier, happens, -⟩ := log.split
  exact ⟨before, task, after, happens, earlier.kept⟩

theorem Happens.text {task : Task engine} {tool : Tool} {run : Guest.Deed engine}
    {outcome : Outcome} {writes : List Bytes} {trace : Trace}
    (happens : Happens found task (.ran tool run outcome writes) trace left) :
    run.Wrote writes ∧
      (tool = .linker → trace.shown = "") ∧
      (found.showTiming = false → outcome.isSuccess = true → tool ≠ .linker →
        trace.shown = tool.stage.echo (tool.command found.config) ++
          Utf8.lossy writes.flatten ++ "\r\n") ∧
      (outcome.isSuccess = false → tool ≠ .linker →
        trace.shown = tool.stage.echo (tool.command found.config) ++
          Utf8.lossy writes.flatten ++ Guest.banner outcome) := by
  cases happens with
  | @ran _ module _ _ _ _ _ _ _ ending up played ends =>
    have text (other : tool ≠ .linker) : tool.stage.writesStdout = true ∧
        trace.shown = tool.stage.echo (tool.command found.config) ++
          Utf8.lossy writes.flatten ++ tool.stage.report outcome ++ ending := by
      have command : (found.worker tool module).program :: (found.worker tool module).arguments =
          tool.command found.config := by
        cases tool <;> rfl
      have written : tool.stage.writesStdout = true := by
        cases tool <;> first | rfl | exact absurd rfl other
      rw [played.shown, command, if_pos written]
      exact ⟨written, rfl⟩
    refine ⟨played.plays.wrote, ?_, fun untimed good other => ?_, fun bad other => ?_⟩
    · rintro rfl
      cases ends with
      | nothing _ => exact played.silent rfl rfl
      | shown _ writes _ => cases writes
    · obtain ⟨written, text⟩ := text other
      have unreported : tool.stage.report outcome = "" := by
        rw [Stage.report, good]
        rfl
      rw [text, unreported, String.append_empty]
      cases ends with
      | nothing reason => simp [good, written] at reason
      | shown _ _ none_shown => rw [none_shown untimed, String.append_empty]
    · obtain ⟨written, text⟩ := text other
      have reported : tool.stage.report outcome = Guest.banner outcome := by
        rw [Stage.report, bad, written]
        cases tool <;> rfl
      rw [text, reported]
      cases ends with
      | nothing _ => exact String.append_empty
      | shown good _ _ => exact absurd (bad.symm.trans good) Bool.false_ne_true

theorem Happens.executable {task : Task engine} {result : Except Failure engine.Module}
    {trace : Trace} (happens : Happens found task (.obtained .program result) trace left) :
    ∃ fs during binary put, task = .obtaining .program ∧ found.filesystem = some (.ok fs) ∧
      Host.Does (Filesystem.contents executableFile) fs during binary put ∧ during <:+: trace ∧
      ∀ module, result = .ok module ↔
        ∃ bytes, binary = .ok bytes ∧ engine.Executable bytes module := by
  generalize event : Event.obtained .program result = of_program at happens
  cases happens with
  | staged _ _ | unstarted _ _ _ | ran _ _ _ => cases event
  | fetched artifact _ =>
    cases event
    cases artifact
  | @loaded during _ fs put binary up reading frames =>
    cases event
    refine ⟨fs, during, binary, put, rfl, up, reading, frames.lies_within, fun module => ?_⟩
    cases binary with
    | error failure => simp [Except.bind]
    | ok bytes => simpa [Except.bind] using Engine.compile_start_eq_ok_iff

/-- What the steps of a build say of it. -/
structure Account (found : Toolchain engine) (source : String) (trace : Trace)
    (result : Except Failure (Option (Guest engine))) (entries : List (Entry engine)) : Prop where
  /-- nothing is asked and nothing shown outside of the steps -/
  traced : trace = traceOf entries
  order : entries.map (·.event.part) <+: Part.order
  /-- only the last step may fail -/
  good : ∀ early entry late, entries = early ++ entry :: late → late ≠ [] →
    entry.event.failure? = none
  failed : ∀ failure, result = .error failure ↔
    ∃ early last, entries = early ++ [last] ∧ last.event.failure? = some failure
  continued : ∀ guest, result = .ok (some guest) ↔
    ∃ run, Succeeds (entries.map Entry.event) run .paused ∧ guest = run.after
  finished : result = .ok none ↔ ∃ run, Succeeds (entries.map Entry.event) run (.exited 0)
  /-- the program is loaded when its file is there after the steps before and can be run -/
  loaded : ∀ early entry late result, entries = early ++ entry :: late →
    entry.event = .obtained .program result →
      ∃ before fs during binary put,
        Log found (some (.staging source)) early (some (.obtaining .program)) before ∧
        before.filesystem = some (.ok fs) ∧
        Host.Does (Filesystem.contents executableFile) fs during binary put ∧
        during <:+: entry.trace ∧
        ∀ module, result = .ok module ↔
          ∃ bytes, binary = .ok bytes ∧ engine.Executable bytes module
  /-- the bad end of the compiler or of the program is reported once -/
  reported : ∃ early last, entries = early ++ [last] ∧
    entries.flatMap (·.event.report) = last.event.banners ∧
    ∀ entry ∈ entries, entry.event.report <:+: entry.trace
  /-- a stage shows what it writes between its command and its end, or nothing -/
  shown : ∀ entry ∈ entries, ∀ tool run outcome writes, entry.event = .ran tool run outcome writes →
    run.Wrote writes ∧
      (tool = .linker → entry.trace.shown = "") ∧
      (found.showTiming = false → outcome.isSuccess = true → tool ≠ .linker →
        entry.trace.shown = tool.stage.echo (tool.command found.config) ++
          Utf8.lossy writes.flatten ++ "\r\n") ∧
      (outcome.isSuccess = false → tool ≠ .linker →
        entry.trace.shown = tool.stage.echo (tool.command found.config) ++
          Utf8.lossy writes.flatten ++ Guest.banner outcome)

theorem Log.account {source : String} {entries : List (Entry engine)}
    {result : Except Failure (Option (Guest engine))}
    (log : Log found (some (.staging source)) entries none left)
    (concludes : Concludes entries result) :
    Account found source (traceOf entries) result entries where
  traced := rfl
  order := log.order _ rfl
  good := log.good
  failed _ := concludes.error_iff
  continued guest := by
    rw [log.ok_iff concludes]
    constructor
    · rintro ⟨run, outcome, succeeds, given⟩
      rcases succeeds.outcome with rfl | rfl
      · cases given
      · exact ⟨run, succeeds, Option.some.inj given⟩
    · rintro ⟨run, succeeds, rfl⟩
      exact ⟨run, .paused, succeeds, rfl⟩
  finished := by
    rw [log.ok_iff concludes]
    constructor
    · rintro ⟨run, outcome, succeeds, given⟩
      rcases succeeds.outcome with rfl | rfl
      · exact ⟨run, succeeds⟩
      · cases given
    · rintro ⟨run, succeeds⟩
      exact ⟨run, .exited 0, succeeds, rfl⟩
  loaded early entry late result split event := by
    subst split
    obtain ⟨before, task, after, earlier, happens, -⟩ := log.split
    rw [event] at happens
    obtain ⟨fs, during, binary, put, rfl, up, reading, within, executable⟩ := happens.executable
    exact ⟨before, fs, during, binary, put, earlier, up, reading, within, executable⟩
  reported := by
    obtain ⟨early, last, rfl, -⟩ := concludes
    have reports entry (among : entry ∈ early ++ [last]) :
        entry.event.report = entry.event.banners ∧ entry.event.report <:+: entry.trace := by
      obtain ⟨before, task, after, happens, -⟩ := log.each entry among
      exact happens.reports
    have quiet : early.flatMap (·.event.report) = [] := by
      refine List.flatMap_eq_nil_iff.mpr fun entry among => ?_
      rw [(reports entry (List.mem_append_left _ among)).1]
      obtain ⟨before, after, rfl⟩ := List.append_of_mem among
      exact Event.banners_of_good (log.good before entry (after ++ [last]) (by simp) (by simp))
    refine ⟨early, last, rfl, ?_, fun entry among => (reports entry among).2⟩
    rw [List.flatMap_append, quiet, List.flatMap_singleton, List.nil_append]
    exact (reports last (List.mem_append_right _ (List.mem_singleton_self _))).1
  shown entry among tool run outcome writes event := by
    obtain ⟨before, task, after, happens, config, timing⟩ := log.each entry among
    rw [event] at happens
    exact config ▸ timing ▸ happens.text

/-- After whatever was done with a toolchain and its programs, a build goes through its steps up to
the first one that fails, and its steps account for all of it. -/
theorem Bench.build_stops_at_first_failure {config : Config} {next : GuestId}
    {operations : List Operation} {earlier : Trace} {bench : Bench engine}
    {fs : Filesystem engine} (source : String)
    (history : Host.Runs (performAll { toolchain := .new config next } operations) earlier bench)
    (up : bench.toolchain.filesystem = some (.ok fs)) :
    (∀ answers, ∃ trace result left,
      Host.Does (compileLinkRun source) bench.toolchain trace result left ∧
        Host.AnsweredBy answers trace) ∧
    ∀ trace result left, Host.Does (compileLinkRun source) bench.toolchain trace result left →
      ∃ entries, Log bench.toolchain (some (.staging source)) entries none left ∧
        Account bench.toolchain source trace result entries := by
  refine ⟨fun answers => Host.exists_does answers _ _, fun trace result left ran => ?_⟩
  have sound := (sound_new config next).performAll history
  have quiet := quiet_iff.mpr ⟨sound.rests, fs, up⟩
  obtain ⟨entries, rfl, log, concludes⟩ := completes_compileLinkRun source _ _ _ _ _ quiet ran
  exact ⟨entries, log, log.account concludes⟩

def broken : Engine :=
  .workshop (.saying "error: e\n" 1) (.saying "" 0) (.saying "" 0)

private def failureOf {α : Type} : Except Failure α → Option Failure
  | .ok _ => none
  | .error failure => some failure

/-- An error in the source ends a build with its report. -/
theorem compile_error_ends_build : ∃ (bench : Bench broken) (trace : Trace)
    (left : Toolchain broken) (entries : List (Entry broken)),
    Host.Does (compileLinkRun "") bench.toolchain trace (.error (.exited "clang" 1)) left ∧
      trace.texts.count (Guest.banner (.exited 1)) = 1 ∧
      Log bench.toolchain (some (.staging "")) entries none left ∧
      Account bench.toolchain "" trace (.error (.exited "clang" 1)) entries := by
  obtain ⟨readied, begun⟩ : ∃ readied, readied = Host.answered Engine.supplies []
      (Bench.performAll ({ toolchain := .new {} 1 } : Bench broken) [.ready]) := ⟨_, rfl⟩
  have history : Host.Runs _ readied.1 readied.2 := begun ▸ Host.runs_answered _ _ _
  obtain ⟨fs, up⟩ : readied.2.toolchain.Up := by
    have brought_up : readied.2.toolchain.filesystem.any Except.isOk = true := by
      rw [begun]
      decide +kernel
    obtain ⟨reached, held, good⟩ := (Option.any_eq_true _ _).mp brought_up
    cases reached with
    | ok fs => exact ⟨fs, held⟩
    | error _ => cases good
  obtain ⟨built, ended⟩ : ∃ built, built = Host.answered Engine.supplies []
      ((compileLinkRun "" : Action broken _).run.run readied.2.toolchain) := ⟨_, rfl⟩
  have ran : Host.Runs _ built.1 built.2 := ended ▸ Host.runs_answered _ _ _
  have failed : failureOf built.2.1 = some (.exited "clang" 1) := by
    rw [ended, begun]
    decide +kernel
  have reported : built.1.texts.count (Guest.banner (.exited 1)) = 1 := by
    rw [ended, begun]
    decide +kernel
  obtain ⟨trace, result, left⟩ := built
  cases result with
  | ok _ => cases failed
  | error failure =>
    cases failed
    obtain ⟨entries, log, account⟩ :=
      (Bench.build_stops_at_first_failure "" history up).2 trace _ left ran
    exact ⟨readied.2, trace, left, entries, ran, reported, log, account⟩

end Buildbox.Toolchain
