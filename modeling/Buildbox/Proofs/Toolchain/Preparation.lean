import Buildbox.Proofs.Filesystem.Lasting
import Buildbox.Proofs.Toolchain.Stages

/-!
The preparation of a toolchain. The filesystem module is fetched, checked and brought up, and then
the sysroot image is fetched and extracted into it; the first of these that fails ends the
preparation, and there is no filesystem.
-/

set_option autoImplicit false

namespace Buildbox

open ModuleCache (fetched_append)

namespace Filesystem

variable {engine : Engine} {fs left : Filesystem engine} {trace : Trace}

/-- The module is linked and set up, its exports are checked, and its `init` returns. -/
inductive Raised (module : engine.Module) : Trace → Filesystem engine → Prop
  | mk {functions : List HostFunction} {calls more : List (HostCall Desk)}
      {started ended : Activity.End engine.Instance Desk} {results values : List Value}
      (linked : link engine module = .ok functions)
      (starting : Activity.Records engine (serveBound functions) (engine.start module) {} calls
        started)
      (started_up : started.result = .ok results) (checked : checkExports engine module = .ok ())
      (initializing : Activity.Records engine (serveOf engine module)
        (engine.call started.guest "init" []) started.host more ended)
      (returned : ended.result = .ok values) :
      Raised module (calls.flatMap HostCall.trace ++ more.flatMap HostCall.trace)
        ⟨module, ended.guest, ended.host⟩

private theorem lifted_bind {α β : Type} {given : Except Failure α}
    {next : α → ExceptT Failure Host β} {result : Except Failure β}
    (run : Host.Runs (new.liftExcept given >>= next).run trace result) :
    (∃ failure, given = .error failure ∧ trace = [] ∧ result = .error failure) ∨
      ∃ a, given = .ok a ∧ Host.Runs (next a).run trace result := by
  cases given with
  | ok a => exact .inr ⟨a, rfl, run⟩
  | error failure =>
    obtain ⟨rfl, rfl⟩ := Host.runs_pure.mp run
    exact .inl ⟨failure, rfl, rfl, rfl⟩

theorem returned_of_call {name : String} {arguments : List Value} {word : UInt32}
    (run : Host.Does (call name arguments) fs trace (.ok word) left) :
    ∃ calls ended values, Activity.Records engine (serveOf engine fs.module)
      (engine.call fs.memfs name arguments) fs.desk calls ended ∧ ended.result = .ok values ∧
      trace = calls.flatMap HostCall.trace ∧
      left = { fs with memfs := ended.guest, desk := ended.host } := by
  obtain ⟨ended, first, later, driven, went, rfl⟩ :=
    Host.does_lift_bind.mp (Host.does_get_bind.mp run)
  obtain ⟨calls, records, rfl⟩ := Activity.runs_drive.mp driven
  have went := Host.does_set_bind.mp went
  split at went
  · next values returned =>
    obtain ⟨rfl, -, rfl⟩ := Host.does_pure.mp went
    exact ⟨calls, ended, values, records, returned, List.append_nil _, rfl⟩
  · obtain ⟨-, impossible, -⟩ := Host.does_throw.mp went
    cases impossible

theorem raised_of_new {module : engine.Module}
    (run : Host.Runs (new engine module).run trace (.ok fs)) : Raised module trace fs := by
  rcases lifted_bind run with ⟨_, -, -, impossible⟩ | ⟨functions, linked, run⟩
  · cases impossible
  obtain ⟨started, first, later, driven, went, rfl⟩ := Host.runs_try_lift_bind.mp run
  obtain ⟨calls, starting, rfl⟩ := Activity.runs_drive.mp driven
  split at went
  · obtain ⟨-, impossible⟩ := Host.runs_pure.mp went
    cases impossible
  next results started_up =>
  rcases lifted_bind went with ⟨_, -, -, impossible⟩ | ⟨_, checked, went⟩
  · cases impossible
  obtain ⟨⟨result, reached⟩, init, last, ran, went, rfl⟩ := Host.runs_try_lift_bind.mp went
  cases result with
  | error failure =>
    obtain ⟨-, impossible⟩ := Host.runs_pure.mp went
    cases impossible
  | ok word =>
    obtain ⟨rfl, same⟩ := Host.runs_pure.mp went
    cases same
    obtain ⟨more, ended, values, initializing, returned, rfl, rfl⟩ := returned_of_call ran
    rw [List.append_nil]
    exact ⟨linked, starting, started_up, checked, initializing, returned⟩

private theorem quiet_of_records {functions : List HostFunction} {act : Activity engine.Instance}
    {desk : Desk} {calls : List (HostCall Desk)} {ended : Activity.End engine.Instance Desk}
    (unlent : desk.window = none)
    (records : Activity.Records engine (serveBound functions) act desk calls ended) :
    Trace.shown (calls.flatMap HostCall.trace) = "" ∧
      Trace.fetched (calls.flatMap HostCall.trace) = [] ∧ ended.host.window = none := by
  have still := records.closure stretch_aside (aside_serveBound functions) unlent
  exact ⟨still.shown, unfetched_of_records records, still.unlent⟩

theorem Raised.quiet {module : engine.Module} (raised : Raised module trace fs) :
    trace.shown = "" ∧ trace.fetched = [] ∧ fs.desk.window = none := by
  obtain ⟨-, starting, -, -, initializing, -⟩ := raised
  obtain ⟨shown, fetched, unlent⟩ := quiet_of_records rfl starting
  obtain ⟨silent, unfetched, still_unlent⟩ := quiet_of_records unlent initializing
  rw [Trace.shown_append, fetched_append, shown, fetched, silent, unfetched]
  exact ⟨rfl, rfl, still_unlent⟩

/-- Bringing a module up shows and fetches nothing when it fails, either. -/
theorem quiet_of_failed_new {module : engine.Module} {failure : Failure}
    (run : Host.Runs (new engine module).run trace (.error failure)) :
    trace.shown = "" ∧ trace.fetched = [] := by
  rcases lifted_bind run with ⟨_, -, rfl, -⟩ | ⟨functions, -, run⟩
  · exact ⟨rfl, rfl⟩
  obtain ⟨started, first, later, driven, went, rfl⟩ := Host.runs_try_lift_bind.mp run
  obtain ⟨calls, starting, rfl⟩ := Activity.runs_drive.mp driven
  obtain ⟨shown, fetched, unlent⟩ := quiet_of_records rfl starting
  rw [Trace.shown_append, fetched_append, shown, fetched, String.empty_append, List.nil_append]
  split at went
  · obtain ⟨rfl, -⟩ := Host.runs_pure.mp went
    exact ⟨rfl, rfl⟩
  rcases lifted_bind went with ⟨_, -, rfl, -⟩ | ⟨_, -, went⟩
  · exact ⟨rfl, rfl⟩
  obtain ⟨⟨result, reached⟩, init, last, ran, went, rfl⟩ := Host.runs_try_lift_bind.mp went
  obtain rfl : last = [] := by
    cases result with
    | ok _ | error _ => exact (Host.runs_pure.mp went).1
  rw [List.append_nil]
  exact ⟨(works_call _ _ _ _ _ _ ran unlent).shown, (lasts_call _ _ _ _ _ _ ran).unfetched⟩

/-- These entries are added one after another, each of them with success. -/
inductive Added : List Archive.Entry → Filesystem engine → Trace → Filesystem engine → Prop
  | nil {fs : Filesystem engine} : Added [] fs [] fs
  | cons {entry : Archive.Entry} {later : List Archive.Entry}
      {fs between left : Filesystem engine} {first rest : Trace}
      (adds : Host.Does (addEntry entry) fs first (.ok ()) between)
      (onward : Added later between rest left) : Added (entry :: later) fs (first ++ rest) left

theorem Added.lasts {entries : List Archive.Entry} (added : Added entries fs trace left) :
    fs.Lasts trace left := by
  induction added with
  | nil => exact stretch_lasts.refl _
  | cons adds _ ih => exact stretch_lasts.trans (made_lasts.addEntry _ _ _ _ _ adds) ih

theorem added_of_forM {entries : List Archive.Entry}
    (run : Host.Does (entries.forM addEntry) fs trace (.ok ()) left) :
    Added entries fs trace left := by
  induction entries generalizing fs trace with
  | nil =>
    obtain ⟨rfl, -, rfl⟩ := Host.does_pure.mp run
    exact .nil
  | cons entry later ih =>
    obtain ⟨_, between, first, rest, adds, went, rfl⟩ := Host.does_bind_ok.mp run
    exact .cons adds (ih went)

theorem added_of_untar {image : Bytes} {count : Nat}
    (run : Host.Does (untar image) fs trace (.ok count) left) :
    ∃ entries, Archive.read image = (entries, none) ∧ Added entries fs trace left := by
  unfold untar Archive.unpack at run
  rcases parsed : Archive.read image with ⟨entries, fault⟩
  rw [parsed] at run
  obtain ⟨_, between, first, rest, adding, ended, rfl⟩ := Host.does_bind_ok.mp run
  cases fault with
  | some fault =>
    obtain ⟨-, impossible, -⟩ := Host.does_throw.mp ended
    cases impossible
  | none =>
    obtain ⟨rfl, -, rfl⟩ := Host.does_pure.mp ended
    rw [List.append_nil]
    exact ⟨entries, rfl, added_of_forM adding⟩

end Filesystem

namespace Toolchain

variable {engine : Engine} {config : Config} {timing : Bool} {trace : Trace}
  {result : Except Failure (Filesystem engine)}

/-- The task of extracting the sysroot image. -/
def untarring (config : Config) : String :=
  s!"{Progress.gray}Untarring {config.sysroot}"

/-- What the preparation of a toolchain comes to. There are five points where it can fail. -/
inductive Prepares (engine : Engine) (config : Config) (timing : Bool) :
    Trace → Except Failure (Filesystem engine) → Prop
  | unfetched (fault : FetchFault) :
      Prepares engine config timing [⟨.fetch config.memfs, .error fault⟩]
        (.error (.artifactUnavailable config.memfs fault.message))
  | invalid {binary : Bytes} {failure : Failure}
      (invalid : engine.compile binary [] = .error failure) :
      Prepares engine config timing [⟨.fetch config.memfs, .ok binary⟩] (.error failure)
  | unraised {binary : Bytes} {module : engine.Module} {raising : Trace} {failure : Failure}
      (valid : engine.compile binary [] = .ok module)
      (fails : Host.Runs (Filesystem.new engine module).run raising (.error failure)) :
      Prepares engine config timing (⟨.fetch config.memfs, .ok binary⟩ :: raising) (.error failure)
  | unsupplied {binary : Bytes} {module : engine.Module} {raising : Trace}
      {fresh : Filesystem engine} {begun : Nat} (valid : engine.compile binary [] = .ok module)
      (raised : Filesystem.Raised module raising fresh) (fault : FetchFault) :
      Prepares engine config timing
        (⟨.fetch config.memfs, .ok binary⟩ :: raising ++ Progress.opening (untarring config) begun ++
          [⟨.fetch config.sysroot, .error fault⟩])
        (.error (.artifactUnavailable config.sysroot fault.message))
  | broken {binary image : Bytes} {module : engine.Module} {raising unpacking : Trace}
      {fresh left : Filesystem engine} {begun : Nat} {failure : Failure}
      (valid : engine.compile binary [] = .ok module)
      (raised : Filesystem.Raised module raising fresh)
      (fails : Host.Does (Filesystem.untar image) fresh unpacking (.error failure) left) :
      Prepares engine config timing
        (⟨.fetch config.memfs, .ok binary⟩ :: raising ++ Progress.opening (untarring config) begun ++
          ⟨.fetch config.sysroot, .ok image⟩ :: unpacking)
        (.error failure)
  | done {binary image : Bytes} {module : engine.Module} {raising unpacking closing : Trace}
      {fresh left : Filesystem engine} {begun : Nat} {entries : List Archive.Entry}
      (valid : engine.compile binary [] = .ok module)
      (raised : Filesystem.Raised module raising fresh)
      (clean : Archive.read image = (entries, none))
      (added : Filesystem.Added entries fresh unpacking left)
      (closes : Progress.Closes timing begun closing) :
      Prepares engine config timing
        (⟨.fetch config.memfs, .ok binary⟩ :: raising ++ Progress.opening (untarring config) begun ++
          ⟨.fetch config.sysroot, .ok image⟩ :: unpacking ++ closing)
        (.ok left)

private theorem fetched_bind {α : Type} {name : String} {next : Bytes → ExceptT Failure Host α}
    {result : Except Failure α}
    (run : Host.Runs (ModuleCache.fetchArtifact name >>= next).run trace result) :
    (∃ fault, trace = [⟨.fetch name, .error fault⟩] ∧
      result = .error (.artifactUnavailable name fault.message)) ∨
    ∃ bytes later, trace = ⟨.fetch name, .ok bytes⟩ :: later ∧
      Host.Runs (next bytes).run later result := by
  rw [ModuleCache.fetchArtifact, bind_assoc] at run
  obtain ⟨held, first, later, fetching, went, rfl⟩ := Host.runs_try_lift_bind.mp run
  obtain rfl := Host.runs_query.mp fetching
  cases held with
  | error fault =>
    obtain ⟨rfl, rfl⟩ := Host.runs_pure.mp went
    exact .inl ⟨fault, rfl, rfl⟩
  | ok bytes => exact .inr ⟨bytes, later, rfl, went⟩

theorem prepares_of_run (run : Host.Runs (prepare engine config timing).run trace result) :
    Prepares engine config timing trace result := by
  rcases fetched_bind run with ⟨fault, rfl, rfl⟩ | ⟨binary, later, rfl, raising⟩
  · exact .unfetched fault
  split at raising
  · next failure invalid =>
    obtain ⟨rfl, rfl⟩ := Host.runs_pure.mp raising
    exact .invalid invalid
  next module valid =>
  rcases Host.runs_try_bind.mp raising with
    ⟨failure, fails, rfl⟩ | ⟨fresh, raising, rest, raised, extracting, rfl⟩
  · exact .unraised valid fails
  have raised := Filesystem.raised_of_new raised
  obtain ⟨during, worked, frames⟩ := Progress.runs_task.mp extracting
  rcases fetched_bind worked with ⟨fault, rfl, rfl⟩ | ⟨image, working, rfl, unpacked⟩
  · cases frames with
    | failed begun _ =>
      rw [← List.append_assoc, ← List.cons_append]
      exact .unsupplied valid raised fault
  obtain ⟨⟨outcome, left⟩, unpacking, last, untarred, ended, rfl⟩ :=
    Host.runs_try_lift_bind.mp unpacked
  cases outcome with
  | error failure =>
    obtain ⟨rfl, rfl⟩ := Host.runs_pure.mp ended
    cases frames with
    | failed begun _ =>
      rw [List.append_nil, ← List.append_assoc, ← List.cons_append]
      exact .broken valid raised untarred
  | ok count =>
    obtain ⟨rfl, rfl⟩ := Host.runs_pure.mp ended
    obtain ⟨entries, clean, added⟩ := Filesystem.added_of_untar untarred
    cases frames with
    | done _ closes =>
      rw [List.append_nil, ← List.append_assoc, ← List.append_assoc, ← List.cons_append]
      exact .done valid raised clean added closes

namespace Prepares

private theorem fetched_opening (message : String) (begun : Nat) :
    Trace.fetched (Progress.opening message begun) = [] :=
  rfl

private theorem fetched_cons (name : String) (answer : Except FetchFault Bytes) (later : Trace) :
    Trace.fetched (⟨.fetch name, answer⟩ :: later) = name :: later.fetched :=
  rfl

private theorem shown_opening (message : String) (begun : Nat) :
    Trace.shown (Progress.opening message begun) = Progress.arrow ++ (message ++ "...") :=
  String.append_empty

theorem fetched_of_ok {fs : Filesystem engine}
    (prepares : Prepares engine config timing trace (.ok fs)) :
    trace.fetched = [config.memfs, config.sysroot] := by
  cases prepares with
  | done valid raised clean added closes =>
    simp only [fetched_append, fetched_cons, fetched_opening, raised.quiet.2.1,
      added.lasts.unfetched, ModuleCache.fetched_closes closes, List.nil_append, List.append_nil,
      List.cons_append]

theorem fetched_of_error {failure : Failure}
    (prepares : Prepares engine config timing trace (.error failure)) :
    trace.fetched <+: [config.memfs, config.sysroot] := by
  cases prepares with
  | unfetched fault => exact ⟨[config.sysroot], rfl⟩
  | invalid _ => exact ⟨[config.sysroot], rfl⟩
  | unraised _ fails =>
    rw [fetched_cons, (Filesystem.quiet_of_failed_new fails).2]
    exact ⟨[config.sysroot], rfl⟩
  | unsupplied _ raised fault =>
    simp only [fetched_append, fetched_cons, fetched_opening, raised.quiet.2.1, Trace.fetched_nil,
      List.nil_append, List.append_nil, List.cons_append]
    exact List.prefix_rfl
  | broken _ raised fails =>
    have unfetched := (Filesystem.made_lasts.untar _ _ _ _ _ fails).unfetched
    simp only [fetched_append, fetched_cons, fetched_opening, raised.quiet.2.1, unfetched,
      List.nil_append, List.append_nil, List.cons_append]
    exact List.prefix_rfl

theorem shown_of_error {failure : Failure}
    (prepares : Prepares engine config timing trace (.error failure)) :
    trace.shown = "" ∨ trace.shown = Progress.arrow ++ (untarring config ++ "...") := by
  cases prepares with
  | unfetched fault => exact .inl rfl
  | invalid _ => exact .inl rfl
  | unraised _ fails => exact .inl (Filesystem.quiet_of_failed_new fails).1
  | unsupplied _ raised fault =>
    refine .inr ?_
    simp only [Trace.shown_append, shown_opening, raised.quiet.1, Trace.shown, String.empty_append,
      String.append_empty]
  | broken _ raised fails =>
    have silent := (Filesystem.works_untar _ _ _ _ _ fails raised.quiet.2.2).shown
    refine .inr ?_
    simp only [Trace.shown_append, shown_opening, raised.quiet.1, silent, Trace.shown,
      String.empty_append, String.append_empty]

end Prepares

end Toolchain

end Buildbox
