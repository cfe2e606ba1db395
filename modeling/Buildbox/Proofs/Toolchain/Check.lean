import Buildbox.Proofs.Toolchain.Rest

/-!
A check of a source. The compiler's guest writes to a listener alone; whatever becomes of it, the
listener is removed, and what it heard is what is read.
-/

set_option autoImplicit false

namespace Buildbox

namespace Filesystem

variable {engine : Engine} {fs : Filesystem engine} {next : GuestId}

theorem Idle.listen (idle : fs.Idle next) (on : Bool) : (fs.listen on).Idle next :=
  ⟨⟨idle.settled.carry, idle.settled.unlent⟩, idle.past⟩

end Filesystem

namespace Toolchain

variable {engine : Engine} {found left : Toolchain engine} {fs : Filesystem engine} {trace : Trace}

def checker (self : Toolchain engine) (clang : engine.Module) : Guest engine :=
  self.newcomer clang .diagnostics ((diagnosticsArguments self.config).headD "")
    (diagnosticsArguments self.config).tail

/-- What the guest of a check comes to in these exchanges: it is not started, or it runs to some
end, and either way it is given up. -/
inductive Examines (guest : Guest engine) (fs : Filesystem engine) (trace : Trace) :
    List Bytes → Filesystem engine → Prop
  | unstarted {start : Guest.Deed engine} {failure : Failure} {put : Filesystem engine}
      (unstarted : Unstarted guest .diagnostics fs start trace put)
      (answer : start.answer = .instantiated (.error failure)) : Examines guest fs trace [] put
  | ran {start run : Guest.Deed engine} {outcome : Outcome} {writes : List Bytes}
      {put : Filesystem engine}
      (played : Played guest .diagnostics fs start run outcome writes trace "" false put) :
      Examines guest fs trace writes put

/-- What a check of a source comes to, the filesystem up. -/
inductive Checks (found : Toolchain engine) (fs : Filesystem engine) (source : Bytes) :
    Trace → Except Failure (List Diagnostic) → Toolchain engine → Prop
  | unloaded {trace : Trace} {failure : Failure} {cache : ModuleCache engine}
      (loading : Host.Runs (found.cache.get found.showTiming found.config.clang) trace
        (.error failure, cache)) :
      Checks found fs source trace (.error failure) { found with cache }
  | unstaged {loaded staged : Trace} {clang : engine.Module} {failure : Failure}
      {cache : ModuleCache engine} {put : Filesystem engine}
      (loading : Host.Runs (found.cache.get found.showTiming found.config.clang) loaded
        (.ok clang, cache))
      (staging : Host.Does (Filesystem.addFile inputFile source) fs staged (.error failure) put) :
      Checks found fs source (loaded ++ staged) (.error failure) ({ found with cache }.upon put)
  | checked {loaded staged examined : Trace} {clang : engine.Module} {cache : ModuleCache engine}
      {between put : Filesystem engine} {writes : List Bytes}
      (loading : Host.Runs (found.cache.get found.showTiming found.config.clang) loaded
        (.ok clang, cache))
      (staging : Host.Does (Filesystem.addFile inputFile source) fs staged (.ok ()) between)
      (examines : Examines (found.checker clang) (between.listen true) examined writes put)
      (heard : put.desk.heard = some (Utf8.lossy writes.flatten))
      (silent : staged.shown = "" ∧ examined.shown = "")
      (idle : put.Idle (found.nextGuest + 1)) :
      Checks found fs source (loaded ++ staged ++ examined)
        (.ok (Diagnostic.parse (Utf8.lossy writes.flatten)))
        { found with
          cache, filesystem := some (.ok (put.listen false)), nextGuest := found.nextGuest + 1 }

theorem Played.silent {guest : Guest engine} {stage : Stage} {start run : Guest.Deed engine}
    {outcome : Outcome} {writes : List Bytes} {ending : String} {held : Bool}
    {put : Filesystem engine}
    (played : Played guest stage fs start run outcome writes trace ending held put)
    (unshown : stage.writesStdout = false) (unended : ending = "") : trace.shown = "" := by
  have unreported : stage.report outcome = "" := by
    rw [Stage.report, unshown, Bool.and_false, Bool.and_false]
    rfl
  rw [played.shown, Stage.echo, unshown, unreported, unended]
  rfl

section Examines

variable {guest : Guest engine} {writes : List Bytes} {put : Filesystem engine}

theorem Examines.silent (examines : Examines guest fs trace writes put) : trace.shown = "" := by
  cases examines with
  | unstarted unstarted answer => exact unstarted.shown
  | ran played => exact played.silent rfl rfl

theorem Examines.heard (examines : Examines guest fs trace writes put) :
    put.desk.heard = fs.desk.heard.map (· ++ Utf8.lossy writes.flatten) := by
  cases examines with
  | unstarted unstarted answer =>
    rw [unstarted.heard, show Utf8.lossy [].flatten = "" from Utf8.lossy_ofString ""]
    simp
  | ran played => exact played.heard

end Examines

theorem examines_of_run {clang : engine.Module} {result : Except Failure Unit}
    (up : found.filesystem = some (.ok fs)) (idle : fs.Idle found.nextGuest)
    (ran : Host.Does
      (tryCatch
        (run clang .diagnostics ((diagnosticsArguments found.config).headD "")
          (diagnosticsArguments found.config).tail >>= fun ended => drop ended.2)
        fun _ => pure ())
      found trace result left) :
    ∃ put writes, Examines (found.checker clang) fs trace writes put ∧
      put.Idle (found.nextGuest + 1) ∧ result = .ok () ∧
      left = { found with filesystem := some (.ok put), nextGuest := found.nextGuest + 1 } := by
  rcases Host.does_tryCatch.mp ran with ⟨_, went, rfl⟩ | ⟨failure, _, first, _, failed, ended, rfl⟩
  · obtain ⟨_, _, first, later, running, dropping, rfl⟩ := Host.does_bind_ok.mp went
    obtain ⟨put, tells, rfl, still_idle⟩ := tells_of_run up idle running
    obtain ⟨dropped, unwiring, -, rfl⟩ := (does_drop (by exact rfl)).mp dropping
    obtain ⟨gone, heard, silent⟩ := still_idle.unwire unwiring
    cases tells with
    | ended played untimed good =>
      exact ⟨dropped, _, .ran (played.given_up unwiring silent heard), gone, rfl, rfl⟩
  · obtain ⟨rfl, rfl, rfl⟩ := Host.does_pure.mp ended
    rw [List.append_nil]
    rcases Host.does_bind.mp failed with
      ⟨_, running, -⟩ | ⟨_, between, _, _, running, dropping, -⟩
    · obtain ⟨put, tells, rfl, still_idle⟩ := tells_of_run up idle running
      cases tells with
      | unstarted unstarted answer =>
        exact ⟨put, [], .unstarted unstarted answer, still_idle, rfl, rfl⟩
      | failed played strict bad => exact ⟨put, _, .ran played, still_idle, rfl, rfl⟩
    · -- giving the guest up does not fail
      obtain ⟨put, -, rfl, -⟩ := tells_of_run up idle running
      obtain ⟨_, -, impossible, -⟩ := (does_drop (by exact rfl)).mp dropping
      cases impossible

theorem checks_of_run {source : Bytes} {result : Except Failure (List Diagnostic)}
    (up : found.filesystem = some (.ok fs)) (idle : fs.Idle found.nextGuest)
    (ran : Host.Does (runAnalysis source) found trace result left) :
    Checks found fs source trace result left := by
  have ran := Host.does_get_bind.mp ((does_ready_bind up).mp ran)
  rcases Host.does_bind.mp ran with
    ⟨failure, unloaded, rfl⟩ | ⟨clang, _, loading, rest, load, ran, rfl⟩
  · obtain ⟨cache, loading, rfl⟩ := does_module.mp unloaded
    exact .unloaded loading
  obtain ⟨cache, fetched, rfl⟩ := does_module.mp load
  rcases Host.does_bind.mp ran with
    ⟨failure, unstaged, rfl⟩ | ⟨_, _, staged, rest, stage, ran, rfl⟩
  · obtain ⟨put, staging, rfl⟩ := (does_onFilesystem (by exact up)).mp unstaged
    exact .unstaged fetched staging
  obtain ⟨between, staging, rfl⟩ := (does_onFilesystem (by exact up)).mp stage
  have works := Filesystem.works_addFile inputFile source _ _ _ _ staging
  have ran := does_keep_bind.mp ((does_ready_bind rfl).mp ran)
  have ran := Host.does_get_bind.mp ran
  have still := works idle.settled.unlent
  have rested := (idle.works works).listen true
  have here : ({ found with cache }.upon (between.listen true)).filesystem =
      some (.ok (between.listen true)) := rfl
  rcases Host.does_bind.mp ran with
    ⟨failure, failed, -⟩ | ⟨_, _, examined, rest, examining, ended, rfl⟩
  · obtain ⟨_, _, -, -, impossible, -⟩ := examines_of_run here rested failed
    cases impossible
  obtain ⟨put, writes, examines, still_idle, -, rfl⟩ := examines_of_run here rested examining
  have heard : put.desk.heard = some (Utf8.lossy writes.flatten) :=
    examines.heard.trans (congrArg some (String.empty_append ..))
  have ended := does_keep_bind.mp ((does_ready_bind rfl).mp ended)
  obtain ⟨rfl, rfl, rfl⟩ := Host.does_pure.mp ended
  rw [heard, List.append_nil, ← List.append_assoc]
  exact .checked fetched staging examines heard ⟨still.shown, examines.silent⟩ still_idle

end Toolchain

end Buildbox
