import Buildbox.Proofs.Toolchain.Stages
import Buildbox.Session.Builder

/-!
What a request comes to. A builder gives the program that it holds up before it builds another one,
holds a program that paused, and calls it again as long as its calls succeed.
-/

set_option autoImplicit false

namespace Buildbox.Session

variable {engine : Engine}

/-- A guest that may be called again. -/
structure Waiting (guest : Guest engine) : Prop where
  sound : guest.Sound
  stage : guest.stage = .finished
  allowed : guest.allowed = true

/-- What a builder did with guests when it handled a message. -/
inductive Happening (engine : Engine)
  /-- nothing, or a check of a source -/
  | aside
  | refused
  | unbuilt
  | built (start run : Guest.Deed engine)
  | called (deed : Guest.Deed engine)

namespace Builder

variable {before after : Builder engine} {trace : Trace}

/-- The held program loses its permission and then the filesystem. -/
inductive GivesUp (before : Builder engine) : Trace → Builder engine → Prop
  | nobody (free : before.held = none) : GivesUp before [] before
  | revoked {guest : Guest engine} {fs put : Filesystem engine} {trace : Trace}
      (held : before.held = some guest) (up : before.toolchain.filesystem = some (.ok fs))
      (dropping : Host.Runs (guest.revoke.drop fs) trace put) :
      GivesUp before trace
        { toolchain := before.toolchain.upon put, revoked := before.revoked ++ [guest.id] }

/-- The held program is called again, with this outcome. -/
structure Calls (before : Builder engine) (name : String) (outcome : Outcome)
    (deed : Guest.Deed engine) : Prop where
  held : before.held = some deed.before
  up : before.toolchain.filesystem = some (.ok deed.found)
  exported : engine.functionType? deed.before.module name ≠ none
  done : deed.Done
  operation : deed.operation = .callAgain name
  answer : deed.answer = .calledAgain (.ok outcome)

def called (before : Builder engine) (deed : Guest.Deed engine) : Builder engine :=
  { before with toolchain := before.toolchain.upon deed.left, held := some deed.after }

/-- What serving a request comes to. -/
inductive Serves (before : Builder engine) :
    Request → Trace → Option Response → Builder engine → Happening engine → Prop
  | checked {source : Bytes} {trace : Trace} {result : Except Failure (List Diagnostic)}
      {left : Toolchain engine}
      (ran : Host.Does (Toolchain.runAnalysis source) before.toolchain trace result left) :
      Serves before (.runCppCheck source) trace (result.toOption.map .diagnostics)
        { before with toolchain := left } .aside
  | unbuilt {source : String} {giving building : Trace} {released : Builder engine}
      {left : Toolchain engine} {failure : Failure} (gives : before.GivesUp giving released)
      (ran : Host.Does (Toolchain.compileLinkRun source) released.toolchain building
        (.error failure) left) :
      Serves before (.compileLinkRun source) (giving ++ building) none
        { released with toolchain := left } .unbuilt
  | built {source : String} {giving building : Trace} {released : Builder engine}
      {left : Toolchain engine} {start run : Guest.Deed engine} {outcome : Outcome}
      {held : Option (Guest engine)} (gives : before.GivesUp giving released)
      (ran : Host.Does (Toolchain.compileLinkRun source) released.toolchain building
        (.ok held) left)
      (builds : Toolchain.Builds released.toolchain building left start run outcome held) :
      Serves before (.compileLinkRun source) (giving ++ building)
        (some (.runReport held.isSome)) { released with toolchain := left, held }
        (.built start run)
  | refused {name : String} (reason : ∀ guest, before.held = some guest →
        engine.functionType? guest.module name = none) :
      Serves before (.callContinuation name) [] none before .refused
  | continued {name : String} {outcome : Outcome} {deed : Guest.Deed engine}
      (calls : before.Calls name outcome deed) (good : outcome.isSuccess = true) :
      Serves before (.callContinuation name) deed.trace (some (.runReport true))
        (before.called deed) (.called deed)
  | ended {name : String} {outcome : Outcome} {deed : Guest.Deed engine} {giving : Trace}
      {released : Builder engine} (calls : before.Calls name outcome deed)
      (bad : outcome.isSuccess = false) (gives : (before.called deed).GivesUp giving released) :
      Serves before (.callContinuation name) (deed.trace ++ giving) none released (.called deed)

/-- Whoever is held may be called again, on a filesystem that is up. -/
structure Holds (builder : Builder engine) (guest : Guest engine) : Prop where
  waiting : Waiting guest
  up : builder.toolchain.Up
  past : guest.id < builder.toolchain.nextGuest
  unrevoked : guest.id ∉ builder.revoked

/-- No permission was taken from the guest that is held, nor from one that is still to come. -/
structure Sound (builder : Builder engine) : Prop where
  holds : ∀ guest, builder.held = some guest → builder.Holds guest
  past : ∀ id ∈ builder.revoked, id < builder.toolchain.nextGuest

theorem allows_iff {builder : Builder engine} {guest : Guest engine} :
    builder.allows guest = true ↔ guest.allowed = true ∧ guest.id ∉ builder.revoked := by
  simp [allows]

theorem Holds.allows {builder : Builder engine} {guest : Guest engine}
    (holds : builder.Holds guest) : builder.allows guest = true :=
  allows_iff.mpr ⟨holds.waiting.allowed, holds.unrevoked⟩

theorem GivesUp.held {released : Builder engine} (gives : before.GivesUp trace released) :
    released.held = none := by
  cases gives with
  | nobody free => exact free
  | revoked held up dropping => rfl

theorem GivesUp.disallows {released : Builder engine} (gives : before.GivesUp trace released)
    {guest : Guest engine} (held : before.held = some guest) : released.allows guest = false := by
  cases gives with
  | nobody free => cases free.symm.trans held
  | revoked other up dropping =>
    cases other.symm.trans held
    simp [allows]

theorem GivesUp.grows {released : Builder engine} (gives : before.GivesUp trace released) :
    before.revoked ⊆ released.revoked := by
  cases gives with
  | nobody free => exact List.Subset.refl _
  | revoked held up dropping => exact List.subset_append_left _ _

theorem GivesUp.past {released : Builder engine} (gives : before.GivesUp trace released)
    (known : ∀ guest, before.held = some guest → guest.id < before.toolchain.nextGuest)
    (past : ∀ id ∈ before.revoked, id < before.toolchain.nextGuest) :
    ∀ id ∈ released.revoked, id < released.toolchain.nextGuest := by
  cases gives with
  | nobody free => exact past
  | @revoked guest _ _ _ held up dropping =>
    intro id among
    rcases List.mem_append.mp among with earlier | last
    · exact past id earlier
    · rw [List.mem_singleton.mp last]
      exact known guest held

section Parts

variable {α : Type} {found left : Builder engine}

theorem does_onToolchain {action : Toolchain.Action engine α} {result : Except Failure α} :
    Host.Does (onToolchain action) found trace result left ↔
      ∃ toolchain, Host.Does action found.toolchain trace result toolchain ∧
        left = { found with toolchain } := by
  have ends : Host.Does (onToolchain action) found trace result left ↔
      ∃ reached, Host.Runs (action.run.run found.toolchain) trace reached ∧ result = reached.1 ∧
        left = { found with toolchain := reached.2 } := by
    rw [onToolchain, Host.does_get_bind]
    refine Host.does_lift_last fun reached _ _ _ => Host.does_modify_bind.trans ?_
    obtain ⟨reached, toolchain⟩ := reached
    cases reached with
    | ok a => exact Host.does_pure
    | error failure => exact Host.does_throw
  rw [ends]
  constructor
  · rintro ⟨⟨reached, toolchain⟩, ran, rfl, rfl⟩
    exact ⟨toolchain, ran, rfl⟩
  · rintro ⟨toolchain, ran, rfl⟩
    exact ⟨⟨result, toolchain⟩, ran, rfl, rfl⟩

theorem gives_of_release {result : Except Failure Unit}
    (up : ∀ guest, found.held = some guest → found.toolchain.Up)
    (ran : Host.Does release found trace result left) :
    result = .ok () ∧ found.GivesUp trace left := by
  have ran := Host.does_get_bind.mp ran
  split at ran
  · next guest held =>
    obtain ⟨fs, here⟩ := up guest held
    obtain ⟨toolchain, dropped, rfl⟩ := does_onToolchain.mp (Host.does_modify_bind.mp ran)
    obtain ⟨put, dropping, rfl, rfl⟩ := (Toolchain.does_drop here).mp dropped
    exact ⟨rfl, .revoked held here dropping⟩
  · next nobody =>
    have free : found.held = none := Option.eq_none_iff_forall_ne_some.mpr nobody
    obtain ⟨rfl, rfl, rfl⟩ := Host.does_pure.mp ran
    exact ⟨rfl, .nobody free⟩

theorem gives_of_release_bind {next : Unit → Action engine α} {result : Except Failure α}
    (up : ∀ guest, found.held = some guest → found.toolchain.Up)
    (ran : Host.Does (release >>= next) found trace result left) :
    ∃ giving rest released, found.GivesUp giving released ∧ trace = giving ++ rest ∧
      Host.Does (next ()) released rest result left := by
  rcases Host.does_bind.mp ran with ⟨_, stopped, -⟩ | ⟨_, between, giving, rest, given, onward, rfl⟩
  · obtain ⟨impossible, -⟩ := gives_of_release up stopped
    cases impossible
  · obtain ⟨-, gives⟩ := gives_of_release up given
    exact ⟨giving, rest, between, gives, rfl, onward⟩

theorem runs_serve {request : Request} {answer : Option Response} :
    Host.Runs (before.serve request) trace (answer, after) ↔
      ∃ result, Host.Does (execute request) before trace result after ∧
        answer = result.toOption := by
  rw [serve, Host.runs_bind]
  constructor
  · rintro ⟨⟨result, left⟩, first, later, ran, answered, rfl⟩
    cases result with
    | ok response =>
      obtain ⟨rfl, same⟩ := Host.runs_pure.mp answered
      cases same
      rw [List.append_nil]
      exact ⟨.ok response, ran, rfl⟩
    | error failure =>
      obtain ⟨rfl, same⟩ := Host.runs_pure.mp answered
      cases same
      rw [List.append_nil]
      exact ⟨.error failure, ran, rfl⟩
  · rintro ⟨result, ran, rfl⟩
    refine ⟨⟨result, after⟩, trace, [], ran, ?_, (List.append_nil _).symm⟩
    cases result with
    | ok response => exact .done _
    | error failure => exact .done _

private theorem serves_build {source : String} {result : Except Failure Response}
    (sound : before.Sound)
    (ran : Host.Does (execute (.compileLinkRun source)) before trace result after) :
    ∃ happening, before.Serves (.compileLinkRun source) trace result.toOption after happening := by
  have up (guest : Guest engine) (held : before.held = some guest) := (sound.holds guest held).up
  obtain ⟨giving, rest, released, gives, rfl, building⟩ := gives_of_release_bind up ran
  rcases Host.does_bind.mp building with
    ⟨failure, failed, rfl⟩ | ⟨held, built, first, last, succeeded, ended, rfl⟩
  · obtain ⟨left, unbuilt, rfl⟩ := does_onToolchain.mp failed
    exact ⟨_, .unbuilt gives unbuilt⟩
  · obtain ⟨left, compiled, rfl⟩ := does_onToolchain.mp succeeded
    have ended := Host.does_modify_bind.mp ended
    obtain ⟨rfl, rfl, rfl⟩ := Host.does_pure.mp ended
    rw [List.append_nil]
    obtain ⟨start, run, outcome, builds⟩ := Toolchain.builds_of_compileLinkRun compiled
    have served := Serves.built gives compiled builds
    exact ⟨_, served⟩

private theorem serves_check {source : Bytes} {result : Except Failure Response}
    (ran : Host.Does (execute (.runCppCheck source)) before trace result after) :
    ∃ happening, before.Serves (.runCppCheck source) trace result.toOption after happening := by
  rcases Host.does_bind.mp ran with
    ⟨failure, failed, rfl⟩ | ⟨found, left, first, last, checked, ended, rfl⟩
  · obtain ⟨left, unchecked, rfl⟩ := does_onToolchain.mp failed
    exact ⟨_, .checked unchecked⟩
  · obtain ⟨left, analysed, rfl⟩ := does_onToolchain.mp checked
    obtain ⟨rfl, rfl, rfl⟩ := Host.does_pure.mp ended
    rw [List.append_nil]
    exact ⟨_, .checked analysed⟩

theorem Calls.called {name : String} {outcome : Outcome} {deed : Guest.Deed engine}
    (calls : before.Calls name outcome deed) (waiting : Waiting deed.before) :
    deed.after.stage = .finished ∧ deed.after.allowed = outcome.isSuccess := by
  have called := (calls.done.lawful waiting.sound).called
    (.inr ⟨rfl, name, calls.operation, calls.answer⟩)
  refine ⟨called.stage, ?_⟩
  rw [Bool.eq_iff_iff, called.permission, waiting.allowed, Outcome.isSuccess_iff]
  simp

theorem Calls.id_eq {name : String} {outcome : Outcome} {deed : Guest.Deed engine}
    (calls : before.Calls name outcome deed) : deed.after.id = deed.before.id :=
  (congrArg Guest.id calls.done.same :)

theorem Calls.allows {name : String} {outcome : Outcome} {deed : Guest.Deed engine}
    (calls : before.Calls name outcome deed) (holds : before.Holds deed.before) :
    (before.called deed).allows deed.after = outcome.isSuccess := by
  have unrevoked : deed.after.id ∉ (before.called deed).revoked := calls.id_eq ▸ holds.unrevoked
  rw [Builder.allows, (calls.called holds.waiting).2, List.contains_eq_mem,
    decide_eq_false unrevoked]
  exact Bool.and_true _

private theorem serves_continuation {name : String} {result : Except Failure Response}
    (sound : before.Sound)
    (ran : Host.Does (execute (.callContinuation name)) before trace result after) :
    ∃ happening, before.Serves (.callContinuation name) trace result.toOption after happening := by
  have ran := Host.does_get_bind.mp ran
  split at ran
  · next free =>
    obtain ⟨rfl, rfl, rfl⟩ := Host.does_throw.mp ran
    refine ⟨_, .refused fun guest held => ?_⟩
    cases free.symm.trans held
  next guest held =>
  have holds := sound.holds guest held
  have waiting := holds.waiting
  obtain ⟨fs, up⟩ := holds.up
  rcases Host.does_bind.mp ran with
    ⟨failure, failed, rfl⟩ | ⟨⟨reply, again⟩, between, first, last, succeeded, ended, rfl⟩
  · -- who is held has finished and may be called, so the call itself does not fail
    obtain ⟨left, uncalled, rfl⟩ := does_onToolchain.mp failed
    rcases Toolchain.calls_of_callAgain up waiting.stage waiting.allowed uncalled with
      ⟨-, -, impossible, -⟩ | ⟨-, _, -, -, -, -, _, -, -, impossible, -⟩
    · cases impossible
    · cases impossible
  obtain ⟨left, answered, rfl⟩ := does_onToolchain.mp succeeded
  have ended := Host.does_modify_bind.mp ended
  rcases Toolchain.calls_of_callAgain up waiting.stage waiting.allowed answered with
    ⟨missing, rfl, same, rfl⟩ |
      ⟨exported, deed, done, rfl, rfl, rfl, outcome, operation, answer, same, rfl⟩
  · cases same
    obtain ⟨rfl, rfl, rfl⟩ := Host.does_throw.mp ended
    have unchanged : Builder.mk before.toolchain (some guest) before.revoked = before := by
      rw [← held]
    refine ⟨.refused, ?_⟩
    dsimp only
    rw [unchanged]
    refine .refused fun other same => ?_
    cases held.symm.trans same
    exact missing
  · cases same
    have calls : before.Calls name outcome deed := ⟨held, up, exported, done, operation, answer⟩
    have permission : allows { before with
        toolchain := before.toolchain.upon deed.left, held := some deed.after } deed.after =
          outcome.isSuccess := calls.allows holds
    have ended := Host.does_get_bind.mp ended
    dsimp only at ended
    rw [permission] at ended
    cases success : outcome.isSuccess with
    | true =>
      simp only [success, Outcome.isSuccess_iff_failure.mp success, Bool.not_true,
        Bool.false_eq_true, if_false] at ended
      obtain ⟨rfl, rfl, rfl⟩ := Host.does_pure.mp ended
      rw [List.append_nil]
      exact ⟨_, .continued calls success⟩
    | false =>
      -- the permission is lost before the failure is thrown, so the program is given up first
      simp only [success, Bool.not_false, if_true] at ended
      obtain ⟨failure, failed⟩ : ∃ failure,
          outcome.failure? Toolchain.executableFile = some failure := by
        rw [← Option.ne_none_iff_exists', Ne, ← Outcome.isSuccess_iff_failure, success]
        exact Bool.false_ne_true
      simp only [failed] at ended
      have up (guest : Guest engine) (_ : (before.called deed).held = some guest) :
          (before.called deed).toolchain.Up := Toolchain.up_upon _ _
      obtain ⟨giving, rest, released, gives, rfl, thrown⟩ := gives_of_release_bind up ended
      obtain ⟨rfl, rfl, rfl⟩ := Host.does_throw_bind.mp thrown
      rw [List.append_nil]
      exact ⟨_, .ended calls success gives⟩

theorem serves_of_execute {request : Request} {result : Except Failure Response}
    (sound : before.Sound) (ran : Host.Does (execute request) before trace result after) :
    ∃ happening, before.Serves request trace result.toOption after happening := by
  cases request with
  | compileLinkRun source => exact serves_build sound ran
  | runCppCheck source => exact serves_check ran
  | callContinuation name => exact serves_continuation sound ran

end Parts

theorem serves_of_run {request : Request} {answer : Option Response} (sound : before.Sound)
    (ran : Host.Runs (before.serve request) trace (answer, after)) :
    ∃ happening, before.Serves request trace answer after happening := by
  obtain ⟨result, executed, rfl⟩ := runs_serve.mp ran
  exact serves_of_execute sound executed

theorem Serves.sound {request : Request} {answer : Option Response}
    {happening : Happening engine} (serves : before.Serves request trace answer after happening)
    (sound : before.Sound) : after.Sound := by
  have known guest (held : before.held = some guest) := (sound.holds guest held).past
  cases serves with
  | checked ran =>
    obtain ⟨-, since⟩ := (Toolchain.onward_of_upheld (Toolchain.upheld_runAnalysis _) ran).1
    refine ⟨fun guest held => ?_, fun id among => Nat.lt_of_lt_of_le (sound.past id among) since⟩
    obtain ⟨waiting, up, past, unrevoked⟩ := sound.holds guest held
    have still := Toolchain.upheld_runAnalysis _ _ _ _ _ ran ⟨up, rfl, Nat.le_refl _⟩
    exact ⟨waiting, still.up, Nat.lt_of_lt_of_le past since, unrevoked⟩
  | unbuilt gives ran =>
    have past := gives.past known sound.past
    obtain ⟨-, since⟩ := Toolchain.onward_compileLinkRun ran
    refine ⟨fun guest held => ?_, fun id among => Nat.lt_of_lt_of_le (past id among) since⟩
    cases gives.held.symm.trans held
  | @built _ _ _ _ _ start run outcome held gives ran builds =>
    have past := gives.past known sound.past
    obtain ⟨-, since⟩ := Toolchain.onward_compileLinkRun ran
    refine ⟨fun guest held => ?_, fun id among => Nat.lt_of_lt_of_le (past id among) since⟩
    rcases builds.held with ⟨rfl, rfl⟩ | ⟨-, rfl⟩
    · cases held
      obtain ⟨self, module, fs, opens⟩ := builds.opens
      obtain ⟨still_sound, called, kept⟩ := builds.follows.called opens rfl
      have same : run.after.id = start.before.id := by
        rw [builds.follows.done.same, builds.follows.before, opens.done.same]
      obtain ⟨fresh, young⟩ := same ▸ builds.fresh
      -- the program is younger than whoever lost a permission
      exact ⟨⟨still_sound, called.stage, called.permission.mpr ⟨kept, .inr rfl⟩⟩, builds.up, young,
        fun among => Nat.not_lt_of_le fresh (past _ among)⟩
    · cases held
  | refused reason => exact sound
  | @continued _ outcome deed calls good =>
    have holds := sound.holds _ calls.held
    refine ⟨fun guest held => ?_, sound.past⟩
    cases held
    obtain ⟨stage, permission⟩ := calls.called holds.waiting
    exact ⟨⟨calls.done.sound holds.waiting.sound, stage, permission.trans good⟩,
      Toolchain.up_upon _ _, calls.id_eq ▸ holds.past, calls.id_eq ▸ holds.unrevoked⟩
  | @ended _ outcome deed _ _ calls bad gives =>
    refine ⟨fun guest held => ?_, gives.past (fun guest held => ?_) sound.past⟩
    · cases gives.held.symm.trans held
    · cases held
      exact calls.id_eq ▸ (sound.holds _ calls.held).past

end Builder

end Buildbox.Session
