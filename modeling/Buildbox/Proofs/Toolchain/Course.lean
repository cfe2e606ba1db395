import Buildbox.Proofs.Engine.Scripted
import Buildbox.Proofs.Toolchain.Build
import Buildbox.Proofs.Toolchain.Preparation

/-!
The calls on one toolchain, from its beginning. The first of them prepares it, whatever it is. If
that fails, each call fails so for ever; if it succeeds, all of them work on the one filesystem that
was brought up, and fetch nothing but the tools.
-/

set_option autoImplicit false

namespace Buildbox.Toolchain

open Host (Within)
open ModuleCache (fetched_append)

variable {engine : Engine} {found left : Toolchain engine} {fs : Filesystem engine} {trace : Trace}

/-- A toolchain whose filesystem is up works on it, and of the artifacts fetches the tools only. -/
structure Serves (found : Toolchain engine) (fs : Filesystem engine) (trace : Trace)
    (left : Toolchain engine) (put : Filesystem engine) : Prop where
  up : left.filesystem = some (.ok put)
  same : fs.Same put
  config : left.config = found.config
  fetched : trace.fetched ⊆ [found.config.clang, found.config.lld]

def Attends (found : Toolchain engine) (trace : Trace) (left : Toolchain engine) : Prop :=
  ∀ fs, found.filesystem = some (.ok fs) → ∃ put, Serves found fs trace left put

theorem stretch_attends : Service.Stretch (@Attends engine) where
  refl found fs up := ⟨fs, up, .refl fs, rfl, List.nil_subset _⟩
  trans early late fs up := by
    obtain ⟨between, up, same, config, fetched⟩ := early fs up
    obtain ⟨put, still_up, still_same, still_config, later⟩ := late between up
    refine ⟨put, still_up, same.trans still_same, still_config.trans config, ?_⟩
    rw [fetched_append]
    exact List.append_subset.mpr ⟨fetched, config ▸ later⟩

section Parts

variable {α β : Type}

def Upon (fs : Filesystem engine) (action : Action engine α) : Prop :=
  ∀ found trace result left, found.filesystem = some (.ok fs) →
    Host.Does action found trace result left → ∃ put, Serves found fs trace left put

theorem upon_of_within {action : Action engine α} (within : Within Attends action) :
    Upon fs action :=
  fun _ _ _ _ up ran => within _ _ _ _ ran fs up

theorem upon_keep {put : Filesystem engine} {next : Action engine α} (same : fs.Same put)
    (onward : Within Attends next) : Upon fs (keep put >>= fun _ => next) := by
  intro found trace result left up ran
  obtain ⟨last, still_up, still_same, config, fetched⟩ :=
    onward _ _ _ _ (does_keep_bind.mp ran) put rfl
  exact ⟨last, still_up, same.trans still_same, config, fetched⟩

theorem upon_lift {c : Host β} {next : β → Action engine α}
    (each : ∀ first b, Host.Runs c first b → first.fetched = [] ∧ Upon fs (next b)) :
    Upon fs (liftM c >>= next) := by
  intro found trace result left up ran
  obtain ⟨b, first, later, asked, went, rfl⟩ := Host.does_lift_bind.mp ran
  obtain ⟨unfetched, upon⟩ := each first b asked
  obtain ⟨put, still_up, same, config, fetched⟩ := upon _ _ _ _ up went
  refine ⟨put, still_up, same, config, ?_⟩
  rw [fetched_append, unfetched]
  exact fetched

theorem attends_ready_bind {next : Filesystem engine → Action engine α}
    (each : ∀ fs, Upon fs (next fs)) : Within Attends (ready >>= next) :=
  fun _ _ _ _ ran fs up => each fs _ _ _ _ up ((does_ready_bind up).mp ran)

theorem attends_lift_bind {c : Host β} {next : β → Action engine α} (abstains : c.Abstains)
    (onward : ∀ b, Within Attends (next b)) : Within Attends (liftM c >>= next) :=
  fun _ _ _ _ ran _ up =>
    upon_lift (fun first b asked => ⟨abstains first b asked, upon_of_within (onward b)⟩)
      _ _ _ _ up ran

theorem attends_when_lift {p : Prop} [Decidable p] {c : Host β} {rest : Action engine α}
    (abstains : c.Abstains) (onward : Within Attends rest) :
    Within Attends (if p then liftM c >>= fun _ => rest else rest) :=
  .ite (attends_lift_bind abstains fun _ => onward) onward

theorem attends_raise (result : Except Failure α) :
    Within Attends (raise result : Action engine α) := by
  intro found trace reached left ran
  obtain ⟨rfl, -, rfl⟩ := does_raise.mp ran
  exact stretch_attends.refl _

theorem attends_onFilesystem {action : Filesystem.Action engine α}
    (lasts : Within Filesystem.Lasts action) : Within Attends (onFilesystem action) := by
  intro found trace result left ran fs up
  obtain ⟨put, worked, rfl⟩ := (does_onFilesystem up).mp ran
  have done := lasts _ _ _ _ worked
  refine ⟨put, rfl, done.same, rfl, ?_⟩
  rw [done.unfetched]
  exact List.nil_subset _

theorem attends_drop (guest : Guest engine) : Within Attends (drop guest) := by
  intro found trace result left ran fs up
  obtain ⟨put, dropping, -, rfl⟩ := (does_drop up).mp ran
  have done := Filesystem.lasts_of_unwire dropping
  refine ⟨put, rfl, done.same, rfl, ?_⟩
  rw [done.unfetched]
  exact List.nil_subset _

theorem fetched_of_get {cache after : ModuleCache engine} {timing : Bool} {name : String}
    {result : Except Failure engine.Module}
    (ran : Host.Runs (cache.get timing name) trace (result, after)) : trace.fetched ⊆ [name] := by
  rcases ModuleCache.runs_get.mp ran with ⟨-, rfl, -⟩ | ⟨-, loading, -⟩
  · exact List.nil_subset _
  · obtain ⟨held, -, frames⟩ := ModuleCache.runs_load.mp loading
    rw [frames.fetched]
    exact List.Subset.refl _

theorem attends_module_bind (tool : Config → String)
    (among : ∀ config, tool config ∈ [config.clang, config.lld])
    {next : engine.Module → Action engine α} (onward : ∀ module, Within Attends (next module)) :
    Within Attends (get >>= fun self => module (tool self.config) >>= next) := by
  have fetches : Within Attends
      (get >>= fun self => module (tool self.config) : Action engine engine.Module) := by
    intro found trace result left ran fs up
    obtain ⟨cache, loading, rfl⟩ := does_module.mp (Host.does_get_bind.mp ran)
    refine ⟨fs, up, .refl fs, rfl, fun name fetched => ?_⟩
    rw [List.mem_singleton.mp (fetched_of_get loading fetched)]
    exact among _
  rw [← bind_assoc]
  exact .bind stretch_attends fetches onward

theorem attends_task {work : Action engine α} {timing : Bool} {message : String}
    (working : Within Attends work) : Within Attends (Progress.task timing message work) := by
  intro found trace result left ran fs up
  obtain ⟨during, worked, frames⟩ := Progress.does_task.mp ran
  obtain ⟨put, still_up, same, config, fetched⟩ := working _ _ _ _ worked fs up
  exact ⟨put, still_up, same, config, frames.fetched ▸ fetched⟩

theorem attends_given_up (guest : Guest engine) (failure : Failure) {next : β → Action engine α} :
    Within Attends (drop guest >>= fun _ => throw failure >>= next) := by
  refine .bind stretch_attends (attends_drop guest) fun _ => ?_
  intro found trace result left ran
  obtain ⟨rfl, -, rfl⟩ := Host.does_throw_bind.mp ran
  exact stretch_attends.refl _

end Parts

section Operations

theorem abstains_runTiming (timing : Bool) (instantiation run : Nat) :
    (Progress.runTiming timing instantiation run).Abstains := by
  unfold Progress.runTiming
  split
  · exact .query nofun
  · exact .pure _

theorem attends_run (module : engine.Module) (stage : Stage) (program : String)
    (arguments : List String) : Within Attends (run module stage program arguments) := by
  have concluded (started instantiated finished : Nat) (outcome : Outcome) (guest : Guest engine) :
      Within Attends (do
        if stage.writesStdout then
          (Host.write "\r\n" : Host Unit)
          (Progress.runTiming (← get).showTiming (instantiated - started)
            (finished - instantiated) : Host Unit)
        return (outcome, guest) : Action engine (Outcome × Guest engine)) := by
    split
    · refine attends_lift_bind (.query nofun) fun _ => .get_bind fun _ => ?_
      exact attends_lift_bind (abstains_runTiming _ _ _) fun _ => .pure stretch_attends _
    · exact .pure stretch_attends _
  refine attends_when_lift (.query nofun) ?_
  refine attends_lift_bind (.query nofun) fun started => ?_
  refine .get_set_bind stretch_attends ?_ fun self => ?_
  · exact fun found fs up => ⟨fs, up, .refl fs, rfl, List.nil_subset _⟩
  refine attends_ready_bind fun fs => upon_lift fun first reached instantiating => ?_
  obtain ⟨result, guest, put⟩ := reached
  have begun := Guest.lasts_of_instantiate instantiating
  refine ⟨begun.unfetched, upon_keep begun.same ?_⟩
  cases result with
  | error failure => exact attends_given_up guest failure
  | ok _ =>
    refine attends_lift_bind (.query nofun) fun instantiated => ?_
    refine attends_ready_bind fun fs => upon_lift fun first reached running => ?_
    obtain ⟨outcome, guest, put⟩ := reached
    have done := Guest.lasts_of_run running
    refine ⟨done.unfetched, upon_keep done.same ?_⟩
    refine attends_lift_bind (.query nofun) fun finished => ?_
    have ended := concluded started instantiated finished outcome guest
    refine .ite ?_ ended
    cases outcome.failure? program with
    | some failure => exact attends_given_up guest failure
    | none => exact ended

theorem attends_ready : Within Attends (ready : Action engine (Filesystem engine)) := by
  rw [← bind_pure ready]
  exact attends_ready_bind fun _ => upon_of_within (.pure stretch_attends _)

theorem attends_compile (source : String) :
    Within Attends (compile source : Action engine String) := by
  refine .bind stretch_attends attends_ready fun _ => ?_
  refine .bind stretch_attends
    (attends_onFilesystem (Filesystem.made_lasts.addFile _ _)) fun _ => ?_
  refine attends_module_bind Config.clang (fun _ => by simp) fun clang => .get_bind fun self => ?_
  exact .bind stretch_attends (attends_run _ _ _ _) fun ended =>
    .bind stretch_attends (attends_drop ended.2) fun _ => .pure stretch_attends _

theorem attends_link (object : String) : Within Attends (link object : Action engine String) := by
  refine .bind stretch_attends attends_ready fun _ => ?_
  refine attends_module_bind Config.lld (fun _ => by simp) fun lld => .get_bind fun self => ?_
  exact .bind stretch_attends (attends_run _ _ _ _) fun ended =>
    .bind stretch_attends (attends_drop ended.2) fun _ => .pure stretch_attends _

theorem attends_compileLinkRun (source : String) :
    Within Attends (compileLinkRun source : Action engine (Option (Guest engine))) := by
  refine .bind stretch_attends (attends_compile source) fun object => ?_
  refine .bind stretch_attends (attends_link object) fun executable => .get_bind fun self => ?_
  refine .bind stretch_attends (attends_task ?_) fun program => ?_
  · exact .bind stretch_attends (attends_onFilesystem (Filesystem.made_lasts.contents _))
      fun _ => attends_raise _
  refine .bind stretch_attends (attends_run _ _ _ _) fun ended => ?_
  exact .ite (.pure stretch_attends _)
    (.bind stretch_attends (attends_drop ended.2) fun _ => .pure stretch_attends _)

theorem attends_runAnalysis (source : Bytes) :
    Within Attends (runAnalysis source : Action engine (List Diagnostic)) := by
  refine .bind stretch_attends attends_ready fun _ => ?_
  refine attends_module_bind Config.clang (fun _ => by simp) fun clang => ?_
  refine .bind stretch_attends
    (attends_onFilesystem (Filesystem.made_lasts.addFile _ _)) fun _ => ?_
  refine attends_ready_bind fun fs => upon_keep (.beside _) (.get_bind fun self => ?_)
  refine .bind stretch_attends (.tryCatch stretch_attends ?_ fun _ => .pure stretch_attends _)
    fun _ => ?_
  · exact .bind stretch_attends (attends_run _ _ _ _) fun ended => attends_drop ended.2
  · exact attends_ready_bind fun fs => upon_keep (.beside _) (.pure stretch_attends _)

theorem attends_callAgain (guest : Guest engine) (name : String) :
    Within Attends (callAgain guest name) := by
  refine attends_ready_bind fun fs => upon_lift fun first reached calling => ?_
  obtain ⟨result, after, put⟩ := reached
  have done := Guest.lasts_of_callAgain calling
  exact ⟨done.unfetched, upon_keep done.same (.pure stretch_attends _)⟩

end Operations

/-- A call on a toolchain, or with a program that it gave out. -/
inductive Call (engine : Engine)
  | ready
  | compile (source : String)
  | link (object : String)
  | compileLinkRun (source : String)
  | runAnalysis (source : Bytes)
  | callAgain (guest : Guest engine) (name : String)
  | drop (guest : Guest engine)

namespace Call

abbrev Result : Call engine → Type
  | .ready => Filesystem engine
  | .compile _ | .link _ => String
  | .compileLinkRun _ => Option (Guest engine)
  | .runAnalysis _ => List Diagnostic
  | .callAgain _ _ => Except Failure Outcome × Guest engine
  | .drop _ => Unit

def action : (call : Call engine) → Action engine call.Result
  | .ready => Toolchain.ready
  | .compile source => Toolchain.compile source
  | .link object => Toolchain.link object
  | .compileLinkRun source => Toolchain.compileLinkRun source
  | .runAnalysis source => Toolchain.runAnalysis source
  | .callAgain guest name => Toolchain.callAgain guest name
  | .drop guest => Toolchain.drop guest

theorem action_eq (call : Call engine) : ∃ next : Filesystem engine → Action engine call.Result,
    call.action = Toolchain.ready >>= next := by
  cases call with
  | ready => exact ⟨pure, (bind_pure _).symm⟩
  | compile _ | link _ | runAnalysis _ | callAgain _ _ | drop _ => exact ⟨_, rfl⟩
  | compileLinkRun source =>
    have begins : (Toolchain.compileLinkRun source : Action engine _) = _ :=
      compileLinkRun_eq source
    rw [compile_eq, bind_assoc] at begins
    exact ⟨_, begins⟩

theorem attends (call : Call engine) : Within Attends call.action := by
  cases call with
  | ready => exact attends_ready
  | compile source => exact attends_compile source
  | link object => exact attends_link object
  | compileLinkRun source => exact attends_compileLinkRun source
  | runAnalysis source => exact attends_runAnalysis source
  | callAgain guest name => exact attends_callAgain guest name
  | drop guest => exact attends_drop guest

end Call

/-- A call, with what it finds and what it leaves. -/
structure Turn (engine : Engine) where
  call : Call engine
  found : Toolchain engine
  trace : Trace
  result : Except Failure call.Result
  left : Toolchain engine

def Turn.Done (turn : Turn engine) : Prop :=
  Host.Does turn.call.action turn.found turn.trace turn.result turn.left

/-- Calls one after another. Between two of them the elapsed times may be switched on or off, and
whoever holds the artifacts may change them at any time. -/
inductive Turns : Toolchain engine → List (Turn engine) → Prop
  | nil {self : Toolchain engine} : Turns self []
  | cons {self : Toolchain engine} {turn : Turn engine} {later : List (Turn engine)} (timing : Bool)
      (finds : turn.found = { self with showTiming := timing }) (done : turn.Done)
      (onward : Turns turn.left later) : Turns self (turn :: later)

def exchanged (turns : List (Turn engine)) : Trace :=
  turns.flatMap Turn.trace

/-- Each call finds the filesystem that the last one left, and leaves the same. -/
inductive Serving (config : Config) : Filesystem engine → List (Turn engine) → Prop
  | nil {fs : Filesystem engine} : Serving config fs []
  | cons {fs put : Filesystem engine} {turn : Turn engine} {later : List (Turn engine)}
      (configured : turn.found.config = config) (finds : turn.found.filesystem = some (.ok fs))
      (serves : Serves turn.found fs turn.trace turn.left put) (onward : Serving config put later) :
      Serving config fs (turn :: later)

/-- The call fails as the preparation did, and does nothing. -/
structure Turn.Fails (turn : Turn engine) (failure : Failure) : Prop where
  finds : turn.found.filesystem = some (.error failure)
  trace : turn.trace = []
  result : turn.result = .error failure
  left : turn.left = turn.found

/-- What becomes of a toolchain with its calls. When the preparation fails, the first call is
nothing but that, and so no tool is fetched in it, no command is shown and no guest is created. -/
inductive Course (config : Config) : List (Turn engine) → Prop
  | untouched : Course config []
  | failed {first : Turn engine} {later : List (Turn engine)} {failure : Failure}
      (prepares : Prepares engine config first.found.showTiming first.trace (.error failure))
      (fetched : first.trace.fetched <+: [config.memfs, config.sysroot])
      (shown : first.trace.shown = "" ∨
        first.trace.shown = Progress.arrow ++ (untarring config ++ "..."))
      (result : first.result = .error failure)
      (left : first.left = { first.found with filesystem := some (.error failure) })
      (forever : ∀ turn ∈ later, turn.Fails failure) : Course config (first :: later)
  | prepared {first : Turn engine} {later : List (Turn engine)} {fresh put : Filesystem engine}
      {opening rest : Trace} (configured : first.found.config = config)
      (prepares : Prepares engine config first.found.showTiming opening (.ok fresh))
      (traced : first.trace = opening ++ rest)
      (done : Host.Does first.call.action (first.found.upon fresh) rest first.result first.left)
      (serves : Serves first.found fresh rest first.left put) (onward : Serving config put later) :
      Course config (first :: later)

section Course

variable {α : Type} {config : Config} {turns : List (Turn engine)}

theorem prepares_of_ready {result : Except Failure (Filesystem engine)}
    (unprepared : found.filesystem = none) (ran : Host.Does ready found trace result left) :
    Prepares engine found.config found.showTiming trace result ∧
      left = { found with filesystem := some result } := by
  have ran := Host.does_get_bind.mp ran
  split at ran
  · next known => cases unprepared.symm.trans known
  · obtain ⟨reached, first, later, preparing, kept, rfl⟩ := Host.does_lift_bind.mp ran
    obtain ⟨rfl, rfl, rfl⟩ := does_raise.mp (Host.does_set_bind.mp kept)
    rw [List.append_nil]
    exact ⟨prepares_of_run preparing, rfl⟩

theorem Turn.Done.fails {turn : Turn engine} (done : turn.Done) {failure : Failure}
    (finds : turn.found.filesystem = some (.error failure)) : turn.Fails failure := by
  obtain ⟨next, same⟩ := turn.call.action_eq
  rw [Turn.Done, same] at done
  have refused {trace : Trace} {result : Except Failure (Filesystem engine)}
      {left : Toolchain engine} (ran : Host.Does ready turn.found trace result left) :
      trace = [] ∧ result = .error failure ∧ left = turn.found := by
    have ran := Host.does_get_bind.mp ran
    rw [finds] at ran
    exact does_raise.mp ran
  rcases Host.does_bind.mp done with ⟨reached, failed, ended⟩ | ⟨fs, _, _, _, readied, -⟩
  · obtain ⟨nothing, given, same⟩ := refused failed
    cases given
    exact ⟨finds, nothing, ended, same⟩
  · obtain ⟨-, impossible, -⟩ := refused readied
    cases impossible

theorem Turns.fail {self : Toolchain engine} (history : Turns self turns) {failure : Failure}
    (failed : self.filesystem = some (.error failure)) : ∀ turn ∈ turns, turn.Fails failure := by
  induction history with
  | nil => exact fun _ => nofun
  | @cons self turn later timing finds done onward ih =>
    have fails : turn.Fails failure := done.fails (by rw [finds]; exact failed)
    intro other among
    rcases List.mem_cons.mp among with rfl | among
    · exact fails
    · exact ih (by rw [fails.left]; exact fails.finds) other among

theorem Turns.serve {self : Toolchain engine} (history : Turns self turns)
    (configured : self.config = config) (up : self.filesystem = some (.ok fs)) :
    Serving config fs turns := by
  induction history generalizing fs with
  | nil => exact .nil
  | @cons self turn later timing finds done onward ih =>
    have still_configured : turn.found.config = config := by rw [finds]; exact configured
    have still_up : turn.found.filesystem = some (.ok fs) := by rw [finds]; exact up
    obtain ⟨put, serves⟩ := turn.call.attends _ _ _ _ done fs still_up
    have onward := ih (serves.config.trans still_configured) serves.up
    exact .cons still_configured still_up serves onward

theorem Turns.course {next : GuestId}
    (history : Turns (.new config next : Toolchain engine) turns) : Course config turns := by
  cases history with
  | nil => exact .untouched
  | @cons _ first later timing finds done onward =>
    have configured : first.found.config = config := by rw [finds]; rfl
    have unprepared : first.found.filesystem = none := by rw [finds]; rfl
    obtain ⟨action, same⟩ := first.call.action_eq
    have begun := done
    rw [Turn.Done, same] at begun
    rcases Host.does_bind.mp begun with
      ⟨failure, failed, ended⟩ | ⟨fresh, between, opening, rest, readied, went, traced⟩
    · obtain ⟨prepares, left⟩ := prepares_of_ready unprepared failed
      have prepares : Prepares engine config first.found.showTiming first.trace (.error failure) :=
        configured ▸ prepares
      exact .failed prepares prepares.fetched_of_error prepares.shown_of_error ended left
        (onward.fail (by rw [left]))
    · obtain ⟨prepares, rfl⟩ := prepares_of_ready unprepared readied
      have upon : Host.Does first.call.action (first.found.upon fresh) rest first.result
          first.left := by
        rw [same]
        exact (does_ready_bind rfl).mpr went
      obtain ⟨put, serves⟩ := first.call.attends _ _ _ _ upon fresh rfl
      have serves : Serves first.found fresh rest first.left put :=
        ⟨serves.up, serves.same, serves.config, serves.fetched⟩
      exact .prepared configured (configured ▸ prepares) traced upon serves
        (onward.serve (serves.config.trans configured) serves.up)

theorem Serving.fetched (serving : Serving config fs turns) :
    (exchanged turns).fetched ⊆ [config.clang, config.lld] := by
  induction serving with
  | nil => exact List.nil_subset _
  | @cons fs put turn later configured finds serves onward ih =>
    have first := serves.fetched
    rw [configured] at first
    rw [exchanged, List.flatMap_cons, fetched_append]
    exact List.append_subset.mpr ⟨first, ih⟩

theorem Course.fetched (course : Course config turns) :
    ∃ front back, (exchanged turns).fetched = front ++ back ∧
      front <+: [config.memfs, config.sysroot] ∧ back ⊆ [config.clang, config.lld] := by
  cases course with
  | untouched => exact ⟨[], [], rfl, List.nil_prefix, List.nil_subset _⟩
  | @failed first later failure prepares fetched shown result left forever =>
    refine ⟨_, [], ?_, fetched, List.nil_subset _⟩
    have nothing : exchanged later = [] :=
      List.flatMap_eq_nil_iff.mpr fun turn among => (forever turn among).trace
    rw [exchanged, List.flatMap_cons, ← exchanged, nothing]
    simp only [List.append_nil]
  | @prepared first later fresh put opening rest configured prepares traced done serves onward =>
    have fetched := serves.fetched
    rw [configured] at fetched
    refine ⟨opening.fetched, rest.fetched ++ (exchanged later).fetched, ?_, ?_, ?_⟩
    · rw [exchanged, List.flatMap_cons, traced, List.append_assoc, fetched_append, fetched_append]
      rfl
    · rw [prepares.fetched_of_ok]
    · exact List.append_subset.mpr ⟨fetched, onward.fetched⟩

private theorem count_le_one {front back wanted others : List String} {name : String}
    (part : front <+: wanted) (distinct : wanted.Nodup) (rest : back ⊆ others)
    (apart : name ∉ others) : (front ++ back).count name ≤ 1 := by
  have once : front.count name ≤ 1 :=
    List.nodup_iff_count_le_one.mp (distinct.sublist part.sublist) name
  have never : back.count name = 0 := List.count_eq_zero_of_not_mem fun among => apart (rest among)
  rw [List.count_append, never]
  exact once

/-- A toolchain is prepared once. -/
structure PreparedOnce (config : Config) (turns : List (Turn engine)) : Prop where
  course : Course config turns
  memfs : (exchanged turns).fetched.count config.memfs ≤ 1
  sysroot : (exchanged turns).fetched.count config.sysroot ≤ 1

/-- Whatever is called on a toolchain, and whatever the source of the artifacts holds at the time,
the toolchain is prepared at most once, and nothing else is done before that has succeeded. -/
theorem Turns.prepared_once {next : GuestId}
    (distinct : [config.memfs, config.clang, config.lld, config.sysroot].Nodup)
    (history : Turns (.new config next : Toolchain engine) turns) : PreparedOnce config turns := by
  obtain ⟨front, back, fetched, part, rest⟩ := history.course.fetched
  have pair : [config.memfs, config.sysroot].Nodup :=
    distinct.sublist (.cons_cons _ (.cons _ (.cons _ (.refl _))))
  have memfs : config.memfs ∉ [config.clang, config.lld] := by grind
  have sysroot : config.sysroot ∉ [config.clang, config.lld] := by grind
  refine ⟨history.course, ?_, ?_⟩
  · rw [fetched]
    exact count_le_one part pair rest memfs
  · rw [fetched]
    exact count_le_one part pair rest sysroot

end Course

/-- The call, made in surroundings that answer like this. -/
def Turn.answered (answers : Trace → (q : Query) → q.Answer) (call : Call engine)
    (found : Toolchain engine) : Turn engine :=
  let reached := Host.answered answers [] (call.action.run.run found)
  ⟨call, found, reached.1, reached.2.1, reached.2.2⟩

theorem Turn.done_answered (answers : Trace → (q : Query) → q.Answer) (call : Call engine)
    (found : Toolchain engine) : (Turn.answered answers call found).Done :=
  Host.runs_answered _ _ _

def greeter : Engine :=
  .workshop (.saying "" 0) (.saying "" 0) (.saying "hi\n" 0)

/-- A source is checked first and then built. -/
theorem check_then_build : ∃ turns : List (Turn greeter), Turns (.new {} 1) turns ∧
    turns.length = 2 ∧
    (exchanged turns).fetched = ["memfs.wasm", "sysroot.tar", "clang.wasm", "lld.wasm"] ∧
    PreparedOnce {} turns := by
  obtain ⟨first, checked⟩ : ∃ first : Turn greeter,
      first = .answered Engine.supplies (.runAnalysis []) (.new {} 1) := ⟨_, rfl⟩
  obtain ⟨second, built⟩ : ∃ second : Turn greeter,
      second = .answered Engine.supplies (.compileLinkRun "")
        { first.left with showTiming := true } := ⟨_, rfl⟩
  have history : Turns (.new {} 1) [first, second] := by
    refine .cons false (by rw [checked]; rfl) (checked ▸ Turn.done_answered _ _ _) ?_
    exact .cons true (by rw [built]; rfl) (built ▸ Turn.done_answered _ _ _) .nil
  have fetched : (exchanged [first, second]).fetched =
      ["memfs.wasm", "sysroot.tar", "clang.wasm", "lld.wasm"] := by
    rw [built, checked]
    decide +kernel
  exact ⟨_, history, rfl, fetched, history.prepared_once (by decide)⟩

def bare (early : Trace) : (q : Query) → q.Answer
  | .fetch _ => .error .notFound
  | q => Engine.supplies early q

/-- A toolchain that was called too early stays without a filesystem. -/
example : (Turn.answered Engine.supplies .ready (Turn.answered bare (.compile "")
    (.new {} 1 : Toolchain greeter)).left).result.toOption.isNone = true := by
  decide +kernel

end Buildbox.Toolchain
