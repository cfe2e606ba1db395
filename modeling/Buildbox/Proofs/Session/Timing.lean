import Mathlib.Data.List.Induction
import Buildbox.Proofs.Session.Requests
import Buildbox.Proofs.Session.Settlement

/-!
The switch of the elapsed times. A call keeps it for later threads and then hands it to the live
one, and between the two anything may happen, other calls and aborts among it. A thread shows times
as it was told last, by an abort that started it or by a call; so it does what a new one would do,
unless a call that wants otherwise was overtaken by a later one.
-/

set_option autoImplicit false

namespace Buildbox

namespace Session.Builder

open Host (Within)

variable {engine : Engine} {α : Type}

def Steady (found : Builder engine) (_ : Trace) (left : Builder engine) : Prop :=
  left.toolchain.showTiming = found.toolchain.showTiming

theorem stretch_steady : Service.Stretch (@Steady engine) where
  refl _ := rfl
  trans first later := later.trans first

theorem steady_onToolchain {action : Toolchain.Action engine α}
    (keeps : ∀ found trace result left, Host.Does action found trace result left →
      left.showTiming = found.showTiming) : Within Steady (onToolchain action) := by
  intro found trace result left ran
  obtain ⟨toolchain, went, rfl⟩ := does_onToolchain.mp ran
  exact keeps _ _ _ _ went

theorem steady_modify_bind {change : Builder engine → Builder engine}
    {next : Unit → Action engine α} (same : ∀ self, (change self).toolchain = self.toolchain)
    (onward : Within Steady (next ())) : Within Steady (modify change >>= next) := by
  intro found trace result left ran
  have still := onward _ _ _ _ (Host.does_modify_bind.mp ran)
  rw [Steady, same] at still
  exact still

theorem steady_release : Within Steady (release : Action engine Unit) := by
  refine .get_bind fun self => ?_
  split
  · next guest _ =>
    refine steady_modify_bind (fun _ => rfl) (steady_onToolchain fun _ _ _ _ ran => ?_)
    exact (Toolchain.onward_of_upheld (Toolchain.upheld_drop guest.revoke) ran).1.same
  · exact .pure stretch_steady _

theorem steady_execute (request : Request) :
    Within Steady (execute request : Action engine Response) := by
  cases request with
  | compileLinkRun source =>
    refine .bind stretch_steady steady_release fun _ => .bind stretch_steady ?_ fun guest =>
      steady_modify_bind (fun _ => rfl) (.pure stretch_steady _)
    exact steady_onToolchain fun _ _ _ _ ran => (Toolchain.onward_compileLinkRun ran).same
  | runCppCheck source =>
    refine .bind stretch_steady (steady_onToolchain fun _ _ _ _ ran => ?_) fun _ =>
      .pure stretch_steady _
    exact (Toolchain.onward_of_upheld (Toolchain.upheld_runAnalysis source) ran).1.same
  | callContinuation name =>
    refine .get_bind fun self => ?_
    split
    · exact .throw stretch_steady _
    next guest _ =>
    refine .bind stretch_steady (steady_onToolchain fun _ _ _ _ ran => ?_) fun reached => ?_
    · exact (Toolchain.onward_of_upheld (Toolchain.upheld_callAgain guest name) ran).1.same
    obtain ⟨result, again⟩ := reached
    refine steady_modify_bind (fun _ => rfl) ?_
    cases result with
    | error failure => exact .throw stretch_steady _
    | ok outcome =>
      refine .get_bind fun self => .when stretch_steady steady_release ?_
      split
      · exact .bind stretch_steady (.throw stretch_steady _) fun _ => .pure stretch_steady _
      · exact .pure stretch_steady _

theorem showTiming_serve {before after : Builder engine} {request : Request} {trace : Trace}
    {answer : Option Response} (ran : Host.Runs (before.serve request) trace (answer, after)) :
    after.toolchain.showTiming = before.toolchain.showTiming := by
  obtain ⟨result, executed, -⟩ := runs_serve.mp ran
  exact steady_execute request _ _ _ _ executed

end Session.Builder

namespace Session

variable {engine : Engine} {ω : Type}

section Latest

variable {α β : Type} {choose : α → Option β}

/-- What the last event of a kind says. -/
def latest (choose : α → Option β) (events : List α) : Option β :=
  (events.filterMap choose).getLast?

theorem latest_append (events later : List α) :
    latest choose (events ++ later) = (latest choose later).or (latest choose events) := by
  rw [latest, List.filterMap_append, List.getLast?_append]
  rfl

theorem latest_cons (event : α) (later : List α) :
    latest choose (event :: later) = (latest choose later).or (choose event) := by
  rw [← List.singleton_append, latest_append]
  cases chosen : choose event <;> simp [latest, chosen]

end Latest

def Order.timing? : Order → Option Bool
  | .request .. => none
  | .showTiming on => some on

/-- A thread that shows times as the switch says, or has since then begun to serve a request. -/
inductive Thread.Shows (on : Bool) : Thread engine → Prop
  | idle {builder : Builder engine} (shows : builder.toolchain.showTiming = on) :
      Shows on (.idle builder)
  | serving {builder : Builder engine} {id : RequestId} {request : Request} {exchanges : Trace}
      {task : Host (Option Response × Builder engine)}
      (shows : builder.toolchain.showTiming = on)
      (goes : (builder.serve request).Goes exchanges task) : Shows on (.serving id task)

def Duty.ComesTo (duty : Duty engine) (on : Bool) : Prop :=
  ∃ now, duty.thread.Shows now ∧ (latest Order.timing? duty.inbox).getD now = on

/-- A thread that has done all that it was given. -/
structure Live.Rests (live : Live engine) (builder : Builder engine) : Prop where
  idle : live.thread = .idle builder
  handled : live.inbox = []

theorem Live.Rests.shows {live : Live engine} {builder : Builder engine} {on : Bool}
    (rests : live.Rests builder) (comes : live.duty.ComesTo on) :
    builder.toolchain.showTiming = on := by
  obtain ⟨now, shows, rfl⟩ := comes
  change Thread.Shows now live.thread at shows
  change _ = (latest Order.timing? live.inbox).getD now
  rw [rests.idle] at shows
  rw [rests.handled]
  cases shows with
  | idle shows => exact shows

namespace Duty.ComesTo

variable {duty : Duty engine} {on : Bool}

theorem send (comes : duty.ComesTo on) (order : Order) :
    ComesTo { duty with inbox := duty.inbox ++ [order] } ((Order.timing? order).getD on) := by
  obtain ⟨now, shows, rfl⟩ := comes
  refine ⟨now, shows, ?_⟩
  rw [latest_append]
  cases order <;> rfl

private theorem resume (comes : duty.ComesTo on) {id : RequestId} {query : Query}
    {resume : query.Answer → Host (Option Response × Builder engine)}
    (serving : duty.thread = .serving id (.ask query resume)) (answer : query.Answer) :
    ComesTo { duty with thread := .serving id (resume answer) } on := by
  obtain ⟨now, shows, same⟩ := comes
  rw [serving] at shows
  cases shows with
  | serving shows goes => exact ⟨now, .serving shows (goes.answered answer), same⟩

theorem step {live later : Live engine} {closed : Bool} {events : List (Event engine)}
    {messages : List HostMessage} (comes : live.duty.ComesTo on)
    (step : ThreadStep closed live events messages later) : later.duty.ComesTo on := by
  cases step with
  | write serving | isClosed serving | askLine serving | outside answer serving external =>
    exact comes.resume serving _
  | takeLine serving taken | takeNothing serving taken => exact comes.resume serving _
  | @takeTiming builder told rest idle inbox =>
    obtain ⟨now, -, same⟩ := comes
    change (latest Order.timing? live.inbox).getD now = on at same
    rw [inbox, latest_cons] at same
    refine ⟨told, .idle rfl, ?_⟩
    change (latest Order.timing? rest).getD told = on
    cases last : latest Order.timing? rest <;> simpa [last, Order.timing?] using same
  | @takeRequest builder id request rest idle inbox =>
    obtain ⟨now, shows, same⟩ := comes
    change Thread.Shows now live.thread at shows
    change (latest Order.timing? live.inbox).getD now = on at same
    rw [inbox, latest_cons, Order.timing?, Option.or_none] at same
    rw [idle] at shows
    cases shows with
    | idle shows => exact ⟨now, .serving shows (.start _), same⟩
  | finish serving =>
    obtain ⟨now, shows, same⟩ := comes
    change Thread.Shows now live.thread at shows
    rw [serving] at shows
    cases shows with
    | serving shows goes =>
      exact ⟨now, .idle ((Builder.showTiming_serve goes.done).trans shows), same⟩

end Duty.ComesTo

inductive Switching
  | kept (on : Bool)
  | handed (on : Bool)
  | started (on : Bool)
deriving DecidableEq

namespace Switching

def kept? : Switching → Option Bool
  | .kept on => some on
  | _ => none

def handed? : Switching → Option Bool
  | .handed on => some on
  | _ => none

def given? : Switching → Option Switching
  | .kept _ => none
  | event => some event

def value : Switching → Bool
  | .kept on | .handed on | .started on => on

end Switching

/-- A run of a session, told by what happens to the switch. -/
inductive Timed (first : Traffic engine ω) : List Switching → Traffic engine ω → Prop
  | here : Timed first [] first
  | kept {log : List Switching} {s : Traffic engine ω} (on : Bool) (earlier : Timed first log s) :
      Timed first (log ++ [.kept on]) { s with
        front := { s.front with showTiming := on }
        switches := s.switches ++ [on] }
  | handed {log : List Switching} {s : Traffic engine ω} {on : Bool} {before after : List Bool}
      (earlier : Timed first log s) (waiting : s.switches = before ++ on :: after) :
      Timed first (log ++ [.handed on])
        { s with front := s.front.send (.showTiming on), switches := before ++ after }
  | started {log : List Switching} {s : Traffic engine ω} (earlier : Timed first log s) :
      Timed first (log ++ [.started s.front.showTiming]) s.abort
  /-- any other step: no call goes on by it, and the live thread stays -/
  | aside {log : List Switching} {s t : Traffic engine ω} {events : List (Event engine)}
      (earlier : Timed first log s) (step : Step s events t)
      (calls : t.switches = s.switches)
      (stays : t.front.live.generation = s.front.live.generation) : Timed first log t

namespace Timed

variable {first s t : Traffic engine ω} {log later : List Switching}

theorem trans (earlier : Timed first log s) (more : Timed s later t) :
    Timed first (log ++ later) t := by
  induction more with
  | here =>
    rw [List.append_nil]
    exact earlier
  | kept on _ ih =>
    rw [← List.append_assoc]
    exact ih.kept on
  | handed _ waiting ih =>
    rw [← List.append_assoc]
    exact ih.handed waiting
  | started _ ih =>
    rw [← List.append_assoc]
    exact ih.started
  | aside _ step calls stays ih => exact ih.aside step calls stays

theorem run (timed : Timed first log s) : ∃ trace, Run first trace s := by
  induction timed with
  | here => exact ⟨_, .here⟩
  | kept on _ ih =>
    obtain ⟨_, run⟩ := ih
    exact ⟨_, run.step (.keepTiming on)⟩
  | handed _ waiting ih =>
    obtain ⟨_, run⟩ := ih
    exact ⟨_, run.step (.handTiming waiting)⟩
  | started _ ih =>
    obtain ⟨_, run⟩ := ih
    exact ⟨_, run.step .abort⟩
  | aside _ step _ _ ih =>
    obtain ⟨_, run⟩ := ih
    exact ⟨_, run.step step⟩

end Timed

theorem Traffic.timing_deliver (s : Traffic engine ω) (generation : Generation) (line : String) :
    (s.deliver generation line).switches = s.switches ∧
      (s.deliver generation line).front.showTiming = s.front.showTiming ∧
      (s.deliver generation line).front.live.duty = s.front.live.duty := by
  obtain ⟨_, _, same, duty, _⟩ := s.deliver_frame generation line
  rw [same]
  exact ⟨rfl, rfl, duty⟩

theorem Traffic.timing_act (s : Traffic engine ω) (generation : Generation)
    (message : HostMessage) :
    (s.act generation message).switches = s.switches ∧
      (s.act generation message).front.showTiming = s.front.showTiming ∧
      (s.act generation message).front.live.duty = s.front.live.duty := by
  obtain ⟨_, _, _, _, _, same, duty, _⟩ := s.act_frame generation message
  rw [same]
  exact ⟨rfl, rfl, duty⟩

theorem Step.timing {s t : Traffic engine ω} {events : List (Event engine)} (step : Step s events t)
    (calls : t.switches = s.switches)
    (stays : t.front.live.generation = s.front.live.generation) :
    t.front.showTiming = s.front.showTiming ∧
      ∀ on, s.front.live.duty.ComesTo on → t.front.live.duty.ComesTo on := by
  cases step with
  | draw | retired | take | judge | evict => exact ⟨rfl, fun _ comes => comes⟩
  | register => exact ⟨rfl, fun _ comes => comes.send _⟩
  | live _ step => exact ⟨rfl, fun _ comes => comes.step step⟩
  | @act generation message _ =>
    obtain ⟨-, kept, duty⟩ := Traffic.timing_act { s with hand := .empty } generation message
    exact ⟨kept, fun _ comes => duty ▸ comes⟩
  | @type generation before after line _ =>
    obtain ⟨-, kept, duty⟩ := Traffic.timing_deliver { s with front := { s.front with
      terminal := { s.front.terminal with held := before ++ after } } } generation line
    exact ⟨kept, fun _ comes => duty ▸ comes⟩
  | keepTiming on => exact absurd (List.append_right_eq_self.mp calls) (List.cons_ne_nil on [])
  | handTiming waiting =>
    have fewer := congrArg List.length (calls.trans waiting)
    simp only [List.length_append, List.length_cons] at fewer
    omega
  | abort => exact absurd stays (Nat.succ_ne_self _)

theorem Run.timed {first s : Traffic engine ω} {trace : List (Event engine)}
    (run : Run first trace s) : ∃ log, Timed first log s := by
  induction run with
  | here => exact ⟨_, .here⟩
  | @step _ events s t _ step ih =>
    obtain ⟨log, timed⟩ := ih
    have aside := timed.aside step
    cases step with
    | keepTiming on => exact ⟨_, timed.kept on⟩
    | handTiming waiting => exact ⟨_, timed.handed waiting⟩
    | abort => exact ⟨_, timed.started⟩
    | live _ went => exact ⟨log, aside rfl went.generation_eq⟩
    | @act generation message _ =>
      obtain ⟨calls, -, duty⟩ := Traffic.timing_act { s with hand := .empty } generation message
      exact ⟨log, aside calls (congrArg Duty.generation duty)⟩
    | @type generation before after line _ =>
      obtain ⟨calls, -, duty⟩ := Traffic.timing_deliver { s with front := { s.front with
        terminal := { s.front.terminal with held := before ++ after } } } generation line
      exact ⟨log, aside calls (congrArg Duty.generation duty)⟩
    | draw | register | retired | take | judge | evict => exact ⟨log, aside rfl rfl⟩

open Switching (kept? handed? given? value)

/-- What became of the switches so far: what is kept, what the live thread comes to, and which
calls have kept their switch and not handed it on. -/
structure Switched (config : Config) (log : List Switching) (s : Traffic engine ω) : Prop where
  stored : s.front.showTiming = (latest kept? log).getD config.showTiming
  comes : s.front.live.duty.ComesTo (((latest given? log).map value).getD config.showTiming)
  calls : (log.filterMap kept?).Perm (log.filterMap handed? ++ s.switches)
  /-- a thread that nobody has told since it started goes by what is kept, once no call is on -/
  untold : (∀ on, latest given? log ≠ some (.handed on)) → s.switches = [] →
    ((latest given? log).map value).getD config.showTiming = s.front.showTiming

theorem Frontend.comesTo_startThread (generation : Generation) (config : Config) (on : Bool) :
    (Frontend.startThread generation config on : Live engine).duty.ComesTo on :=
  ⟨_, .idle rfl, rfl⟩

theorem Timed.switched {config : Config} {terminal : Terminal} {outside : ω}
    {log : List Switching} {s : Traffic engine ω}
    (timed : Timed (.start config terminal outside) log s) : Switched config log s := by
  induction timed with
  | here =>
    exact ⟨rfl, Frontend.comesTo_startThread 1 config config.showTiming, List.Perm.nil,
      fun _ _ => rfl⟩
  | @kept log s on _ ih =>
    constructor
    · rw [latest_append]
      rfl
    · rw [latest_append]
      exact ih.comes
    · rw [List.filterMap_append, List.filterMap_append]
      change (log.filterMap kept? ++ [on]).Perm
        (log.filterMap handed? ++ [] ++ (s.switches ++ [on]))
      rw [List.append_nil, ← List.append_assoc]
      exact ih.calls.append_right [on]
    · intro _ quiet
      exact absurd quiet (List.append_ne_nil_of_right_ne_nil _ (List.cons_ne_nil on []))
  | @handed log s on before after _ waiting ih =>
    constructor
    · rw [latest_append]
      exact ih.stored
    · rw [latest_append]
      exact ih.comes.send (.showTiming on)
    · rw [List.filterMap_append, List.filterMap_append]
      have calls := ih.calls
      rw [waiting] at calls
      change (log.filterMap kept? ++ []).Perm (log.filterMap handed? ++ [on] ++ (before ++ after))
      rw [List.append_nil, List.append_assoc]
      exact calls.trans (List.perm_middle.append_left _)
    · intro untold _
      refine absurd ?_ (untold on)
      rw [latest_append]
      rfl
  | @started log s _ ih =>
    constructor
    · rw [latest_append]
      exact ih.stored
    · rw [latest_append]
      exact Frontend.comesTo_startThread _ _ _
    · rw [List.filterMap_append, List.filterMap_append]
      change (log.filterMap kept? ++ []).Perm (log.filterMap handed? ++ [] ++ s.switches)
      rw [List.append_nil, List.append_nil]
      exact ih.calls
    · intro _ _
      rw [latest_append]
      rfl
  | aside _ step calls stays ih =>
    obtain ⟨kept, comes⟩ := step.timing calls stays
    exact ⟨kept.trans ih.stored, comes _ ih.comes, calls ▸ ih.calls,
      fun untold quiet => (ih.untold untold (calls.symm.trans quiet)).trans kept.symm⟩

theorem latest_handed {log : List Switching} {on : Bool}
    (last : latest given? log = some (.handed on)) : latest handed? log = some on := by
  induction log using List.reverseRecOn with
  | nil => cases last
  | append_singleton log event ih =>
    rw [latest_append] at last ⊢
    cases event with
    | kept => exact ih last
    | handed =>
      cases last
      rfl
    | started => cases last

theorem not_handed_of_starts {log later : List Switching} {first on : Bool}
    (starts : ∀ event ∈ later, ∃ on, event = .started on) :
    latest given? (log ++ .started first :: later) ≠ some (.handed on) := by
  intro last
  rw [latest_append, latest_cons] at last
  cases told : latest given? later with
  | none =>
    rw [told] at last
    cases last
  | some event =>
    obtain ⟨other, among, same⟩ := List.mem_filterMap.mp (List.mem_of_getLast? told)
    obtain ⟨_, rfl⟩ := starts other among
    cases same
    rw [told] at last
    cases last

namespace Switched

variable {config : Config} {log later : List Switching} {s t : Traffic engine ω}

theorem stored_of_handed (switched : Switched config log s) (quiet : s.switches = []) {on : Bool}
    (last : latest given? log = some (.handed on)) :
    latest kept? log = some s.front.showTiming := by
  have handed : on ∈ log.filterMap handed? := List.mem_of_getLast? (latest_handed last)
  have calls := switched.calls
  rw [quiet, List.append_nil] at calls
  have kept : log.filterMap kept? ≠ [] := List.ne_nil_of_mem (calls.mem_iff.mpr handed)
  rw [switched.stored]
  cases among : latest kept? log with
  | none => exact absurd (List.getLast?_eq_none_iff.mp among) kept
  | some stored => rfl

theorem comes_to_stored_iff (switched : Switched config log s) (quiet : s.switches = []) :
    ((latest given? log).map value).getD config.showTiming = s.front.showTiming ↔
      ∀ on, latest given? log = some (.handed on) → latest kept? log = some on := by
  constructor
  · intro same on last
    rw [switched.stored_of_handed quiet last, ← same, last]
    rfl
  · intro agree
    by_cases told : ∃ on, latest given? log = some (.handed on)
    · obtain ⟨on, last⟩ := told
      have stored := switched.stored_of_handed quiet last
      rw [agree on last] at stored
      rw [last]
      exact Option.some.inj stored
    · exact switched.untold (fun on last => told ⟨on, last⟩) quiet

theorem kept_through_starts (before : Switched config log s) (quiet : s.switches = [])
    (after : Switched config (log ++ later) t)
    (starts : ∀ event ∈ later, ∃ on, event = .started on) :
    t.switches = [] ∧ t.front.showTiming = s.front.showTiming := by
  have kept : later.filterMap kept? = [] := List.filterMap_eq_nil_iff.mpr fun event among => by
    obtain ⟨_, rfl⟩ := starts event among
    rfl
  have handed : later.filterMap handed? = [] := List.filterMap_eq_nil_iff.mpr fun event among => by
    obtain ⟨_, rfl⟩ := starts event among
    rfl
  constructor
  · have early := before.calls.length_eq
    have late := after.calls.length_eq
    rw [List.filterMap_append, List.filterMap_append, kept, handed] at late
    rw [quiet] at early
    simp only [List.length_append, List.length_nil] at early late
    exact List.eq_nil_of_length_eq_zero (by omega)
  · rw [after.stored, before.stored, latest_append, latest, kept]
    rfl

end Switched

/-- Once no call is on and the live thread has done all that it was given, it shows times as the
switch that is kept says, unless it was told otherwise by another call than the one that kept its
switch last. So it does where calls hand on in the order in which they keep; and a thread that an
abort then starts does in any case, as long as no call is made. -/
theorem Timed.shows_kept_iff {config : Config} {terminal : Terminal} {outside : ω}
    {log : List Switching} {s : Traffic engine ω} {builder : Builder engine}
    (timed : Timed (.start config terminal outside) log s) (quiet : s.switches = [])
    (rests : s.front.live.Rests builder) :
    (builder.toolchain.showTiming = s.front.showTiming ↔
      ∀ on, latest given? log = some (.handed on) → latest kept? log = some on) ∧
    (log.filterMap kept? = log.filterMap handed? →
      builder.toolchain.showTiming = s.front.showTiming) ∧
    ∀ later t successor, Timed s.abort later t → (∀ event ∈ later, ∃ on, event = .started on) →
      t.front.live.Rests successor → successor.toolchain.showTiming = s.front.showTiming := by
  have switched := timed.switched
  have shown : builder.toolchain.showTiming = s.front.showTiming ↔
      ∀ on, latest given? log = some (.handed on) → latest kept? log = some on := by
    rw [rests.shows switched.comes]
    exact switched.comes_to_stored_iff quiet
  refine ⟨shown, fun order => shown.mpr fun on last => ?_, ?_⟩
  · rw [latest, order]
    exact latest_handed last
  · intro later t successor more starts still
    have whole := (timed.started.trans more).switched
    rw [List.append_assoc] at whole
    obtain ⟨idle, kept⟩ := switched.kept_through_starts quiet whole
      (List.forall_mem_cons.mpr ⟨⟨_, rfl⟩, starts⟩)
    rw [still.shows whole.comes]
    exact (whole.untold (fun on => not_handed_of_starts starts) idle).trans kept

/-- A thread that was started with the switch of a call and is told by the same call. -/
theorem Timed.shows_kept_over_abort :
    ∃ (log : List Switching) (s : Traffic restingEngine Unit) (builder : Builder restingEngine),
      Timed (.start {} {} ()) log s ∧ s.switches = [] ∧ s.front.live.Rests builder ∧
        log = [.kept true, .started true, .handed true] ∧ s.front.showTiming = true ∧
        builder.toolchain.showTiming = s.front.showTiming := by
  have kept : Timed (.start {} {} () : Traffic restingEngine Unit) _ _ := .kept true .here
  have handed := kept.started.handed (show _ = [] ++ true :: [] from rfl)
  have renewed := handed.aside (.live () (.takeTiming rfl rfl)) rfl rfl
  have told := renewed.aside (.live () (.takeTiming rfl rfl)) rfl rfl
  refine ⟨_, _, _, told, rfl, ⟨rfl, rfl⟩, rfl, rfl, ?_⟩
  exact (told.shows_kept_iff rfl ⟨rfl, rfl⟩).2.1 rfl

/-- A call that turns the times on is overtaken by one that turns them off: it keeps its switch
first and hands it on last. The thread goes on to show times, and an abort hides them. -/
theorem Run.timing_overtaken :
    ∃ (trace later : List (Event restingEngine)) (s t : Traffic restingEngine Unit)
      (builder successor : Builder restingEngine),
      (Run (.start {} {} ()) trace s ∧ s.switches = [] ∧ s.front.live.Rests builder) ∧
        (Run s.abort later t ∧ t.switches = [] ∧ t.front.live.Rests successor) ∧
        s.front.showTiming = false ∧ builder.toolchain.showTiming = true ∧
        successor.toolchain.showTiming = false := by
  have first : Run (.start {} {} () : Traffic restingEngine Unit) [] (.start {} {} ()) := .here
  have both := (first.step (.keepTiming true)).step (.keepTiming false)
  have hidden := both.step (.handTiming (show _ = [true] ++ false :: [] from rfl))
  have shown := hidden.step (.handTiming (show _ = [] ++ true :: [] from rfl))
  have started := shown.step (.live () (.takeTiming rfl rfl))
  have second := started.step (.live () (.takeTiming rfl rfl))
  have told := second.step (.live () (.takeTiming rfl rfl))
  have renewed := fun s : Traffic restingEngine Unit =>
    (.here : Run s.abort [] s.abort).step (.live () (.takeTiming rfl rfl))
  exact ⟨_, _, _, _, _, _, ⟨told, rfl, rfl, rfl⟩, ⟨renewed _, rfl, rfl, rfl⟩, rfl, rfl, rfl⟩

/-- A thread that has done all that it was given need not show times as the switch that is kept
says. -/
theorem Run.kept_not_always_shown :
    ¬ ∀ (trace : List (Event restingEngine)) (s : Traffic restingEngine Unit)
      (builder : Builder restingEngine), Run (.start {} {} ()) trace s → s.switches = [] →
      s.front.live.Rests builder → builder.toolchain.showTiming = s.front.showTiming := by
  intro always
  obtain ⟨trace, _, s, _, builder, _, ⟨run, quiet, rests⟩, _, stored, shown, _⟩ :=
    Run.timing_overtaken
  have same := always trace s builder run quiet rests
  rw [stored, shown] at same
  cases same

end Session

end Buildbox
