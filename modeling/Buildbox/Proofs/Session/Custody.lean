import Buildbox.Proofs.Session.Requests
import Buildbox.Proofs.Session.Traffic
import Mathlib.Data.List.Forall2

/-!
The program that a builder holds. Over all messages that it handles, a builder answers its requests
in order, and what it holds is the program of its latest build, as long as that paused and every
call since then succeeded.
-/

set_option autoImplicit false

namespace Buildbox.Session

variable {engine : Engine}

inductive Message
  | constructor
  | showTiming (on : Bool)
  | request (id : RequestId) (request : Request)

def Message.requestId : Message → Option RequestId
  | .request id _ => some id
  | _ => none

def HostMessage.answeredId : HostMessage → Option RequestId
  | .runAsync id _ => some id
  | _ => none

def postsOf (trace : Trace) : List HostMessage :=
  trace.filterMap fun
    | ⟨.write text, _⟩ => some (.write text)
    | ⟨.askLine, _⟩ => some .readLine
    | _ => none

/-- A message with what a builder did about it. -/
structure Turn (engine : Engine) where
  message : Message
  before : Builder engine
  trace : Trace
  posts : List HostMessage
  after : Builder engine

inductive Turn.Handled : Turn engine → Prop
  | constructor {builder : Builder engine} :
      Handled ⟨.constructor, builder, [], [], builder⟩
  | showTiming {builder : Builder engine} {on : Bool} :
      Handled ⟨.showTiming on, builder, [], [], builder.setShowTiming on⟩
  | request {id : RequestId} {request : Request} {before after : Builder engine} {trace : Trace}
      {result : Option Response}
      (ran : Host.Runs (before.serve request) trace (result, after)) :
      Handled ⟨.request id request, before, trace, postsOf trace ++ [.runAsync id result], after⟩

def Builder.handle (answers : Trace → (q : Query) → q.Answer) (self : Builder engine)
    (message : Message) : Turn engine :=
  match message with
  | .constructor => ⟨.constructor, self, [], [], self⟩
  | .showTiming on => ⟨.showTiming on, self, [], [], self.setShowTiming on⟩
  | .request id request =>
    let served := (self.serve request).answered answers []
    ⟨.request id request, self, served.1, postsOf served.1 ++ [.runAsync id served.2.1],
      served.2.2⟩

/-- A builder with all that it has handled. -/
inductive Career (config : Config) : List (Turn engine) → Builder engine → Prop
  | new : Career config [] (.new config)
  | handled {turns : List (Turn engine)} {turn : Turn engine}
      (earlier : Career config turns turn.before) (handled : turn.Handled) :
      Career config (turns ++ [turn]) turn.after

theorem Builder.handled_handle (answers : Trace → (q : Query) → q.Answer) (self : Builder engine)
    (message : Message) : (self.handle answers message).Handled := by
  cases message with
  | constructor => exact .constructor
  | showTiming on => exact .showTiming
  | request id request => exact .request (Host.runs_answered answers [] (self.serve request))

section Handle

variable (answers : Trace → (q : Query) → q.Answer) (self : Builder engine) (message : Message)

@[simp] theorem Builder.message_handle : (self.handle answers message).message = message := by
  cases message <;> rfl

@[simp] theorem Builder.before_handle : (self.handle answers message).before = self := by
  cases message <;> rfl

theorem Builder.answered_handle {early late : Trace} {exchange : Exchange}
    (split : (self.handle answers message).trace = early ++ exchange :: late) :
    exchange.answer = answers early exchange.query := by
  cases message with
  | constructor | showTiming on => simp [Builder.handle] at split
  | request id request => exact Host.answered_as_given split

end Handle

namespace Happening

def Spares : Happening engine → Prop
  | .aside | .refused => True
  | .unbuilt | .built _ _ => False
  | .called deed => ∃ outcome, deed.answer = .calledAgain (.ok outcome) ∧
      (outcome = .exited 0 ∨ outcome = .paused)

def calls : Happening engine → List (Guest.Deed engine)
  | .called deed => [deed]
  | _ => []

end Happening

/-- The guest is the program of the latest build, which paused, and since then every continuation
that ran was a success. -/
def Keeps (happenings : List (Happening engine)) (guest : Guest engine) : Prop :=
  ∃ early start run late, happenings = early ++ .built start run :: late ∧
    run.answer = .ran .paused ∧ (∀ happening ∈ late, happening.Spares) ∧
    Guest.Life run.after (late.flatMap Happening.calls) guest

theorem keeps_append {happenings : List (Happening engine)} {happening : Happening engine}
    {guest : Guest engine} :
    Keeps (happenings ++ [happening]) guest ↔
      (∃ start run, happening = .built start run ∧ run.answer = .ran .paused ∧
        guest = run.after) ∨
      happening.Spares ∧ ∃ earlier, Keeps happenings earlier ∧
        Guest.Life earlier happening.calls guest := by
  constructor
  · rintro ⟨early, start, run, late, split, paused, spared, life⟩
    rcases split_concat split with ⟨-, rfl, rfl⟩ | ⟨rest, rfl, rfl⟩
    · exact .inl ⟨start, run, rfl, paused, Guest.Life.nil_iff.mp life⟩
    · rw [List.flatMap_append, Guest.Life.append_iff] at life
      obtain ⟨between, earlier, last⟩ := life
      rw [List.flatMap_singleton] at last
      have spares := spared _ (List.mem_append_right _ (List.mem_singleton_self _))
      refine .inr ⟨spares, between, ?_, last⟩
      exact ⟨early, start, run, rest, rfl, paused,
        fun other among => spared other (List.mem_append_left _ among), earlier⟩
  · rintro (⟨start, run, rfl, paused, rfl⟩ |
      ⟨spares, between, ⟨early, start, run, late, rfl, paused, spared, earlier⟩, last⟩)
    · exact ⟨happenings, start, run, [], rfl, paused, fun _ => nofun, .nil⟩
    · refine ⟨early, start, run, late ++ [happening], by simp, paused, fun other among => ?_, ?_⟩
      · rcases List.mem_append.mp among with among | last
        · exact spared other among
        · rw [List.mem_singleton.mp last]
          exact spares
      · rw [List.flatMap_append, List.flatMap_singleton, Guest.Life.append_iff]
        exact ⟨between, earlier, last⟩

inductive Turn.Comes : Turn engine → Happening engine → Prop
  | constructor {builder : Builder engine} : Comes ⟨.constructor, builder, [], [], builder⟩ .aside
  | showTiming {builder : Builder engine} {on : Bool} :
      Comes ⟨.showTiming on, builder, [], [], builder.setShowTiming on⟩ .aside
  | request {id : RequestId} {request : Request} {before after : Builder engine} {trace : Trace}
      {result : Option Response} {happening : Happening engine}
      (serves : before.Serves request trace result after happening) :
      Comes ⟨.request id request, before, trace, postsOf trace ++ [.runAsync id result], after⟩
        happening

namespace Turn.Comes

variable {turn : Turn engine} {happening : Happening engine}

theorem sound (comes : turn.Comes happening) (sound : turn.before.Sound) : turn.after.Sound := by
  cases comes with
  | constructor => exact sound
  | showTiming =>
    refine ⟨fun guest held => ?_, sound.past⟩
    obtain ⟨waiting, up, past, unrevoked⟩ := sound.holds guest held
    exact ⟨waiting, up, past, unrevoked⟩
  | request serves => exact serves.sound sound

private theorem keeps_same {turn : Turn engine} {happenings : List (Happening engine)}
    {guest : Guest engine} (keeps : ∀ guest, turn.before.held = some guest ↔ Keeps happenings guest)
    (spares : happening.Spares) (nothing : happening.calls = [])
    (held : turn.after.held = turn.before.held) :
    turn.after.held = some guest ↔ Keeps (happenings ++ [happening]) guest := by
  rw [keeps_append, nothing, held, keeps]
  constructor
  · exact fun kept => .inr ⟨spares, guest, kept, .nil⟩
  · rintro (⟨start, run, rfl, -, -⟩ | ⟨-, earlier, kept, life⟩)
    · exact spares.elim
    · rw [Guest.Life.nil_iff.mp life]
      exact kept

theorem keeps (comes : turn.Comes happening) {happenings : List (Happening engine)}
    (keeps : ∀ guest, turn.before.held = some guest ↔ Keeps happenings guest)
    (guest : Guest engine) :
    turn.after.held = some guest ↔ Keeps (happenings ++ [happening]) guest := by
  cases comes with
  | constructor | showTiming => exact keeps_same keeps trivial rfl rfl
  | request serves =>
    cases serves with
    | checked ran | refused reason => exact keeps_same keeps trivial rfl rfl
    | unbuilt gives ran =>
      -- a build that failed holds nobody, and no guest of before is spared
      rw [keeps_append]
      constructor
      · exact fun held => nomatch gives.held.symm.trans held
      · rintro (⟨_, _, impossible, -⟩ | ⟨impossible, -⟩)
        · cases impossible
        · exact impossible.elim
    | built gives ran builds =>
      rw [keeps_append]
      constructor
      · intro held
        rcases builds.held with ⟨rfl, rfl⟩ | ⟨-, rfl⟩
        · exact .inl ⟨_, _, rfl, builds.follows.answer, (Option.some.inj held).symm⟩
        · cases held
      · rintro (⟨_, _, same, paused, rfl⟩ | ⟨impossible, -⟩)
        · cases same
          rcases builds.held with ⟨-, held⟩ | ⟨rfl, -⟩
          · exact held
          · cases builds.follows.answer.symm.trans paused
        · exact impossible.elim
    | @continued _ outcome deed calls good =>
      rw [keeps_append]
      constructor
      · intro held
        cases held
        have spares : (Happening.called deed).Spares :=
          ⟨outcome, calls.answer, Outcome.isSuccess_iff.mp good⟩
        exact .inr ⟨spares, deed.before, (keeps _).mp calls.held, .cons calls.done .nil⟩
      · rintro (⟨_, _, impossible, -⟩ | ⟨-, earlier, -, life⟩)
        · cases impossible
        · -- the call is a deed of the guest that was held, so nobody else comes out of it
          obtain ⟨-, -, life⟩ := Guest.Life.cons_iff.mp life
          rw [Guest.Life.nil_iff.mp life]
          rfl
    | @ended _ outcome deed _ _ calls bad gives =>
      rw [keeps_append]
      constructor
      · exact fun held => nomatch gives.held.symm.trans held
      · rintro (⟨_, _, impossible, -⟩ | ⟨⟨other, answer, good⟩, -⟩)
        · cases impossible
        · cases calls.answer.symm.trans answer
          rw [← Outcome.isSuccess_iff, bad] at good
          cases good

end Turn.Comes

theorem Turn.Handled.comes {turn : Turn engine} (handled : turn.Handled)
    (sound : turn.before.Sound) : ∃ happening, turn.Comes happening := by
  cases handled with
  | constructor => exact ⟨_, .constructor⟩
  | showTiming => exact ⟨_, .showTiming⟩
  | request ran =>
    obtain ⟨happening, serves⟩ := Builder.serves_of_run sound ran
    exact ⟨happening, .request serves⟩

theorem answers_postsOf (trace : Trace) :
    (postsOf trace).filterMap HostMessage.answeredId = [] := by
  induction trace with
  | nil => rfl
  | cons exchange rest ih =>
    obtain ⟨query, answer⟩ := exchange
    cases query <;> exact ih

/-- What holds of every turn. -/
structure Turn.Lawful (turn : Turn engine) : Prop where
  /-- a request is answered under its number, after all that was posted on the way -/
  answered : ∀ id request, turn.message = .request id request →
    ∃ result, turn.posts = postsOf turn.trace ++ [.runAsync id result]
  silent : turn.message.requestId = none → turn.trace = [] ∧ turn.posts = []
  /-- whoever is held loses its permission before the build begins, however that ends -/
  released : ∀ id source, turn.message = .request id (.compileLinkRun source) →
    ∃ giving building released result, turn.before.GivesUp giving released ∧
      (∀ guest, turn.before.held = some guest →
        turn.before.allows guest = true ∧ released.allows guest = false) ∧
      Host.Does (Toolchain.compileLinkRun source) released.toolchain building result
        turn.after.toolchain ∧
      turn.trace = giving ++ building ∧ turn.after.revoked = released.revoked
  /-- a permission that was taken away is not given back -/
  final : ∀ guest, turn.before.allows guest = false → turn.after.allows guest = false
  rejected : ∀ id name, turn.message = .request id (.callContinuation name) →
    (∀ guest, turn.before.held = some guest → engine.functionType? guest.module name = none) →
      turn.posts = [.runAsync id none] ∧ turn.after = turn.before
  reported : ∀ id continuing, .runAsync id (some (.runReport continuing)) ∈ turn.posts →
    continuing = turn.after.held.isSome

/-- What holds of a builder after these turns. -/
structure Lawful (turns : List (Turn engine)) (builder : Builder engine) : Prop where
  /-- as long as the surroundings answer, the next message is handled to its end -/
  goes_on : ∀ (message : Message) (answers : Trace → (q : Query) → q.Answer),
    ∃ turn : Turn engine, turn.message = message ∧ turn.before = builder ∧ turn.Handled ∧
      ∀ early exchange late, turn.trace = early ++ exchange :: late →
        exchange.answer = answers early exchange.query
  each : ∀ turn ∈ turns, turn.Lawful
  /-- every request is answered once, in the order in which they came -/
  in_order : (turns.flatMap Turn.posts).filterMap HostMessage.answeredId =
    turns.filterMap fun turn => turn.message.requestId
  waiting : ∀ guest, builder.held = some guest →
    guest.stage = .finished ∧ builder.allows guest = true
  custody : ∃ happenings, List.Forall₂ Turn.Comes turns happenings ∧
    ∀ guest, builder.held = some guest ↔ Keeps happenings guest

namespace Turn.Comes

variable {turn : Turn engine} {happening : Happening engine}

theorem answers (comes : turn.Comes happening) :
    turn.posts.filterMap HostMessage.answeredId = turn.message.requestId.toList := by
  cases comes with
  | constructor | showTiming => rfl
  | request serves =>
    rw [List.filterMap_append, answers_postsOf]
    rfl

private theorem not_answers {trace : Trace} {id : RequestId} {result : Option Response} :
    .runAsync id result ∉ postsOf trace := by
  intro among
  have answers : id ∈ (postsOf trace).filterMap HostMessage.answeredId :=
    List.mem_filterMap.mpr ⟨_, among, rfl⟩
  rw [answers_postsOf] at answers
  cases answers

theorem grows (comes : turn.Comes happening) : turn.before.revoked ⊆ turn.after.revoked := by
  cases comes with
  | constructor | showTiming => exact List.Subset.refl _
  | request serves =>
    cases serves with
    | checked | refused | continued => exact List.Subset.refl _
    | unbuilt gives | built gives | ended _ _ gives => exact gives.grows

theorem final (comes : turn.Comes happening) (guest : Guest engine)
    (gone : turn.before.allows guest = false) : turn.after.allows guest = false := by
  rw [← Bool.not_eq_true, Builder.allows_iff] at gone ⊢
  exact fun still => gone ⟨still.1, fun among => still.2 (comes.grows among)⟩

theorem lawful (comes : turn.Comes happening) (sound : turn.before.Sound) : turn.Lawful := by
  have final := comes.final
  cases comes with
  | constructor | showTiming => exact ⟨nofun, fun _ => ⟨rfl, rfl⟩, nofun, final, nofun, nofun⟩
  | @request id _ before after trace result happening serves =>
    -- the one answer in what is posted stands at its end
    have only {other : RequestId} {reply : Option Response}
        (posted : .runAsync other reply ∈ postsOf trace ++ [.runAsync id result]) :
        reply = result := by
      rcases List.mem_append.mp posted with early | last
      · exact absurd early not_answers
      · cases List.mem_singleton.mp last
        rfl
    refine ⟨fun other request same => ?_, nofun, fun other source same => ?_, final,
      fun other name same missing => ?_, fun other continuing posted => ?_⟩
    · cases same
      exact ⟨result, rfl⟩
    · cases same
      cases serves with
      | unbuilt gives ran | built gives ran =>
        exact ⟨_, _, _, _, gives, fun guest held => ⟨(sound.holds guest held).allows,
          gives.disallows held⟩, ran, rfl, rfl⟩
    · cases same
      cases serves with
      | refused reason => exact ⟨rfl, rfl⟩
      | continued calls good => exact absurd (missing _ calls.held) calls.exported
      | ended calls bad gives => exact absurd (missing _ calls.held) calls.exported
    · have same := only posted
      cases serves with
      | @checked _ _ result _ ran =>
        cases result with
        | ok found => cases same
        | error failure => cases same
      | unbuilt gives ran | refused reason | ended calls bad gives => cases same
      | built gives ran builds | continued calls good =>
        cases same
        rfl

end Turn.Comes

namespace Career

variable {config : Config} {turns : List (Turn engine)} {builder : Builder engine}

theorem sound (career : Career config turns builder) : builder.Sound := by
  induction career with
  | new => exact ⟨nofun, nofun⟩
  | handled earlier handled ih =>
    obtain ⟨happening, comes⟩ := handled.comes ih
    exact comes.sound ih

theorem handle (career : Career config turns builder) (answers : Trace → (q : Query) → q.Answer)
    (message : Message) :
    Career config (turns ++ [builder.handle answers message])
      (builder.handle answers message).after := by
  refine .handled ?_ (builder.handled_handle answers message)
  rw [builder.before_handle]
  exact career

theorem custody (career : Career config turns builder) :
    ∃ happenings, List.Forall₂ Turn.Comes turns happenings ∧
      ∀ guest, builder.held = some guest ↔ Keeps happenings guest := by
  induction career with
  | new =>
    refine ⟨[], .nil, fun guest => ⟨nofun, ?_⟩⟩
    rintro ⟨_, _, _, _, split, -⟩
    simp at split
  | handled earlier handled ih =>
    obtain ⟨happenings, told, keeps⟩ := ih
    obtain ⟨happening, comes⟩ := handled.comes earlier.sound
    exact ⟨happenings ++ [happening], List.rel_append told (.cons comes .nil), comes.keeps keeps⟩

theorem each (career : Career config turns builder) :
    ∀ turn ∈ turns, turn.before.Sound ∧ ∃ happening, turn.Comes happening := by
  induction career with
  | new => exact fun _ => nofun
  | handled earlier handled ih =>
    intro turn among
    rcases List.mem_append.mp among with before | last
    · exact ih turn before
    · rw [List.mem_singleton.mp last]
      exact ⟨earlier.sound, handled.comes earlier.sound⟩

theorem in_order (career : Career config turns builder) :
    (turns.flatMap Turn.posts).filterMap HostMessage.answeredId =
      turns.filterMap fun turn => turn.message.requestId := by
  have each := career.each
  clear career
  induction turns with
  | nil => rfl
  | cons turn rest ih =>
    obtain ⟨-, happening, comes⟩ := each turn List.mem_cons_self
    have others := ih fun other among => each other (List.mem_cons_of_mem _ among)
    rw [List.flatMap_cons, List.filterMap_append, comes.answers, others]
    cases asked : turn.message.requestId <;> simp [asked]

/-- A builder answers each request once, in the order in which they came and after what was posted
on the way, and holds the program of its latest build as long as that asks to continue. -/
theorem held_by_latest_build (career : Career config turns builder) : Lawful turns builder := by
  refine ⟨fun message answers => ?_, fun turn among => ?_, career.in_order, fun guest held => ?_,
    career.custody⟩
  · refine ⟨builder.handle answers message, builder.message_handle answers message,
      builder.before_handle answers message, builder.handled_handle answers message, ?_⟩
    intro early exchange late split
    exact builder.answered_handle answers message split
  · obtain ⟨sound, happening, comes⟩ := career.each turn among
    exact comes.lawful sound
  · have holds := career.sound.holds guest held
    exact ⟨holds.waiting.stage, holds.allows⟩

/-- An engine for whole builds: the empty binary is a program that asks to continue, and any other
one is a module whose functions do nothing. -/
def patient : Engine where
  Module := Bool
  Instance := Bool × Memory
  load binary := some binary.isEmpty
  imports program :=
    if program then [⟨systemSpace, "proc_exit", .function Syscall.procExit.type⟩] else []
  exports _ := ⟨memoryExport, .memory⟩ ::
    ((startExport, ⟨[], []⟩) :: ("frame", ⟨[], []⟩) :: Filesystem.required).map
      fun named => ⟨named.1, .function named.2⟩
  start program := .returned (program, .ofBytes (Bytes.zeros 16)) []
  memory inst := some inst.2
  setMemory inst memory := (inst.1, memory)
  call inst name _ :=
    if inst.1 && name == startExport then
      .calling inst 0 [.i32 0xC0C0A] false fun inst _ => .returned inst []
    else .returned inst (if name == "FindNode" then [.i32 1] else [])

private def bare (_ : Trace) : (q : Query) → q.Answer
  | .write _ | .note _ | .crash => ()
  | .isClosed => false
  | .askLine => true
  | .takeLine => none
  | .elapsed | .wallClock => 0
  | .random count => Bytes.zeros count
  | .fetch name => .ok (if name == Config.sysroot {} then [] else [0])

/-- A program that paused is called again, a call of what it does not export leaves it as it is,
and the next build takes its permission away. -/
theorem program_held_after_calls :
    ∃ (turns : List (Turn patient)) (builder : Builder patient), Career {} turns builder ∧
      turns.filterMap (fun turn => turn.posts.getLast?) =
        [.runAsync 1 (some (.runReport true)), .runAsync 2 (some (.runReport true)),
          .runAsync 3 none, .runAsync 4 (some (.runReport true))] ∧
      builder.held.map Guest.id = some 6 ∧ builder.revoked = [3] ∧ Lawful turns builder := by
  have fresh : Career {} ([] : List (Turn patient)) _ := .new
  have built := fresh.handle bare (.request 1 (.compileLinkRun ""))
  have called := built.handle bare (.request 2 (.callContinuation "frame"))
  have missed := called.handle bare (.request 3 (.callContinuation "stop"))
  have rebuilt := missed.handle bare (.request 4 (.compileLinkRun ""))
  exact ⟨_, _, rebuilt, by decide +kernel, by decide +kernel, by decide +kernel,
    rebuilt.held_by_latest_build⟩

end Career

def Order.message : Order → Message
  | .request id wanted => .request id wanted
  | .showTiming on => .showTiming on

/-- What a thread does from one moment on, whatever orders and lines reach it meanwhile. -/
inductive Live.Works (first : Live engine) : List Order → List HostMessage → Live engine → Prop
  | here : Works first [] [] first
  | ordered {orders : List Order} {posts : List HostMessage} {live : Live engine} (order : Order)
      (earlier : Works first orders posts live) :
      Works first (orders ++ [order]) posts { live with inbox := live.inbox ++ [order] }
  | fed {orders : List Order} {posts : List HostMessage} {live : Live engine} (input : InputRegion)
      (earlier : Works first orders posts live) : Works first orders posts { live with input }
  | step {closed : Bool} {orders : List Order} {posts messages : List HostMessage}
      {events : List (Event engine)} {live later : Live engine}
      (earlier : Works first orders posts live)
      (step : ThreadStep closed live events messages later) :
      Works first orders (posts ++ messages) later

/-- The thread has handled its orders in turn, or is about to finish the latest of them. -/
inductive Live.Handles (config : Config) (orders : List Order) (posts : List HostMessage)
    (live : Live engine) : Prop
  | idle {turns : List (Turn engine)} {builder : Builder engine} {taken : List Order}
      (career : Career config turns builder) (thread : live.thread = .idle builder)
      (arrived : orders = taken ++ live.inbox)
      (handled : turns.map Turn.message = taken.map Order.message)
      (posted : posts = turns.flatMap Turn.posts)
  | serving {turns : List (Turn engine)} {builder : Builder engine} {taken : List Order}
      {id : RequestId} {request : Request} {exchanges : Trace}
      {task : Host (Option Response × Builder engine)}
      (career : Career config turns builder) (thread : live.thread = .serving id task)
      (goes : (builder.serve request).Goes exchanges task)
      (arrived : orders = taken ++ .request id request :: live.inbox)
      (handled : turns.map Turn.message = taken.map Order.message)
      (posted : posts = turns.flatMap Turn.posts ++ postsOf exchanges)

namespace Live.Handles

variable {config : Config} {orders : List Order} {posts : List HostMessage}
  {live later : Live engine}

private theorem resume (handles : live.Handles config orders posts) {id : RequestId} {query : Query}
    {resume : query.Answer → Host (Option Response × Builder engine)}
    (serving : live.thread = .serving id (.ask query resume)) (answer : query.Answer)
    (input : InputRegion) :
    Handles config orders (posts ++ postsOf [⟨query, answer⟩])
      { live with input, thread := .serving id (resume answer) } := by
  cases handles with
  | idle career thread arrived handled posted => cases thread.symm.trans serving
  | serving career thread goes arrived handled posted =>
    cases thread.symm.trans serving
    refine .serving career rfl (goes.answered answer) arrived handled ?_
    rw [posted, List.append_assoc]
    exact congrArg _ List.filterMap_append.symm

theorem step (handles : live.Handles config orders posts) {closed : Bool}
    {events : List (Event engine)} {messages : List HostMessage}
    (step : ThreadStep closed live events messages later) :
    later.Handles config orders (posts ++ messages) := by
  -- an answered query only brings the task further; an order that is over becomes a turn
  cases step with
  | write serving | isClosed serving | askLine serving => exact handles.resume serving _ live.input
  | takeLine serving taken => exact handles.resume serving _ _
  | takeNothing serving taken => exact handles.resume serving _ live.input
  | @outside id query resume answer serving external =>
    have silent : postsOf [⟨query, answer⟩] = [] := by cases query <;> first | rfl | cases external
    rw [← silent]
    exact handles.resume serving answer live.input
  | @takeTiming builder on rest idle inbox =>
    cases handles with
    | serving career thread goes arrived handled posted => cases thread.symm.trans idle
    | @idle turns _ taken career thread arrived handled posted =>
      cases thread.symm.trans idle
      have onward : Career config (turns ++ [⟨.showTiming on, builder, [], [], _⟩]) _ :=
        .handled career .showTiming
      have arrived : orders = (taken ++ [.showTiming on]) ++ rest := by simp [arrived, inbox]
      exact .idle onward rfl arrived (by simp [handled, Order.message]) (by simp [posted])
  | takeRequest idle inbox =>
    cases handles with
    | serving career thread goes arrived handled posted => cases thread.symm.trans idle
    | idle career thread arrived handled posted =>
      cases thread.symm.trans idle
      rw [inbox] at arrived
      refine .serving career rfl (.start _) arrived handled ?_
      rw [posted, List.append_nil]
      exact (List.append_nil _).symm
  | @finish id result builder serving =>
    cases handles with
    | idle career thread arrived handled posted => cases thread.symm.trans serving
    | @serving turns before taken _ request exchanges _ career thread goes arrived handled posted =>
      cases thread.symm.trans serving
      have onward : Career config (turns ++ [⟨.request id request, before, exchanges,
          postsOf exchanges ++ [.runAsync id result], builder⟩]) builder :=
        .handled career (.request goes.done)
      have arrived : orders = (taken ++ [.request id request]) ++ live.inbox := by simp [arrived]
      exact .idle onward rfl arrived (by simp [handled, Order.message]) (by simp [posted])

end Live.Handles

theorem Live.Works.handles {generation : Generation} {config : Config} {showTiming : Bool}
    {orders : List Order} {posts : List HostMessage} {live : Live engine}
    (works : Works (Frontend.startThread generation config showTiming) orders posts live) :
    live.Handles config (.showTiming showTiming :: orders) posts := by
  induction works with
  | here => exact .idle .new rfl (List.nil_append _).symm rfl rfl
  | ordered order earlier ih =>
    rw [← List.cons_append]
    cases ih with
    | idle career thread arrived handled posted =>
      exact .idle career thread (by simp [arrived]) handled posted
    | serving career thread goes arrived handled posted =>
      exact .serving career thread goes (by simp [arrived]) handled posted
  | fed input earlier ih =>
    cases ih with
    | idle career thread arrived handled posted =>
      exact .idle career thread arrived handled posted
    | serving career thread goes arrived handled posted =>
      exact .serving career thread goes arrived handled posted
  | step earlier step ih => exact ih.step step

end Buildbox.Session
