import Buildbox.Proofs.Session.Settlement

/-!
Operations done one after another. Each operation of the interactive side is a run of the session in
which the messages of the live thread are taken, judged and acted on as soon as they are posted, so
whatever holds of every run holds of every sequence of operations.
-/

set_option autoImplicit false

namespace Buildbox.Session

variable {engine : Engine} {ω : Type}

/-- No message is on its way. -/
structure Calm (s : Traffic engine ω) : Prop where
  posts : s.posts = []
  hand : s.hand = .empty

/-- A calm session can get, by some run in which nobody draws a number, to a calm one with the given
interactive side. -/
def Reaches (s : Traffic engine ω) (front : Frontend engine ω) : Prop :=
  ∃ trace t, Run s trace t ∧ Calm t ∧ t.front = front ∧ front.nextId = s.front.nextId

theorem Reaches.here {s : Traffic engine ω} (calm : Calm s) {front : Frontend engine ω}
    (same : s.front = front) : Reaches s front :=
  ⟨[], s, .here, calm, same, congrArg Frontend.nextId same.symm⟩

/-- Runs are put together through whatever session stands between them. -/
theorem Reaches.trans {s : Traffic engine ω} {middle last : Frontend engine ω}
    (first : Reaches s middle)
    (second : ∀ t : Traffic engine ω, Calm t → t.front = middle → Reaches t last) :
    Reaches s last := by
  obtain ⟨trace, t, run, calm, same, number⟩ := first
  obtain ⟨later, u, more, calm_later, same_later, later_number⟩ := second t calm same
  rw [same] at later_number
  exact ⟨trace ++ later, u, run.trans more, calm_later, same_later, later_number.trans number⟩

namespace Frontend

/-- The interactive side with another inbox and another work of its live thread. -/
def onThread (front : Frontend engine ω) (inbox : List Order) (thread : Thread engine) :
    Frontend engine ω :=
  { front with live := { front.live with inbox, thread } }

theorem dispatch_live (front : Frontend engine ω) (message : HostMessage) :
    front.dispatch front.live.generation message = front.act front.live.generation message := by
  rw [dispatch, if_neg]
  rw [bne_self_eq_false]
  exact Bool.false_ne_true

theorem act_onThread (front : Frontend engine ω) (inbox : List Order) (thread : Thread engine)
    (generation : Generation) (message : HostMessage) :
    (front.onThread inbox thread).act generation message =
      (front.act generation message).onThread inbox thread := by
  cases message with
  | write text => rfl
  | readLine =>
    simp only [act, onThread]
    rcases front.terminal.requestLine generation with ⟨line, terminal⟩
    cases line with
    | some line =>
      simp only [deliver]
      split
      · rfl
      · rfl
    | none => rfl
  | runAsync id result =>
    show (front.onThread inbox thread).complete id (.ofResult result) =
      (front.complete id (.ofResult result)).onThread inbox thread
    by_cases isOpen : front.pending.contains id = true
    · rw [complete, complete, if_pos isOpen]
      exact if_pos isOpen
    · rw [complete, complete, if_neg isOpen]
      exact if_neg isOpen

end Frontend

theorem Traffic.front_deliver (s : Traffic engine ω) (generation : Generation) (line : String) :
    (s.deliver generation line).front = s.front.deliver generation line := by
  simp only [deliver, Live.deliver, Frontend.deliver]
  split
  · rfl
  · rfl

theorem Traffic.front_act (s : Traffic engine ω) (generation : Generation)
    (message : HostMessage) :
    (s.act generation message).front = s.front.act generation message := by
  cases message with
  | write text => rfl
  | readLine =>
    simp only [act, ask, Frontend.act]
    rcases s.front.terminal.requestLine generation with ⟨line, terminal⟩
    cases line with
    | some line => exact front_deliver { s with front := { s.front with terminal } } generation line
    | none => rfl
  | runAsync id result => rfl

theorem Frontend.nextId_act (front : Frontend engine ω) (generation : Generation)
    (message : HostMessage) : (front.act generation message).nextId = front.nextId := by
  obtain ⟨terminal, live, retired, pending, settled, same, _⟩ :=
    Traffic.act_frame { front } generation message
  have acted := congrArg Traffic.front same
  rw [Traffic.front_act] at acted
  rw [acted]

theorem Calm.act {s : Traffic engine ω} (calm : Calm s) (generation : Generation)
    (message : HostMessage) : Calm (s.act generation message) := by
  obtain ⟨terminal, live, retired, pending, settled, same, _, _⟩ := s.act_frame generation message
  rw [same]
  exact ⟨calm.posts, calm.hand⟩

private theorem reaches_quiet {s : Traffic engine ω} (calm : Calm s) {front : Frontend engine ω}
    (same : s.front = front) {events : List (Event engine)} {live : Live engine} (outside : ω)
    (step : ThreadStep false front.live events [] live) :
    Reaches s { front with live, outside } := by
  subst same
  refine ⟨_, _, (Step.live outside step).run, ⟨?_, calm.hand⟩, rfl, rfl⟩
  show s.posts ++ [] = []
  rw [calm.posts, List.append_nil]

private theorem reaches_post {s : Traffic engine ω} (calm : Calm s) {front : Frontend engine ω}
    (same : s.front = front) {events : List (Event engine)} {message : HostMessage}
    {live : Live engine} (step : ThreadStep false front.live events [message] live) :
    Reaches s ({ front with live }.act live.generation message) := by
  subst same
  have generation := step.generation_eq
  have posted := (Step.live s.front.outside step).run
  have queue : s.posts ++ stamped s.front.live.generation [message] =
      [(live.generation, message)] := by
    rw [calm.posts, generation]
    rfl
  have taken := posted.step (.take queue calm.hand)
  have judged := taken.step (.judge rfl)
  have acted := judged.step (.act rfl)
  exact ⟨_, _, acted, .act ⟨rfl, rfl⟩ live.generation message, Traffic.front_act _ _ _,
    Frontend.nextId_act _ _ _⟩

section

variable (others : (q : Query) → ω → Option (q.Answer × ω))

private theorem answer_onThread (query : Query) (front : Frontend engine ω) (inbox : List Order)
    (thread : Thread engine) :
    Frontend.answer others query (front.onThread inbox thread) =
      (Frontend.answer others query front).map fun (a, front) =>
        (a, front.onThread inbox thread) := by
  have dispatched (message : HostMessage) :
      (front.onThread inbox thread).dispatch front.live.generation message =
        (front.dispatch front.live.generation message).onThread inbox thread := by
    rw [Frontend.dispatch_live, ← Frontend.act_onThread]
    exact Frontend.dispatch_live (front.onThread inbox thread) message
  cases query with
  | write text => exact congrArg (fun front => some ((), front)) (dispatched (.write text))
  | isClosed | crash => rfl
  | askLine => exact congrArg (fun front => some (true, front)) (dispatched .readLine)
  | takeLine =>
    simp only [Frontend.answer, Frontend.onThread]
    cases front.live.input.take with
    | blocked => rfl
    | closed => rfl
    | line bytes input => rfl
  | elapsed | wallClock | random count | note text | fetch name =>
    simp only [Frontend.answer, Frontend.onThread, Option.map_map]
    rfl

private theorem answer_inbox {query : Query} {front later : Frontend engine ω}
    {answer : query.Answer} (answered : Frontend.answer others query front = some (answer, later)) :
    later.live.inbox = front.live.inbox := by
  have same := answer_onThread others query front front.live.inbox front.live.thread
  rw [answered] at same
  have kept := same.symm.trans answered
  injection kept with kept
  injection kept with _ kept
  rw [← kept]
  rfl

private theorem reaches_answer {s : Traffic engine ω} (calm : Calm s)
    {front later : Frontend engine ω} {inbox : List Order} {id : RequestId} {query : Query}
    {resume : query.Answer → Host (Option Response × Builder engine)} {answer : query.Answer}
    (same : s.front = front.onThread inbox (.serving id (.ask query resume)))
    (answered : Frontend.answer others query front = some (answer, later)) :
    Reaches s (later.onThread inbox (.serving id (resume answer))) := by
  cases query with
  | write text =>
    cases answered
    rw [Frontend.dispatch_live, ← Frontend.act_onThread]
    exact reaches_post calm same (.write rfl)
  | isClosed =>
    cases answered
    exact reaches_quiet calm same front.outside (.isClosed rfl)
  | askLine =>
    cases answered
    rw [Frontend.dispatch_live, ← Frontend.act_onThread]
    exact reaches_post calm same (.askLine rfl)
  | takeLine =>
    simp only [Frontend.answer] at answered
    cases taken : front.live.input.take with
    | blocked =>
      rw [taken] at answered
      cases answered
    | closed =>
      rw [taken] at answered
      cases answered
      exact reaches_quiet calm same front.outside (.takeNothing rfl taken)
    | line bytes input =>
      rw [taken] at answered
      cases answered
      exact reaches_quiet calm same front.outside (.takeLine rfl taken)
  | crash => cases answered
  | elapsed | wallClock | random count | note text | fetch name =>
    obtain ⟨⟨given, outside⟩, _, rest⟩ := Option.map_eq_some_iff.mp answered
    cases rest
    exact reaches_quiet calm same outside (.outside _ rfl rfl)

private theorem work_done (front : Frontend engine ω) (id : RequestId) (result : Option Response)
    (builder : Builder engine) :
    front.work others id (.done (result, builder)) =
      (front.act front.live.generation (.runAsync id result)).onThread front.live.inbox
        (.idle builder) := by
  rw [← Frontend.act_onThread]
  exact Frontend.dispatch_live (front.onThread front.live.inbox (.idle builder)) _

private theorem work_ask (front : Frontend engine ω) (id : RequestId) {query : Query}
    (resume : query.Answer → Host (Option Response × Builder engine)) :
    front.work others id (.ask query resume) =
      match Frontend.answer others query front with
      | some (answer, later) => later.work others id (resume answer)
      | none => front.onThread front.live.inbox (.serving id (.ask query resume)) := by
  rw [Frontend.work, Host.run]
  cases Frontend.answer others query front with
  | some result => rfl
  | none => rfl

private theorem reaches_work {s : Traffic engine ω} (calm : Calm s) {front : Frontend engine ω}
    {inbox : List Order} {id : RequestId} {task : Host (Option Response × Builder engine)}
    (same : s.front = front.onThread inbox (.serving id task)) :
    Reaches s ((front.work others id task).onThread inbox
      (front.work others id task).live.thread) := by
  -- the induction is on what is left of the request
  induction task generalizing s front with
  | done result =>
    obtain ⟨result, builder⟩ := result
    have posted := reaches_post calm same (.finish rfl)
    have acted := front.act_onThread inbox (.idle builder) front.live.generation (.runAsync id result)
    rw [work_done]
    exact acted ▸ posted
  | ask query resume ih =>
    rw [work_ask]
    cases answered : Frontend.answer others query front with
    | some result =>
      obtain ⟨answer, later⟩ := result
      exact (reaches_answer others calm same answered).trans fun t calm_later same_later =>
        ih answer calm_later same_later
    | none => exact .here calm same

private theorem work_inbox (front : Frontend engine ω) (id : RequestId)
    (task : Host (Option Response × Builder engine)) :
    (front.work others id task).live.inbox = front.live.inbox := by
  induction task generalizing front with
  | done result =>
    rw [work_done]
    rfl
  | ask query resume ih =>
    rw [work_ask]
    cases answered : Frontend.answer others query front with
    | some result =>
      obtain ⟨answer, later⟩ := result
      exact (ih answer later).trans (answer_inbox others answered)
    | none => rfl

private theorem reaches_serveOrders {s : Traffic engine ω} (calm : Calm s)
    {front : Frontend engine ω} {orders : List Order}
    (same : s.front = front.onThread orders front.live.thread) :
    Reaches s (front.serveOrders others orders) := by
  induction orders generalizing s front with
  | nil => exact .here calm same
  | cons order rest ih =>
    unfold Frontend.serveOrders
    cases doing : front.live.thread with
    | serving id task => exact .here calm same
    | idle builder =>
      cases order with
      | showTiming on =>
        exact (reaches_quiet calm same front.outside (.takeTiming doing rfl)).trans
          fun t calm_later same_later => ih calm_later same_later
      | request id request =>
        have begun := reaches_quiet calm same front.outside (.takeRequest doing rfl)
        refine begun.trans fun t calm_later same_later => ?_
        have serving : t.front = front.onThread rest (.serving id (builder.serve request)) :=
          same_later
        exact (reaches_work others calm_later serving).trans fun u calm_end same_end =>
          ih calm_end same_end

theorem reaches_advance {s : Traffic engine ω} (calm : Calm s) :
    Reaches s (s.front.advance others) := by
  unfold Frontend.advance
  cases doing : s.front.live.thread with
  | idle builder => exact reaches_serveOrders others calm rfl
  | serving id task =>
    have same : s.front = s.front.onThread s.front.live.inbox (.serving id task) := by
      rw [← doing]
      rfl
    refine (reaches_work others calm same).trans fun t calm_later same_later => ?_
    refine reaches_serveOrders others calm_later ?_
    rw [same_later]
    exact congrArg (fun inbox => (s.front.work others id task).onThread inbox
      (s.front.work others id task).live.thread) (work_inbox others s.front id task).symm

end

/-- What callers and users have the interactive side do. -/
inductive Operation
  | request (request : Request)
  | showTiming (on : Bool)
  | release (line : String)
  | abort

/-- Does an operation, and then lets the live thread go on as far as it can. -/
def Operation.perform (others : (q : Query) → ω → Option (q.Answer × ω))
    (front : Frontend engine ω) : Operation → Frontend engine ω
  | .request sent => (front.request sent).2.advance others
  | .showTiming on => (front.setShowTiming on).advance others
  | .release line => (front.releaseHeld line).2.advance others
  | .abort => front.forceAbort

private theorem deliver_terminal (front : Frontend engine ω) (terminal : Terminal)
    (generation : Generation) (line : String) :
    { front with terminal }.deliver generation line =
      { front.deliver generation line with terminal } := by
  simp only [Frontend.deliver]
  split
  · rfl
  · rfl

private theorem nextId_deliver (front : Frontend engine ω) (generation : Generation)
    (line : String) : (front.deliver generation line).nextId = front.nextId := by
  unfold Frontend.deliver
  split
  · rfl
  · rfl

private theorem reaches_release {s : Traffic engine ω} (calm : Calm s) (line : String)
    {front : Frontend engine ω} {terminal : Terminal} {held : List Generation}
    (same : s.front = { front with terminal := { terminal with held } }) :
    Reaches s (held.foldl (fun front generation => front.deliver generation line)
      { front with terminal := { terminal with held := [] } }) := by
  induction held generalizing s front with
  | nil => exact .here calm same
  | cons generation rest ih =>
    have waiting : s.front.terminal.held = [] ++ generation :: rest := by
      rw [same]
      rfl
    have typed := (Step.type line waiting).run
    have delivered : Reaches s { front.deliver generation line with
        terminal := { terminal with held := rest } } := by
      refine ⟨_, _, typed, ⟨calm.posts, calm.hand⟩, ?_, ?_⟩
      · rw [Traffic.front_deliver, ← deliver_terminal, same]
        rfl
      · rw [same]
        exact nextId_deliver front generation line
    refine delivered.trans fun t calm_later same_later => ?_
    rw [List.foldl_cons, deliver_terminal]
    exact ih calm_later same_later

section

variable (others : (q : Query) → ω → Option (q.Answer × ω))

private theorem run_request {s : Traffic engine ω} (calm : Calm s) (request : Request)
    (left : s.front.nextId.toNat + 1 < 2 ^ 64) :
    ∃ trace t, Run s trace t ∧ Calm t ∧ t.front = (s.front.request request).2 := by
  have drawn := (Step.draw request left).run
  have registered := drawn.step (.register rfl)
  exact ⟨_, _, registered, ⟨calm.posts, calm.hand⟩, rfl⟩

private theorem reaches_setShowTiming {s : Traffic engine ω} (calm : Calm s) (on : Bool) :
    Reaches s (s.front.setShowTiming on) := by
  have kept := (Step.keepTiming (s := s) on).run
  have handed := kept.step (.handTiming rfl)
  exact ⟨_, _, handed, ⟨calm.posts, calm.hand⟩, rfl, rfl⟩

private theorem reaches_abort {s : Traffic engine ω} (calm : Calm s) :
    Reaches s s.front.forceAbort :=
  ⟨_, _, (Step.abort (s := s)).run, ⟨calm.posts, calm.hand⟩, rfl, rfl⟩

private theorem run_operation {s : Traffic engine ω} (calm : Calm s) (operation : Operation)
    (left : s.front.nextId.toNat + 1 < 2 ^ 64) :
    ∃ trace t, Run s trace t ∧ Calm t ∧ t.front = operation.perform others s.front ∧
      t.front.nextId.toNat ≤ s.front.nextId.toNat + 1 := by
  have unnumbered {front : Frontend engine ω} (reaches : Reaches s front) :
      ∃ trace t, Run s trace t ∧ Calm t ∧ t.front = front ∧
        t.front.nextId.toNat ≤ s.front.nextId.toNat + 1 := by
    obtain ⟨trace, t, run, calm_later, same, number⟩ := reaches
    refine ⟨trace, t, run, calm_later, same, ?_⟩
    rw [same, number]
    exact Nat.le_succ _
  have advanced {front : Frontend engine ω} (reaches : Reaches s front) :
      Reaches s (front.advance others) :=
    reaches.trans fun t calm_later same_later => same_later ▸ reaches_advance others calm_later
  cases operation with
  | request sent =>
    obtain ⟨trace, t, run, calm_later, same⟩ := run_request calm sent left
    obtain ⟨later, u, more, calm_end, same_end, number⟩ := reaches_advance others calm_later
    rw [same] at same_end number
    refine ⟨trace ++ later, u, run.trans more, calm_end, same_end, ?_⟩
    rw [same_end, number]
    show (s.front.nextId + 1).toNat ≤ s.front.nextId.toNat + 1
    rw [UInt64.toNat_add]
    exact Nat.mod_le _ _
  | showTiming on => exact unnumbered (advanced (reaches_setShowTiming calm on))
  | release line => exact unnumbered (advanced (reaches_release calm line rfl))
  | abort => exact unnumbered (reaches_abort calm)

theorem Run.of_operations {s : Traffic engine ω} (calm : Calm s) (operations : List Operation)
    (left : s.front.nextId.toNat + operations.length < 2 ^ 64) :
    ∃ trace t, Run s trace t ∧ Calm t ∧
      t.front = operations.foldl (Operation.perform others) s.front := by
  induction operations generalizing s with
  | nil => exact ⟨[], s, .here, calm, rfl⟩
  | cons operation rest ih =>
    rw [List.length_cons] at left
    obtain ⟨trace, t, run, calm_later, same, number⟩ :=
      run_operation others calm operation (by omega)
    obtain ⟨later, u, more, calm_end, same_end⟩ := ih calm_later (by omega)
    rw [same] at same_end
    exact ⟨trace ++ later, u, run.trans more, calm_end, same_end⟩

/-- Whatever operations are done one after another, no request is settled twice, and one that is open
is still in the inbox of the live thread or in its work. -/
theorem Frontend.operations_settle_once (config : Config) (terminal : Terminal) (outside : ω)
    (operations : List Operation) (left : operations.length + 1 < 2 ^ 64) :
    let front : Frontend engine ω :=
      operations.foldl (Operation.perform others) (.new config terminal outside)
    (front.settled.map Prod.fst).Nodup ∧
      ∀ id ∈ front.pending, id ∉ front.settled.map Prod.fst ∧ front.live.duty.Has id := by
  intro front
  have calm : Calm (Traffic.start config terminal outside : Traffic engine ω) := ⟨rfl, rfl⟩
  have numbers : (Traffic.start config terminal outside : Traffic engine ω).front.nextId.toNat +
      operations.length < 2 ^ 64 := by
    rw [Nat.add_comm]
    exact left
  obtain ⟨trace, t, run, calm_later, same⟩ := Run.of_operations others calm operations numbers
  have ledger := run.ledger
  have same : t.front = front := same
  rw [← same]
  obtain ⟨_, settled, apart⟩ := List.nodup_append.mp ledger.settles_once
  refine ⟨settled, fun id isOpen => ⟨fun again => apart id isOpen id again rfl, ?_⟩⟩
  rcases (ledger.attended id isOpen).underway with has | ⟨result, post⟩ | ⟨result, holds⟩
  · exact has
  · rw [calm_later.posts] at post
    cases post
  · rw [calm_later.hand] at holds
    exact holds.elim

end

end Buildbox.Session
