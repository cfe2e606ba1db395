import Buildbox.Proofs.Session.Ledger

/-!
Where the answers of a session come from. The result of a request is what the generation that it was
sent to made of it, and until it is settled a request is on its way there: in the inbox of the live
thread, in its work, among its messages or in hand.
-/

set_option autoImplicit false

namespace Buildbox.Session

variable {engine : Engine} {ω : Type}

/-- A result was posted for a request by the generation that the request was sent to, and serving
the request led to it. -/
def Computed (trace : List (Event engine)) (id : RequestId) (generation : Generation)
    (result : Option Response) : Prop :=
  ∃ request builder left,
    [.sent id request generation, .began id request generation builder,
      .posted generation (.runAsync id result)].Sublist trace ∧
    (builder.serve request).Continues (.done (result, left))

/-- All that a thread has to do was sent to its generation, and what it is doing is what it began. -/
structure Duty.Honest (trace : List (Event engine)) (duty : Duty engine) : Prop where
  orders : ∀ id request, .request id request ∈ duty.inbox →
    .sent id request duty.generation ∈ trace
  work : ∀ id task, duty.thread = .serving id task → ∃ request builder,
    [.sent id request duty.generation, .began id request duty.generation builder].Sublist trace ∧
    (builder.serve request).Continues task

/-- A message is in hand. -/
def Hand.Holds (generation : Generation) (message : HostMessage) : Hand → Prop
  | .empty => False
  | .taken g m => g = generation ∧ m = message
  | .judged g m _ => g = generation ∧ m = message

/-- All that is done, was done and is said in a session was sent to its generation. -/
structure Provenance (trace : List (Event engine)) (s : Traffic engine ω) : Prop where
  live : s.front.live.duty.Honest trace
  old : ∀ duty ∈ s.old, duty.Honest trace
  posts : ∀ generation id result, (generation, .runAsync id result) ∈ s.posts →
    Computed trace id generation result
  hand : ∀ generation id result, s.hand.Holds generation (.runAsync id result) →
    Computed trace id generation result

theorem Computed.mono {trace : List (Event engine)} {id : RequestId} {generation : Generation}
    {result : Option Response} (computed : Computed trace id generation result)
    (events : List (Event engine)) : Computed (trace ++ events) id generation result := by
  obtain ⟨request, builder, left, order, continues⟩ := computed
  exact ⟨request, builder, left, order.trans (List.sublist_append_left _ _), continues⟩

theorem Duty.Honest.mono {trace : List (Event engine)} {duty : Duty engine}
    (honest : duty.Honest trace) (events : List (Event engine)) :
    duty.Honest (trace ++ events) := by
  constructor
  · intro id request among
    exact List.mem_append_left _ (honest.orders id request among)
  · intro id task serving
    obtain ⟨request, builder, order, continues⟩ := honest.work id task serving
    exact ⟨request, builder, order.trans (List.sublist_append_left _ _), continues⟩

private theorem Duty.Honest.resume {trace : List (Event engine)} {duty : Duty engine}
    (honest : duty.Honest trace) {id : RequestId} {query : Query}
    {resume : query.Answer → Host (Option Response × Builder engine)}
    (serving : duty.thread = .serving id (.ask query resume)) (answer : query.Answer) :
    Duty.Honest trace ⟨duty.generation, duty.inbox, .serving id (resume answer)⟩ := by
  constructor
  · exact honest.orders
  · intro other task same
    cases same
    obtain ⟨request, builder, order, continues⟩ := honest.work id _ serving
    exact ⟨request, builder, order, continues.answered answer⟩

private theorem Duty.Honest.begin {trace : List (Event engine)} {duty : Duty engine}
    (honest : duty.Honest trace) {id : RequestId} {request : Request} {rest : List Order}
    (inbox : duty.inbox = .request id request :: rest) (builder : Builder engine) :
    Duty.Honest (trace ++ [.began id request duty.generation builder])
      ⟨duty.generation, rest, .serving id (builder.serve request)⟩ := by
  have sent := honest.orders id request (inbox ▸ List.mem_cons_self ..)
  constructor
  · intro other request among
    exact List.mem_append_left _
      (honest.orders other request (inbox ▸ List.mem_cons_of_mem _ among))
  · intro other task same
    cases same
    refine ⟨request, builder, ?_, .start⟩
    exact (List.singleton_sublist.mpr sent).append (List.Sublist.refl _)

private theorem Duty.Honest.rest {trace : List (Event engine)} {duty : Duty engine}
    (honest : duty.Honest trace) {inbox : List Order} (kept : ∀ order ∈ inbox, order ∈ duty.inbox)
    (builder : Builder engine) : Duty.Honest trace ⟨duty.generation, inbox, .idle builder⟩ := by
  constructor
  · intro id request among
    exact honest.orders id request (kept _ among)
  · intro id task serving
    cases serving

theorem ThreadStep.honest {closed : Bool} {thread later : Live engine}
    {events : List (Event engine)} {messages : List HostMessage} {trace : List (Event engine)}
    (step : ThreadStep closed thread events messages later)
    (honest : thread.duty.Honest trace) :
    later.duty.Honest (trace ++ (events ++ messages.map (.posted thread.generation))) := by
  cases step with
  | @takeTiming builder on rest idle inbox =>
    have kept : ∀ order ∈ rest, order ∈ thread.inbox :=
      fun order among => inbox ▸ List.mem_cons_of_mem _ among
    exact (honest.rest kept _).mono _
  | takeRequest idle inbox => exact honest.begin inbox _
  | write serving => exact (honest.resume serving ()).mono _
  | isClosed serving => exact (honest.resume serving closed).mono _
  | askLine serving => exact (honest.resume serving true).mono _
  | takeLine serving taken => exact (honest.resume serving _).mono _
  | takeNothing serving taken => exact (honest.resume serving none).mono _
  | outside answer serving external => exact (honest.resume serving answer).mono _
  | finish serving => exact (honest.rest (fun _ among => among) _).mono _

theorem ThreadStep.computed {closed : Bool} {thread later : Live engine}
    {events : List (Event engine)} {messages : List HostMessage} {trace : List (Event engine)}
    (step : ThreadStep closed thread events messages later)
    (honest : thread.duty.Honest trace) {id : RequestId} {result : Option Response}
    (among : .runAsync id result ∈ messages) :
    Computed (trace ++ (events ++ messages.map (.posted thread.generation))) id thread.generation
      result := by
  cases step with
  | finish serving =>
    cases List.mem_singleton.mp among
    obtain ⟨request, builder, order, continues⟩ := honest.work id _ serving
    exact ⟨request, builder, _, order.append (List.Sublist.refl _), continues⟩
  | takeTiming idle inbox => cases among
  | takeRequest idle inbox => cases among
  | write serving => cases List.mem_singleton.mp among
  | isClosed serving => cases among
  | askLine serving => cases List.mem_singleton.mp among
  | takeLine serving taken => cases among
  | takeNothing serving taken => cases among
  | outside answer serving external => cases among

namespace Provenance

private theorem keep {trace : List (Event engine)} {s t : Traffic engine ω}
    (provenance : Provenance trace s) (events : List (Event engine))
    (duty : t.front.live.duty = s.front.live.duty) (old : t.old = s.old)
    (posts : t.posts = s.posts) (hand : t.hand = s.hand) : Provenance (trace ++ events) t := by
  constructor
  · rw [duty]
    exact provenance.live.mono events
  · rw [old]
    exact fun other among => (provenance.old other among).mono events
  · rw [posts]
    exact fun generation id result among => (provenance.posts generation id result among).mono _
  · rw [hand]
    exact fun generation id result holds => (provenance.hand generation id result holds).mono _

theorem clear {trace : List (Event engine)} {s : Traffic engine ω}
    (provenance : Provenance trace s) : Provenance trace { s with hand := .empty } :=
  ⟨provenance.live, provenance.old, provenance.posts, fun _ _ _ => False.elim⟩

theorem register {trace : List (Event engine)} {s : Traffic engine ω}
    (provenance : Provenance trace s) (id : RequestId) (request : Request)
    (callers : List (RequestId × Request)) :
    Provenance (trace ++ [.sent id request s.front.live.generation])
      { s with front := s.front.register id request, callers } := by
  have kept := provenance.keep [.sent id request s.front.live.generation] rfl rfl rfl rfl
  refine ⟨⟨fun other request among => ?_, kept.live.work⟩, kept.old, kept.posts, kept.hand⟩
  rcases List.mem_append.mp among with earlier | new
  · exact kept.live.orders other request earlier
  · cases List.mem_singleton.mp new
    exact List.mem_append_right _ (List.mem_singleton_self _)

theorem handTiming {trace : List (Event engine)} {s : Traffic engine ω}
    (provenance : Provenance trace s) (on : Bool) (switches : List Bool) :
    Provenance trace { s with front := s.front.send (.showTiming on), switches } := by
  refine ⟨⟨fun id request among => ?_, provenance.live.work⟩, provenance.old, provenance.posts,
    provenance.hand⟩
  rcases List.mem_append.mp among with earlier | new
  · exact provenance.live.orders id request earlier
  · cases List.mem_singleton.mp new

private theorem computed_posts {trace events : List (Event engine)} {s : Traffic engine ω}
    (provenance : Provenance trace s) {closed : Bool} {thread later : Live engine}
    {messages : List HostMessage} (step : ThreadStep closed thread events messages later)
    (honest : thread.duty.Honest trace) (generation : Generation) (id : RequestId)
    (result : Option Response)
    (among : (generation, .runAsync id result) ∈ s.posts ++ stamped thread.generation messages) :
    Computed (trace ++ (events ++ messages.map (.posted thread.generation))) id generation
      result := by
  rcases List.mem_append.mp among with earlier | new
  · exact (provenance.posts generation id result earlier).mono _
  · obtain ⟨rfl, given⟩ := mem_stamped new
    exact step.computed honest given

theorem advance_live {trace events : List (Event engine)} {s : Traffic engine ω}
    (provenance : Provenance trace s) {messages : List HostMessage} {live : Live engine}
    (outside : ω) (step : ThreadStep false s.front.live events messages live) :
    Provenance (trace ++ (events ++ messages.map (.posted s.front.live.generation))) { s with
      front := { s.front with live, outside }
      posts := s.posts ++ stamped s.front.live.generation messages } := by
  constructor
  · exact step.honest provenance.live
  · exact fun other among => (provenance.old other among).mono _
  · exact provenance.computed_posts step provenance.live
  · exact fun generation id result holds => (provenance.hand generation id result holds).mono _

theorem advance_retired {trace events : List (Event engine)} {s : Traffic engine ω}
    (provenance : Provenance trace s) {messages : List HostMessage}
    {before after : List (Live engine)} {thread later : Live engine}
    (split : s.retired = before ++ thread :: after)
    (step : ThreadStep true thread events messages later) :
    Provenance (trace ++ (events ++ messages.map (.posted thread.generation))) { s with
      retired := before ++ later :: after
      posts := s.posts ++ stamped thread.generation messages } := by
  have old := provenance.old
  rw [Traffic.old, split, List.forall_mem_map] at old
  have honest := old thread (List.mem_append_right _ (List.mem_cons_self ..))
  constructor
  · exact provenance.live.mono _
  · rw [Traffic.old, List.forall_mem_map]
    intro other among
    rcases List.mem_append.mp among with left | right
    · exact (old other (List.mem_append_left _ left)).mono _
    · rcases List.mem_cons.mp right with rfl | right
      · exact step.honest honest
      · exact (old other (List.mem_append_right _ (List.mem_cons_of_mem _ right))).mono _
  · exact provenance.computed_posts step honest
  · exact fun generation id result holds => (provenance.hand generation id result holds).mono _

theorem abort {trace : List (Event engine)} {s : Traffic engine ω}
    (provenance : Provenance trace s) (events : List (Event engine)) :
    Provenance (trace ++ events) s.abort := by
  have kept := provenance.keep events rfl rfl rfl rfl
  constructor
  · constructor
    · intro id request among
      cases List.mem_singleton.mp among
    · intro id task serving
      cases serving
  · rw [Traffic.old_abort]
    intro duty among
    rcases List.mem_append.mp among with earlier | last
    · exact kept.old duty earlier
    · rw [List.mem_singleton.mp last]
      exact kept.live
  · exact kept.posts
  · exact kept.hand

theorem step {trace events : List (Event engine)} {s t : Traffic engine ω}
    (provenance : Provenance trace s) (step : Step s events t) :
    Provenance (trace ++ events) t := by
  cases step with
  | @register id request before after waiting => exact provenance.register id request _
  | @handTiming on before after waiting =>
    rw [List.append_nil]
    exact provenance.handTiming on _
  | live outside step => exact provenance.advance_live outside step
  | retired split step => exact provenance.advance_retired split step
  | abort => exact provenance.abort _
  | @take generation message rest posts free =>
    have kept := provenance.keep [] rfl rfl rfl rfl
    refine ⟨kept.live, kept.old, fun other id result among => ?_, fun other id result holds => ?_⟩
    · exact kept.posts other id result (posts ▸ List.mem_cons_of_mem _ among)
    · obtain ⟨rfl, rfl⟩ := holds
      exact kept.posts _ id result (posts ▸ List.mem_cons_self ..)
  | @judge generation message inHand =>
    have kept := provenance.keep [] rfl rfl rfl rfl
    refine ⟨kept.live, kept.old, kept.posts, fun other id result holds => ?_⟩
    exact kept.hand other id result (inHand ▸ holds)
  | evict inHand other => exact provenance.clear.keep _ rfl rfl rfl rfl
  | @act generation message inHand =>
    obtain ⟨terminal, live, retired, pending, settled, same, duty, old⟩ :=
      Traffic.act_frame { s with hand := .empty } generation message
    rw [same]
    exact provenance.clear.keep _ duty old rfl rfl
  | @type generation before after line held =>
    obtain ⟨live, retired, same, duty, old⟩ := Traffic.deliver_frame { s with
      front := { s.front with
        terminal := { s.front.terminal with held := before ++ after } } } generation line
    rw [same]
    exact provenance.keep _ duty old rfl rfl
  | draw request left => exact provenance.keep _ rfl rfl rfl rfl
  | keepTiming on => exact provenance.keep _ rfl rfl rfl rfl

end Provenance

/-- The requests that were taken up, in order. -/
def begunIds (trace : List (Event engine)) : List RequestId :=
  trace.filterMap Event.begunId

/-- The requests whose results were posted, in order. -/
def computedIds (trace : List (Event engine)) : List RequestId :=
  trace.filterMap Event.computedId

def Order.requestId : Order → Option RequestId
  | .request id _ => some id
  | .showTiming _ => none

/-- The requests that wait in the inbox of a thread. -/
def Duty.waiting (duty : Duty engine) : List RequestId :=
  duty.inbox.filterMap Order.requestId

/-- The request that a thread is serving. -/
def Duty.inWork (duty : Duty engine) : List RequestId :=
  match duty.thread with
  | .idle _ => []
  | .serving id _ => [id]

/-- Every request that was sent waits or was taken up, and every one that was taken up is in work or
has its result; none of them twice. -/
structure Unrepeated (trace : List (Event engine)) (s : Traffic engine ω) : Prop where
  begun : (sentIds trace).Perm
    (begunIds trace ++ (s.front.live.duty :: s.old).flatMap Duty.waiting)
  computed : (begunIds trace).Perm
    (computedIds trace ++ (s.front.live.duty :: s.old).flatMap Duty.inWork)

theorem begunIds_append (trace events : List (Event engine)) :
    begunIds (trace ++ events) = begunIds trace ++ begunIds events :=
  List.filterMap_append

theorem computedIds_append (trace events : List (Event engine)) :
    computedIds (trace ++ events) = computedIds trace ++ computedIds events :=
  List.filterMap_append

private theorem inWork_of_serving {duty : Duty engine} {id : RequestId}
    {task : Host (Option Response × Builder engine)} (serving : duty.thread = .serving id task) :
    duty.inWork = [id] := by
  rw [Duty.inWork, serving]

private theorem inWork_of_idle {duty : Duty engine} {builder : Builder engine}
    (idle : duty.thread = .idle builder) : duty.inWork = [] := by
  rw [Duty.inWork, idle]

theorem ThreadStep.waiting_eq {closed : Bool} {thread later : Live engine}
    {events : List (Event engine)} {messages : List HostMessage}
    (step : ThreadStep closed thread events messages later) :
    thread.duty.waiting =
      begunIds (events ++ messages.map (.posted thread.generation)) ++ later.duty.waiting := by
  cases step with
  | takeTiming idle inbox =>
    show thread.inbox.filterMap Order.requestId = _
    rw [inbox]
    rfl
  | takeRequest idle inbox =>
    show thread.inbox.filterMap Order.requestId = _
    rw [inbox]
    rfl
  | write serving => rfl
  | isClosed serving => rfl
  | askLine serving => rfl
  | takeLine serving taken => rfl
  | takeNothing serving taken => rfl
  | outside answer serving external => rfl
  | finish serving => rfl

theorem ThreadStep.inWork_eq {closed : Bool} {thread later : Live engine}
    {events : List (Event engine)} {messages : List HostMessage}
    (step : ThreadStep closed thread events messages later) :
    thread.duty.inWork ++ begunIds (events ++ messages.map (.posted thread.generation)) =
      computedIds (events ++ messages.map (.posted thread.generation)) ++ later.duty.inWork := by
  have working {id : RequestId} {task : Host (Option Response × Builder engine)}
      (serving : thread.thread = .serving id task) : thread.duty.inWork = [id] :=
    inWork_of_serving serving
  have resting {builder : Builder engine} (idle : thread.thread = .idle builder) :
      thread.duty.inWork = [] := inWork_of_idle idle
  cases step with
  | takeTiming idle inbox => rw [resting idle]; rfl
  | takeRequest idle inbox => rw [resting idle]; rfl
  | write serving => rw [working serving]; rfl
  | isClosed serving => rw [working serving]; rfl
  | askLine serving => rw [working serving]; rfl
  | takeLine serving taken => rw [working serving]; rfl
  | takeNothing serving taken => rw [working serving]; rfl
  | outside answer serving external => rw [working serving]; rfl
  | finish serving => rw [working serving]; rfl

namespace Unrepeated

private theorem keep {trace events : List (Event engine)} {s t : Traffic engine ω}
    (unrepeated : Unrepeated trace s) (duty : t.front.live.duty = s.front.live.duty)
    (old : t.old = s.old) (unsent : sentIds events = []) (unbegun : begunIds events = [])
    (uncomputed : computedIds events = []) : Unrepeated (trace ++ events) t := by
  constructor
  · rw [duty, old, sentIds_append, begunIds_append, unsent, unbegun, List.append_nil,
      List.append_nil]
    exact unrepeated.begun
  · rw [duty, old, begunIds_append, computedIds_append, unbegun, uncomputed, List.append_nil,
      List.append_nil]
    exact unrepeated.computed

private theorem advance {trace events : List (Event engine)} {s t : Traffic engine ω}
    (unrepeated : Unrepeated trace s) {closed : Bool} {thread later : Live engine}
    {messages : List HostMessage} (step : ThreadStep closed thread events messages later)
    {before after : List (Duty engine)}
    (earlier : s.front.live.duty :: s.old = before ++ thread.duty :: after)
    (now : t.front.live.duty :: t.old = before ++ later.duty :: after) :
    Unrepeated (trace ++ (events ++ messages.map (.posted thread.generation))) t := by
  have waiting := step.waiting_eq
  have inWork := step.inWork_eq
  obtain ⟨begun, computed⟩ := unrepeated
  rw [earlier, List.perm_iff_count] at begun computed
  constructor
  · rw [sentIds_append, step.sentIds_eq, now, List.append_nil, List.perm_iff_count,
      begunIds_append]
    intro id
    have counted := begun id
    have moved := congrArg (List.count id) waiting
    simp only [List.flatMap_append, List.flatMap_cons, List.count_append] at counted moved ⊢
    omega
  · rw [now, List.perm_iff_count, computedIds_append, begunIds_append]
    intro id
    have counted := computed id
    have moved := congrArg (List.count id) inWork
    simp only [List.flatMap_append, List.flatMap_cons, List.count_append] at counted moved ⊢
    omega

theorem register {trace : List (Event engine)} {s : Traffic engine ω}
    (unrepeated : Unrepeated trace s) (id : RequestId) (request : Request)
    (callers : List (RequestId × Request)) :
    Unrepeated (trace ++ [.sent id request s.front.live.generation])
      { s with front := s.front.register id request, callers } := by
  have waiting : (s.front.register id request).live.duty.waiting =
      s.front.live.duty.waiting ++ [id] := List.filterMap_append
  obtain ⟨begun, computed⟩ := unrepeated
  constructor
  · rw [sentIds_append, sentIds_sent, begunIds_append, List.perm_iff_count]
    rw [List.perm_iff_count] at begun
    intro other
    have counted := begun other
    show _ = List.count other (begunIds trace ++ [] ++
      ((s.front.register id request).live.duty :: s.old).flatMap Duty.waiting)
    rw [List.flatMap_cons] at counted ⊢
    rw [waiting]
    simp only [List.count_append, List.count_nil] at counted ⊢
    omega
  · rw [begunIds_append, computedIds_append]
    show (begunIds trace ++ []).Perm (computedIds trace ++ [] ++ _)
    rw [List.append_nil, List.append_nil]
    exact computed

theorem handTiming {trace : List (Event engine)} {s : Traffic engine ω}
    (unrepeated : Unrepeated trace s) (on : Bool) (switches : List Bool) :
    Unrepeated trace { s with front := s.front.send (.showTiming on), switches } := by
  have waiting : (s.front.send (.showTiming on)).live.duty.waiting =
      s.front.live.duty.waiting ++ [] := List.filterMap_append
  obtain ⟨begun, computed⟩ := unrepeated
  constructor
  · rw [List.flatMap_cons] at begun
    show (sentIds trace).Perm (begunIds trace ++
      ((s.front.send (.showTiming on)).live.duty :: s.old).flatMap Duty.waiting)
    rw [List.flatMap_cons, waiting, List.append_nil]
    exact begun
  · exact computed

theorem abort {trace : List (Event engine)} {s : Traffic engine ω}
    (unrepeated : Unrepeated trace s) (ids : List RequestId) :
    Unrepeated (trace ++ .retired s.front.live.generation :: ids.map .refused) s.abort := by
  have unbegun : begunIds
      ((.retired s.front.live.generation : Event engine) :: ids.map .refused) = [] :=
    filterMap_abort (fun _ => rfl) (fun _ => rfl) _ ids
  have uncomputed : computedIds
      ((.retired s.front.live.generation : Event engine) :: ids.map .refused) = [] :=
    filterMap_abort (fun _ => rfl) (fun _ => rfl) _ ids
  obtain ⟨begun, computed⟩ := unrepeated
  constructor
  · rw [sentIds_append, sentIds_abort, begunIds_append, unbegun, Traffic.old_abort,
      List.append_nil, List.append_nil]
    refine begun.trans (List.Perm.append_left _ ?_)
    -- the new thread has nothing waiting, and the one before it is an old one now
    show (s.front.live.duty.waiting ++ s.old.flatMap Duty.waiting).Perm
      ((s.old ++ [s.front.live.duty]).flatMap Duty.waiting)
    rw [List.flatMap_append, List.flatMap_singleton]
    exact List.perm_append_comm
  · rw [begunIds_append, computedIds_append, unbegun, uncomputed, Traffic.old_abort,
      List.append_nil, List.append_nil]
    refine computed.trans (List.Perm.append_left _ ?_)
    show (s.front.live.duty.inWork ++ s.old.flatMap Duty.inWork).Perm
      ((s.old ++ [s.front.live.duty]).flatMap Duty.inWork)
    rw [List.flatMap_append, List.flatMap_singleton]
    exact List.perm_append_comm

private theorem begunIds_effects (s : Traffic engine ω) (generation : Generation)
    (message : HostMessage) : begunIds (s.effects generation message) = [] :=
  s.filterMap_effects (fun _ _ => rfl) (fun _ => rfl) (fun _ _ => rfl) (fun _ _ _ => rfl) generation
    message

private theorem computedIds_effects (s : Traffic engine ω) (generation : Generation)
    (message : HostMessage) : computedIds (s.effects generation message) = [] :=
  s.filterMap_effects (fun _ _ => rfl) (fun _ => rfl) (fun _ _ => rfl) (fun _ _ _ => rfl) generation
    message

theorem step {trace events : List (Event engine)} {s t : Traffic engine ω}
    (unrepeated : Unrepeated trace s) (step : Step s events t) :
    Unrepeated (trace ++ events) t := by
  cases step with
  | @register id request before after waiting => exact unrepeated.register id request _
  | @handTiming on before after waiting =>
    rw [List.append_nil]
    exact unrepeated.handTiming on _
  | live outside step =>
    have earlier : s.front.live.duty :: s.old = [] ++ s.front.live.duty :: s.old := rfl
    exact unrepeated.advance step earlier rfl
  | @retired events messages before after thread later split step =>
    have earlier : s.front.live.duty :: s.old =
        (s.front.live.duty :: before.map Live.duty) ++ thread.duty :: after.map Live.duty := by
      rw [Traffic.old, split, List.map_append, List.map_cons]
      rfl
    refine unrepeated.advance step earlier ?_
    show s.front.live.duty :: (before ++ later :: after).map Live.duty = _
    rw [List.map_append, List.map_cons]
    rfl
  | abort => exact unrepeated.abort _
  | @act generation message inHand =>
    obtain ⟨terminal, live, retired, pending, settled, same, duty, old⟩ :=
      Traffic.act_frame { s with hand := .empty } generation message
    rw [same]
    exact unrepeated.keep duty old (s.sentIds_effects generation message)
      (begunIds_effects s generation message) (computedIds_effects s generation message)
  | @type generation before after line held =>
    obtain ⟨live, retired, same, duty, old⟩ := Traffic.deliver_frame { s with
      front := { s.front with
        terminal := { s.front.terminal with held := before ++ after } } } generation line
    rw [same]
    exact unrepeated.keep duty old rfl rfl rfl
  | draw request left => exact unrepeated.keep rfl rfl rfl rfl rfl
  | keepTiming on => exact unrepeated.keep rfl rfl rfl rfl rfl
  | take posts free => exact unrepeated.keep rfl rfl rfl rfl rfl
  | judge inHand => exact unrepeated.keep rfl rfl rfl rfl rfl
  | evict inHand other => exact unrepeated.keep rfl rfl rfl rfl rfl

end Unrepeated

end Buildbox.Session
