import Buildbox.Proofs.Session.Provenance

/-!
The end of every request. In whatever order a session runs, a request is settled at most once: by the
result that the generation it was sent to computed for it, or by an abort of that generation.
-/

set_option autoImplicit false

namespace Buildbox.Session

variable {engine : Engine} {ω : Type}

/-- A request is in the inbox of a thread or in its work. -/
def Duty.Has (duty : Duty engine) (id : RequestId) : Prop :=
  (∃ request, .request id request ∈ duty.inbox) ∨ ∃ task, duty.thread = .serving id task

/-- A request is on its way through the live generation. -/
def Traffic.Underway (s : Traffic engine ω) (id : RequestId) : Prop :=
  s.front.live.duty.Has id ∨
    (∃ result, (s.front.live.generation, .runAsync id result) ∈ s.posts) ∨
    ∃ result, s.hand.Holds s.front.live.generation (.runAsync id result)

/-- An open request was sent to the live generation, and is on its way through it. -/
structure Attended (trace : List (Event engine)) (s : Traffic engine ω) (id : RequestId) :
    Prop where
  sent : ∃ request, .sent id request s.front.live.generation ∈ trace
  underway : s.Underway id

theorem ThreadStep.has {closed : Bool} {thread later : Live engine} {events : List (Event engine)}
    {messages : List HostMessage} (step : ThreadStep closed thread events messages later)
    {id : RequestId} (has : thread.duty.Has id) :
    later.duty.Has id ∨ ∃ result, .runAsync id result ∈ messages := by
  have stays {input : InputRegion} {other : RequestId}
      {task left : Host (Option Response × Builder engine)}
      (serving : thread.thread = .serving other task) :
      Duty.Has (Live.duty { thread with input, thread := .serving other left }) id := by
    rcases has with waiting | ⟨started, same⟩
    · exact .inl waiting
    · cases serving.symm.trans same
      exact .inr ⟨left, rfl⟩
  have waits {order : Order} {rest : List Order} {request : Request}
      (inbox : thread.inbox = order :: rest) (among : .request id request ∈ thread.duty.inbox) :
      .request id request = order ∨ .request id request ∈ rest := by
    have listed : .request id request ∈ thread.inbox := among
    rw [inbox] at listed
    exact List.mem_cons.mp listed
  cases step with
  | takeTiming idle inbox =>
    rcases has with ⟨request, among⟩ | ⟨task, same⟩
    · rcases waits inbox among with other | later
      · cases other
      · exact .inl (.inl ⟨request, later⟩)
    · cases idle.symm.trans same
  | takeRequest idle inbox =>
    rcases has with ⟨request, among⟩ | ⟨task, same⟩
    · rcases waits inbox among with first | later
      · cases first
        exact .inl (.inr ⟨_, rfl⟩)
      · exact .inl (.inl ⟨request, later⟩)
    · cases idle.symm.trans same
  | write serving => exact .inl (stays serving)
  | isClosed serving => exact .inl (stays serving)
  | askLine serving => exact .inl (stays serving)
  | takeLine serving taken => exact .inl (stays serving)
  | takeNothing serving taken => exact .inl (stays serving)
  | outside answer serving external => exact .inl (stays serving)
  | finish serving =>
    rcases has with waiting | ⟨started, same⟩
    · exact .inl (.inl waiting)
    · cases serving.symm.trans same
      exact .inr ⟨_, List.mem_singleton_self _⟩

namespace Attended

private theorem keep {trace : List (Event engine)} {s t : Traffic engine ω} {id : RequestId}
    (attended : Attended trace s id) (events : List (Event engine))
    (generation : t.front.live.generation = s.front.live.generation)
    (has : s.front.live.duty.Has id → t.front.live.duty.Has id)
    (posts : ∀ post ∈ s.posts, post ∈ t.posts) (hand : t.hand = s.hand) :
    Attended (trace ++ events) t id := by
  obtain ⟨request, sent⟩ := attended.sent
  refine ⟨⟨request, ?_⟩, ?_⟩
  · rw [generation]
    exact List.mem_append_left _ sent
  · rw [Traffic.Underway, generation, hand]
    rcases attended.underway with had | ⟨result, post⟩ | holds
    · exact .inl (has had)
    · exact .inr (.inl ⟨result, posts _ post⟩)
    · exact .inr (.inr holds)

private theorem has_send {front : Frontend engine ω} {id : RequestId}
    (has : front.live.duty.Has id) (order : Order) : (front.send order).live.duty.Has id := by
  rcases has with ⟨request, among⟩ | working
  · exact .inl ⟨request, List.mem_append_left _ among⟩
  · exact .inr working

private theorem clear {trace : List (Event engine)} {s : Traffic engine ω} {id : RequestId}
    (attended : Attended trace s id)
    (elsewhere : ∀ result, ¬ s.hand.Holds s.front.live.generation (.runAsync id result)) :
    Attended trace { s with hand := .empty } id := by
  refine ⟨attended.sent, ?_⟩
  rcases attended.underway with has | post | ⟨result, holds⟩
  · exact .inl has
  · exact .inr (.inl post)
  · exact absurd holds (elsewhere result)

theorem advance_live {trace events : List (Event engine)} {s : Traffic engine ω} {id : RequestId}
    (attended : Attended trace s id) {messages : List HostMessage} {live : Live engine}
    (outside : ω) (step : ThreadStep false s.front.live events messages live) :
    Attended (trace ++ (events ++ messages.map (.posted s.front.live.generation))) { s with
      front := { s.front with live, outside }
      posts := s.posts ++ stamped s.front.live.generation messages } id := by
  have generation := step.generation_eq
  obtain ⟨request, sent⟩ := attended.sent
  refine ⟨⟨request, ?_⟩, ?_⟩
  · show Event.sent id request live.generation ∈ _
    rw [generation]
    exact List.mem_append_left _ sent
  · rw [Traffic.Underway]
    show live.duty.Has id ∨
      (∃ result, (live.generation, HostMessage.runAsync id result) ∈ s.posts ++ _) ∨
      ∃ result, s.hand.Holds live.generation (.runAsync id result)
    rw [generation]
    rcases attended.underway with has | ⟨result, post⟩ | holds
    · rcases step.has has with still | ⟨result, posted⟩
      · exact .inl still
      · refine .inr (.inl ⟨result, List.mem_append_right _ ?_⟩)
        exact List.mem_map.mpr ⟨_, posted, rfl⟩
    · exact .inr (.inl ⟨result, List.mem_append_left _ post⟩)
    · exact .inr (.inr holds)

theorem take {trace : List (Event engine)} {s : Traffic engine ω} {id : RequestId}
    (attended : Attended trace s id) {generation : Generation} {message : HostMessage}
    {rest : List (Generation × HostMessage)} (posts : s.posts = (generation, message) :: rest)
    (free : s.hand = .empty) :
    Attended (trace ++ []) { s with posts := rest, hand := .taken generation message } id := by
  rw [List.append_nil]
  refine ⟨attended.sent, ?_⟩
  rcases attended.underway with has | ⟨result, post⟩ | ⟨result, holds⟩
  · exact .inl has
  · rw [posts] at post
    rcases List.mem_cons.mp post with first | later
    · cases first
      exact .inr (.inr ⟨result, rfl, rfl⟩)
    · exact .inr (.inl ⟨result, later⟩)
  · rw [free] at holds
    exact holds.elim

theorem judge {trace : List (Event engine)} {s : Traffic engine ω} {id : RequestId}
    (attended : Attended trace s id) {generation : Generation} {message : HostMessage}
    (inHand : s.hand = .taken generation message) :
    Attended (trace ++ [])
      { s with hand := .judged generation message s.front.live.generation } id := by
  rw [List.append_nil]
  refine ⟨attended.sent, ?_⟩
  rcases attended.underway with has | post | ⟨result, holds⟩
  · exact .inl has
  · exact .inr (.inl post)
  · rw [inHand] at holds
    exact .inr (.inr ⟨result, holds⟩)

theorem register {trace : List (Event engine)} {s : Traffic engine ω}
    (all : ∀ id ∈ s.front.pending, Attended trace s id) (id : RequestId) (request : Request)
    (callers : List (RequestId × Request)) :
    ∀ other ∈ (s.front.register id request).pending,
      Attended (trace ++ [.sent id request s.front.live.generation])
        { s with front := s.front.register id request, callers } other := by
  intro other among
  rcases List.mem_append.mp among with earlier | new
  · exact (all other earlier).keep _ rfl (fun has => has_send has (.request id request))
      (fun _ post => post) rfl
  · rw [List.mem_singleton.mp new]
    refine ⟨⟨request, List.mem_append_right _ (List.mem_singleton_self _)⟩, .inl (.inl ⟨request, ?_⟩)⟩
    exact List.mem_append_right _ (List.mem_singleton_self _)

private theorem pending_act (s : Traffic engine ω) (generation : Generation)
    (message : HostMessage) {id : RequestId}
    (among : id ∈ (s.act generation message).front.pending) :
    id ∈ s.front.pending ∧ ∀ result, message ≠ .runAsync id result := by
  cases message with
  | write text => exact ⟨among, fun _ other => by cases other⟩
  | readLine =>
    obtain ⟨terminal, live, retired, same, _, _⟩ := s.ask_frame generation
    rw [Traffic.act, same] at among
    exact ⟨among, fun _ other => by cases other⟩
  | runAsync answered result =>
    rw [Traffic.act] at among
    by_cases isOpen : answered ∈ s.front.pending
    · have pending := (Frontend.complete_of_open isOpen (.ofResult result)).1
      have kept : id ∈ s.front.pending.filter (· != answered) := pending ▸ among
      obtain ⟨earlier, different⟩ := List.mem_filter.mp kept
      refine ⟨earlier, fun _ same => ?_⟩
      cases same
      exact absurd rfl (bne_iff_ne.mp different)
    · rw [Frontend.complete_of_closed isOpen] at among
      refine ⟨among, fun _ same => ?_⟩
      cases same
      exact isOpen among

theorem act {trace : List (Event engine)} {s : Traffic engine ω}
    (all : ∀ id ∈ s.front.pending, Attended trace s id) {generation : Generation}
    {message : HostMessage} (inHand : s.hand = .judged generation message generation)
    (events : List (Event engine)) :
    ∀ id ∈ ({ s with hand := .empty }.act generation message).front.pending,
      Attended (trace ++ events) ({ s with hand := .empty }.act generation message) id := by
  intro id among
  obtain ⟨earlier, other⟩ := pending_act { s with hand := .empty } generation message among
  have cleared := (all id earlier).clear fun result holds => by
    rw [inHand] at holds
    exact other result holds.2
  obtain ⟨terminal, live, retired, pending, settled, same, duty, _⟩ :=
    Traffic.act_frame { s with hand := .empty } generation message
  rw [same]
  exact cleared.keep events (congrArg Duty.generation duty) (fun has => duty ▸ has)
    (fun _ post => post) rfl

theorem step {trace events : List (Event engine)} {s t : Traffic engine ω} (stamped : Stamped s)
    (all : ∀ id ∈ s.front.pending, Attended trace s id) (step : Step s events t) :
    ∀ id ∈ t.front.pending, Attended (trace ++ events) t id := by
  cases step with
  | @register id request before after waiting => exact register all id request _
  | @act generation message inHand => exact act all inHand _
  | @handTiming on before after waiting =>
    intro id among
    exact (all id among).keep _ rfl (fun has => has_send has (.showTiming on))
      (fun _ post => post) rfl
  | live outside step => exact fun id among => (all id among).advance_live outside step
  | retired split step =>
    intro id among
    exact (all id among).keep _ rfl (fun has => has) (fun _ => List.mem_append_left _) rfl
  | take posts free => exact fun id among => (all id among).take posts free
  | judge inHand => exact fun id among => (all id among).judge inHand
  | @evict generation live message inHand other =>
    intro id among
    have within := stamped.hand
    rw [inHand] at within
    have cleared := (all id among).clear fun result holds => by
      rw [inHand] at holds
      exact other (Nat.le_antisymm within.1 (holds.1 ▸ within.2))
    exact cleared.keep _ rfl (fun has => has) (fun _ post => post) rfl
  | @type generation before after line held =>
    intro id among
    obtain ⟨live, retired, same, duty, _⟩ := Traffic.deliver_frame { s with
      front := { s.front with
        terminal := { s.front.terminal with held := before ++ after } } } generation line
    rw [same]
    exact (all id among).keep _ (congrArg Duty.generation duty) (fun has => duty ▸ has)
      (fun _ post => post) rfl
  | abort =>
    intro id among
    cases among
  | draw request left =>
    exact fun id among => (all id among).keep _ rfl (fun has => has) (fun _ post => post) rfl
  | keepTiming on =>
    exact fun id among => (all id among).keep _ rfl (fun has => has) (fun _ post => post) rfl

end Attended

/-- The answer to a request is the result that the generation it was sent to computed for it. -/
def Answered (trace : List (Event engine)) (id : RequestId) (generation : Generation)
    (reply : Reply) : Prop :=
  ∃ request builder result left, reply = .ofResult result ∧
    (builder.serve request).Continues (.done (result, left)) ∧
    [.sent id request generation, .began id request generation builder,
      .posted generation (.runAsync id result), .answered id generation reply].Sublist trace

/-- The generation that a request was sent to was retired before the request was answered. -/
def Refused (trace : List (Event engine)) (id : RequestId) : Prop :=
  ∃ request generation,
    [.sent id request generation, .retired generation, .refused id].Sublist trace

structure Justified (trace : List (Event engine)) : Prop where
  answered : ∀ id generation reply, .answered id generation reply ∈ trace →
    Answered trace id generation reply
  refused : ∀ id, .refused id ∈ trace → Refused trace id

theorem Answered.mono {trace : List (Event engine)} {id : RequestId} {generation : Generation}
    {reply : Reply} (answered : Answered trace id generation reply)
    (events : List (Event engine)) : Answered (trace ++ events) id generation reply := by
  obtain ⟨request, builder, result, left, same, continues, order⟩ := answered
  exact ⟨request, builder, result, left, same, continues,
    order.trans (List.sublist_append_left _ _)⟩

theorem Refused.mono {trace : List (Event engine)} {id : RequestId} (refused : Refused trace id)
    (events : List (Event engine)) : Refused (trace ++ events) id := by
  obtain ⟨request, generation, order⟩ := refused
  exact ⟨request, generation, order.trans (List.sublist_append_left _ _)⟩

namespace Justified

private theorem keep {trace events : List (Event engine)} (justified : Justified trace)
    (unsettled : settlements events = []) : Justified (trace ++ events) := by
  have nothing := List.filterMap_eq_nil_iff.mp unsettled
  constructor
  · intro id generation reply among
    rcases List.mem_append.mp among with earlier | new
    · exact (justified.answered id generation reply earlier).mono _
    · cases nothing _ new
  · intro id among
    rcases List.mem_append.mp among with earlier | new
    · exact (justified.refused id earlier).mono _
    · cases nothing _ new

theorem answer {trace : List (Event engine)} (justified : Justified trace) {id : RequestId}
    {generation : Generation} {result : Option Response}
    (computed : Computed trace id generation result) :
    Justified (trace ++ [.answered id generation (.ofResult result)]) := by
  constructor
  · intro other stamp reply among
    rcases List.mem_append.mp among with earlier | new
    · exact (justified.answered other stamp reply earlier).mono _
    · cases List.mem_singleton.mp new
      obtain ⟨request, builder, left, order, continues⟩ := computed
      exact ⟨request, builder, result, left, rfl, continues,
        order.append (List.Sublist.refl _)⟩
  · intro other among
    rcases List.mem_append.mp among with earlier | new
    · exact (justified.refused other earlier).mono _
    · cases List.mem_singleton.mp new

theorem act {trace : List (Event engine)} {s : Traffic engine ω} (justified : Justified trace)
    (provenance : Provenance trace s) {generation : Generation} {message : HostMessage}
    (inHand : s.hand = .judged generation message generation) :
    Justified (trace ++ s.effects generation message) := by
  cases message with
  | write text => exact justified.keep rfl
  | readLine => exact justified.keep (s.settlements_readLine generation)
  | runAsync id result =>
    rw [Traffic.effects]
    split
    · refine justified.answer (provenance.hand generation id result ?_)
      rw [inHand]
      exact ⟨rfl, rfl⟩
    · exact justified.keep rfl

theorem abort {trace : List (Event engine)} {s : Traffic engine ω} (justified : Justified trace)
    (all : ∀ id ∈ s.front.pending, Attended trace s id) :
    Justified (trace ++ .retired s.front.live.generation :: s.front.pending.map .refused) := by
  constructor
  · intro id generation reply among
    rcases List.mem_append.mp among with earlier | new
    · exact (justified.answered id generation reply earlier).mono _
    · rcases List.mem_cons.mp new with other | refused
      · cases other
      · obtain ⟨_, _, other⟩ := List.mem_map.mp refused
        cases other
  · intro id among
    rcases List.mem_append.mp among with earlier | new
    · exact (justified.refused id earlier).mono _
    · rcases List.mem_cons.mp new with other | refused
      · cases other
      · obtain ⟨_, isOpen, same⟩ := List.mem_map.mp refused
        cases same
        obtain ⟨request, sent⟩ := (all id isOpen).sent
        exact ⟨request, s.front.live.generation, (List.singleton_sublist.mpr sent).append
          ((List.singleton_sublist.mpr refused).cons_cons _)⟩

theorem step {trace events : List (Event engine)} {s t : Traffic engine ω}
    (justified : Justified trace) (provenance : Provenance trace s)
    (all : ∀ id ∈ s.front.pending, Attended trace s id) (step : Step s events t) :
    Justified (trace ++ events) := by
  cases step with
  | act inHand => exact justified.act provenance inHand
  | abort => exact justified.abort all
  | live outside step => exact justified.keep step.settlements_eq
  | retired split step => exact justified.keep step.settlements_eq
  | draw request left => exact justified.keep rfl
  | register waiting => exact justified.keep rfl
  | keepTiming on => exact justified.keep rfl
  | handTiming waiting => exact justified.keep rfl
  | take posts free => exact justified.keep rfl
  | judge inHand => exact justified.keep rfl
  | evict inHand other => exact justified.keep rfl
  | type line held => exact justified.keep rfl

end Justified

structure Ledger (trace : List (Event engine)) (s : Traffic engine ω) : Prop where
  numbered : Numbered trace s
  account : Account trace s
  stamped : Stamped s
  provenance : Provenance trace s
  attended : ∀ id ∈ s.front.pending, Attended trace s id
  justified : Justified trace
  unrepeated : Unrepeated trace s

theorem Ledger.start (config : Config) (terminal : Terminal) (outside : ω) :
    Ledger [] (Traffic.start config terminal outside : Traffic engine ω) := by
  constructor
  · exact ⟨fun _ => nofun, List.nodup_nil⟩
  · exact ⟨rfl, List.Perm.refl _⟩
  · exact ⟨fun _ => nofun, fun _ => nofun, trivial⟩
  · refine ⟨⟨fun id request among => ?_, fun _ _ => nofun⟩, fun _ => nofun, fun _ _ _ => nofun,
      fun _ _ _ => False.elim⟩
    cases List.mem_singleton.mp among
  · exact fun _ => nofun
  · exact ⟨fun _ _ _ => nofun, fun _ => nofun⟩
  · exact ⟨List.Perm.refl _, List.Perm.refl _⟩

theorem Ledger.step {trace events : List (Event engine)} {s t : Traffic engine ω}
    (ledger : Ledger trace s) (step : Step s events t) : Ledger (trace ++ events) t where
  numbered := ledger.numbered.step step
  account := ledger.account.step (List.nodup_append.mp ledger.numbered.distinct).2.1 step
  stamped := ledger.stamped.step step
  provenance := ledger.provenance.step step
  attended := Attended.step ledger.stamped ledger.attended step
  justified := ledger.justified.step ledger.provenance ledger.attended step
  unrepeated := ledger.unrepeated.step step

theorem Run.ledger {config : Config} {terminal : Terminal} {outside : ω}
    {trace : List (Event engine)} {s : Traffic engine ω}
    (run : Run (.start config terminal outside) trace s) : Ledger trace s := by
  induction run with
  | here => exact .start config terminal outside
  | step _ step ih => exact ih.step step

theorem Ledger.settles_once {trace : List (Event engine)} {s : Traffic engine ω}
    (ledger : Ledger trace s) : (s.front.pending ++ s.front.settled.map Prod.fst).Nodup := by
  have each := ledger.account.each
  rw [← ledger.account.log] at each
  exact each.nodup_iff.mp (List.nodup_append.mp ledger.numbered.distinct).2.1

/-- In every order of events each request has its own number and is taken up, computed and settled at
most once. A response or a rejection is what the generation that the request was sent to computed for
it; a termination follows an abort of that generation. What is open was sent to the live generation
and is on its way through it, so an abort leaves nothing open. -/
theorem Run.requests_settled_once {config : Config} {terminal : Terminal} {outside : ω}
    {trace : List (Event engine)} {s : Traffic engine ω}
    (run : Run (.start config terminal outside) trace s) :
    ((sentIds trace).Nodup ∧ (begunIds trace).Nodup ∧ (computedIds trace).Nodup ∧
      (s.front.settled.map Prod.fst).Nodup) ∧
      s.front.settled = settlements trace ∧
      (∀ id reply, (id, reply) ∈ s.front.settled → reply ≠ .error .terminated →
        ∃ generation, Answered trace id generation reply) ∧
      (∀ id, (id, .error .terminated) ∈ s.front.settled → Refused trace id) ∧
      (∀ id, id ∈ sentIds trace ↔ id ∈ s.front.pending ∨ id ∈ s.front.settled.map Prod.fst) ∧
      (∀ id ∈ s.front.pending, Attended trace s id ∧ id ∉ s.front.settled.map Prod.fst) ∧
      (s.abort.front.pending = [] ∧
        ∀ id ∈ sentIds trace, id ∈ s.abort.front.settled.map Prod.fst) := by
  have ledger := run.ledger
  have sent : (sentIds trace).Nodup := (List.nodup_append.mp ledger.numbered.distinct).2.1
  have begun := (List.nodup_append.mp (ledger.unrepeated.begun.nodup_iff.mp sent)).1
  have computed := (List.nodup_append.mp (ledger.unrepeated.computed.nodup_iff.mp begun)).1
  have log := ledger.account.log
  have each := ledger.account.each
  rw [← log] at each
  obtain ⟨_, settled, apart⟩ := List.nodup_append.mp ledger.settles_once
  have settles {id : RequestId} {reply : Reply} (among : (id, reply) ∈ s.front.settled) :
      (∃ generation, .answered id generation reply ∈ trace) ∨
        (.refused id ∈ trace ∧ reply = .error .terminated) := by
    rw [log, settlements, List.mem_filterMap] at among
    obtain ⟨e, happened, settlement⟩ := among
    cases e with
    | answered other generation given =>
      cases settlement
      exact .inl ⟨generation, happened⟩
    | refused other =>
      cases settlement
      exact .inr ⟨happened, rfl⟩
    | _ => cases settlement
  refine ⟨⟨sent, begun, computed, settled⟩, log, ?_, ?_, ?_, ?_, rfl, ?_⟩
  · intro id reply among open_end
    rcases settles among with ⟨generation, happened⟩ | ⟨_, same⟩
    · exact ⟨generation, ledger.justified.answered id generation reply happened⟩
    · exact absurd same open_end
  · intro id among
    rcases settles among with ⟨generation, happened⟩ | ⟨happened, _⟩
    · -- no result of a request makes a termination
      obtain ⟨_, _, result, _, same, _⟩ := ledger.justified.answered id generation _ happened
      cases result with
      | some response => cases same
      | none => cases same
    · exact ledger.justified.refused id happened
  · intro id
    rw [each.mem_iff, List.mem_append]
  · intro id isOpen
    exact ⟨ledger.attended id isOpen, fun again => apart id isOpen id again rfl⟩
  · intro id among
    show id ∈ (s.front.settled ++
      s.front.pending.map (·, Except.error Refusal.terminated)).map Prod.fst
    rw [List.map_append, List.map_map, List.mem_append]
    rcases List.mem_append.mp (each.mem_iff.mp among) with isOpen | closed
    · exact .inr (List.mem_map.mpr ⟨id, isOpen, rfl⟩)
    · exact .inl closed

def restingEngine : Engine where
  Module := Unit
  Instance := Unit
  load _ := some ()
  imports _ := []
  exports _ := ⟨memoryExport, .memory⟩ ::
    Filesystem.required.map fun (name, type) => ⟨name, .function type⟩
  start _ := .returned () []
  memory _ := none
  setMemory _ _ := ()
  call _ _ _ := .returned () [.i32 0]

/-- A program is called again though none is held. -/
theorem Run.rejected_request_settled :
    ∃ (trace : List (Event restingEngine)) (s : Traffic restingEngine Unit),
      Run (.start {} {} ()) trace s ∧ s.front.settled = [(1, .error .rejected)] ∧
        ∃ generation, Answered trace 1 generation (.error .rejected) := by
  have first : Run (.start {} {} () : Traffic restingEngine Unit) [] (.start {} {} ()) := .here
  have drawn := first.step (.draw (.callContinuation "frame") (by decide))
  have registered := drawn.step (.register
    (show _ = [] ++ ((1 : RequestId), Request.callContinuation "frame") :: [] from rfl))
  have timed := registered.step (.live () (.takeTiming rfl rfl))
  have begun := timed.step (.live () (.takeRequest rfl rfl))
  have computed := begun.step (.live () (.finish rfl))
  have taken := computed.step (.take rfl rfl)
  have judged := taken.step (.judge rfl)
  have acted := judged.step (.act rfl)
  obtain ⟨_, _, answered, _⟩ := acted.requests_settled_once
  exact ⟨_, _, acted, rfl, answered 1 (.error .rejected) (List.mem_singleton_self _) nofun⟩

end Buildbox.Session
