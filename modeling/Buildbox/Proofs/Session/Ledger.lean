import Buildbox.Proofs.Session.Traffic

/-!
The account of the requests of a session. Every request that was sent is open or settled, once; what
is open was sent to the live generation and is on its way there; what was answered was computed for
that request by the generation that it was sent to.
-/

set_option autoImplicit false

namespace Buildbox.Session

variable {engine : Engine} {ω : Type}

namespace Event

def sentId : Event engine → Option RequestId
  | .sent id _ _ => some id
  | _ => none

def begunId : Event engine → Option RequestId
  | .began id _ _ _ => some id
  | _ => none

/-- The request whose result is posted. -/
def computedId : Event engine → Option RequestId
  | .posted _ (.runAsync id _) => some id
  | _ => none

/-- The answer that a request gets. -/
def settlement : Event engine → Option (RequestId × Reply)
  | .answered id _ reply => some (id, reply)
  | .refused id => some (id, .error .terminated)
  | _ => none

end Event

/-- The requests that were sent, in order. -/
def sentIds (trace : List (Event engine)) : List RequestId :=
  trace.filterMap Event.sentId

/-- The answers that were given, in order. -/
def settlements (trace : List (Event engine)) : List (RequestId × Reply) :=
  trace.filterMap Event.settlement

/-- A step of a thread tells of a request that is taken up, of a line that is read, and of the
messages that are posted. -/
theorem ThreadStep.event_cases {closed : Bool} {thread later : Live engine}
    {events : List (Event engine)} {messages : List HostMessage}
    (step : ThreadStep closed thread events messages later) {e : Event engine}
    (among : e ∈ events ++ messages.map (.posted thread.generation)) :
    (∃ id request builder, e = .began id request thread.generation builder) ∨
      (∃ line, e = .read thread.generation line) ∨
      ∃ message ∈ messages, e = .posted thread.generation message := by
  rcases List.mem_append.mp among with own | post
  · cases step with
    | takeRequest => exact .inl ⟨_, _, _, List.mem_singleton.mp own⟩
    | takeLine => exact .inr (.inl ⟨_, List.mem_singleton.mp own⟩)
    | takeNothing => exact .inr (.inl ⟨_, List.mem_singleton.mp own⟩)
    | takeTiming => cases own
    | write => cases own
    | isClosed => cases own
    | askLine => cases own
    | outside => cases own
    | finish => cases own
  · obtain ⟨message, given, rfl⟩ := List.mem_map.mp post
    exact .inr (.inr ⟨message, given, rfl⟩)

theorem Traffic.effects_cases {s : Traffic engine ω} {generation : Generation}
    {message : HostMessage} {e : Event engine} (among : e ∈ s.effects generation message) :
    (∃ text, message = .write text ∧ e = .shown generation text) ∨
      (message = .readLine ∧ (e = .asked generation ∨ ∃ line, e = .typed generation line)) ∨
      ∃ id result, message = .runAsync id result ∧ id ∈ s.front.pending ∧
        e = .answered id generation (.ofResult result) := by
  cases message with
  | write text => exact .inl ⟨text, rfl, List.mem_singleton.mp among⟩
  | readLine =>
    refine .inr (.inl ⟨rfl, ?_⟩)
    rcases List.mem_cons.mp among with asked | typed
    · exact .inl asked
    · obtain ⟨line, _, same⟩ := Option.map_eq_some_iff.mp (Option.mem_toList.mp typed)
      exact .inr ⟨line, same.symm⟩
  | runAsync id result =>
    simp only [effects] at among
    split at among
    · rename_i isOpen
      exact .inr (.inr ⟨id, result, rfl, List.contains_iff_mem.mp isOpen,
        List.mem_singleton.mp among⟩)
    · cases among

/-- What is not about requests that are taken up, lines or messages says nothing of a thread. -/
theorem ThreadStep.filterMap_events {β : Type} {f : Event engine → Option β} {closed : Bool}
    {thread later : Live engine} {events : List (Event engine)} {messages : List HostMessage}
    (step : ThreadStep closed thread events messages later)
    (began : ∀ id request generation builder, f (.began id request generation builder) = none)
    (read : ∀ generation line, f (.read generation line) = none)
    (posted : ∀ generation message, f (.posted generation message) = none) :
    (events ++ messages.map (Event.posted thread.generation)).filterMap f = [] := by
  apply List.filterMap_eq_nil_iff.mpr
  intro e among
  rcases step.event_cases among with ⟨id, request, builder, rfl⟩ | ⟨line, rfl⟩ | ⟨message, _, rfl⟩
  · exact began id request thread.generation builder
  · exact read thread.generation line
  · exact posted thread.generation message

theorem Traffic.filterMap_effects {β : Type} {f : Event engine → Option β}
    (shown : ∀ generation text, f (.shown generation text) = none)
    (asked : ∀ generation, f (.asked generation) = none)
    (typed : ∀ generation line, f (.typed generation line) = none)
    (answered : ∀ id generation reply, f (.answered id generation reply) = none)
    (s : Traffic engine ω) (generation : Generation) (message : HostMessage) :
    (s.effects generation message).filterMap f = [] := by
  apply List.filterMap_eq_nil_iff.mpr
  intro e among
  rcases effects_cases among with ⟨text, _, rfl⟩ | ⟨_, rfl | ⟨line, rfl⟩⟩ | ⟨id, result, _, _, rfl⟩
  · exact shown generation text
  · exact asked generation
  · exact typed generation line
  · exact answered id generation (.ofResult result)

theorem filterMap_abort {β : Type} {f : Event engine → Option β}
    (retired : ∀ generation, f (.retired generation) = none)
    (refused : ∀ id, f (.refused id) = none) (generation : Generation) (ids : List RequestId) :
    (Event.retired generation :: ids.map Event.refused).filterMap f = [] := by
  apply List.filterMap_eq_nil_iff.mpr
  intro e among
  rcases List.mem_cons.mp among with rfl | given
  · exact retired generation
  · obtain ⟨id, _, rfl⟩ := List.mem_map.mp given
    exact refused id

theorem ThreadStep.sentIds_eq {closed : Bool} {thread later : Live engine}
    {events : List (Event engine)} {messages : List HostMessage}
    (step : ThreadStep closed thread events messages later) :
    sentIds (events ++ messages.map (.posted thread.generation)) = [] :=
  step.filterMap_events (fun _ _ _ _ => rfl) (fun _ _ => rfl) (fun _ _ => rfl)

theorem ThreadStep.settlements_eq {closed : Bool} {thread later : Live engine}
    {events : List (Event engine)} {messages : List HostMessage}
    (step : ThreadStep closed thread events messages later) :
    settlements (events ++ messages.map (.posted thread.generation)) = [] :=
  step.filterMap_events (fun _ _ _ _ => rfl) (fun _ _ => rfl) (fun _ _ => rfl)

theorem Traffic.sentIds_effects (s : Traffic engine ω) (generation : Generation)
    (message : HostMessage) : sentIds (s.effects generation message) = [] :=
  s.filterMap_effects (fun _ _ => rfl) (fun _ => rfl) (fun _ _ => rfl) (fun _ _ _ => rfl) generation
    message

theorem Traffic.settlements_readLine (s : Traffic engine ω) (generation : Generation) :
    settlements (s.effects generation .readLine) = [] := by
  apply List.filterMap_eq_nil_iff.mpr
  intro e among
  rcases effects_cases among with ⟨_, _, rfl⟩ | ⟨_, rfl | ⟨_, rfl⟩⟩ | ⟨_, _, other, _⟩
  · rfl
  · rfl
  · rfl
  · cases other

theorem sentIds_abort (generation : Generation) (ids : List RequestId) :
    sentIds ((.retired generation : Event engine) :: ids.map .refused) = [] :=
  filterMap_abort (fun _ => rfl) (fun _ => rfl) generation ids

theorem settlements_abort (generation : Generation) (ids : List RequestId) :
    settlements ((.retired generation : Event engine) :: ids.map .refused) =
      ids.map (·, .error .terminated) := by
  unfold settlements
  rw [List.filterMap_cons_none rfl, List.filterMap_map]
  exact congrFun List.filterMap_eq_map ids

theorem sentIds_sent (id : RequestId) (request : Request) (generation : Generation) :
    sentIds [(.sent id request generation : Event engine)] = [id] :=
  rfl

theorem sentIds_append (trace events : List (Event engine)) :
    sentIds (trace ++ events) = sentIds trace ++ sentIds events :=
  List.filterMap_append

theorem settlements_append (trace events : List (Event engine)) :
    settlements (trace ++ events) = settlements trace ++ settlements events :=
  List.filterMap_append

/-- No number is drawn twice. -/
structure Numbered (trace : List (Event engine)) (s : Traffic engine ω) : Prop where
  drawn : ∀ id ∈ s.callers.map Prod.fst ++ sentIds trace, id.toNat < s.front.nextId.toNat
  distinct : (s.callers.map Prod.fst ++ sentIds trace).Nodup

namespace Numbered

private theorem keep {trace events : List (Event engine)} {s t : Traffic engine ω}
    (numbered : Numbered trace s) (callers : t.callers = s.callers)
    (nextId : t.front.nextId = s.front.nextId) (unsent : sentIds events = []) :
    Numbered (trace ++ events) t := by
  constructor
  · rw [callers, nextId, sentIds_append, unsent, List.append_nil]
    exact numbered.drawn
  · rw [callers, sentIds_append, unsent, List.append_nil]
    exact numbered.distinct

theorem draw {trace : List (Event engine)} {s : Traffic engine ω} (numbered : Numbered trace s)
    (request : Request) (left : s.front.nextId.toNat + 1 < 2 ^ 64) :
    Numbered (trace ++ []) { s with
      front := s.front.draw.2
      callers := s.callers ++ [(s.front.draw.1, request)] } := by
  have next : (s.front.nextId + 1).toNat = s.front.nextId.toNat + 1 := by
    rw [UInt64.toNat_add]
    exact Nat.mod_eq_of_lt left
  have reordered : ((s.callers ++ [(s.front.draw.1, request)]).map Prod.fst ++ sentIds trace).Perm
      (s.front.nextId :: (s.callers.map Prod.fst ++ sentIds trace)) := by
    rw [List.map_append, List.append_assoc]
    exact List.perm_middle
  rw [List.append_nil]
  constructor
  · intro id among
    show id.toNat < (s.front.nextId + 1).toNat
    rw [next]
    rcases List.mem_cons.mp (reordered.mem_iff.mp among) with rfl | earlier
    · exact Nat.lt_succ_self _
    · exact Nat.lt_succ_of_lt (numbered.drawn id earlier)
  · apply reordered.nodup_iff.mpr
    refine List.nodup_cons.mpr ⟨fun again => ?_, numbered.distinct⟩
    exact Nat.lt_irrefl _ (numbered.drawn _ again)

theorem register {trace : List (Event engine)} {s : Traffic engine ω}
    (numbered : Numbered trace s) {id : RequestId} {request : Request}
    {before after : List (RequestId × Request)}
    (waiting : s.callers = before ++ (id, request) :: after) :
    Numbered (trace ++ [.sent id request s.front.live.generation]) { s with
      front := s.front.register id request
      callers := before ++ after } := by
  have reordered : ((before ++ after).map Prod.fst ++ sentIds
      (trace ++ [.sent id request s.front.live.generation])).Perm
      (s.callers.map Prod.fst ++ sentIds trace) := by
    apply List.perm_iff_count.mpr
    intro other
    rw [waiting, sentIds_append]
    simp only [sentIds_sent, List.map_append, List.map_cons, List.count_append, List.count_cons,
      List.count_nil]
    omega
  constructor
  · intro other among
    exact numbered.drawn other (reordered.mem_iff.mp among)
  · exact reordered.nodup_iff.mpr numbered.distinct

theorem step {trace events : List (Event engine)} {s t : Traffic engine ω}
    (numbered : Numbered trace s) (step : Step s events t) : Numbered (trace ++ events) t := by
  cases step with
  | draw request left => exact numbered.draw request left
  | register waiting => exact numbered.register waiting
  | live outside step => exact numbered.keep rfl rfl step.sentIds_eq
  | retired split step => exact numbered.keep rfl rfl step.sentIds_eq
  | @act generation message inHand =>
    obtain ⟨terminal, live, retired, pending, settled, same, _, _⟩ :=
      Traffic.act_frame { s with hand := .empty } generation message
    rw [same]
    exact numbered.keep rfl rfl (s.sentIds_effects generation message)
  | abort => exact numbered.keep rfl rfl (sentIds_abort _ _)
  | keepTiming on => exact numbered.keep rfl rfl rfl
  | handTiming waiting => exact numbered.keep rfl rfl rfl
  | take posts free => exact numbered.keep rfl rfl rfl
  | judge inHand => exact numbered.keep rfl rfl rfl
  | evict inHand other => exact numbered.keep rfl rfl rfl
  | type line held => exact numbered.keep rfl rfl rfl

end Numbered

namespace Frontend

theorem complete_of_open {front : Frontend engine ω} {id : RequestId}
    (isOpen : id ∈ front.pending) (reply : Reply) :
    (front.complete id reply).pending = front.pending.filter (· != id) ∧
      (front.complete id reply).settled = front.settled ++ [(id, reply)] := by
  rw [complete, if_pos (List.contains_iff_mem.mpr isOpen)]
  exact ⟨rfl, rfl⟩

theorem complete_of_closed {front : Frontend engine ω} {id : RequestId}
    (closed : id ∉ front.pending) (reply : Reply) : front.complete id reply = front := by
  rw [complete, if_neg]
  intro found
  exact closed (List.contains_iff_mem.mp found)

end Frontend

/-- Every request that was sent is open or settled, and not twice. -/
structure Account (trace : List (Event engine)) (s : Traffic engine ω) : Prop where
  log : s.front.settled = settlements trace
  each : (sentIds trace).Perm (s.front.pending ++ (settlements trace).map Prod.fst)

namespace Account

private theorem keep {trace events : List (Event engine)} {s t : Traffic engine ω}
    (account : Account trace s) (pending : t.front.pending = s.front.pending)
    (settled : t.front.settled = s.front.settled) (unsent : sentIds events = [])
    (unsettled : settlements events = []) : Account (trace ++ events) t := by
  constructor
  · rw [settled, settlements_append, unsettled, List.append_nil]
    exact account.log
  · rw [pending, sentIds_append, settlements_append, unsent, unsettled, List.append_nil,
      List.append_nil]
    exact account.each

theorem register {trace : List (Event engine)} {s : Traffic engine ω} (account : Account trace s)
    (id : RequestId) (request : Request) (callers : List (RequestId × Request)) :
    Account (trace ++ [.sent id request s.front.live.generation])
      { s with front := s.front.register id request, callers } := by
  have unsettled : settlements
      [(.sent id request s.front.live.generation : Event engine)] = [] := rfl
  constructor
  · rw [settlements_append, unsettled, List.append_nil]
    exact account.log
  · rw [sentIds_append, sentIds_sent, settlements_append, unsettled, List.append_nil]
    show (sentIds trace ++ [id]).Perm (s.front.pending ++ [id] ++ (settlements trace).map Prod.fst)
    have each := account.each
    rw [List.perm_iff_count] at each ⊢
    intro other
    have counted := each other
    simp only [List.count_append] at counted ⊢
    omega

theorem answer {trace : List (Event engine)} {s : Traffic engine ω} (account : Account trace s)
    (distinct : (sentIds trace).Nodup) {id : RequestId} (isOpen : id ∈ s.front.pending)
    (generation : Generation) (reply : Reply) :
    Account (trace ++ [.answered id generation reply])
      { s with front := s.front.complete id reply, hand := .empty } := by
  obtain ⟨pending, settled⟩ := Frontend.complete_of_open isOpen reply
  have unsent : sentIds [(.answered id generation reply : Event engine)] = [] := rfl
  have answer : settlements [(.answered id generation reply : Event engine)] = [(id, reply)] := rfl
  have single : s.front.pending.Nodup :=
    (List.nodup_append.mp (account.each.nodup_iff.mp distinct)).1
  have taken_out : s.front.pending.Perm (id :: s.front.pending.filter (· != id)) := by
    have erased := List.perm_cons_erase isOpen
    rw [single.erase_eq_filter] at erased
    exact erased
  constructor
  · show (s.front.complete id reply).settled = _
    rw [settled, settlements_append, answer, account.log]
  · show (sentIds _).Perm ((s.front.complete id reply).pending ++ _)
    rw [pending, sentIds_append, settlements_append, unsent, answer, List.append_nil]
    have each := account.each
    rw [List.perm_iff_count] at each taken_out ⊢
    intro other
    have counted := each other
    have moved := taken_out other
    simp only [List.count_append, List.map_append, List.map_cons, List.map_nil, List.count_cons,
      List.count_nil] at counted moved ⊢
    omega

theorem act {trace : List (Event engine)} {s : Traffic engine ω} (account : Account trace s)
    (distinct : (sentIds trace).Nodup) (generation : Generation) (message : HostMessage) :
    Account (trace ++ s.effects generation message)
      ({ s with hand := .empty }.act generation message) := by
  cases message with
  | write text => exact account.keep rfl rfl rfl rfl
  | readLine =>
    obtain ⟨terminal, live, retired, same, _, _⟩ :=
      Traffic.ask_frame { s with hand := .empty } generation
    rw [Traffic.act, same]
    exact account.keep rfl rfl (s.sentIds_effects generation .readLine)
      (s.settlements_readLine generation)
  | runAsync id result =>
    by_cases isOpen : id ∈ s.front.pending
    · rw [Traffic.effects, if_pos (List.contains_iff_mem.mpr isOpen)]
      exact account.answer distinct isOpen generation (.ofResult result)
    · rw [Traffic.effects, if_neg fun found => isOpen (List.contains_iff_mem.mp found),
        Traffic.act, Frontend.complete_of_closed isOpen]
      exact account.keep rfl rfl rfl rfl

theorem abort {trace : List (Event engine)} {s : Traffic engine ω} (account : Account trace s) :
    Account (trace ++ .retired s.front.live.generation :: s.front.pending.map .refused)
      s.abort := by
  constructor
  · rw [settlements_append, settlements_abort, ← account.log]
    rfl
  · rw [sentIds_append, sentIds_abort, settlements_append, settlements_abort, List.append_nil]
    show (sentIds trace).Perm ([] ++ _)
    rw [List.nil_append, List.map_append, List.map_map]
    have ids : s.front.pending.map (Prod.fst ∘ fun id => (id, (.error .terminated : Reply))) =
        s.front.pending := List.map_id _
    rw [ids]
    exact account.each.trans List.perm_append_comm

theorem step {trace events : List (Event engine)} {s t : Traffic engine ω}
    (account : Account trace s) (distinct : (sentIds trace).Nodup) (step : Step s events t) :
    Account (trace ++ events) t := by
  cases step with
  | @register id request before after waiting => exact account.register id request _
  | @act generation message inHand => exact account.act distinct generation message
  | abort => exact account.abort
  | live outside step => exact account.keep rfl rfl step.sentIds_eq step.settlements_eq
  | retired split step => exact account.keep rfl rfl step.sentIds_eq step.settlements_eq
  | draw request left => exact account.keep rfl rfl rfl rfl
  | keepTiming on => exact account.keep rfl rfl rfl rfl
  | handTiming waiting => exact account.keep rfl rfl rfl rfl
  | take posts free => exact account.keep rfl rfl rfl rfl
  | judge inHand => exact account.keep rfl rfl rfl rfl
  | evict inHand other => exact account.keep rfl rfl rfl rfl
  | type line held => exact account.keep rfl rfl rfl rfl

end Account

/-- What is in hand is of no later generation than the one that was looked up for it, and that one is
of no later generation than the live one. -/
def Hand.Within (limit : Generation) : Hand → Prop
  | .empty => True
  | .taken generation _ => generation ≤ limit
  | .judged generation _ live => generation ≤ live ∧ live ≤ limit

/-- The live generation is later than all the others. -/
structure Stamped (s : Traffic engine ω) : Prop where
  old : ∀ duty ∈ s.old, duty.generation < s.front.live.generation
  posts : ∀ post ∈ s.posts, post.1 ≤ s.front.live.generation
  hand : s.hand.Within s.front.live.generation

theorem Hand.Within.mono {limit later : Generation} (no_earlier : limit ≤ later) {hand : Hand}
    (within : hand.Within limit) : hand.Within later := by
  cases hand with
  | empty => exact within
  | taken generation message => exact Nat.le_trans within no_earlier
  | judged generation message live => exact ⟨within.1, Nat.le_trans within.2 no_earlier⟩

theorem mem_stamped {generation : Generation} {messages : List HostMessage}
    {post : Generation × HostMessage} (among : post ∈ stamped generation messages) :
    post.1 = generation ∧ post.2 ∈ messages := by
  obtain ⟨message, given, rfl⟩ := List.mem_map.mp among
  exact ⟨rfl, given⟩

namespace Stamped

private theorem keep {s t : Traffic engine ω} (stamped : Stamped s)
    (duty : t.front.live.duty = s.front.live.duty) (old : t.old = s.old)
    (posts : t.posts = s.posts) (hand : t.hand = s.hand) : Stamped t := by
  have generation : t.front.live.generation = s.front.live.generation :=
    congrArg Duty.generation duty
  constructor
  · rw [old, generation]
    exact stamped.old
  · rw [posts, generation]
    exact stamped.posts
  · rw [hand, generation]
    exact stamped.hand

theorem clear {s : Traffic engine ω} (stamped : Stamped s) : Stamped { s with hand := .empty } :=
  ⟨stamped.old, stamped.posts, trivial⟩

theorem advance_live {s : Traffic engine ω} (stamped : Stamped s) {events : List (Event engine)}
    {messages : List HostMessage} {live : Live engine} (outside : ω)
    (step : ThreadStep false s.front.live events messages live) :
    Stamped { s with
      front := { s.front with live, outside }
      posts := s.posts ++ Session.stamped s.front.live.generation messages } := by
  have same := step.generation_eq
  constructor
  · intro duty among
    show duty.generation < live.generation
    rw [same]
    exact stamped.old duty among
  · intro post among
    show post.1 ≤ live.generation
    rw [same]
    rcases List.mem_append.mp among with earlier | new
    · exact stamped.posts post earlier
    · exact Nat.le_of_eq (mem_stamped new).1
  · show s.hand.Within live.generation
    rw [same]
    exact stamped.hand

theorem advance_retired {s : Traffic engine ω} (stamped : Stamped s) {events : List (Event engine)}
    {messages : List HostMessage} {before after : List (Live engine)} {thread later : Live engine}
    (split : s.retired = before ++ thread :: after)
    (step : ThreadStep true thread events messages later) :
    Stamped { s with
      retired := before ++ later :: after
      posts := s.posts ++ Session.stamped thread.generation messages } := by
  have old := stamped.old
  rw [Traffic.old, split, List.forall_mem_map] at old
  have earlier := old thread (List.mem_append_right _ (List.mem_cons_self ..))
  constructor
  · rw [Traffic.old, List.forall_mem_map]
    intro other among
    rcases List.mem_append.mp among with left | right
    · exact old other (List.mem_append_left _ left)
    · rcases List.mem_cons.mp right with rfl | right
      · rw [Live.duty_generation, step.generation_eq]
        exact earlier
      · exact old other (List.mem_append_right _ (List.mem_cons_of_mem _ right))
  · intro post among
    rcases List.mem_append.mp among with waiting | new
    · exact stamped.posts post waiting
    · rw [(mem_stamped new).1]
      exact Nat.le_of_lt earlier
  · exact stamped.hand

theorem abort {s : Traffic engine ω} (stamped : Stamped s) : Stamped s.abort := by
  have next : s.abort.front.live.generation = s.front.live.generation + 1 := rfl
  constructor
  · intro duty among
    rw [Traffic.old_abort] at among
    rw [next]
    rcases List.mem_append.mp among with earlier | last
    · exact Nat.lt_succ_of_lt (stamped.old duty earlier)
    · rw [List.mem_singleton.mp last]
      exact Nat.lt_succ_self _
  · intro post among
    rw [next]
    exact Nat.le_succ_of_le (stamped.posts post among)
  · rw [next]
    exact stamped.hand.mono (Nat.le_succ _)

theorem step {s t : Traffic engine ω} {events : List (Event engine)} (stamped : Stamped s)
    (step : Step s events t) : Stamped t := by
  cases step with
  | live outside step => exact stamped.advance_live outside step
  | retired split step => exact stamped.advance_retired split step
  | abort => exact stamped.abort
  | @take generation message rest posts free =>
    constructor
    · exact stamped.old
    · intro post among
      exact stamped.posts post (posts ▸ List.mem_cons_of_mem _ among)
    · exact stamped.posts (generation, message) (posts ▸ List.mem_cons_self ..)
  | @judge generation message inHand =>
    have within := stamped.hand
    rw [inHand] at within
    exact ⟨stamped.old, stamped.posts, within, Nat.le_refl _⟩
  | evict inHand other => exact stamped.clear
  | @act generation message inHand =>
    obtain ⟨terminal, live, retired, pending, settled, same, duty, old⟩ :=
      Traffic.act_frame { s with hand := .empty } generation message
    rw [same]
    exact (stamped.clear).keep duty old rfl rfl
  | @type generation before after line held =>
    obtain ⟨live, retired, same, duty, old⟩ := Traffic.deliver_frame { s with
      front := { s.front with
        terminal := { s.front.terminal with held := before ++ after } } } generation line
    rw [same]
    exact stamped.keep duty old rfl rfl
  | draw request left => exact ⟨stamped.old, stamped.posts, stamped.hand⟩
  | register waiting => exact ⟨stamped.old, stamped.posts, stamped.hand⟩
  | keepTiming on => exact ⟨stamped.old, stamped.posts, stamped.hand⟩
  | handTiming waiting => exact ⟨stamped.old, stamped.posts, stamped.hand⟩

end Stamped

end Buildbox.Session
