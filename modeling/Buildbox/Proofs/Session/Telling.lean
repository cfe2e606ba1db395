import Buildbox.Proofs.Host.Trace
import Buildbox.Proofs.Session.Delivery

/-!
Text before answers. A thread posts what it writes while it serves a request and then the result, so
when the request is answered the terminal has been given all of it.
-/

set_option autoImplicit false

namespace Buildbox.Session

variable {engine : Engine} {ω : Type}

/-- What a thread is doing is what it began, and since then it has posted the texts it wrote. -/
def Duty.Telling (trace : List (Event engine)) (duty : Duty engine) : Prop :=
  ∀ id task, duty.thread = .serving id task → ∃ early during request builder exchanges,
    trace = early ++ .began id request duty.generation builder :: during ∧
    (builder.serve request).Goes exchanges task ∧
    postedTexts duty.generation during = exchanges.texts

/-- At this point a result was posted, which serving the request led to, and meanwhile the texts
were posted that serving it wrote. -/
def Told (early : List (Event engine)) (id : RequestId) (generation : Generation)
    (result : Option Response) : Prop :=
  ∃ before during request builder exchanges left,
    early = before ++ .began id request generation builder :: during ∧
    (builder.serve request).Runs exchanges (result, left) ∧
    postedTexts generation during = exchanges.texts

theorem Duty.Telling.mono {trace events : List (Event engine)} {duty : Duty engine}
    (telling : duty.Telling trace) (silent : postedTexts duty.generation events = []) :
    duty.Telling (trace ++ events) := by
  intro id task serving
  obtain ⟨early, during, request, builder, exchanges, rfl, goes, texts⟩ := telling id task serving
  refine ⟨early, during ++ events, request, builder, exchanges, by simp, goes, ?_⟩
  rw [postedTexts_append, silent, List.append_nil]
  exact texts

private theorem Duty.Telling.resume {trace events : List (Event engine)} {duty : Duty engine}
    (telling : duty.Telling trace) {id : RequestId} {query : Query}
    {resume : query.Answer → Host (Option Response × Builder engine)}
    (serving : duty.thread = .serving id (.ask query resume)) (answer : query.Answer)
    (texts : postedTexts duty.generation events = Trace.texts [⟨query, answer⟩]) :
    Duty.Telling (trace ++ events) ⟨duty.generation, duty.inbox, .serving id (resume answer)⟩ := by
  intro other task same
  cases same
  obtain ⟨early, during, request, builder, exchanges, rfl, goes, earlier⟩ := telling id _ serving
  refine ⟨early, during ++ events, request, builder, exchanges ++ [⟨query, answer⟩], by simp,
    goes.answered answer, ?_⟩
  rw [postedTexts_append, texts, earlier]
  exact List.filterMap_append.symm

private theorem Duty.telling_idle (trace : List (Event engine)) (generation : Generation)
    (inbox : List Order) (builder : Builder engine) :
    Duty.Telling trace ⟨generation, inbox, .idle builder⟩ := by
  intro id task serving
  cases serving

theorem ThreadStep.telling {closed : Bool} {thread later : Live engine}
    {events : List (Event engine)} {messages : List HostMessage} {trace : List (Event engine)}
    (step : ThreadStep closed thread events messages later)
    (telling : thread.duty.Telling trace) :
    later.duty.Telling (trace ++ (events ++ messages.map (.posted thread.generation))) := by
  cases step with
  | takeTiming idle inbox => exact Duty.telling_idle _ _ _ _
  | finish serving => exact Duty.telling_idle _ _ _ _
  | @takeRequest builder id request rest idle inbox =>
    intro other task same
    cases same
    exact ⟨trace, [], request, builder, [], rfl, .start _, rfl⟩
  | @write id text resume serving =>
    refine telling.resume serving () ?_
    simp [postedTexts, textsOf, allPosts, Event.post, textOf, Trace.texts]
  | isClosed serving => exact telling.resume serving closed rfl
  | askLine serving => exact telling.resume serving true rfl
  | takeLine serving taken => exact telling.resume serving _ rfl
  | takeNothing serving taken => exact telling.resume serving none rfl
  | @outside id query resume answer serving external =>
    refine telling.resume serving answer ?_
    cases query with
    | write text => cases external
    | _ => rfl

theorem ThreadStep.told {closed : Bool} {thread later : Live engine}
    {events : List (Event engine)} {messages : List HostMessage} {trace : List (Event engine)}
    (step : ThreadStep closed thread events messages later) (telling : thread.duty.Telling trace)
    {early mid : List (Event engine)} {id : RequestId} {generation : Generation}
    {result : Option Response}
    (split : events ++ messages.map (.posted thread.generation) =
      early ++ .posted generation (.runAsync id result) :: mid) :
    Told (trace ++ early) id generation result := by
  have listed : .posted generation (.runAsync id result) ∈
      events ++ messages.map (.posted thread.generation) := by
    rw [split]
    exact List.mem_append_right _ (List.mem_cons_self ..)
  cases step with
  | @finish other given left serving =>
    cases List.mem_singleton.mp listed
    obtain rfl : early = [] := by
      cases early with
      | nil => rfl
      | cons e rest => simp at split
    rw [List.append_nil]
    obtain ⟨before, during, request, builder, exchanges, same, goes, texts⟩ :=
      telling id _ serving
    exact ⟨before, during, request, builder, exchanges, left, same, goes.done, texts⟩
  | write serving => cases List.mem_singleton.mp listed
  | askLine serving => cases List.mem_singleton.mp listed
  | takeRequest idle inbox => cases List.mem_singleton.mp listed
  | takeLine serving taken => cases List.mem_singleton.mp listed
  | takeNothing serving taken => cases List.mem_singleton.mp listed
  | takeTiming idle inbox => cases listed
  | isClosed serving => cases listed
  | outside answer serving external => cases listed

def Traffic.duties (s : Traffic engine ω) : List (Duty engine) :=
  s.old ++ [s.front.live.duty]

/-- Every thread tells what it does, and so did those that posted results. -/
structure Telling (trace : List (Event engine)) (s : Traffic engine ω) : Prop where
  apart : (s.duties.map Duty.generation).Pairwise (· < ·)
  threads : ∀ duty ∈ s.duties, duty.Telling trace
  results : ∀ early mid id generation result,
    trace = early ++ .posted generation (.runAsync id result) :: mid →
    Told early id generation result

theorem split_append {α : Type} {first later early mid : List α} {a : α}
    (split : first ++ later = early ++ a :: mid) :
    (∃ between, first = early ++ a :: between) ∨
      ∃ between, early = first ++ between ∧ later = between ++ a :: mid := by
  rcases List.append_eq_append_iff.mp split with ⟨between, rfl, same⟩ | ⟨between, rfl, same⟩
  · exact .inr ⟨between, rfl, same⟩
  · cases between with
    | nil =>
      rw [List.nil_append] at same
      exact .inr ⟨[], by simp, same.symm⟩
    | cons b between =>
      rw [List.cons_append] at same
      cases same
      exact .inl ⟨between, rfl⟩

namespace Telling

variable {trace events : List (Event engine)} {s t : Traffic engine ω}

private theorem results_append (telling : Telling trace s)
    (new : ∀ early mid id generation result,
      events = early ++ .posted generation (.runAsync id result) :: mid →
      Told (trace ++ early) id generation result)
    (early mid : List (Event engine)) (id : RequestId) (generation : Generation)
    (result : Option Response)
    (split : trace ++ events = early ++ .posted generation (.runAsync id result) :: mid) :
    Told early id generation result := by
  rcases split_append split with ⟨between, earlier⟩ | ⟨between, rfl, later⟩
  · exact telling.results early between id generation result earlier
  · exact new between mid id generation result later

private theorem keep (telling : Telling trace s)
    (generation : t.front.live.generation = s.front.live.generation)
    (thread : t.front.live.thread = s.front.live.thread) (old : t.old = s.old)
    (unposted : allPosts events = []) : Telling (trace ++ events) t := by
  have silent (stamp : Generation) : postedTexts stamp events = [] := by
    rw [postedTexts, unposted]
    rfl
  constructor
  · have apart := telling.apart
    simp only [Traffic.duties, List.map_append, List.map_cons, Live.duty_generation] at apart ⊢
    rw [generation, old]
    exact apart
  · intro duty among
    rcases List.mem_append.mp among with earlier | live
    · rw [old] at earlier
      exact (telling.threads duty (List.mem_append_left _ earlier)).mono (silent _)
    · obtain rfl := List.mem_singleton.mp live
      have before := telling.threads s.front.live.duty
        (List.mem_append_right _ (List.mem_singleton_self _))
      intro id task serving
      rw [Live.duty_generation, generation]
      exact before.mono (silent _) id task (thread.symm.trans serving)
  · apply telling.results_append
    intro early mid id stamp result split
    rw [split, allPosts_append] at unposted
    simp [allPosts, Event.post] at unposted

private theorem advance (telling : Telling trace s) {closed : Bool} {thread later : Live engine}
    {messages : List HostMessage} (step : ThreadStep closed thread events messages later)
    {before after : List (Duty engine)} (earlier : s.duties = before ++ thread.duty :: after)
    (now : t.duties = before ++ later.duty :: after) :
    Telling (trace ++ (events ++ messages.map (.posted thread.generation))) t := by
  have apart := telling.apart
  have threads := telling.threads
  rw [earlier] at apart threads
  have own := threads thread.duty (List.mem_append_right _ (List.mem_cons_self ..))
  have silent {duty : Duty engine} (other : thread.generation ≠ duty.generation) :
      postedTexts duty.generation (events ++ messages.map (.posted thread.generation)) = [] := by
    rw [postedTexts, step.allPosts_eq]
    apply List.filterMap_eq_nil_iff.mpr
    intro post among
    obtain ⟨message, _, rfl⟩ := List.mem_map.mp among
    exact List.filterMap_eq_nil_iff.mp (textsOf_stranger other message) _
      (List.mem_singleton_self _)
  constructor
  · rw [now]
    simpa [step.generation_eq] using apart
  · rw [now]
    rw [List.map_append, List.map_cons, List.pairwise_append, List.pairwise_cons] at apart
    obtain ⟨_, ⟨above, _⟩, below⟩ := apart
    intro duty among
    rcases List.mem_append.mp among with left | right
    · have less : duty.generation < thread.generation :=
        below _ (List.mem_map_of_mem left) _ (List.mem_cons_self ..)
      exact (threads duty (List.mem_append_left _ left)).mono (silent (Nat.ne_of_gt less))
    · rcases List.mem_cons.mp right with rfl | right
      · exact step.telling own
      · have less : thread.generation < duty.generation := above _ (List.mem_map_of_mem right)
        exact (threads duty (List.mem_append_right _ (List.mem_cons_of_mem _ right))).mono
          (silent (Nat.ne_of_lt less))
  · exact telling.results_append fun early mid id generation result split => step.told own split

theorem abort (telling : Telling trace s) :
    Telling (trace ++ .retired s.front.live.generation :: s.front.pending.map .refused)
      s.abort := by
  have unposted : allPosts
      ((.retired s.front.live.generation : Event engine) :: s.front.pending.map .refused) = [] :=
    filterMap_abort (fun _ => rfl) (fun _ => rfl) _ _
  have duties : s.abort.duties = s.duties ++ [s.abort.front.live.duty] := by
    rw [Traffic.duties, Traffic.old_abort]
    rfl
  have kept : Telling (trace ++ _) s := telling.keep rfl rfl rfl unposted
  constructor
  · rw [duties, List.map_append, List.pairwise_append]
    refine ⟨telling.apart, List.pairwise_singleton _ _, fun stamp among next new => ?_⟩
    obtain rfl := List.mem_singleton.mp new
    have apart := telling.apart
    rw [Traffic.duties, List.map_append, List.pairwise_append] at apart
    rw [Traffic.duties, List.map_append] at among
    show stamp < s.front.live.generation + 1
    rcases List.mem_append.mp among with earlier | live
    · exact Nat.lt_succ_of_lt (apart.2.2 stamp earlier _ (List.mem_singleton_self _))
    · exact Nat.lt_succ_of_le (Nat.le_of_eq (List.mem_singleton.mp live))
  · rw [duties]
    intro duty among
    rcases List.mem_append.mp among with earlier | live
    · exact kept.threads duty earlier
    · obtain rfl := List.mem_singleton.mp live
      exact Duty.telling_idle _ _ _ _
  · exact kept.results

theorem step (telling : Telling trace s) (step : Step s events t) :
    Telling (trace ++ events) t := by
  cases step with
  | live outside step =>
    have earlier : s.duties = s.old ++ s.front.live.duty :: [] := rfl
    exact telling.advance step earlier rfl
  | @retired events messages before after thread later split step =>
    have earlier : s.duties =
        before.map Live.duty ++ thread.duty :: (after.map Live.duty ++ [s.front.live.duty]) := by
      simp [Traffic.duties, Traffic.old, split]
    refine telling.advance step earlier ?_
    simp [Traffic.duties, Traffic.old]
  | abort => exact telling.abort
  | @act generation message inHand =>
    obtain ⟨terminal, live, retired, pending, settled, same, duty, old⟩ :=
      Traffic.act_frame { s with hand := .empty } generation message
    rw [same]
    exact telling.keep (congrArg Duty.generation duty) (congrArg Duty.thread duty) old
      (s.allPosts_effects generation message)
  | @type generation before after line held =>
    obtain ⟨live, retired, same, duty, old⟩ := Traffic.deliver_frame { s with
      front := { s.front with
        terminal := { s.front.terminal with held := before ++ after } } } generation line
    rw [same]
    exact telling.keep (congrArg Duty.generation duty) (congrArg Duty.thread duty) old rfl
  | draw request left => exact telling.keep rfl rfl rfl rfl
  | register waiting => exact telling.keep rfl rfl rfl rfl
  | keepTiming on => exact telling.keep rfl rfl rfl rfl
  | handTiming waiting => exact telling.keep rfl rfl rfl rfl
  | take posts free => exact telling.keep rfl rfl rfl rfl
  | judge inHand => exact telling.keep rfl rfl rfl rfl
  | evict inHand other => exact telling.keep rfl rfl rfl rfl

theorem start (config : Config) (terminal : Terminal) (outside : ω) :
    Telling [] (Traffic.start config terminal outside : Traffic engine ω) := by
  refine ⟨List.pairwise_singleton _ _, fun duty among => ?_, fun early mid id stamp result => ?_⟩
  · obtain rfl := List.mem_singleton.mp among
    exact Duty.telling_idle _ _ _ _
  · intro split
    simp at split

end Telling

private theorem shown_act (s : Traffic engine ω) (generation : Generation) (message : HostMessage) :
    (s.act generation message).front.terminal.shown =
      (handedTexts (s.effects generation message)).foldl (· ++ ·) s.front.terminal.shown := by
  cases message with
  | write text => rfl
  | readLine =>
    simp only [Traffic.act, Traffic.ask, Traffic.effects, Terminal.requestLine]
    cases s.front.terminal.lines with
    | nil => rfl
    | cons line lines => rfl
  | runAsync id result =>
    have settled := s.front.complete_frame id (.ofResult result)
    simp only [Traffic.act, Traffic.effects]
    rw [settled]
    split
    · rfl
    · rfl

theorem Step.shown_eq {s t : Traffic engine ω} {events : List (Event engine)}
    (step : Step s events t) :
    t.front.terminal.shown = (handedTexts events).foldl (· ++ ·) s.front.terminal.shown := by
  cases step with
  | act inHand => exact shown_act { s with hand := .empty } _ _
  | live outside step =>
    rw [step.handedTexts_eq]
    rfl
  | retired split step =>
    rw [step.handedTexts_eq]
    rfl
  | abort =>
    have refused : handedTexts (s.front.pending.map (.refused : _ → Event engine)) = [] := by
      apply List.filterMap_eq_nil_iff.mpr
      intro e among
      obtain ⟨id, _, rfl⟩ := List.mem_map.mp among
      rfl
    show _ = (Frontend.terminatedBanner :: handedTexts _).foldl (· ++ ·) _
    rw [refused]
    rfl
  | draw request left => rfl
  | register waiting => rfl
  | keepTiming on => rfl
  | handTiming waiting => rfl
  | take posts free => rfl
  | judge inHand => rfl
  | evict inHand other => rfl
  | type line held => rfl

/-- What is replied was computed for the request by this generation, and the terminal was given all
that the generation posted before the result, nothing else: what it posted before it began the
request, and then what serving the request wrote. -/
def Delivered (trace : List (Event engine)) (id : RequestId) (generation : Generation)
    (reply : Reply) : Prop :=
  ∃ early mid result, reply = .ofResult result ∧
    trace = early ++ .posted generation (.runAsync id result) :: mid ∧
    Told early id generation result ∧
    shownTexts generation trace = postedTexts generation early

variable {config : Config} {terminal : Terminal} {outside : ω} {trace : List (Event engine)}
  {s : Traffic engine ω}

theorem Run.delivery (run : Run (.start config terminal outside) trace s) :
    ∃ past, Delivery trace s past := by
  induction run with
  | here => exact ⟨[], rfl, fun _ => .inl rfl⟩
  | step run step ih =>
    obtain ⟨past, delivery⟩ := ih
    exact delivery.step run.ledger.stamped step

theorem Run.telling (run : Run (.start config terminal outside) trace s) : Telling trace s := by
  induction run with
  | here => exact .start config terminal outside
  | step _ step ih => exact ih.step step

theorem Step.answers {s t : Traffic engine ω} {events : List (Event engine)}
    (step : Step s events t) {id : RequestId} {generation : Generation} {reply : Reply}
    (listed : .answered id generation reply ∈ events) :
    ∃ result, s.hand = .judged generation (.runAsync id result) generation ∧
      reply = .ofResult result ∧ events = [.answered id generation reply] := by
  cases step with
  | @act stamp message inHand =>
    rcases Traffic.effects_cases listed with ⟨_, _, other⟩ | ⟨_, other | ⟨_, other⟩⟩ |
      ⟨_, result, rfl, isOpen, same⟩
    · cases other
    · cases other
    · cases other
    · cases same
      exact ⟨result, inHand, rfl, if_pos (List.contains_iff_mem.mpr isOpen)⟩
  | live outside step =>
    rcases step.event_cases listed with ⟨_, _, _, other⟩ | ⟨_, other⟩ | ⟨_, _, other⟩
    · cases other
    · cases other
    · cases other
  | retired split step =>
    rcases step.event_cases listed with ⟨_, _, _, other⟩ | ⟨_, other⟩ | ⟨_, _, other⟩
    · cases other
    · cases other
    · cases other
  | abort =>
    rcases List.mem_cons.mp listed with other | refused
    · cases other
    · obtain ⟨_, _, other⟩ := List.mem_map.mp refused
      cases other
  | register waiting => cases List.mem_singleton.mp listed
  | evict inHand other => cases List.mem_singleton.mp listed
  | type line held => cases List.mem_singleton.mp listed
  | draw request left => cases listed
  | keepTiming on => cases listed
  | handTiming waiting => cases listed
  | take posts free => cases listed
  | judge inHand => cases listed

theorem Run.delivered (run : Run (.start config terminal outside) trace s)
    {before after : List (Event engine)} {id : RequestId} {generation : Generation} {reply : Reply}
    (split : trace = before ++ .answered id generation reply :: after) :
    Delivered before id generation reply := by
  induction run generalizing before after with
  | here => simp at split
  | @step trace events s t run step ih =>
    rcases split_append split with ⟨between, earlier⟩ | ⟨between, rfl, new⟩
    · exact ih earlier
    have listed : .answered id generation reply ∈ events := by
      rw [new]
      exact List.mem_append_right _ (List.mem_cons_self ..)
    obtain ⟨result, inHand, rfl, alone⟩ := step.answers listed
    obtain rfl : between = [] := by
      rw [alone] at new
      cases between with
      | nil => rfl
      | cons e between => simp at new
    obtain ⟨past, delivery⟩ := run.delivery
    obtain ⟨early, mid, same, shown⟩ := delivery.shown_before inHand
    rw [List.append_nil]
    exact ⟨early, mid, result, rfl, same, run.telling.results early mid id generation result same,
      shown⟩

/-- In every order of events the terminal is given, of each generation, a beginning of the texts
that this generation posted. Whatever is answered by a response or a rejection is answered at a
moment at which the terminal has been given all that its generation posted before the answer. -/
theorem Run.texts_shown_before_answers (run : Run (.start config terminal outside) trace s) :
    s.front.terminal.shown = (handedTexts trace).foldl (· ++ ·) terminal.shown ∧
      (∀ generation, shownTexts generation trace <+: postedTexts generation trace) ∧
      (∀ id reply, (id, reply) ∈ s.front.settled → reply ≠ .error .terminated →
        ∃ before after generation, trace = before ++ .answered id generation reply :: after) ∧
      ∀ before after id generation reply,
        trace = before ++ .answered id generation reply :: after →
          Delivered before id generation reply := by
  refine ⟨?_, fun generation => ?_, fun id reply among open_end => ?_,
    fun before after id generation reply split => run.delivered split⟩
  · induction run with
    | here => rfl
    | step _ step ih => rw [handedTexts_append, List.foldl_append, ← ih, step.shown_eq]
  · obtain ⟨past, delivery⟩ := run.delivery
    have posted : textsOf generation past <+: postedTexts generation trace := by
      rw [postedTexts, delivery.order, textsOf_append]
      exact List.prefix_append _ _
    rcases delivery.shown generation with whole | ⟨_, _, part⟩
    · rw [whole]
      exact posted
    · exact part.trans posted
  · rw [run.ledger.account.log, settlements, List.mem_filterMap] at among
    obtain ⟨e, happened, settlement⟩ := among
    cases e with
    | answered other generation given =>
      cases settlement
      obtain ⟨before, after, split⟩ := List.append_of_mem happened
      exact ⟨before, after, generation, split⟩
    | refused other =>
      cases settlement
      exact absurd rfl open_end
    | _ => cases settlement

/-- The files cannot be fetched, which is told and then the request is rejected. -/
theorem Run.text_shown_before_rejection :
    ∃ (trace : List (Event restingEngine)) (s : Traffic restingEngine Unit) (text : String),
      Run (.start {} {} ()) trace s ∧ s.front.settled = [(1, .error .rejected)] ∧
        shownTexts 1 trace = [text] ∧ postedTexts 1 trace = [text] ∧
        ∃ before after generation,
          trace = before ++ .answered 1 generation (.error .rejected) :: after ∧
            Delivered before 1 generation (.error .rejected) := by
  have first : Run (.start {} {} () : Traffic restingEngine Unit) [] (.start {} {} ()) := .here
  have drawn := first.step (.draw (.runCppCheck []) (by decide))
  have registered := drawn.step (.register
    (show _ = [] ++ ((1 : RequestId), Request.runCppCheck []) :: [] from rfl))
  have timed := registered.step (.live () (.takeTiming rfl rfl))
  have begun := timed.step (.live () (.takeRequest rfl rfl))
  have fetched := begun.step (.live () (.outside
    (show Query.Answer (.fetch "memfs.wasm") from .ok []) rfl rfl))
  have clocked := fetched.step (.live () (.outside (show Query.Answer .elapsed from 0) rfl rfl))
  have written := clocked.step (.live () (.write rfl))
  have missed := written.step (.live () (.outside
    (show Query.Answer (.fetch "sysroot.tar") from .error .notFound) rfl rfl))
  have computed := missed.step (.live () (.finish rfl))
  have shown := ((computed.step (.take rfl rfl)).step (.judge rfl)).step (.act rfl)
  have answered := ((shown.step (.take rfl rfl)).step (.judge rfl)).step (.act rfl)
  obtain ⟨_, _, moment, delivered⟩ := answered.texts_shown_before_answers
  obtain ⟨before, after, generation, split⟩ :=
    moment 1 (.error .rejected) (List.mem_singleton_self _) nofun
  exact ⟨_, _, _, answered, rfl, rfl, rfl, before, after, generation, split,
    delivered before after 1 generation _ split⟩

end Buildbox.Session
