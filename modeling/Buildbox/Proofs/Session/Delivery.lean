import Buildbox.Proofs.Session.Settlement

/-!
The one queue of a session. All generations post into it and it is emptied from the front, so what
the terminal is given of a generation is a beginning of what that generation posted, and when a
message is acted on, all texts that were posted before it by its generation are shown.
-/

set_option autoImplicit false

namespace Buildbox.Session

variable {engine : Engine} {ω : Type}

namespace Event

def post : Event engine → Option (Generation × HostMessage)
  | .posted generation message => some (generation, message)
  | _ => none

def shownText (generation : Generation) : Event engine → Option String
  | .shown stamp text => if stamp = generation then some text else none
  | _ => none

/-- The text that the terminal is given, by a thread or by an abort. -/
def handed : Event engine → Option String
  | .shown _ text => some text
  | .retired _ => some Frontend.terminatedBanner
  | _ => none

end Event

/-- The text of a message, if it is of the given generation. -/
def textOf (generation : Generation) : Generation × HostMessage → Option String
  | (stamp, .write text) => if stamp = generation then some text else none
  | _ => none

def textsOf (generation : Generation) (posts : List (Generation × HostMessage)) : List String :=
  posts.filterMap (textOf generation)

def allPosts (trace : List (Event engine)) : List (Generation × HostMessage) :=
  trace.filterMap Event.post

/-- The texts that a generation posted, in order. -/
def postedTexts (generation : Generation) (trace : List (Event engine)) : List String :=
  textsOf generation (allPosts trace)

/-- The texts of a generation that the terminal was given, in order. -/
def shownTexts (generation : Generation) (trace : List (Event engine)) : List String :=
  trace.filterMap (Event.shownText generation)

/-- All texts that the terminal was given, in order. -/
def handedTexts (trace : List (Event engine)) : List String :=
  trace.filterMap Event.handed

@[simp] theorem textsOf_append (generation : Generation)
    (first later : List (Generation × HostMessage)) :
    textsOf generation (first ++ later) = textsOf generation first ++ textsOf generation later :=
  List.filterMap_append

@[simp] theorem allPosts_append (trace events : List (Event engine)) :
    allPosts (trace ++ events) = allPosts trace ++ allPosts events :=
  List.filterMap_append

@[simp] theorem postedTexts_append (generation : Generation) (trace events : List (Event engine)) :
    postedTexts generation (trace ++ events) =
      postedTexts generation trace ++ postedTexts generation events := by
  simp [postedTexts]

@[simp] theorem shownTexts_append (generation : Generation) (trace events : List (Event engine)) :
    shownTexts generation (trace ++ events) =
      shownTexts generation trace ++ shownTexts generation events :=
  List.filterMap_append

@[simp] theorem handedTexts_append (trace events : List (Event engine)) :
    handedTexts (trace ++ events) = handedTexts trace ++ handedTexts events :=
  List.filterMap_append

theorem textsOf_stranger {generation stamp : Generation} (other : stamp ≠ generation)
    (message : HostMessage) : textsOf generation [(stamp, message)] = [] := by
  cases message with
  | write text => simp [textsOf, textOf, other]
  | readLine => rfl
  | runAsync id result => rfl

theorem ThreadStep.allPosts_eq {closed : Bool} {thread later : Live engine}
    {events : List (Event engine)} {messages : List HostMessage}
    (step : ThreadStep closed thread events messages later) :
    allPosts (events ++ messages.map (.posted thread.generation)) =
      stamped thread.generation messages := by
  cases step <;> rfl

theorem ThreadStep.shownTexts_eq {closed : Bool} {thread later : Live engine}
    {events : List (Event engine)} {messages : List HostMessage}
    (step : ThreadStep closed thread events messages later) (generation : Generation) :
    shownTexts generation (events ++ messages.map (.posted thread.generation)) = [] :=
  step.filterMap_events (fun _ _ _ _ => rfl) (fun _ _ => rfl) (fun _ _ => rfl)

theorem ThreadStep.handedTexts_eq {closed : Bool} {thread later : Live engine}
    {events : List (Event engine)} {messages : List HostMessage}
    (step : ThreadStep closed thread events messages later) :
    handedTexts (events ++ messages.map (.posted thread.generation)) = [] :=
  step.filterMap_events (fun _ _ _ _ => rfl) (fun _ _ => rfl) (fun _ _ => rfl)

namespace Traffic

theorem allPosts_effects (s : Traffic engine ω) (generation : Generation) (message : HostMessage) :
    allPosts (s.effects generation message) = [] :=
  s.filterMap_effects (fun _ _ => rfl) (fun _ => rfl) (fun _ _ => rfl) (fun _ _ _ => rfl) generation
    message

theorem shownTexts_effects (s : Traffic engine ω) (stamp : Generation) (message : HostMessage)
    (generation : Generation) :
    shownTexts generation (s.effects stamp message) = textsOf generation [(stamp, message)] := by
  cases message with
  | write text => rfl
  | readLine =>
    apply List.filterMap_eq_nil_iff.mpr
    intro e among
    rcases effects_cases among with ⟨_, other, _⟩ | ⟨_, rfl | ⟨_, rfl⟩⟩ | ⟨_, _, other, _⟩
    · cases other
    · rfl
    · rfl
    · cases other
  | runAsync id result =>
    simp only [effects]
    split
    · rfl
    · rfl

end Traffic

namespace Hand

def post : Hand → List (Generation × HostMessage)
  | .empty => []
  | .taken generation message | .judged generation message _ => [(generation, message)]

/-- A message of the given generation is in hand and was found to be of the live one. -/
def Favours (generation : Generation) : Hand → Prop
  | .judged stamp _ live => stamp = generation ∧ live = generation
  | _ => False

end Hand

/-- The messages that were posted are those that are done with, then the one in hand, then those in
the queue. Of each generation the terminal was given the texts of the messages that are done with;
some at the end may be missing once the generation is retired and no more of it will be shown. -/
structure Delivery (trace : List (Event engine)) (s : Traffic engine ω)
    (past : List (Generation × HostMessage)) : Prop where
  order : allPosts trace = past ++ (s.hand.post ++ s.posts)
  shown : ∀ generation, shownTexts generation trace = textsOf generation past ∨
    (generation < s.front.live.generation ∧ ¬ s.hand.Favours generation ∧
      shownTexts generation trace <+: textsOf generation past)

namespace Delivery

variable {trace events : List (Event engine)} {s t : Traffic engine ω}
  {past : List (Generation × HostMessage)}

private theorem keep (delivery : Delivery trace s past)
    (live : s.front.live.generation ≤ t.front.live.generation) (hand : t.hand = s.hand)
    (posts : t.posts = s.posts ++ allPosts events)
    (unshown : ∀ generation, shownTexts generation events = []) :
    Delivery (trace ++ events) t past := by
  constructor
  · simp [delivery.order, hand, posts]
  · intro generation
    rw [shownTexts_append, unshown, List.append_nil, hand]
    rcases delivery.shown generation with whole | ⟨retired, rest⟩
    · exact .inl whole
    · exact .inr ⟨Nat.lt_of_lt_of_le retired live, rest⟩

private theorem quiet (delivery : Delivery trace s past)
    (live : s.front.live.generation ≤ t.front.live.generation) (hand : t.hand = s.hand)
    (posts : t.posts = s.posts) (unposted : allPosts events = [])
    (unshown : ∀ generation, shownTexts generation events = []) :
    Delivery (trace ++ events) t past := by
  apply delivery.keep live hand _ unshown
  rw [posts, unposted, List.append_nil]

theorem take (delivery : Delivery trace s past) {generation : Generation} {message : HostMessage}
    {rest : List (Generation × HostMessage)} (posts : s.posts = (generation, message) :: rest)
    (free : s.hand = .empty) :
    Delivery trace { s with posts := rest, hand := .taken generation message } past := by
  have order := delivery.order
  rw [free, posts] at order
  refine ⟨order, fun stamp => ?_⟩
  rcases delivery.shown stamp with whole | ⟨retired, _, part⟩
  · exact .inl whole
  · exact .inr ⟨retired, id, part⟩

theorem judge (delivery : Delivery trace s past) {generation : Generation} {message : HostMessage}
    (inHand : s.hand = .taken generation message) :
    Delivery trace { s with hand := .judged generation message s.front.live.generation } past := by
  have order := delivery.order
  rw [inHand] at order
  refine ⟨order, fun stamp => ?_⟩
  rcases delivery.shown stamp with whole | ⟨retired, _, part⟩
  · exact .inl whole
  · refine .inr ⟨retired, fun favoured => ?_, part⟩
    exact absurd favoured.2 (Nat.ne_of_gt retired)

theorem evict (delivery : Delivery trace s past) (stamped : Stamped s)
    {generation live : Generation} {message : HostMessage}
    (inHand : s.hand = .judged generation message live)
    (other : generation ≠ live) :
    Delivery (trace ++ [.evicted generation message]) { s with hand := .empty }
      (past ++ [(generation, message)]) := by
  have within := stamped.hand
  have order := delivery.order
  rw [inHand] at within order
  have unposted : allPosts [(.evicted generation message : Event engine)] = [] := rfl
  constructor
  · simpa [unposted, Hand.post] using order
  · intro stamp
    have unshown : shownTexts stamp [(.evicted generation message : Event engine)] = [] := rfl
    rw [shownTexts_append, unshown, List.append_nil, textsOf_append]
    by_cases same : generation = stamp
    · -- nothing of this generation is shown any more
      subst same
      have retired : generation < s.front.live.generation :=
        Nat.lt_of_lt_of_le (Nat.lt_of_le_of_ne within.1 other) within.2
      refine .inr ⟨retired, id, ?_⟩
      rcases delivery.shown generation with whole | ⟨_, _, part⟩
      · rw [whole]
        exact List.prefix_append _ _
      · exact part.trans (List.prefix_append _ _)
    · rw [textsOf_stranger same, List.append_nil]
      rcases delivery.shown stamp with whole | ⟨retired, _, part⟩
      · exact .inl whole
      · exact .inr ⟨retired, id, part⟩

theorem act (delivery : Delivery trace s past) {generation : Generation} {message : HostMessage}
    (inHand : s.hand = .judged generation message generation) :
    Delivery (trace ++ s.effects generation message)
      ({ s with hand := .empty }.act generation message) (past ++ [(generation, message)]) := by
  obtain ⟨terminal, live, retired, pending, settled, same, duty, _⟩ :=
    Traffic.act_frame { s with hand := .empty } generation message
  have live_same : live.generation = s.front.live.generation := congrArg Duty.generation duty
  have order := delivery.order
  rw [inHand] at order
  rw [same]
  constructor
  · simpa [s.allPosts_effects, Hand.post] using order
  · intro stamp
    rw [shownTexts_append, s.shownTexts_effects, textsOf_append]
    rcases delivery.shown stamp with whole | ⟨late, unfavoured, part⟩
    · exact .inl (by rw [whole])
    · have other : generation ≠ stamp := by
        rintro rfl
        rw [inHand] at unfavoured
        exact unfavoured ⟨rfl, rfl⟩
      rw [textsOf_stranger other, List.append_nil, List.append_nil]
      exact .inr ⟨live_same ▸ late, id, part⟩

theorem step (delivery : Delivery trace s past) (stamped : Stamped s) (step : Step s events t) :
    ∃ past, Delivery (trace ++ events) t past := by
  cases step with
  | act inHand => exact ⟨_, delivery.act inHand⟩
  | evict inHand other => exact ⟨_, delivery.evict stamped inHand other⟩
  | take posts free =>
    rw [List.append_nil]
    exact ⟨past, delivery.take posts free⟩
  | judge inHand =>
    rw [List.append_nil]
    exact ⟨past, delivery.judge inHand⟩
  | live outside step =>
    have same := step.generation_eq
    refine ⟨past, delivery.keep (Nat.le_of_eq same.symm) rfl ?_ step.shownTexts_eq⟩
    rw [step.allPosts_eq]
  | retired split step =>
    refine ⟨past, delivery.keep (Nat.le_refl _) rfl ?_ step.shownTexts_eq⟩
    rw [step.allPosts_eq]
  | abort =>
    refine ⟨past, delivery.quiet (Nat.le_succ _) rfl rfl ?_ fun _ => ?_⟩
    · exact filterMap_abort (fun _ => rfl) (fun _ => rfl) _ _
    · exact filterMap_abort (fun _ => rfl) (fun _ => rfl) _ _
  | @type generation before after line held =>
    obtain ⟨live, retired, same, duty, _⟩ := Traffic.deliver_frame { s with
      front := { s.front with
        terminal := { s.front.terminal with held := before ++ after } } } generation line
    have live_same : live.generation = s.front.live.generation := congrArg Duty.generation duty
    rw [same]
    exact ⟨past, delivery.quiet (Nat.le_of_eq live_same.symm) rfl rfl rfl fun _ => rfl⟩
  | draw request left => exact ⟨past, delivery.quiet (Nat.le_refl _) rfl rfl rfl fun _ => rfl⟩
  | register waiting => exact ⟨past, delivery.quiet (Nat.le_refl _) rfl rfl rfl fun _ => rfl⟩
  | keepTiming on => exact ⟨past, delivery.quiet (Nat.le_refl _) rfl rfl rfl fun _ => rfl⟩
  | handTiming waiting => exact ⟨past, delivery.quiet (Nat.le_refl _) rfl rfl rfl fun _ => rfl⟩

theorem shown_before (delivery : Delivery trace s past) {generation : Generation}
    {message : HostMessage} (inHand : s.hand = .judged generation message generation) :
    ∃ early mid, trace = early ++ .posted generation message :: mid ∧
      shownTexts generation trace = postedTexts generation early := by
  have order := delivery.order
  rw [inHand] at order
  have favoured : s.hand.Favours generation := by
    rw [inHand]
    exact ⟨rfl, rfl⟩
  have shown : shownTexts generation trace = textsOf generation past := by
    rcases delivery.shown generation with whole | ⟨_, unfavoured, _⟩
    · exact whole
    · exact absurd favoured unfavoured
  obtain ⟨first, later, rfl, first_posts, later_posts⟩ := List.filterMap_eq_append_iff.mp order
  obtain ⟨silent, e, mid, rfl, nothing, posted, _⟩ :=
    List.filterMap_eq_cons_iff.mp later_posts
  obtain rfl : e = .posted generation message := by
    cases e with
    | posted stamp other =>
      cases posted
      rfl
    | _ => cases posted
  refine ⟨first ++ silent, mid, by simp, ?_⟩
  have unposted : allPosts silent = [] := List.filterMap_eq_nil_iff.mpr nothing
  rw [shown, postedTexts, allPosts_append, unposted, List.append_nil]
  exact congrArg (textsOf generation) first_posts.symm

end Delivery

end Buildbox.Session
