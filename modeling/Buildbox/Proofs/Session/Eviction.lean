import Buildbox.Proofs.Session.Settlement

/-!
What a retired generation still does. After an abort nothing that it has posted settles a request, and
of its texts and its requests for a line at most one reaches the terminal: the one that was in hand
and found to be live when the abort came.
-/

set_option autoImplicit false

namespace Buildbox.Session

variable {engine : Engine} {ω : Type}

def Event.late (limit : Generation) : Event engine → Option (Event engine)
  | .shown generation text => if generation ≤ limit then some (.shown generation text) else none
  | .asked generation => if generation ≤ limit then some (.asked generation) else none
  | .answered id generation reply =>
    if generation ≤ limit then some (.answered id generation reply) else none
  | _ => none

/-- All that messages of generations up to a limit brought about, in order. -/
def lateEffects (limit : Generation) (trace : List (Event engine)) : List (Event engine) :=
  trace.filterMap (Event.late limit)

/-- What the message in hand will still bring about at the terminal, having been found to be live. -/
def Hand.due : Hand → List (Event engine)
  | .judged generation (.write text) live =>
    if generation = live then [.shown generation text] else []
  | .judged generation .readLine live => if generation = live then [.asked generation] else []
  | _ => []

def Hand.Beyond (limit : Generation) : Hand → Prop
  | .judged _ _ live => limit < live
  | _ => True

theorem Hand.length_due (hand : Hand) : (hand.due : List (Event engine)).length ≤ 1 := by
  unfold due
  split
  · split
    · exact Nat.le_refl _
    · exact Nat.zero_le _
  · split
    · exact Nat.le_refl _
    · exact Nat.zero_le _
  · exact Nat.zero_le _

private theorem lateEffects_append (limit : Generation) (trace events : List (Event engine)) :
    lateEffects limit (trace ++ events) = lateEffects limit trace ++ lateEffects limit events :=
  List.filterMap_append

theorem sent_unique {trace : List (Event engine)} (distinct : (sentIds trace).Nodup)
    {id : RequestId} {request other : Request} {generation stamp : Generation}
    (sent : .sent id request generation ∈ trace) (again : .sent id other stamp ∈ trace) :
    generation = stamp := by
  induction trace with
  | nil => cases sent
  | cons e trace ih =>
    have rest : (sentIds trace).Nodup := by
      refine distinct.sublist ?_
      exact (List.sublist_cons_self e trace).filterMap _
    have once {found : Request} {at_stamp : Generation}
        (first : e = .sent id found at_stamp) : id ∉ sentIds trace := by
      rw [first] at distinct
      exact (List.nodup_cons.mp distinct).1
    have listed {found : Request} {at_stamp : Generation}
        (among : .sent id found at_stamp ∈ trace) : id ∈ sentIds trace :=
      List.mem_filterMap.mpr ⟨_, among, rfl⟩
    rcases List.mem_cons.mp sent with first | sent_later
    · rcases List.mem_cons.mp again with same | again_later
      · cases first.trans same.symm
        rfl
      · exact absurd (listed again_later) (once first.symm)
    · rcases List.mem_cons.mp again with first | again_later
      · exact absurd (listed sent_later) (once first.symm)
      · exact ih rest sent_later again_later

theorem Ledger.live_of_open {trace : List (Event engine)} {s : Traffic engine ω}
    (ledger : Ledger trace s) {generation : Generation} {id : RequestId}
    {result : Option Response} (holds : s.hand.Holds generation (.runAsync id result))
    (isOpen : id ∈ s.front.pending) : generation = s.front.live.generation := by
  obtain ⟨request, sent⟩ := (ledger.attended id isOpen).sent
  obtain ⟨other, _, _, order, _⟩ := ledger.provenance.hand generation id result holds
  have first : .sent id other generation ∈ trace := order.subset (List.mem_cons_self ..)
  exact sent_unique (List.nodup_append.mp ledger.numbered.distinct).2.1 first sent

/-- A session after an abort, for the generations up to the one that was retired: they are not live,
and what was in hand at the abort is still there and nothing came of it, or it is not and nothing else
came of them. -/
structure Silenced (limit : Generation) (hand : Hand) (later : List (Event engine))
    (s : Traffic engine ω) : Prop where
  live : limit < s.front.live.generation
  effects : (s.hand = hand ∧ lateEffects limit later = []) ∨
    (s.hand.Beyond limit ∧ lateEffects limit later <+: hand.due)

namespace Silenced

variable {limit : Generation} {hand : Hand} {later : List (Event engine)}

private theorem keep {s t : Traffic engine ω} {events : List (Event engine)}
    (silenced : Silenced limit hand later s)
    (generation : s.front.live.generation ≤ t.front.live.generation) (same : t.hand = s.hand)
    (quiet : lateEffects limit events = []) : Silenced limit hand (later ++ events) t := by
  refine ⟨Nat.lt_of_lt_of_le silenced.live generation, ?_⟩
  rw [same, lateEffects_append, quiet, List.append_nil]
  exact silenced.effects

private theorem change {s t : Traffic engine ω} {events : List (Event engine)}
    (silenced : Silenced limit hand later s)
    (generation : t.front.live.generation = s.front.live.generation)
    (beyond : t.hand.Beyond limit) (quiet : lateEffects limit events = []) :
    Silenced limit hand (later ++ events) t := by
  refine ⟨generation ▸ silenced.live, .inr ⟨beyond, ?_⟩⟩
  rw [lateEffects_append, quiet, List.append_nil]
  rcases silenced.effects with ⟨_, nothing⟩ | ⟨_, within⟩
  · rw [nothing]
    exact List.nil_prefix
  · exact within

private theorem lateEffects_beyond (s : Traffic engine ω) {generation : Generation}
    (beyond : limit < generation) (message : HostMessage) :
    lateEffects limit (s.effects generation message) = [] := by
  have not_late : ¬ generation ≤ limit := Nat.not_le_of_lt beyond
  apply List.filterMap_eq_nil_iff.mpr
  intro e among
  rcases Traffic.effects_cases among with ⟨_, _, rfl⟩ | ⟨_, rfl | ⟨_, rfl⟩⟩ | ⟨_, _, _, _, rfl⟩
  · exact if_neg not_late
  · exact if_neg not_late
  · rfl
  · exact if_neg not_late

private theorem lateEffects_due {trace : List (Event engine)} {s : Traffic engine ω}
    (ledger : Ledger trace s) {generation : Generation} {message : HostMessage}
    (inHand : s.hand = .judged generation message generation) (bound : generation ≤ limit)
    (live : limit < s.front.live.generation) :
    lateEffects limit (s.effects generation message) <+: s.hand.due := by
  rw [inHand]
  cases message with
  | write text =>
    have late : lateEffects limit (s.effects generation (.write text)) =
        [.shown generation text] := List.filterMap_cons_some (if_pos bound)
    have owed : (Hand.judged generation (.write text) generation).due =
        [(.shown generation text : Event engine)] := if_pos rfl
    exact ⟨[], by rw [late, owed, List.append_nil]⟩
  | readLine =>
    have late : lateEffects limit (s.effects generation .readLine) = [.asked generation] := by
      have asked : Event.late limit (.asked generation : Event engine) =
          some (.asked generation) := if_pos bound
      rw [Traffic.effects, lateEffects, List.filterMap_cons_some asked]
      apply congrArg
      apply List.filterMap_eq_nil_iff.mpr
      intro e among
      obtain ⟨line, _, rfl⟩ := Option.map_eq_some_iff.mp (Option.mem_toList.mp among)
      rfl
    have owed : (Hand.judged generation .readLine generation).due =
        [(.asked generation : Event engine)] := if_pos rfl
    exact ⟨[], by rw [late, owed, List.append_nil]⟩
  | runAsync id result =>
    -- its request was sent to a retired generation, so it is no longer open
    have closed : id ∉ s.front.pending := by
      intro isOpen
      have holds : s.hand.Holds generation (.runAsync id result) := by
        rw [inHand]
        exact ⟨rfl, rfl⟩
      have same := ledger.live_of_open holds isOpen
      exact Nat.not_le_of_lt live (same ▸ bound)
    rw [Traffic.effects, if_neg fun found => closed (List.contains_iff_mem.mp found)]
    exact List.nil_prefix

theorem act {trace : List (Event engine)} {s : Traffic engine ω} (ledger : Ledger trace s)
    (within : hand.Within limit) (silenced : Silenced limit hand later s)
    {generation : Generation} {message : HostMessage}
    (inHand : s.hand = .judged generation message generation) :
    Silenced limit hand (later ++ s.effects generation message)
      ({ s with hand := .empty }.act generation message) := by
  obtain ⟨terminal, live, retired, pending, settled, same, duty, _⟩ :=
    Traffic.act_frame { s with hand := .empty } generation message
  have live_same : live.generation = s.front.live.generation := congrArg Duty.generation duty
  rw [same]
  refine ⟨live_same ▸ silenced.live, .inr ⟨trivial, ?_⟩⟩
  rw [lateEffects_append]
  rcases silenced.effects with ⟨unmoved, nothing⟩ | ⟨beyond, earlier⟩
  · rw [nothing, List.nil_append, ← unmoved]
    rw [← unmoved, inHand] at within
    exact lateEffects_due ledger inHand within.2 silenced.live
  · rw [inHand] at beyond
    rw [lateEffects_beyond s beyond message, List.append_nil]
    exact earlier

theorem step {trace events : List (Event engine)} {s t : Traffic engine ω}
    (ledger : Ledger trace s) (within : hand.Within limit)
    (silenced : Silenced limit hand later s) (step : Step s events t) :
    Silenced limit hand (later ++ events) t := by
  cases step with
  | act inHand => exact act ledger within silenced inHand
  | live outside step =>
    refine silenced.keep (Nat.le_of_eq step.generation_eq.symm) rfl ?_
    exact step.filterMap_events (fun _ _ _ _ => rfl) (fun _ _ => rfl) (fun _ _ => rfl)
  | retired split step =>
    refine silenced.keep (Nat.le_refl _) rfl ?_
    exact step.filterMap_events (fun _ _ _ _ => rfl) (fun _ _ => rfl) (fun _ _ => rfl)
  | take posts free => exact silenced.change rfl trivial rfl
  | judge inHand => exact silenced.change rfl silenced.live rfl
  | evict inHand other => exact silenced.change rfl trivial rfl
  | @type generation before after line held =>
    obtain ⟨live, retired, same, duty, _⟩ := Traffic.deliver_frame { s with
      front := { s.front with
        terminal := { s.front.terminal with held := before ++ after } } } generation line
    have live_same : live.generation = s.front.live.generation := congrArg Duty.generation duty
    rw [same]
    exact silenced.keep (Nat.le_of_eq live_same.symm) rfl rfl
  | abort =>
    exact silenced.keep (Nat.le_succ _) rfl (filterMap_abort (fun _ => rfl) (fun _ => rfl) _ _)
  | draw request left => exact silenced.keep (Nat.le_refl _) rfl rfl
  | register waiting => exact silenced.keep (Nat.le_refl _) rfl rfl
  | keepTiming on => exact silenced.keep (Nat.le_refl _) rfl rfl
  | handTiming waiting => exact silenced.keep (Nat.le_refl _) rfl rfl

end Silenced

theorem Run.silenced {config : Config} {terminal : Terminal} {outside : ω}
    {trace later : List (Event engine)} {s t : Traffic engine ω}
    (run : Run (.start config terminal outside) trace s) (more : Run s.abort later t) :
    Silenced s.front.live.generation s.hand later t := by
  induction more with
  | here => exact ⟨Nat.lt_succ_self _, .inl ⟨rfl, rfl⟩⟩
  | step more step ih =>
    have ledger := ((run.step .abort).trans more).ledger
    exact Silenced.step ledger run.ledger.stamped.hand ih step

/-- After an abort at most one message of the generations that are retired by then has an effect: the
one that was in hand and had been found to be live. It is shown, or asks for a line; no result of
theirs settles a request. -/
theorem Run.effects_after_abort {config : Config} {terminal : Terminal} {outside : ω}
    {trace later : List (Event engine)} {s t : Traffic engine ω}
    (run : Run (.start config terminal outside) trace s) (more : Run s.abort later t) :
    lateEffects s.front.live.generation later <+: s.hand.due ∧
      (lateEffects s.front.live.generation later).length ≤ 1 ∧
      ∀ id generation reply, .answered id generation reply ∈ later →
        s.front.live.generation < generation := by
  have due : lateEffects s.front.live.generation later <+: s.hand.due := by
    rcases (run.silenced more).effects with ⟨_, nothing⟩ | ⟨_, within⟩
    · rw [nothing]
      exact List.nil_prefix
    · exact within
  refine ⟨due, Nat.le_trans due.length_le s.hand.length_due, ?_⟩
  intro id generation reply happened
  apply Nat.lt_of_not_le
  intro late
  have among : .answered id generation reply ∈ lateEffects s.front.live.generation later :=
    List.mem_filterMap.mpr ⟨_, happened, if_pos late⟩
  have owed : .answered id generation reply ∈ s.hand.due := due.subset among
  unfold Hand.due at owed
  split at owed
  · split at owed
    · cases List.mem_singleton.mp owed
    · cases owed
  · split at owed
    · cases List.mem_singleton.mp owed
    · cases owed
  · cases owed

private theorem text_in_hand :
    ∃ (trace : List (Event restingEngine)) (s : Traffic restingEngine Unit) (text : String),
      Run (.start {} {} ()) trace s ∧ s.front.live.generation = 1 ∧
        s.hand = .judged 1 (.write text) 1 := by
  have first : Run (.start {} {} () : Traffic restingEngine Unit) [] (.start {} {} ()) := .here
  have drawn := first.step (.draw (.runCppCheck []) (by decide))
  have registered := drawn.step (.register
    (show _ = [] ++ ((1 : RequestId), Request.runCppCheck []) :: [] from rfl))
  have timed := registered.step (.live () (.takeTiming rfl rfl))
  have begun := timed.step (.live () (.takeRequest rfl rfl))
  have fetched := begun.step (.live () (.outside
    (show Query.Answer (.fetch "memfs.wasm") from .ok []) rfl rfl))
  have clocked := fetched.step (.live () (.outside (show Query.Answer .elapsed from 0) rfl rfl))
  have written := clocked.step (.live () (.write rfl))
  have taken := written.step (.take rfl rfl)
  have judged := taken.step (.judge rfl)
  exact ⟨_, _, _, judged, rfl, rfl⟩

private theorem shown_after_abort {s : Traffic engine ω} {text : String}
    (inHand : s.hand = .judged 1 (.write text) 1) : ∃ t, Run s.abort [.shown 1 text] t := by
  have act : Step s.abort (s.abort.effects 1 (.write text)) _ := .act inHand
  exact ⟨_, act.run⟩

theorem Run.text_after_abort :
    ∃ (trace later : List (Event restingEngine)) (s t : Traffic restingEngine Unit) (text : String),
      Run (.start {} {} ()) trace s ∧ Run s.abort later t ∧ .shown 1 text ∈ later ∧
        (lateEffects s.front.live.generation later).length ≤ 1 := by
  obtain ⟨trace, s, text, run, _, inHand⟩ := text_in_hand
  obtain ⟨t, more⟩ := shown_after_abort inHand
  obtain ⟨_, single, _⟩ := run.effects_after_abort more
  exact ⟨trace, _, s, t, text, run, more, List.mem_singleton_self _, single⟩

/-- A retired generation is not silent at once. -/
theorem Run.retired_not_silent :
    ¬ ∀ (trace later : List (Event restingEngine)) (s t : Traffic restingEngine Unit),
      Run (.start {} {} ()) trace s → Run s.abort later t →
      ∀ generation ≤ s.front.live.generation,
        (∀ text, .shown generation text ∉ later) ∧ .asked generation ∉ later ∧
          ∀ id reply, .answered id generation reply ∉ later := by
  intro silent
  obtain ⟨trace, s, text, run, first, inHand⟩ := text_in_hand
  obtain ⟨t, more⟩ := shown_after_abort inHand
  obtain ⟨unshown, _, _⟩ := silent trace _ s t run more 1 (Nat.le_of_eq first.symm)
  exact unshown text (List.mem_singleton_self _)

end Buildbox.Session
