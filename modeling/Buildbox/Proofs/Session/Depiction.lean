import Buildbox.Proofs.Session.Regions

/-!
Sessions as scenes. A session puts lines into inputs by their generations, and its aborts happen at
once. Whatever happens in one also happens where replies have places and aborts are seen between
their stores: every step of a session is made up of moves of a scene that shows the same threads,
messages and replies, and tells the same of them.
-/

set_option autoImplicit false

namespace Buildbox.Session.Lines

variable {engine : Engine} {ω : Type} {config : Config} {s t : Traffic engine ω} {m : Scene engine}

/-- What a session tells where a scene tells this. -/
def Event.named : Event → Session.Event engine
  | .posted generation message => .posted generation message
  | .asked generation _ => .asked generation
  | .sent place line _ => .typed (place + 1) line
  | .read generation _ line => .read generation line
  | .retired generation => .retired generation

/-- A session tells this of messages, lines or aborts, and so does a scene. -/
def concerns : Session.Event engine → Bool
  | .posted .. | .asked _ | .typed .. | .read .. | .retired _ => true
  | .sent .. | .began .. | .shown .. | .answered .. | .evicted .. | .refused _ => false

def Hand.named : Hand → Session.Hand
  | .empty => .empty
  | .taken generation message => .taken generation message
  | .judged generation message live => .judged generation message live.generation

namespace Hand

variable {hand : Hand} {generation live : Generation} {message : HostMessage}

theorem of_empty (same : hand.named = .empty) : hand = .empty := by
  cases hand with
  | empty => rfl
  | taken | judged => cases same

theorem of_taken (same : hand.named = .taken generation message) :
    hand = .taken generation message := by
  cases hand with
  | taken =>
    cases same
    rfl
  | empty | judged => cases same

theorem of_judged (same : hand.named = .judged generation message live) :
    ∃ contact, hand = .judged generation message contact ∧ contact.generation = live := by
  cases hand with
  | judged =>
    cases same
    exact ⟨_, rfl, rfl⟩
  | empty | taken => cases same

end Hand

/-- What a thread shares that is retired. -/
def Cell.retire (cell : Cell) : Cell :=
  { cell with terminated := true, input := cell.input.close }

def Scene.threads (m : Scene engine) : List (Live engine) :=
  List.zipWith Runner.on m.runners m.cells

/-- A scene in which no abort is under way shows the threads, messages and replies of a session. -/
structure Depicts (config : Config) (m : Scene engine) (s : Traffic engine ω) : Prop where
  seated : Seated m
  config : s.front.config = config
  threads : m.threads = s.retired ++ [s.front.live]
  terminated : m.cells.map Cell.terminated = List.replicate s.retired.length true ++ [false]
  abort : m.abort = .none
  posts : m.posts = s.posts
  hand : m.hand.named = s.hand
  judged : ∀ generation message live, m.hand = .judged generation message live →
    live.generation = live.place + 1 ∧ live.place < m.cells.length
  replies : m.replies.map (· + 1) = s.front.terminal.held
  known : ∀ place ∈ m.replies, place < m.cells.length

theorem Seated.at (seated : Seated m) {place : Place} {runner : Runner engine}
    (found : m.runners[place]? = some runner) :
    runner.place = place ∧ runner.generation = place + 1 := by
  have listed : (m.runners.map Runner.toContact)[place]? = some runner.toContact := by
    rw [List.getElem?_map, found]
    rfl
  rw [seated.runners, List.getElem?_map] at listed
  obtain ⟨number, counted, same⟩ := Option.map_eq_some_iff.mp listed
  obtain ⟨inside, rfl⟩ := List.getElem?_eq_some_iff.mp counted
  rw [List.getElem_range] at same
  rw [← same]
  exact ⟨rfl, rfl⟩

theorem Seated.length_runners (seated : Seated m) : m.runners.length = m.cells.length := by
  have lengths := congrArg List.length seated.runners
  rwa [List.length_map, List.length_map, List.length_range] at lengths

private theorem zipWith_set {α β γ : Type} (f : α → β → γ) (left : List α) (right : List β)
    (place : Nat) (a : α) (b : β) :
    List.zipWith f (left.set place a) (right.set place b) =
      (List.zipWith f left right).set place (f a b) := by
  refine List.ext_getElem? fun other => ?_
  grind

theorem Scene.threads_put {place : Place} {runner : Runner engine}
    (found : m.runners[place]? = some runner) (cell : Cell) :
    (m.put place cell).threads = m.threads.set place (runner.on cell) := by
  rw [Scene.threads, Scene.threads, ← zipWith_set, set_of_found found]
  rfl

theorem Scene.threads_launch (lengths : m.runners.length = m.cells.length) (config : Config)
    (showTiming : Bool) : (m.launch config showTiming).threads =
      m.threads ++ [Frontend.startThread (m.live.generation + 1) config showTiming] :=
  List.zipWith_append lengths

namespace Depicts

theorem length (depicts : Depicts config m s) : m.cells.length = s.retired.length + 1 := by
  have lengths := congrArg List.length depicts.terminated
  simpa using lengths

theorem found (depicts : Depicts config m s) {before after : List (Live engine)}
    {thread : Live engine} (split : s.retired ++ [s.front.live] = before ++ thread :: after) :
    ∃ runner cell, m.runners[before.length]? = some runner ∧
      m.cells[before.length]? = some cell ∧ runner.on cell = thread ∧
      runner.place = before.length ∧ runner.generation = thread.generation := by
  have listed : m.threads[before.length]? = some thread := by
    rw [depicts.threads, split, List.getElem?_append_right (Nat.le_refl _), Nat.sub_self]
    rfl
  obtain ⟨runner, cell, runs, shares, same⟩ := List.getElem?_zipWith_eq_some.mp listed
  exact ⟨runner, cell, runs, shares, same, (depicts.seated.at runs).1,
    congrArg Live.generation same⟩

theorem live (depicts : Depicts config m s) :
    ∃ runner cell, m.runners[m.live.place]? = some runner ∧ m.cells[m.live.place]? = some cell ∧
      runner.on cell = s.front.live ∧ m.live.place = s.retired.length ∧
      m.live.generation = s.front.live.generation := by
  have last : m.live.place = s.retired.length :=
    Nat.succ.inj (depicts.seated.place.trans depicts.length)
  obtain ⟨runner, cell, runs, shares, same, -, number⟩ :=
    depicts.found (show _ = s.retired ++ s.front.live :: [] from rfl)
  have counted := (depicts.seated.at runs).2
  rw [← last] at runs shares counted
  exact ⟨runner, cell, runs, shares, same, last,
    (depicts.seated.number.trans counted.symm).trans number⟩

theorem given_up (depicts : Depicts config m s) {place : Place} {cell : Cell}
    (shares : m.cells[place]? = some cell) :
    (List.replicate s.retired.length true ++ [false])[place]? = some cell.terminated := by
  rw [← depicts.terminated, List.getElem?_map, shares]
  rfl

end Depicts

theorem Seated.run {told : List Event} {later : Scene engine} (seated : Seated m)
    (run : Run config m told later) : Seated later := by
  induction run with
  | here => exact seated
  | step _ move ih => exact ih.move move

/-- A scene goes on to show this session, and tells the same. -/
def Leads (config : Config) (m : Scene engine) (events : List (Session.Event engine))
    (t : Traffic engine ω) : Prop :=
  ∃ told later, Run config m told later ∧ Depicts config later t ∧
    told.map Event.named = events.filter concerns

theorem Leads.stay {events : List (Session.Event engine)} (depicts : Depicts config m t)
    (nothing : events.filter concerns = []) : Leads config m events t :=
  ⟨[], m, .here, depicts, nothing.symm⟩

theorem Leads.one {events : List (Session.Event engine)} {told : List Event} {later : Scene engine}
    (move : Move config m told later) (depicts : Depicts config later t)
    (same : told.map Event.named = events.filter concerns) : Leads config m events t :=
  ⟨told, later, Run.here.step move, depicts, same⟩

theorem Run.trans {first s t : Scene engine} {told more : List Event}
    (run : Run config first told s) (later : Run config s more t) :
    Run config first (told ++ more) t := by
  induction later with
  | here => exact (List.append_nil told).symm ▸ run
  | step _ move ih =>
    rw [← List.append_assoc]
    exact ih.step move

theorem Leads.trans {early late : List (Session.Event engine)} (leads : Leads config m early s)
    (onward : ∀ later, Depicts config later s → Leads config later late t) :
    Leads config m (early ++ late) t := by
  obtain ⟨told, between, run, depicts, same⟩ := leads
  obtain ⟨more, later, onward, shows, alike⟩ := onward between depicts
  refine ⟨told ++ more, later, run.trans onward, shows, ?_⟩
  rw [List.map_append, List.filter_append, same, alike]

theorem named_tells {closed : Bool} {runner : Runner engine} {cell : Cell}
    {events : List (Session.Event engine)} {messages : List HostMessage} {later : Live engine}
    (step : ThreadStep closed (runner.on cell) events messages later) :
    (runner.tells events messages).map Event.named =
      (events ++ messages.map (Session.Event.posted runner.generation)).filter concerns := by
  cases step <;> rfl

private theorem map_terminated_put {place : Place} {cell : Cell}
    (shares : m.cells[place]? = some cell) (later : Cell)
    (same : later.terminated = cell.terminated) :
    (m.put place later).cells.map Cell.terminated = m.cells.map Cell.terminated := by
  have marked : (m.cells.map Cell.terminated)[place]? = some cell.terminated := by
    rw [List.getElem?_map, shares]
    rfl
  show (m.cells.set place later).map Cell.terminated = _
  rw [List.map_set, same, set_of_found marked]

private theorem exists_go (config : Config) {place : Place} {runner : Runner engine} {cell : Cell}
    {events : List (Session.Event engine)} {messages : List HostMessage} {later : Live engine}
    (runs : m.runners[place]? = some runner) (seat : runner.place = place)
    (shares : m.cells[place]? = some cell)
    (step : ThreadStep cell.terminated (runner.on cell) events messages later) :
    ∃ cells runners, Move config m (runner.tells events messages)
        { m with cells, runners, posts := m.posts ++ stamped runner.generation messages } ∧
      List.zipWith Runner.on runners cells = m.threads.set place later ∧
      cells.map Cell.terminated = m.cells.map Cell.terminated ∧
      cells.length = m.cells.length := by
  subst seat
  have inside := (List.getElem?_eq_some_iff.mp runs).1
  have parts : m.runners = m.runners.take runner.place ++ runner ::
      m.runners.drop (runner.place + 1) := by
    rw [← List.set_eq_take_cons_drop runner inside, set_of_found runs]
  have same : Runner.on { runner with thread := later.thread }
      { cell with inbox := later.inbox, input := later.input } = later :=
    congrArg (fun number => { later with generation := number }) step.generation_eq.symm
  refine ⟨_, _, .go parts shares step, ?_, ?_, List.length_set⟩
  · rw [← List.set_eq_take_cons_drop _ inside]
    show List.zipWith Runner.on _ (m.cells.set _ _) = _
    rw [zipWith_set, same]
    rfl
  · exact map_terminated_put shares { cell with inbox := later.inbox, input := later.input } rfl

private theorem threads_deliver (seated : Seated m) {place : Place} {cell : Cell}
    (shares : m.cells[place]? = some cell) (line : String) :
    (m.put place { cell with input := (cell.input.post (Bytes.ofString line)).2 }).threads =
      m.threads.map fun thread => thread.deliver (place + 1) line := by
  have inside := (List.getElem?_eq_some_iff.mp shares).1
  rw [← seated.length_runners] at inside
  have runs := List.getElem?_eq_getElem inside
  have filled : m.runners[place].on
      { cell with input := (cell.input.post (Bytes.ofString line)).2 } =
        (m.runners[place].on cell).deliver (place + 1) line :=
    (if_pos (beq_iff_eq.mpr (seated.at runs).2.symm)).symm
  rw [Scene.threads_put runs, filled]
  refine List.ext_getElem? fun other => ?_
  rw [List.getElem?_map]
  by_cases same : place = other
  · subst same
    have here : m.threads[place]? = some (m.runners[place].on cell) :=
      List.getElem?_zipWith_eq_some.mpr ⟨_, _, runs, shares, rfl⟩
    rw [List.getElem?_set_self (List.getElem?_eq_some_iff.mp here).1, here]
    rfl
  · rw [List.getElem?_set_ne same]
    rcases found : m.threads[other]? with - | thread
    · rfl
    · obtain ⟨runner, shared, works, -, rfl⟩ := List.getElem?_zipWith_eq_some.mp found
      have stranger : place + 1 ≠ runner.generation := by
        rw [(seated.at works).2]
        exact fun number => same (Nat.succ.inj number)
      exact congrArg some (if_neg fun number => stranger (beq_iff_eq.mp number)).symm

private theorem exists_abort (config : Config) (showTiming : Bool) {cell : Cell}
    (free : m.abort = .none) (shares : m.cells[m.live.place]? = some cell) :
    Run config m [.retired m.live.generation]
      { (m.put m.live.place cell.retire).launch config showTiming with abort := .none } := by
  have inside := (List.getElem?_eq_some_iff.mp shares).1
  have flagged : Run config m [] { m.put m.live.place { cell with terminated := true } with
      abort := .flagged } := Run.here.step (.flag free shares)
  have closed : Run config m [.retired m.live.generation] { m with
      cells := m.cells.set m.live.place cell.retire, abort := .closed } := by
    have told : (m.put m.live.place { cell with terminated := true }).cells[m.live.place]? =
        some { cell with terminated := true } := List.getElem?_set_self inside
    have closed := flagged.step (.close rfl told)
    rw [← List.set_set { cell with terminated := true }]
    exact closed
  exact closed.step (.restart showTiming rfl)

namespace Depicts

theorem go (depicts : Depicts config m s) {closed : Bool} {before after : List (Live engine)}
    {thread later : Live engine} {events : List (Session.Event engine)}
    {messages : List HostMessage} (step : ThreadStep closed thread events messages later)
    (split : s.retired ++ [s.front.live] = before ++ thread :: after)
    (gone : (List.replicate s.retired.length true ++ [false])[before.length]? = some closed)
    (config_eq : t.front.config = s.front.config)
    (threads : t.retired ++ [t.front.live] = before ++ later :: after)
    (length : t.retired.length = s.retired.length)
    (posts : t.posts = s.posts ++ stamped thread.generation messages) (hand : t.hand = s.hand)
    (held : t.front.terminal.held = s.front.terminal.held) :
    Leads config m (events ++ messages.map (.posted thread.generation)) t := by
  obtain ⟨runner, cell, runs, shares, rfl, seat, number⟩ := depicts.found split
  obtain rfl : closed = cell.terminated :=
    Option.some.inj (gone.symm.trans (depicts.given_up shares))
  obtain ⟨cells, runners, move, works, marks, count⟩ := exists_go config runs seat shares step
  refine .one move ⟨depicts.seated.move move, config_eq.trans depicts.config, ?_, ?_, depicts.abort,
    ?_, depicts.hand.trans hand.symm, ?_, depicts.replies.trans held.symm, ?_⟩ (named_tells step)
  · show List.zipWith Runner.on runners cells = _
    rw [works, depicts.threads, split, threads]
    simp
  · rw [length, ← depicts.terminated]
    exact marks
  · rw [posts, ← depicts.posts]
    rfl
  · rw [count]
    exact depicts.judged
  · rw [count]
    exact depicts.known

theorem order (depicts : Depicts config m s) {events : List (Session.Event engine)} (order : Order)
    (nothing : events.filter concerns = []) :
    Leads config m events { s with front := s.front.send order } := by
  obtain ⟨runner, cell, runs, shares, same, last, -⟩ := depicts.live
  have move : Move config m [] _ := .order order depicts.abort shares
  have works := Scene.threads_put runs { cell with inbox := cell.inbox ++ [order] }
  have marks := map_terminated_put shares { cell with inbox := cell.inbox ++ [order] } rfl
  have count : (m.put m.live.place { cell with inbox := cell.inbox ++ [order] }).cells.length =
      m.cells.length := List.length_set
  refine .one move ⟨depicts.seated.move move, depicts.config, ?_, marks.trans depicts.terminated,
    depicts.abort, depicts.posts, depicts.hand, ?_, depicts.replies, ?_⟩ nothing.symm
  · rw [works, depicts.threads, last]
    simp [← same, Runner.on, Frontend.send]
  · rw [count]
    exact depicts.judged
  · rw [count]
    exact depicts.known

theorem type (depicts : Depicts config m s) {before after : List Generation}
    {generation : Generation} (terminal : Terminal) (line : String)
    (split : s.front.terminal.held = before ++ generation :: after)
    (rest : terminal.held = before ++ after) :
    Leads config m [.typed generation line]
      ({ s with front := { s.front with terminal } }.deliver generation line) := by
  obtain ⟨first, others, parts, rfl, listed⟩ :=
    List.map_eq_append_iff.mp (depicts.replies.trans split)
  obtain ⟨place, last, rfl, rfl, rfl⟩ := List.map_eq_cons_iff.mp listed
  have inside := depicts.known place (mem_of_split parts)
  obtain ⟨cell, shares⟩ : ∃ cell, m.cells[place]? = some cell :=
    ⟨_, List.getElem?_eq_getElem inside⟩
  have move : Move config m _ _ := .send line parts shares
  have count : (m.put place
      { cell with input := (cell.input.post (Bytes.ofString line)).2 }).cells.length =
        m.cells.length := List.length_set
  refine .one move ⟨depicts.seated.move move, depicts.config, ?_, ?_, depicts.abort, depicts.posts,
    depicts.hand, ?_, List.map_append.trans rest.symm, fun other among => ?_⟩ rfl
  · refine (threads_deliver depicts.seated shares line).trans ?_
    rw [depicts.threads, List.map_append]
    rfl
  · have marks := map_terminated_put shares
      { cell with input := (cell.input.post (Bytes.ofString line)).2 } rfl
    refine (marks.trans depicts.terminated).trans ?_
    show _ = List.replicate (s.retired.map _).length true ++ [false]
    rw [List.length_map]
  · rw [count]
    exact depicts.judged
  · rw [count]
    refine depicts.known other ?_
    rw [parts]
    exact ((List.sublist_cons_self place last).append_left first).subset among

theorem act (depicts : Depicts config m s) {generation : Generation} (message : HostMessage)
    (judged : s.hand = .judged generation message generation) :
    Leads config m (s.effects generation message)
      ({ s with hand := .empty }.act generation message) := by
  obtain ⟨live, held, own⟩ := Hand.of_judged (depicts.hand.trans judged)
  obtain ⟨number, inside⟩ := depicts.judged _ _ _ held
  cases message with
  | write text =>
    have move : Move config m _ _ := .act held own.symm nofun
    exact .one move { depicts with
      seated := depicts.seated.move move, hand := rfl, judged := fun _ _ _ => nofun } rfl
  | runAsync id result =>
    have move : Move config m _ _ := .act held own.symm nofun
    have same := s.front.complete_frame id (.ofResult result)
    have nothing : (s.effects generation (.runAsync id result)).filter concerns = [] := by
      show (if s.front.pending.contains id then _ else _ : List (Session.Event engine)).filter _ = _
      split <;> rfl
    refine .one move ?_ nothing.symm
    show Depicts config _ { s with hand := .empty, front := s.front.complete id (.ofResult result) }
    rw [same]
    exact { depicts with
      seated := depicts.seated.move move, hand := rfl, judged := fun _ _ _ => nofun }
  | readLine =>
    have move : Move config m _ _ := .reply held own.symm
    have replied (terminal : Terminal)
        (asks : terminal.held = s.front.terminal.held ++ [generation]) :
        Depicts config { m with hand := .empty, replies := m.replies ++ [live.place] }
          { s with hand := .empty, front := { s.front with terminal } } := by
      refine { depicts with
        seated := depicts.seated.move move, hand := rfl, judged := fun _ _ _ => nofun
        replies := ?_, known := fun place among => ?_ }
      · rw [asks, ← depicts.replies, ← own, number, List.map_append]
        rfl
      · rcases List.mem_append.mp among with earlier | new
        · exact depicts.known place earlier
        · exact List.mem_singleton.mp new ▸ inside
    unfold Traffic.effects Traffic.act Traffic.ask Terminal.requestLine
    rcases s.front.terminal.lines with - | ⟨line, lines⟩
    · exact .one move (replied _ rfl) rfl
    · have asked : Leads config m [.asked generation] _ :=
        .one move (replied { s.front.terminal with
          lines, held := s.front.terminal.held ++ [generation] } rfl) rfl
      exact asked.trans fun later shows =>
        shows.type { s.front.terminal with lines } line rfl (List.append_nil _).symm

/-- An abort takes the lock, retires the live thread in two stores and starts the next one. -/
theorem abort_leads (depicts : Depicts config m s) :
    Leads config m (.retired s.front.live.generation :: s.front.pending.map .refused) s.abort := by
  obtain ⟨runner, cell, runs, shares, same, last, number⟩ := depicts.live
  have run := exists_abort config s.front.showTiming depicts.abort shares
  have closed := Scene.threads_put runs cell.retire
  have gone : runner.on cell.retire = s.front.live.close := congrArg Live.close same
  have refusals : ((s.front.pending.map .refused : List (Session.Event engine)).filter
      concerns) = [] := by
    simp [concerns]
  have lengths : (m.put m.live.place cell.retire).runners.length =
      (m.put m.live.place cell.retire).cells.length :=
    depicts.seated.length_runners.trans List.length_set.symm
  have more : m.cells.length ≤ ((m.put m.live.place cell.retire).launch config
      s.front.showTiming).cells.length := by
    simp [Scene.launch, Scene.put]
  refine ⟨_, _, run, { depicts with
    seated := depicts.seated.run run, abort := rfl, threads := ?_, terminated := ?_
    judged := fun _ _ _ held => ⟨(depicts.judged _ _ _ held).1, ?_⟩
    known := fun place among => (depicts.known place among).trans_le more }, ?_⟩
  · refine (Scene.threads_launch lengths config s.front.showTiming).trans ?_
    have next : Frontend.startThread (m.live.generation + 1) config s.front.showTiming =
        s.abort.front.live := by
      rw [number, ← depicts.config]
      rfl
    rw [closed, gone, depicts.threads, last]
    exact congrArg₂ (· ++ [·]) (by simp [Traffic.abort]) next
  · have marked : (m.cells.set m.live.place cell.retire).map Cell.terminated =
        List.replicate (s.retired.length + 1) true := by
      rw [List.map_set, depicts.terminated, last, List.replicate_succ']
      simp [Cell.retire]
    show List.map Cell.terminated (m.cells.set m.live.place cell.retire ++ [_]) =
      List.replicate (s.retired ++ [_]).length true ++ [false]
    rw [List.map_append, marked, List.length_append]
    rfl
  · exact (depicts.judged _ _ _ held).2.trans_le more
  · show [Session.Event.retired m.live.generation] = _
    rw [number, List.filter_cons_of_pos rfl, refusals]

end Depicts

theorem leads_of_step {events : List (Session.Event engine)} (step : Step s events t)
    (depicts : Depicts config m s) : Leads config m events t := by
  cases step with
  | draw request fresh => exact .stay { depicts with } rfl
  | @register id request before after caller =>
    have opened : Depicts config m { s with
        front := { s.front with pending := s.front.pending ++ [id] }
        callers := before ++ after } := { depicts with }
    exact opened.order (.request id request) rfl
  | keepTiming on => exact .stay { depicts with } rfl
  | @handTiming on before after pending =>
    have kept : Depicts config m { s with switches := before ++ after } := { depicts with }
    exact kept.order (.showTiming on) rfl
  | live outside step =>
    exact depicts.go step (show _ = s.retired ++ s.front.live :: [] from rfl)
      (by simp) rfl rfl rfl rfl rfl rfl
  | @retired events messages before after thread later split step =>
    have threads (middle : Live engine) : before ++ middle :: after ++ [s.front.live] =
        before ++ middle :: (after ++ [s.front.live]) := List.append_assoc ..
    refine depicts.go step (split ▸ threads thread) ?_ rfl (threads later) ?_ rfl rfl rfl
    · rw [split, List.getElem?_append_left (by simp), List.getElem?_replicate_of_lt (by simp)]
    · simp [split]
  | take posts free =>
    have move : Move config m _ _ :=
      .take (depicts.posts.trans posts) (Hand.of_empty (depicts.hand.trans free))
    exact .one move { depicts with
      seated := depicts.seated.move move, posts := rfl, hand := rfl
      judged := fun _ _ _ => nofun } rfl
  | judge inHand =>
    have move : Move config m _ _ :=
      .judge (Hand.of_taken (depicts.hand.trans inHand)) depicts.abort
    obtain ⟨runner, cell, runs, shares, -, -, number⟩ := depicts.live
    refine .one move { depicts with
      seated := depicts.seated.move move, hand := congrArg _ number
      judged := fun _ _ _ same => ?_ } rfl
    cases same
    exact ⟨depicts.seated.number, (List.getElem?_eq_some_iff.mp shares).1⟩
  | evict inHand other =>
    obtain ⟨live, held, rfl⟩ := Hand.of_judged (depicts.hand.trans inHand)
    have move : Move config m _ _ := .evict held other
    exact .one move { depicts with
      seated := depicts.seated.move move, hand := rfl, judged := fun _ _ _ => nofun } rfl
  | act judged => exact depicts.act _ judged
  | @type generation before after line held =>
    exact depicts.type { s.front.terminal with held := before ++ after } line held rfl
  | abort => exact depicts.abort_leads

theorem Depicts.start (config : Config) {terminal : Terminal} (unheld : terminal.held = [])
    (outside : ω) :
    Depicts config (.start config : Scene engine) (.start config terminal outside) where
  seated := .start config
  config := rfl
  threads := rfl
  terminated := rfl
  abort := rfl
  posts := rfl
  hand := rfl
  judged _ _ _ := nofun
  replies := unheld.symm
  known _ := nofun

variable {terminal : Terminal} {outside : ω} {trace : List (Session.Event engine)}

/-- Every session is shown by a scene that tells the same. -/
theorem leads_of_run (unheld : terminal.held = [])
    (run : Session.Run (.start config terminal outside) trace t) :
    Leads config (.start config : Scene engine) trace t := by
  induction run with
  | here => exact .stay (.start config unheld outside) rfl
  | step _ step ih => exact ih.trans fun later => leads_of_step step

/-- What a session tells of lines is lawful, once the places are added and whether a line was
stored. -/
theorem lawful_of_run (unheld : terminal.held = [])
    (run : Session.Run (.start config terminal outside) trace t) :
    ∃ told : List Event, told.map Event.named = trace.filter concerns ∧
      ∀ early event late, told = early ++ event :: late → event.Lawful config early := by
  obtain ⟨told, later, moves, -, same⟩ := leads_of_run unheld run
  exact ⟨told, same, ((Sound.start config).run moves).lawful⟩

end Buildbox.Session.Lines
