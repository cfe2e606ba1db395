import Mathlib.Data.List.Nodup
import Buildbox.Proofs.Input.Register
import Buildbox.Proofs.Session.Traffic

/-!
Replies to requests for a line. A reply has nothing but the region that it puts its line into. It
may outlive the request and the thread that it was made for, and is sent whenever its owner likes.
Here regions are shared by reference, and an abort, which retires a thread in two stores, is seen
between them.
-/

set_option autoImplicit false

namespace Buildbox.Session.Lines

abbrev Place := Nat

/-- What a thread shares with the side that started it. -/
structure Cell where
  inbox : List Order
  terminated : Bool
  input : InputRegion

structure Contact where
  generation : Generation
  place : Place

structure Runner (engine : Engine) extends Contact where
  thread : Thread engine

inductive Hand
  | empty
  | taken (generation : Generation) (message : HostMessage)
  | judged (generation : Generation) (message : HostMessage) (live : Contact)

inductive Abort
  | none
  | flagged
  | closed

inductive Event
  | posted (generation : Generation) (message : HostMessage)
  | asked (generation : Generation) (place : Place)
  | sent (place : Place) (line : String) (stored : Bool)
  /-- a thread waited for a line; nothing when its input was closed -/
  | read (generation : Generation) (place : Place) (line : Option Bytes)
  | retired (generation : Generation)

/-- A session between two moves. -/
structure Scene (engine : Engine) where
  cells : List Cell := []
  runners : List (Runner engine) := []
  live : Contact
  abort : Abort := .none
  posts : List (Generation × HostMessage) := []
  hand : Hand := .empty
  replies : List Place := []

variable {engine : Engine}

def Runner.on (runner : Runner engine) (cell : Cell) : Live engine :=
  ⟨runner.generation, cell.inbox, cell.input, runner.thread⟩

def Runner.tells (runner : Runner engine) (events : List (Session.Event engine))
    (messages : List HostMessage) : List Event :=
  let reads := events.filterMap fun
    | .read generation line => some (Event.read generation runner.place line)
    | _ => none
  reads ++ messages.map (.posted runner.generation)

namespace Scene

def put (self : Scene engine) (place : Place) (cell : Cell) : Scene engine :=
  { self with cells := self.cells.set place cell }

def launch (self : Scene engine) (config : Config) (showTiming : Bool) : Scene engine :=
  let live := Frontend.startThread (self.live.generation + 1) config showTiming
  { self with
    cells := self.cells ++ [⟨live.inbox, false, live.input⟩]
    runners := self.runners ++ [⟨⟨live.generation, self.cells.length⟩, live.thread⟩]
    live := ⟨live.generation, self.cells.length⟩ }

def start (config : Config) : Scene engine :=
  launch { live := ⟨0, 0⟩ } config config.showTiming

end Scene

/-- What is done under one lock, or to one queue or region. -/
inductive Move (config : Config) : Scene engine → List Event → Scene engine → Prop
  | order {s : Scene engine} {cell : Cell} (order : Order) :
    s.abort = .none → s.cells[s.live.place]? = some cell →
    Move config s [] (s.put s.live.place { cell with inbox := cell.inbox ++ [order] })
  | go {s : Scene engine} {before after : List (Runner engine)} {runner : Runner engine}
      {cell : Cell} {events : List (Session.Event engine)} {messages : List HostMessage}
      {later : Live engine} :
    s.runners = before ++ runner :: after → s.cells[runner.place]? = some cell →
    ThreadStep cell.terminated (runner.on cell) events messages later →
    Move config s (runner.tells events messages)
      { s.put runner.place { cell with inbox := later.inbox, input := later.input } with
        runners := before ++ { runner with thread := later.thread } :: after
        posts := s.posts ++ stamped runner.generation messages }
  | take {s : Scene engine} {generation : Generation} {message : HostMessage}
      {rest : List (Generation × HostMessage)} :
    s.posts = (generation, message) :: rest → s.hand = .empty →
    Move config s [] { s with posts := rest, hand := .taken generation message }
  /-- the live thread is looked up for the message in hand, its generation and its region at once -/
  | judge {s : Scene engine} {generation : Generation} {message : HostMessage} :
    s.hand = .taken generation message → s.abort = .none →
    Move config s [] { s with hand := .judged generation message s.live }
  | evict {s : Scene engine} {generation : Generation} {message : HostMessage} {live : Contact} :
    s.hand = .judged generation message live → generation ≠ live.generation →
    Move config s [] { s with hand := .empty }
  | reply {s : Scene engine} {generation : Generation} {live : Contact} :
    s.hand = .judged generation .readLine live → generation = live.generation →
    Move config s [.asked generation live.place]
      { s with hand := .empty, replies := s.replies ++ [live.place] }
  | act {s : Scene engine} {generation : Generation} {message : HostMessage} {live : Contact} :
    s.hand = .judged generation message live → generation = live.generation →
    message ≠ .readLine → Move config s [] { s with hand := .empty }
  | send {s : Scene engine} {before after : List Place} {place : Place} {cell : Cell}
      (line : String) :
    s.replies = before ++ place :: after → s.cells[place]? = some cell →
    Move config s [.sent place line (cell.input.post (Bytes.ofString line)).1]
      { s.put place { cell with input := (cell.input.post (Bytes.ofString line)).2 } with
        replies := before ++ after }
  /-- an abort takes the lock -/
  | flag {s : Scene engine} {cell : Cell} :
    s.abort = .none → s.cells[s.live.place]? = some cell →
    Move config s []
      { s.put s.live.place { cell with terminated := true } with abort := .flagged }
  | close {s : Scene engine} {cell : Cell} :
    s.abort = .flagged → s.cells[s.live.place]? = some cell →
    Move config s [.retired s.live.generation]
      { s.put s.live.place { cell with input := cell.input.close } with abort := .closed }
  | restart {s : Scene engine} (showTiming : Bool) : s.abort = .closed →
    Move config s [] { s.launch config showTiming with abort := .none }

/-- What happens from one moment of a session on, up to another one. -/
inductive Run (config : Config) (first : Scene engine) : List Event → Scene engine → Prop
  | here : Run config first [] first
  | step {trace events : List Event} {s t : Scene engine} :
    Run config first trace s → Move config s events t → Run config first (trace ++ events) t

variable {config : Config} {trace events : List Event} {s t : Scene engine}

/-- The threads are in the order in which they were started, each of the next generation and at a
place of its own, and the last one is live. -/
structure Seated (s : Scene engine) : Prop where
  generation : s.live.generation = s.cells.length
  place : s.live.place + 1 = s.cells.length
  runners : s.runners.map Runner.toContact =
    (List.range s.cells.length).map fun place => ⟨place + 1, place⟩

namespace Seated

private theorem keep (seated : Seated s) (length : t.cells.length = s.cells.length)
    (live : t.live = s.live)
    (runners : t.runners.map Runner.toContact = s.runners.map Runner.toContact) : Seated t := by
  constructor
  · rw [live, length]
    exact seated.generation
  · rw [live, length]
    exact seated.place
  · rw [runners, length]
    exact seated.runners

private theorem launch (generation : s.live.generation = s.cells.length)
    (runners : s.runners.map Runner.toContact =
      (List.range s.cells.length).map fun place => ⟨place + 1, place⟩) (showTiming : Bool) :
    Seated (s.launch config showTiming) := by
  have length : (s.launch config showTiming).cells.length = s.cells.length + 1 :=
    List.length_append
  have listed : (s.launch config showTiming).runners.map Runner.toContact =
      s.runners.map Runner.toContact ++ [⟨s.live.generation + 1, s.cells.length⟩] :=
    List.map_append
  constructor
  · rw [length, ← generation]
    rfl
  · rw [length]
    rfl
  · rw [length, listed, runners, generation, List.range_succ, List.map_append]
    rfl

theorem start (config : Config) : Seated (.start config : Scene engine) :=
  launch rfl rfl _

theorem number (seated : Seated s) : s.live.generation = s.live.place + 1 :=
  seated.generation.trans seated.place.symm

theorem move (seated : Seated s) (move : Move config s events t) : Seated t := by
  cases move with
  | @go before after runner cell events messages later split found step =>
    refine seated.keep List.length_set rfl ?_
    rw [split, List.map_append, List.map_append]
    rfl
  | order order free found => exact seated.keep List.length_set rfl rfl
  | send line split found => exact seated.keep List.length_set rfl rfl
  | flag free found => exact seated.keep List.length_set rfl rfl
  | close flagged found => exact seated.keep List.length_set rfl rfl
  | restart showTiming closed =>
    exact (launch seated.generation seated.runners showTiming).keep rfl rfl rfl
  | take posts free => exact seated.keep rfl rfl rfl
  | judge inHand free => exact seated.keep rfl rfl rfl
  | evict inHand other => exact seated.keep rfl rfl rfl
  | reply inHand same => exact seated.keep rfl rfl rfl
  | act inHand same other => exact seated.keep rfl rfl rfl

theorem numbered (seated : Seated s) {runner : Runner engine} (among : runner ∈ s.runners) :
    runner.generation = runner.place + 1 ∧ runner.place < s.cells.length := by
  have listed : runner.toContact ∈ s.runners.map Runner.toContact := List.mem_map_of_mem among
  rw [seated.runners] at listed
  obtain ⟨place, below, same⟩ := List.mem_map.mp listed
  rw [← same]
  exact ⟨rfl, List.mem_range.mp below⟩

theorem unique (seated : Seated s) {runner other : Runner engine} (among : runner ∈ s.runners)
    (others : other ∈ s.runners) (same : other.place = runner.place) : other = runner := by
  have places : s.runners.map (fun runner => runner.place) = List.range s.cells.length := by
    have mapped := congrArg (List.map Contact.place) seated.runners
    rw [List.map_map, List.map_map] at mapped
    exact mapped.trans (List.map_id _)
  have distinct : (s.runners.map fun runner => runner.place).Nodup := by
    rw [places]
    exact List.nodup_range
  exact List.inj_on_of_nodup_map distinct others among same

end Seated

theorem mem_of_split {α : Type} {list before after : List α} {a : α}
    (split : list = before ++ a :: after) : a ∈ list := by
  rw [split]
  exact List.mem_append_cons_self

def Hand.Holds (generation : Generation) (message : HostMessage) : Hand → Prop
  | .empty => False
  | .taken g m => g = generation ∧ m = message
  | .judged g m _ => g = generation ∧ m = message

/-- Messages were posted, and replies made, for the generation whose place they have. -/
structure Sourced (trace : List Event) (s : Scene engine) : Prop where
  posts : ∀ generation message, (generation, message) ∈ s.posts →
    .posted generation message ∈ trace
  hand : ∀ generation message, s.hand.Holds generation message →
    .posted generation message ∈ trace
  judged : ∀ generation message live, s.hand = .judged generation message live →
    live.generation = live.place + 1
  replies : ∀ place ∈ s.replies,
    [.posted (place + 1) .readLine, .asked (place + 1) place].Sublist trace

namespace Sourced

private theorem keep (sourced : Sourced trace s) (events : List Event) (posts : t.posts = s.posts)
    (hand : t.hand = s.hand) (replies : ∀ place ∈ t.replies, place ∈ s.replies) :
    Sourced (trace ++ events) t := by
  refine ⟨?_, ?_, ?_, fun place among => ?_⟩
  · rw [posts]
    exact fun generation message among => List.mem_append_left _ (sourced.posts _ _ among)
  · rw [hand]
    exact fun generation message holds => List.mem_append_left _ (sourced.hand _ _ holds)
  · rw [hand]
    exact sourced.judged
  · exact (sourced.replies place (replies place among)).trans (List.sublist_append_left ..)

private theorem clear (sourced : Sourced trace s) : Sourced trace { s with hand := .empty } :=
  ⟨sourced.posts, fun _ _ => False.elim, fun _ _ _ => nofun, sourced.replies⟩

theorem start (config : Config) : Sourced [] (.start config : Scene engine) :=
  ⟨fun _ _ => nofun, fun _ _ => False.elim, fun _ _ _ => nofun, fun _ => nofun⟩

theorem move (sourced : Sourced trace s) (seated : Seated s) (move : Move config s events t) :
    Sourced (trace ++ events) t := by
  have same : ∀ place ∈ s.replies, place ∈ s.replies := fun _ among => among
  cases move with
  | @go before after runner cell events messages later split found step =>
    have kept := sourced.keep (runner.tells events messages) rfl rfl same
    refine ⟨fun generation message among => ?_, kept.hand, kept.judged, kept.replies⟩
    rcases List.mem_append.mp among with earlier | new
    · exact kept.posts generation message earlier
    · obtain ⟨_, given, same⟩ := List.mem_map.mp new
      cases same
      exact List.mem_append_right _ (List.mem_append_right _ (List.mem_map_of_mem given))
  | @take generation message rest posts free =>
    have kept := sourced.keep [] rfl rfl same
    refine ⟨fun other message among => ?_, fun other message holds => ?_, fun _ _ _ => nofun,
      kept.replies⟩
    · exact kept.posts other message (posts ▸ List.mem_cons_of_mem _ among)
    · obtain ⟨rfl, rfl⟩ := holds
      exact kept.posts _ _ (posts ▸ List.mem_cons_self)
  | @judge generation message inHand free =>
    have kept := sourced.keep [] rfl rfl same
    refine ⟨kept.posts, fun other message holds => ?_, fun _ _ live judged => ?_, kept.replies⟩
    · exact kept.hand other message (inHand ▸ holds)
    · cases judged
      exact seated.number
  | @reply generation live inHand own =>
    have kept := sourced.clear.keep [.asked generation live.place] rfl rfl same
    refine ⟨kept.posts, kept.hand, kept.judged, fun place among => ?_⟩
    rcases List.mem_append.mp among with earlier | new
    · exact kept.replies place earlier
    · obtain rfl := List.mem_singleton.mp new
      have number : generation = live.place + 1 := own.trans (sourced.judged _ _ _ inHand)
      have posted : .posted generation .readLine ∈ trace :=
        sourced.hand generation .readLine (inHand ▸ ⟨rfl, rfl⟩)
      rw [← number]
      exact (List.singleton_sublist.mpr posted).append (List.Sublist.refl _)
  | evict inHand other => exact sourced.clear.keep _ rfl rfl same
  | act inHand own other => exact sourced.clear.keep _ rfl rfl same
  | @send before after place cell line split found =>
    refine sourced.keep _ rfl rfl fun other among => ?_
    rw [split]
    exact ((List.sublist_cons_self place after).append_left before).subset among
  | order order free found => exact sourced.keep _ rfl rfl same
  | flag free found => exact sourced.keep _ rfl rfl same
  | close flagged found => exact sourced.keep _ rfl rfl same
  | restart showTiming closed => exact sourced.keep _ rfl rfl same

end Sourced

theorem set_of_found {α : Type} {list : List α} {place : Place} {a : α}
    (found : list[place]? = some a) : list.set place a = list := by
  obtain ⟨inside, given⟩ := List.getElem?_eq_some_iff.mp found
  rw [← given, List.set_getElem_self]

def Scene.inputs (s : Scene engine) : List InputRegion :=
  s.cells.map Cell.input

/-- What a move does to the regions, and what it needs of what happened before. -/
inductive Stirs (config : Config) (trace : List Event) (inputs : List InputRegion) :
    List Event → List InputRegion → Prop
  | nothing : Stirs config trace inputs [] inputs
  | post (generation : Generation) (message : HostMessage) :
    Stirs config trace inputs [.posted generation message] inputs
  | ask {place : Place} (source : .posted (place + 1) .readLine ∈ trace) :
    Stirs config trace inputs [.asked (place + 1) place] inputs
  | send {place : Place} {input : InputRegion} (line : String)
      (source : [.posted (place + 1) .readLine, .asked (place + 1) place].Sublist trace)
      (found : inputs[place]? = some input) :
    Stirs config trace inputs [.sent place line (input.post (Bytes.ofString line)).1]
      (inputs.set place (input.post (Bytes.ofString line)).2)
  | take {place : Place} {input rest : InputRegion} {bytes : Bytes}
      (found : inputs[place]? = some input) (taken : input.take = .line bytes rest) :
    Stirs config trace inputs [.read (place + 1) place (some bytes)] (inputs.set place rest)
  | miss {place : Place} {input : InputRegion} (found : inputs[place]? = some input)
      (taken : input.take = .closed) :
    Stirs config trace inputs [.read (place + 1) place none] inputs
  | close {place : Place} {input : InputRegion} (found : inputs[place]? = some input)
      (isOpen : input.isClosed = false) :
    Stirs config trace inputs [.retired (place + 1)] (inputs.set place input.close)
  | add : Stirs config trace inputs [] (inputs ++ [.new config.inputCapacity.toNat])

theorem inputs_found {place : Place} {cell : Cell} (found : s.cells[place]? = some cell) :
    s.inputs[place]? = some cell.input := by
  rw [Scene.inputs, List.getElem?_map, found]
  rfl

private theorem inputs_put (s : Scene engine) (place : Place) (cell : Cell) :
    (s.put place cell).inputs = s.inputs.set place cell.input :=
  List.map_set

private theorem inputs_same {place : Place} {cell : Cell} (found : s.cells[place]? = some cell)
    (later : Cell) (same : later.input = cell.input) :
    (s.put place later).inputs = s.inputs := by
  rw [inputs_put, same, set_of_found (inputs_found found)]

/-- What is told of a step of a thread, and what it does to the region. -/
inductive Runner.Does (runner : Runner engine) (input : InputRegion) :
    List Event → InputRegion → Prop
  | nothing : Does runner input [] input
  | post (message : HostMessage) : Does runner input [.posted runner.generation message] input
  | take {bytes : Bytes} {rest : InputRegion} (taken : input.take = .line bytes rest) :
    Does runner input [.read runner.generation runner.place (some bytes)] rest
  | miss (taken : input.take = .closed) :
    Does runner input [.read runner.generation runner.place none] input

theorem Runner.does_of_step {runner : Runner engine} {cell : Cell} {closed : Bool}
    {events : List (Session.Event engine)} {messages : List HostMessage} {later : Live engine}
    (step : ThreadStep closed (runner.on cell) events messages later) :
    runner.Does cell.input (runner.tells events messages) later.input := by
  cases step with
  | takeTiming idle inbox => exact .nothing
  | takeRequest idle inbox => exact .nothing
  | write serving => exact .post _
  | isClosed serving => exact .nothing
  | askLine serving => exact .post _
  | takeLine serving taken => exact .take taken
  | takeNothing serving taken => exact .miss taken
  | outside answer serving external => exact .nothing
  | finish serving => exact .post _

/-- The generations that are retired are those before the live one, and the live one as long as an
abort is about to start the next. -/
def Succession (trace : List Event) (s : Scene engine) : Prop :=
  ∀ generation, .retired generation ∈ trace ↔ 0 < generation ∧
    (generation < s.live.generation ∨ generation = s.live.generation ∧ s.abort = .closed)

namespace Succession

theorem start (config : Config) : Succession [] (.start config : Scene engine) := by
  intro generation
  refine ⟨nofun, fun ⟨positive, either⟩ => ?_⟩
  rcases either with below | ⟨-, impossible⟩
  · exact absurd positive (Nat.not_lt_of_le (Nat.le_of_lt_succ below))
  · cases impossible

private theorem keep (succession : Succession trace s) (live : t.live = s.live)
    (abort : t.abort = .closed ↔ s.abort = .closed)
    (unretired : ∀ generation, .retired generation ∉ events) : Succession (trace ++ events) t := by
  intro generation
  rw [List.mem_append, succession generation, live, abort]
  exact or_iff_left (unretired generation)

theorem move (succession : Succession trace s) (seated : Seated s) (move : Move config s events t) :
    Succession (trace ++ events) t := by
  have none (generation : Generation) : .retired generation ∉ ([] : List Event) := nofun
  cases move with
  | @go before after runner cell events messages later split found step =>
    refine succession.keep rfl Iff.rfl fun generation => ?_
    have does := Runner.does_of_step step
    generalize runner.tells events messages = told at does ⊢
    generalize later.input = input at does
    cases does <;> simp
  | flag free found =>
    refine succession.keep rfl ?_ none
    rw [free]
    exact ⟨nofun, nofun⟩
  | close flagged found =>
    intro generation
    have before := succession generation
    rw [flagged] at before
    rw [List.mem_append, before, List.mem_singleton, Event.retired.injEq]
    show _ ↔ 0 < generation ∧ (generation < s.live.generation ∨ generation = s.live.generation ∧ _)
    have positive : 0 < s.live.generation := seated.number ▸ Nat.succ_pos _
    constructor
    · rintro (⟨pos, below | ⟨-, impossible⟩⟩ | rfl)
      · exact ⟨pos, .inl below⟩
      · cases impossible
      · exact ⟨positive, .inr ⟨rfl, rfl⟩⟩
    · rintro ⟨pos, below | ⟨same, -⟩⟩
      · exact .inl ⟨pos, .inl below⟩
      · exact .inr same
  | restart showTiming closed =>
    intro generation
    have next : (s.launch config showTiming).live.generation = s.live.generation + 1 := rfl
    rw [List.append_nil, succession generation, closed, next, Nat.lt_succ_iff_lt_or_eq]
    simp
  | order order free found => exact succession.keep rfl Iff.rfl none
  | take posts free => exact succession.keep rfl Iff.rfl none
  | judge inHand free => exact succession.keep rfl Iff.rfl none
  | evict inHand other => exact succession.keep rfl Iff.rfl none
  | reply inHand own => exact succession.keep rfl Iff.rfl fun generation => by simp
  | act inHand own other => exact succession.keep rfl Iff.rfl none
  | send line split found => exact succession.keep rfl Iff.rfl fun generation => by simp

end Succession

theorem Move.stirs (move : Move config s events t) (seated : Seated s) (sourced : Sourced trace s)
    (active : s.abort ≠ .closed →
      ∀ input, s.inputs[s.live.place]? = some input → input.isClosed = false) :
    Stirs config trace s.inputs events t.inputs := by
  cases move with
  | @go before after runner cell events messages later split found step =>
    have number := (seated.numbered (mem_of_split split)).1
    have at_place := inputs_found found
    have put : ∀ input, (s.put runner.place { cell with inbox := later.inbox, input }).inputs =
        s.inputs.set runner.place input := fun _ => inputs_put s _ _
    have same : later.input = cell.input →
        (s.put runner.place { cell with inbox := later.inbox, input := later.input }).inputs =
          s.inputs := inputs_same found { cell with inbox := later.inbox, input := later.input }
    show Stirs config trace s.inputs _
      (s.put runner.place { cell with inbox := later.inbox, input := later.input }).inputs
    have does := Runner.does_of_step step
    generalize runner.tells events messages = told at does ⊢
    generalize later.input = input at does same ⊢
    cases does with
    | nothing =>
      rw [same rfl]
      exact .nothing
    | post message =>
      rw [same rfl]
      exact .post _ _
    | take taken =>
      rw [number, put]
      exact .take at_place taken
    | miss taken =>
      rw [number, same rfl]
      exact .miss at_place taken
  | @reply generation live inHand own =>
    have posted : .posted generation .readLine ∈ trace :=
      sourced.hand generation .readLine (inHand ▸ ⟨rfl, rfl⟩)
    have number : generation = live.place + 1 := own.trans (sourced.judged _ _ _ inHand)
    rw [number] at posted ⊢
    exact .ask posted
  | @send before after place cell line split found =>
    have put := inputs_put s place { cell with input := (cell.input.post (Bytes.ofString line)).2 }
    show Stirs config trace s.inputs _ (s.put place _).inputs
    rw [put]
    exact .send line (sourced.replies place (mem_of_split split)) (inputs_found found)
  | @close cell flagged found =>
    show Stirs config trace s.inputs _ (s.put s.live.place _).inputs
    rw [inputs_put, seated.number]
    have unclosed : s.abort ≠ .closed := by
      rw [flagged]
      exact nofun
    exact .close (inputs_found found) (active unclosed _ (inputs_found found))
  | restart showTiming closed =>
    have more : (s.launch config showTiming).inputs =
        s.inputs ++ [.new config.inputCapacity.toNat] := List.map_append
    show Stirs config trace s.inputs [] (s.launch config showTiming).inputs
    rw [more]
    exact .add
  | @order cell order free found =>
    rw [inputs_same found { cell with inbox := cell.inbox ++ [order] } rfl]
    exact .nothing
  | @flag cell free found =>
    have same := inputs_same found { cell with terminated := true } rfl
    show Stirs config trace s.inputs [] (s.put s.live.place _).inputs
    rw [same]
    exact .nothing
  | take posts free => exact .nothing
  | judge inHand free => exact .nothing
  | evict inHand other => exact .nothing
  | act inHand same other => exact .nothing

end Buildbox.Session.Lines
