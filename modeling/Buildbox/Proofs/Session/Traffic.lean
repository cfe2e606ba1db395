import Mathlib.Algebra.GroupWithZero.Nat
import Buildbox.Session.Frontend

/-!
Sessions in which everything happens at once. Callers draw numbers and open requests, build threads,
live and retired, serve their orders and post messages, the dispatching side takes a message, judges
it and acts on it, and aborts fall between any two of these. A `Step` is what is done under one
lock, or to one queue; a `Run` is any order of steps, and its trace says what happened.
-/

set_option autoImplicit false

namespace Buildbox

/-- What is left of a computation after some of its queries were answered. -/
inductive Host.Continues {α : Type} (task : Host α) : Host α → Prop
  | start : Continues task task
  | answered {query : Query} {resume : query.Answer → Host α} (answer : query.Answer) :
    Continues task (.ask query resume) → Continues task (resume answer)

def Query.isOutside : Query → Bool
  | .elapsed | .wallClock | .random _ | .note _ | .fetch _ => true
  | .write _ | .isClosed | .askLine | .takeLine | .crash => false

namespace Session

/-- What happens in a session. -/
inductive Event (engine : Engine)
  | sent (id : RequestId) (request : Request) (generation : Generation)
  | began (id : RequestId) (request : Request) (generation : Generation) (builder : Builder engine)
  | posted (generation : Generation) (message : HostMessage)
  /-- a thread waited for a line; nothing when its input was closed -/
  | read (generation : Generation) (line : Option Bytes)
  | shown (generation : Generation) (text : String)
  /-- a message reached the terminal as a request for a line -/
  | asked (generation : Generation)
  | typed (generation : Generation) (line : String)
  | answered (id : RequestId) (generation : Generation) (reply : Reply)
  | evicted (generation : Generation) (message : HostMessage)
  | retired (generation : Generation)
  | refused (id : RequestId)

inductive Hand
  | empty
  | taken (generation : Generation) (message : HostMessage)
  | judged (generation : Generation) (message : HostMessage) (live : Generation)

/-- A session between two steps. -/
structure Traffic (engine : Engine) (ω : Type) where
  front : Frontend engine ω
  retired : List (Live engine) := []
  callers : List (RequestId × Request) := []
  /-- the switches of the elapsed times that are kept and not handed on yet -/
  switches : List Bool := []
  posts : List (Generation × HostMessage) := []
  hand : Hand := .empty

variable {engine : Engine} {ω : Type}

/-- A thread whose input takes no further line. -/
def Live.close (live : Live engine) : Live engine :=
  { live with input := live.input.close }

def Live.deliver (live : Live engine) (generation : Generation) (line : String) : Live engine :=
  if generation == live.generation then
    { live with input := (live.input.post (Bytes.ofString line)).2 }
  else live

namespace Traffic

def start (config : Config) (terminal : Terminal) (outside : ω) : Traffic engine ω where
  front := .new config terminal outside

def deliver (self : Traffic engine ω) (generation : Generation) (line : String) :
    Traffic engine ω :=
  { self with
    front := { self.front with live := self.front.live.deliver generation line }
    retired := self.retired.map fun thread => thread.deliver generation line }

/-- Asks the terminal for a line, which it may answer at once. -/
def ask (self : Traffic engine ω) (generation : Generation) : Traffic engine ω :=
  let (line, terminal) := self.front.terminal.requestLine generation
  let self := { self with front := { self.front with terminal } }
  match line with
  | some line => self.deliver generation line
  | none => self

def act (self : Traffic engine ω) (generation : Generation) : HostMessage → Traffic engine ω
  | .write text =>
    { self with front := { self.front with terminal := self.front.terminal.write text } }
  | .readLine => self.ask generation
  | .runAsync id result => { self with front := self.front.complete id (.ofResult result) }

def effects (self : Traffic engine ω) (generation : Generation) :
    HostMessage → List (Event engine)
  | .write text => [.shown generation text]
  | .readLine =>
    .asked generation ::
      ((self.front.terminal.requestLine generation).1.map (.typed generation)).toList
  | .runAsync id result =>
    if self.front.pending.contains id then [.answered id generation (.ofResult result)] else []

/-- Retires the live thread, which goes on with closed input until it notices. -/
def abort (self : Traffic engine ω) : Traffic engine ω :=
  { self with
    front := self.front.forceAbort
    retired := self.retired ++ [self.front.live.close] }

end Traffic

inductive ThreadStep (closed : Bool) :
    Live engine → List (Event engine) → List HostMessage → Live engine → Prop
  | takeTiming {live : Live engine} {builder : Builder engine} {on : Bool} {rest : List Order} :
    live.thread = .idle builder → live.inbox = .showTiming on :: rest →
    ThreadStep closed live [] []
      { live with inbox := rest, thread := .idle (builder.setShowTiming on) }
  | takeRequest {live : Live engine} {builder : Builder engine} {id : RequestId}
      {request : Request} {rest : List Order} :
    live.thread = .idle builder → live.inbox = .request id request :: rest →
    ThreadStep closed live [.began id request live.generation builder] []
      { live with inbox := rest, thread := .serving id (builder.serve request) }
  | write {live : Live engine} {id : RequestId} {text : String}
      {resume : Unit → Host (Option Response × Builder engine)} :
    live.thread = .serving id (.ask (.write text) resume) →
    ThreadStep closed live [] [.write text] { live with thread := .serving id (resume ()) }
  | isClosed {live : Live engine} {id : RequestId}
      {resume : Bool → Host (Option Response × Builder engine)} :
    live.thread = .serving id (.ask .isClosed resume) →
    ThreadStep closed live [] [] { live with thread := .serving id (resume closed) }
  | askLine {live : Live engine} {id : RequestId}
      {resume : Bool → Host (Option Response × Builder engine)} :
    live.thread = .serving id (.ask .askLine resume) →
    ThreadStep closed live [] [.readLine] { live with thread := .serving id (resume true) }
  | takeLine {live : Live engine} {id : RequestId} {bytes : Bytes} {input : InputRegion}
      {resume : Option Bytes → Host (Option Response × Builder engine)} :
    live.thread = .serving id (.ask .takeLine resume) → live.input.take = .line bytes input →
    ThreadStep closed live [.read live.generation (some bytes)] []
      { live with input, thread := .serving id (resume (some bytes)) }
  | takeNothing {live : Live engine} {id : RequestId}
      {resume : Option Bytes → Host (Option Response × Builder engine)} :
    live.thread = .serving id (.ask .takeLine resume) → live.input.take = .closed →
    ThreadStep closed live [.read live.generation none] []
      { live with thread := .serving id (resume none) }
  | outside {live : Live engine} {id : RequestId} {query : Query}
      {resume : query.Answer → Host (Option Response × Builder engine)} (answer : query.Answer) :
    live.thread = .serving id (.ask query resume) → query.isOutside = true →
    ThreadStep closed live [] [] { live with thread := .serving id (resume answer) }
  | finish {live : Live engine} {id : RequestId} {result : Option Response}
      {builder : Builder engine} :
    live.thread = .serving id (.done (result, builder)) →
    ThreadStep closed live [] [.runAsync id result] { live with thread := .idle builder }

def stamped (generation : Generation) (messages : List HostMessage) :
    List (Generation × HostMessage) :=
  messages.map (generation, ·)

inductive Step : Traffic engine ω → List (Event engine) → Traffic engine ω → Prop
  /-- a caller draws a number, as long as a fresh one is left -/
  | draw {s : Traffic engine ω} (request : Request) :
    s.front.nextId.toNat + 1 < 2 ^ 64 →
    Step s [] { s with
      front := s.front.draw.2
      callers := s.callers ++ [(s.front.draw.1, request)] }
  | register {s : Traffic engine ω} {id : RequestId} {request : Request}
      {before after : List (RequestId × Request)} :
    s.callers = before ++ (id, request) :: after →
    Step s [.sent id request s.front.live.generation] { s with
      front := s.front.register id request
      callers := before ++ after }
  | keepTiming {s : Traffic engine ω} (on : Bool) :
    Step s [] { s with
      front := { s.front with showTiming := on }
      switches := s.switches ++ [on] }
  | handTiming {s : Traffic engine ω} {on : Bool} {before after : List Bool} :
    s.switches = before ++ on :: after →
    Step s [] { s with front := s.front.send (.showTiming on), switches := before ++ after }
  /-- the live thread goes on, whatever its surroundings do meanwhile -/
  | live {s : Traffic engine ω} {events : List (Event engine)} {messages : List HostMessage}
      {live : Live engine} (outside : ω) :
    ThreadStep false s.front.live events messages live →
    Step s (events ++ messages.map (.posted s.front.live.generation)) { s with
      front := { s.front with live, outside }
      posts := s.posts ++ stamped s.front.live.generation messages }
  | retired {s : Traffic engine ω} {events : List (Event engine)} {messages : List HostMessage}
      {before after : List (Live engine)} {thread later : Live engine} :
    s.retired = before ++ thread :: after → ThreadStep true thread events messages later →
    Step s (events ++ messages.map (.posted thread.generation)) { s with
      retired := before ++ later :: after
      posts := s.posts ++ stamped thread.generation messages }
  | take {s : Traffic engine ω} {generation : Generation} {message : HostMessage}
      {rest : List (Generation × HostMessage)} :
    s.posts = (generation, message) :: rest → s.hand = .empty →
    Step s [] { s with posts := rest, hand := .taken generation message }
  | judge {s : Traffic engine ω} {generation : Generation} {message : HostMessage} :
    s.hand = .taken generation message →
    Step s [] { s with hand := .judged generation message s.front.live.generation }
  | evict {s : Traffic engine ω} {generation live : Generation} {message : HostMessage} :
    s.hand = .judged generation message live → generation ≠ live →
    Step s [.evicted generation message] { s with hand := .empty }
  | act {s : Traffic engine ω} {generation : Generation} {message : HostMessage} :
    s.hand = .judged generation message generation →
    Step s (s.effects generation message) ({ s with hand := .empty }.act generation message)
  | type {s : Traffic engine ω} {generation : Generation} {before after : List Generation}
      (line : String) :
    s.front.terminal.held = before ++ generation :: after →
    Step s [.typed generation line] ({ s with
      front := { s.front with
        terminal := { s.front.terminal with held := before ++ after } } }.deliver generation line)
  | abort {s : Traffic engine ω} :
    Step s (.retired s.front.live.generation :: s.front.pending.map .refused) s.abort

/-- What happens from one moment of a session on, up to another one. -/
inductive Run (first : Traffic engine ω) : List (Event engine) → Traffic engine ω → Prop
  | here : Run first [] first
  | step {trace events : List (Event engine)} {s t : Traffic engine ω} :
    Run first trace s → Step s events t → Run first (trace ++ events) t

theorem Run.trans {first s t : Traffic engine ω} {trace later : List (Event engine)}
    (run : Run first trace s) (more : Run s later t) : Run first (trace ++ later) t := by
  induction more with
  | here =>
    rw [List.append_nil]
    exact run
  | step _ step ih =>
    rw [← List.append_assoc]
    exact ih.step step

theorem Step.run {s t : Traffic engine ω} {events : List (Event engine)} (step : Step s events t) :
    Run s events t :=
  Run.here.step step

structure Duty (engine : Engine) where
  generation : Generation
  inbox : List Order
  thread : Thread engine

def Live.duty (live : Live engine) : Duty engine :=
  ⟨live.generation, live.inbox, live.thread⟩

@[simp] theorem Live.duty_generation (live : Live engine) :
    live.duty.generation = live.generation :=
  rfl

theorem Live.duty_deliver (live : Live engine) (generation : Generation) (line : String) :
    (live.deliver generation line).duty = live.duty := by
  unfold Live.deliver
  split
  · rfl
  · rfl

theorem ThreadStep.generation_eq {closed : Bool} {thread later : Live engine}
    {events : List (Event engine)} {messages : List HostMessage}
    (step : ThreadStep closed thread events messages later) :
    later.generation = thread.generation := by
  cases step <;> rfl

theorem Frontend.complete_frame (front : Frontend engine ω) (id : RequestId) (reply : Reply) :
    front.complete id reply = { front with
      pending := (front.complete id reply).pending
      settled := (front.complete id reply).settled } := by
  unfold complete
  split
  · rfl
  · rfl

namespace Traffic

def old (s : Traffic engine ω) : List (Duty engine) :=
  s.retired.map Live.duty

theorem deliver_frame (s : Traffic engine ω) (generation : Generation) (line : String) :
    ∃ live retired,
      s.deliver generation line = { s with front := { s.front with live }, retired } ∧
      live.duty = s.front.live.duty ∧ retired.map Live.duty = s.old := by
  refine ⟨_, _, rfl, s.front.live.duty_deliver generation line, ?_⟩
  rw [old, List.map_map]
  exact List.map_congr_left fun thread _ => thread.duty_deliver generation line

theorem old_abort (s : Traffic engine ω) : s.abort.old = s.old ++ [s.front.live.duty] := by
  unfold old abort
  rw [List.map_append]
  rfl

theorem ask_frame (s : Traffic engine ω) (generation : Generation) :
    ∃ terminal live retired,
      s.ask generation =
        { s with front := { s.front with terminal, live }, retired } ∧
      live.duty = s.front.live.duty ∧ retired.map Live.duty = s.old := by
  unfold ask
  rcases s.front.terminal.requestLine generation with ⟨line, terminal⟩
  cases line with
  | some line =>
    obtain ⟨live, retired, same, duty, old⟩ :=
      deliver_frame { s with front := { s.front with terminal } } generation line
    exact ⟨terminal, live, retired, same, duty, old⟩
  | none => exact ⟨terminal, s.front.live, s.retired, rfl, rfl, rfl⟩

theorem act_frame (s : Traffic engine ω) (generation : Generation) (message : HostMessage) :
    ∃ terminal live retired pending settled,
      s.act generation message =
        { s with front := { s.front with terminal, live, pending, settled }, retired } ∧
      live.duty = s.front.live.duty ∧ retired.map Live.duty = s.old := by
  cases message with
  | write text => exact ⟨_, _, _, _, _, rfl, rfl, rfl⟩
  | readLine =>
    obtain ⟨terminal, live, retired, same, duty, old⟩ := s.ask_frame generation
    exact ⟨terminal, live, retired, _, _, same, duty, old⟩
  | runAsync id result =>
    have settled := s.front.complete_frame id (.ofResult result)
    exact ⟨s.front.terminal, s.front.live, s.retired, _, _,
      congrArg (fun front => { s with front }) settled, rfl, rfl⟩

end Traffic

end Session

end Buildbox
