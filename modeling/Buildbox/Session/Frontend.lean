import Buildbox.Session.Builder
import Buildbox.InputRegion
import Buildbox.Session.Terminal

/-!
The interactive side. It numbers requests, hands them to the live builder, shows what that writes
and answers what it asks, and settles each request once. An abort retires the builder with
everything it was doing, and starts the next generation.
-/

set_option autoImplicit false

namespace Buildbox.Session

inductive Refusal
  | rejected
  | terminated
  | disconnected
deriving Repr, DecidableEq

def Refusal.message : Refusal → String
  | .rejected => "request rejected"
  | .terminated => "worker forcefully terminated"
  | .disconnected => "worker disconnected"

abbrev Reply := Except Refusal Response

def Reply.ofResult : Option Response → Reply
  | some response => .ok response
  | none => .error .rejected

inductive Order
  | request (id : RequestId) (request : Request)
  | showTiming (on : Bool)

inductive Thread (engine : Engine)
  | idle (builder : Builder engine)
  | serving (id : RequestId) (task : Host (Option Response × Builder engine))

/-- A build thread with its inbox and its input. -/
structure Live (engine : Engine) where
  generation : Generation
  inbox : List Order
  input : InputRegion
  thread : Thread engine

/-- The interactive side; `ω` is what the rest of the host's queries are answered from. -/
structure Frontend (engine : Engine) (ω : Type) where
  config : Config
  showTiming : Bool
  nextId : RequestId := 1
  pending : List RequestId := []
  settled : List (RequestId × Reply) := []
  terminal : Terminal := {}
  live : Live engine
  outside : ω

namespace Frontend

def terminatedBanner : String :=
  "\r\n\x1b[41m##### Program forcefully terminated #####\x1b[0m\r\n"

variable {engine : Engine} {ω : Type}

def startThread (generation : Generation) (config : Config) (showTiming : Bool) : Live engine where
  generation
  inbox := [.showTiming showTiming]
  input := .new config.inputCapacity.toNat
  thread := .idle (.new config)

/-- An interactive side with its first build thread. -/
def new (config : Config) (terminal : Terminal) (outside : ω) : Frontend engine ω where
  config
  showTiming := config.showTiming
  terminal
  live := startThread 1 config config.showTiming
  outside

def complete (self : Frontend engine ω) (id : RequestId) (reply : Reply) :
    Frontend engine ω :=
  if self.pending.contains id then
    { self with
      pending := self.pending.filter (· != id)
      settled := self.settled ++ [(id, reply)] }
  else self

def deliver (self : Frontend engine ω) (generation : Generation) (line : String) :
    Frontend engine ω :=
  if generation == self.live.generation then
    { self with
      live := { self.live with input := (self.live.input.post (Bytes.ofString line)).2 } }
  else self

/-- Acts on a message of a build thread. -/
def act (self : Frontend engine ω) (generation : Generation) : HostMessage → Frontend engine ω
  | .write text => { self with terminal := self.terminal.write text }
  | .readLine =>
    let (line, terminal) := self.terminal.requestLine generation
    let self := { self with terminal }
    match line with
    | some line => self.deliver generation line
    | none => self
  | .runAsync id result => self.complete id (.ofResult result)

def dispatch (self : Frontend engine ω) (generation : Generation) (message : HostMessage) :
    Frontend engine ω :=
  if generation != self.live.generation then self else self.act generation message

/-- Answers a query of the live thread: its messages are acted on, its input is taken from its
region, and the rest comes from outside. A thread that came down is never answered. -/
def answer (others : (q : Query) → ω → Option (q.Answer × ω)) :
    (q : Query) → Frontend engine ω → Option (q.Answer × Frontend engine ω)
  | .write text, self => some ((), self.dispatch self.live.generation (.write text))
  | .isClosed, self => some (false, self)
  | .askLine, self => some (true, self.dispatch self.live.generation .readLine)
  | .takeLine, self =>
    match self.live.input.take with
    | .blocked => none
    | .closed => some (none, self)
    | .line bytes input => some (some bytes, { self with live := { self.live with input } })
  | .crash, _ => none
  | q, self => (others q self.outside).map fun (a, outside) => (a, { self with outside })

def work (others : (q : Query) → ω → Option (q.Answer × ω)) (self : Frontend engine ω)
    (id : RequestId) (task : Host (Option Response × Builder engine)) : Frontend engine ω :=
  match task.run (answer others) self with
  | .finished self (result, builder) =>
    let self := { self with live := { self.live with thread := .idle builder } }
    self.dispatch self.live.generation (.runAsync id result)
  | .waiting self query resume =>
    { self with live := { self.live with thread := .serving id (.ask query resume) } }

def serveOrders (others : (q : Query) → ω → Option (q.Answer × ω)) :
    List Order → Frontend engine ω → Frontend engine ω
  | [], self => { self with live := { self.live with inbox := [] } }
  | order :: rest, self =>
    match self.live.thread, order with
    | .serving .., _ => { self with live := { self.live with inbox := order :: rest } }
    | .idle builder, .showTiming on =>
      let thread := .idle (builder.setShowTiming on)
      serveOrders others rest { self with live := { self.live with thread } }
    | .idle builder, .request id request =>
      serveOrders others rest (self.work others id (builder.serve request))

def advance (others : (q : Query) → ω → Option (q.Answer × ω)) (self : Frontend engine ω) :
    Frontend engine ω :=
  let self := match self.live.thread with
    | .idle _ => self
    | .serving id task => self.work others id task
  serveOrders others self.live.inbox self

def send (self : Frontend engine ω) (order : Order) : Frontend engine ω :=
  { self with live := { self.live with inbox := self.live.inbox ++ [order] } }

def draw (self : Frontend engine ω) : RequestId × Frontend engine ω :=
  (self.nextId, { self with nextId := self.nextId + 1 })

/-- Opens a request and hands it to the live thread. -/
def register (self : Frontend engine ω) (id : RequestId) (request : Request) :
    Frontend engine ω :=
  { self with pending := self.pending ++ [id] }.send (.request id request)

def request (self : Frontend engine ω) (request : Request) :
    RequestId × Frontend engine ω :=
  let (id, self) := self.draw
  (id, self.register id request)

def collect (self : Frontend engine ω) (id : RequestId) : Option Reply × Frontend engine ω :=
  (self.settled.lookup id, { self with settled := self.settled.filter (·.1 != id) })

def setShowTiming (self : Frontend engine ω) (on : Bool) : Frontend engine ω :=
  { self with showTiming := on }.send (.showTiming on)

def releaseHeld (self : Frontend engine ω) (line : String) : Nat × Frontend engine ω :=
  let held := self.terminal.held
  let self := { self with terminal := { self.terminal with held := [] } }
  (held.length, held.foldl (fun self generation => self.deliver generation line) self)

def forceAbort (self : Frontend engine ω) : Frontend engine ω :=
  { self with
    pending := []
    settled := self.settled ++ self.pending.map (·, .error .terminated)
    terminal := self.terminal.write terminatedBanner
    live := startThread (self.live.generation + 1) self.config self.showTiming }

end Frontend

end Buildbox.Session
