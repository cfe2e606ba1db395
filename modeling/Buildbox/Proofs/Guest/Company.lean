import Buildbox.Proofs.Filesystem.Loan
import Buildbox.Proofs.Guest.Record

/-!
Guests that share one filesystem. They come and go, are instantiated, run and called again in any
order, and calls are forwarded in between. The filesystem is held by the guest that took it last, as
long as that one is there, and nobody's memory is lent to it but while a call is forwarded.
-/

set_option autoImplicit false

namespace Buildbox

namespace Guest

variable {engine : Engine}

def Deed.Takes (deed : Deed engine) : Prop :=
  deed.Starts ∨
    ∃ name outcome, deed.operation = .callAgain name ∧ deed.answer = .calledAgain (.ok outcome)

section Deeds

variable {fs : Filesystem engine}

def Keeps (before : Filesystem engine) (trace : Trace) (after : Filesystem engine) : Prop :=
  before.desk.Keeps trace after.desk

private theorem stretch_keeps : Service.Stretch (@Keeps engine) where
  refl fs := Filesystem.stretch_keeps.refl fs.desk
  trans := Filesystem.stretch_keeps.trans

private theorem keeps_serveBindings (self : Identity) (bindings : List Binding) (callee : Nat)
    (arguments : List Value) :
    Service.Within (@Keeps engine) (serveBindings self bindings callee arguments) :=
  within_serveBindings stretch_keeps self (fun _ _ _ _ => ⟨rfl, fun unlent => unlent⟩)
    (fun _ _ _ _ _ _ _ run => Filesystem.keeps_of_forward run) bindings callee arguments

/-- When a call of a guest to its host comes and when it is answered, the filesystem is with this
holder and no memory is lent. -/
structure Guarded (holder : Option GuestId) (call : HostCall (Filesystem engine)) : Prop where
  holder_found : call.found.2.wiredGuest = holder
  found : call.found.2.desk.window = none
  holder_left : call.left.2.wiredGuest = holder
  left : call.left.2.desk.window = none

theorem guarded_of_records {self : Identity} {bindings : List Binding}
    {act : Activity engine.Instance} {calls : List (HostCall (Filesystem engine))}
    {ended : Activity.End engine.Instance (Filesystem engine)} (unlent : fs.desk.window = none)
    (records : Activity.Records engine (serveBindings self bindings) act fs calls ended) :
    ∀ call ∈ calls, Guarded fs.wiredGuest call := by
  intro call among
  obtain ⟨-, ⟨_, finds⟩, _, leaves⟩ :=
    records.each stretch_keeps (keeps_serveBindings self bindings) call among
  exact ⟨Filesystem.wiredGuest_congr finds.wired, finds.unlent unlent,
    Filesystem.wiredGuest_congr leaves.wired, leaves.unlent unlent⟩

theorem keeps_of_drive {self : Identity} {bindings : List Binding}
    {act : Activity engine.Instance} {trace : Trace}
    {ended : Activity.End engine.Instance (Filesystem engine)}
    (run : Host.Runs (act.drive engine (serveBindings self bindings) fs) trace ended) :
    Keeps fs trace ended.host := by
  obtain ⟨calls, records, rfl⟩ := Activity.runs_drive.mp run
  exact records.closure stretch_keeps (keeps_serveBindings self bindings)

theorem Invoked.keeps {guest after : Guest engine} {left : Filesystem engine}
    {state : engine.Instance} {bindings : List Binding} {type : FunctionType} {name : String}
    {mode : RunMode} {trace : Trace} {outcome : Outcome}
    (invoked : Invoked guest fs state bindings type name mode trace outcome after left) :
    ∃ said, Keeps fs said left := by
  cases invoked with
  | settled entered flushing =>
    have flushed := Filesystem.Desk.keeps_of_flushOf flushing
    cases entered with
    | mismatched checked => exact ⟨_, flushed⟩
    | called checked ran => exact ⟨_, Filesystem.stretch_keeps.trans (keeps_of_drive ran) flushed⟩

theorem Deed.Done.holder {deed : Deed engine} (done : deed.Done) :
    (deed.found.desk.window = none → deed.left.desk.window = none) ∧
      (deed.Takes ∧ deed.left.wiredGuest = some deed.before.id ∨
        ¬ deed.Takes ∧ deed.left.wiredGuest = deed.found.wiredGuest) := by
  have kept {said : Trace} (keeps : Keeps deed.found said deed.left) (no_taking : ¬ deed.Takes) :
      (deed.found.desk.window = none → deed.left.desk.window = none) ∧
        (deed.Takes ∧ deed.left.wiredGuest = some deed.before.id ∨
          ¬ deed.Takes ∧ deed.left.wiredGuest = deed.found.wiredGuest) :=
    ⟨keeps.unlent, .inr ⟨no_taking, Filesystem.wiredGuest_congr keeps.wired⟩⟩
  obtain ⟨operation, before, found, trace, answer, after, left⟩ := deed
  have comes : Comes before found operation trace answer after left := done.comes
  cases comes with
  | unlinked =>
    refine kept (stretch_keeps.refl _) ?_
    rintro (⟨-, other⟩ | ⟨_, _, other, -⟩) <;> cases other
  | unstarted fresh ran =>
    refine kept (keeps_of_drive ran) ?_
    rintro (⟨-, other⟩ | ⟨_, _, other, -⟩) <;> cases other
  | unready not_ready | revoked =>
    refine kept (stretch_keeps.refl _) ?_
    rintro (⟨other, -⟩ | ⟨_, _, other, -⟩) <;> cases other
  | refused =>
    refine kept (stretch_keeps.refl _) ?_
    rintro (⟨other, -⟩ | ⟨_, _, -, other⟩) <;> cases other
  | ran ready invoked =>
    obtain ⟨said, keeps⟩ := invoked.keeps
    refine kept keeps ?_
    rintro (⟨other, -⟩ | ⟨_, _, other, -⟩) <;> cases other
  | started fresh entry ran taking =>
    obtain ⟨wired, window⟩ := Filesystem.Desk.taken_of_wire taking
    refine ⟨fun unlent => window.trans ((keeps_of_drive ran).unlent unlent), .inl ⟨?_, ?_⟩⟩
    · exact .inl ⟨rfl, rfl⟩
    · exact Filesystem.wiredGuest_of_wired wired
  | calledAgain finished allowed taking invoked =>
    obtain ⟨wired, window⟩ := Filesystem.Desk.taken_of_wire taking
    obtain ⟨said, keeps⟩ := invoked.keeps
    refine ⟨fun unlent => keeps.unlent (window.trans unlent), .inl ⟨?_, ?_⟩⟩
    · exact .inr ⟨_, _, rfl, rfl⟩
    · exact Filesystem.wiredGuest_of_wired (keeps.wired.trans wired)

end Deeds

end Guest

/-- Guests with the filesystem that they share; those that come get fresh identities. -/
structure Company (engine : Engine) where
  filesystem : Filesystem engine
  guests : List (Guest engine) := []
  nextGuest : GuestId

namespace Company

variable {engine : Engine}

/-- What happens in a company. -/
inductive Event
  | came (guest : GuestId)
  | did (guest : GuestId) (operation : Guest.Operation) (answer : Guest.Answer)
  | dropped (guest : GuestId)
  | forwarded (guest : GuestId) (name : String)
  | flushed (guest : GuestId)
  /-- the host used the filesystem on its own behalf -/
  | hosted

inductive Event.Takes (guest : GuestId) : Event → Prop
  | instantiated : Takes guest (.did guest .instantiate (.instantiated (.ok ())))
  | calledAgain {name : String} {outcome : Outcome} :
      Takes guest (.did guest (.callAgain name) (.calledAgain (.ok outcome)))

inductive Step : Company engine → Event → Company engine → Prop
  | come {c : Company engine} (program : String) (arguments : List String)
      (module : engine.Module) (writesStdout : Bool) :
      Step c (.came c.nextGuest) { c with
        guests := c.guests ++ [{ id := c.nextGuest, program, arguments, module, writesStdout }]
        nextGuest := c.nextGuest + 1 }
  | deed {c : Company engine} {deed : Guest.Deed engine} {before after : List (Guest engine)}
      (there : c.guests = before ++ deed.before :: after) (found : deed.found = c.filesystem)
      (done : deed.Done) :
      Step c (.did deed.before.id deed.operation deed.answer)
        { c with filesystem := deed.left, guests := before ++ deed.after :: after }
  | drop {c : Company engine} {guest : Guest engine} {before after : List (Guest engine)}
      {trace : Trace} {left : Filesystem engine} (there : c.guests = before ++ guest :: after)
      (ran : Host.Runs (guest.drop c.filesystem) trace left) :
      Step c (.dropped guest.id) { c with filesystem := left, guests := before ++ after }
  | forward {c : Company engine} {guest : GuestId} {name : String} {memory : Memory}
      {arguments : List Value} {results : Nat} {trace : Trace}
      {reached : Except Signal (List Value) × Memory × Filesystem engine}
      (ran : Host.Runs (c.filesystem.forward guest name memory arguments results) trace reached) :
      Step c (.forwarded guest name) { c with filesystem := reached.2.2 }
  | flush {c : Company engine} {guest : GuestId} {trace : Trace} {left : Filesystem engine}
      (ran : Host.Runs (c.filesystem.flushOf guest) trace left) :
      Step c (.flushed guest) { c with filesystem := left }
  | call {c : Company engine} {name : String} {arguments : List Value}
      {result : Except Failure UInt32} {trace : Trace} {left : Filesystem engine}
      (ran : Host.Does (Filesystem.call name arguments) c.filesystem trace result left) :
      Step c .hosted { c with filesystem := left }
  | access {c : Company engine} {α : Type} {access : Memory.Access α} {result : Except Failure α}
      {trace : Trace} {left : Filesystem engine}
      (ran : Host.Does (Filesystem.onMemory access) c.filesystem trace result left) :
      Step c .hosted { c with filesystem := left }
  | listen {c : Company engine} (on : Bool) :
      Step c .hosted { c with filesystem := c.filesystem.listen on }

/-- What happens from one moment on, up to another one. -/
inductive Run (first : Company engine) : List Event → Company engine → Prop
  | here : Run first [] first
  | step {events : List Event} {event : Event} {c d : Company engine} (earlier : Run first events c)
      (step : Step c event d) : Run first (events ++ [event]) d

def Holds (events : List Event) (guest : GuestId) : Prop :=
  ∃ early taking late, events = early ++ taking :: late ∧ taking.Takes guest ∧
    ∀ event ∈ late, (∀ other, ¬ event.Takes other) ∧ event ≠ .dropped guest

theorem holds_append {events : List Event} {event : Event} {guest : GuestId} :
    Holds (events ++ [event]) guest ↔
      event.Takes guest ∨
        Holds events guest ∧ (∀ other, ¬ event.Takes other) ∧ event ≠ .dropped guest := by
  constructor
  · rintro ⟨early, taking, late, split, takes, since⟩
    rcases List.eq_nil_or_concat late with rfl | ⟨rest, last, rfl⟩
    · obtain ⟨-, same⟩ := List.append_inj' split rfl
      cases same
      exact .inl takes
    · rw [List.concat_eq_append, ← List.cons_append, ← List.append_assoc] at split
      obtain ⟨rfl, same⟩ := List.append_inj' split rfl
      cases same
      rw [List.concat_eq_append] at since
      refine .inr ⟨⟨early, taking, rest, rfl, takes, fun earlier among => ?_⟩, ?_⟩
      · exact since earlier (List.mem_append_left _ among)
      · exact since event (List.mem_append_right _ (List.mem_singleton_self _))
  · rintro (takes | ⟨⟨early, taking, late, rfl, takes, since⟩, apart⟩)
    · exact ⟨events, event, [], rfl, takes, fun _ => nofun⟩
    · refine ⟨early, taking, late ++ [event], by simp, takes, fun other among => ?_⟩
      rcases List.mem_append.mp among with earlier | last
      · exact since other earlier
      · rw [List.mem_singleton.mp last]
        exact apart

inductive Passes (event : Event) : Option GuestId → Option GuestId → Prop
  | taken {guest : GuestId} {before : Option GuestId} (takes : event.Takes guest) :
      Passes event before (some guest)
  | left {guest : GuestId} (dropped : event = .dropped guest) : Passes event (some guest) none
  | kept {holder : Option GuestId} (no_taking : ∀ other, ¬ event.Takes other)
      (still_there : ∀ guest, holder = some guest → event ≠ .dropped guest) :
      Passes event holder holder

theorem Passes.holder_iff {event : Event} {before after : Option GuestId}
    (passes : Passes event before after) (guest : GuestId) :
    after = some guest ↔ event.Takes guest ∨
      before = some guest ∧ (∀ other, ¬ event.Takes other) ∧ event ≠ .dropped guest := by
  cases passes with
  | @taken taker before takes =>
    constructor
    · intro same
      cases same
      exact .inl takes
    · rintro (again | ⟨-, no_taking, -⟩)
      · cases takes <;> cases again <;> rfl
      · exact absurd takes (no_taking taker)
  | @left holder dropped =>
    subst dropped
    constructor
    · exact nofun
    · rintro (takes | ⟨same, -, apart⟩)
      · cases takes
      · cases same
        exact absurd rfl apart
  | kept no_taking still_there =>
    constructor
    · exact fun same => .inr ⟨same, no_taking, still_there guest same⟩
    · rintro (takes | ⟨same, -, -⟩)
      · exact absurd takes (no_taking guest)
      · exact same

private theorem passes_of_keeps {event : Event} {fs left : Filesystem engine} {trace : Trace}
    (keeps : fs.desk.Keeps trace left.desk)
    (no_taking : ∀ other, ¬ event.Takes other)
    (no_drop : ∀ guest, event ≠ .dropped guest) :
    Passes event fs.wiredGuest left.wiredGuest ∧
      (fs.desk.window = none → left.desk.window = none) := by
  rw [Filesystem.wiredGuest_congr keeps.wired]
  exact ⟨.kept no_taking fun guest _ => no_drop guest, keeps.unlent⟩

private theorem Event.Takes.own {guest other : GuestId} {operation : Guest.Operation}
    {answer : Guest.Answer} (takes : Event.Takes other (.did guest operation answer)) :
    other = guest := by
  cases takes with
  | instantiated => rfl
  | calledAgain => rfl

private theorem takes_iff {deed : Guest.Deed engine} :
    deed.Takes ↔ Event.Takes deed.before.id (.did deed.before.id deed.operation deed.answer) := by
  constructor
  · rintro (⟨operation, answer⟩ | ⟨name, outcome, operation, answer⟩)
    · rw [operation, answer]
      exact .instantiated
    · rw [operation, answer]
      exact .calledAgain
  · intro takes
    rcases deed with ⟨operation, before, found, trace, answer, after, left⟩
    cases takes with
    | instantiated => exact .inl ⟨rfl, rfl⟩
    | calledAgain => exact .inr ⟨_, _, rfl, rfl⟩

private theorem Step.passes {c d : Company engine} {event : Event} (step : Step c event d) :
    Passes event c.filesystem.wiredGuest d.filesystem.wiredGuest ∧
      (c.filesystem.desk.window = none → d.filesystem.desk.window = none) := by
  cases step with
  | come program arguments module writesStdout =>
    exact passes_of_keeps (Filesystem.stretch_keeps.refl c.filesystem.desk) nofun nofun
  | @deed deed before after there found done =>
    obtain ⟨unlent, passing⟩ := done.holder
    rw [← found]
    refine ⟨?_, unlent⟩
    rcases passing with ⟨takes, holder⟩ | ⟨no_taking, holder⟩
    · show Passes _ _ deed.left.wiredGuest
      rw [holder]
      exact .taken (takes_iff.mp takes)
    · show Passes _ _ deed.left.wiredGuest
      rw [holder]
      refine .kept (fun other takes => ?_) fun _ _ => nofun
      exact no_taking (takes_iff.mpr (takes.own ▸ takes))
  | @drop guest before after trace left there ran =>
    have ran : Host.Runs (c.filesystem.onDesk (·.unwire guest.id)) trace left := ran
    obtain ⟨desk, unwiring, rfl⟩ := Filesystem.runs_onDesk ran
    rcases Filesystem.Desk.runs_unwire unwiring with ⟨holds, rfl, -⟩ | ⟨other, rfl, -⟩
    · rw [Filesystem.wiredGuest_eq_iff.mpr holds]
      exact ⟨.left rfl, fun unlent => unlent⟩
    · refine ⟨.kept nofun fun holder held same => ?_, fun unlent => unlent⟩
      cases same
      rw [Filesystem.wiredGuest_eq_iff.mp held] at other
      cases other
  | forward ran => exact passes_of_keeps (Filesystem.keeps_of_forward ran) nofun nofun
  | flush ran =>
    obtain ⟨desk, flushing, rfl⟩ := Filesystem.runs_onDesk ran
    exact passes_of_keeps (Filesystem.Desk.keeps_of_flushOf flushing) nofun nofun
  | call ran =>
    obtain ⟨calls, ended, records, -, rfl⟩ := Filesystem.calls_of_call ran
    exact passes_of_keeps (Filesystem.keeps_of_records records) nofun nofun
  | @access _ _ _ _ left ran =>
    have keeps : c.filesystem.desk.Keeps [] left.desk := by
      rw [Filesystem.kept_of_onMemory ran]
      exact Filesystem.stretch_keeps.refl _
    exact passes_of_keeps keeps nofun nofun
  | listen on =>
    have keeps : c.filesystem.desk.Keeps [] (c.filesystem.listen on).desk := ⟨rfl, id⟩
    exact passes_of_keeps keeps nofun nofun

def ids (c : Company engine) : List GuestId :=
  c.guests.map Guest.id

/-- The guests that are there have identities of their own, the holder is among them, and those that
were dropped are not. -/
structure Roster (events : List Event) (c : Company engine) : Prop where
  distinct : c.ids.Nodup
  known : ∀ guest ∈ c.ids, guest < c.nextGuest
  holder : ∀ guest, c.filesystem.wiredGuest = some guest → guest ∈ c.ids
  gone : ∀ guest, .dropped guest ∈ events → guest < c.nextGuest ∧ guest ∉ c.ids

namespace Roster

variable {events : List Event} {event : Event} {c d : Company engine}

private theorem keep (roster : Roster events c) (ids : d.ids = c.ids)
    (next : d.nextGuest = c.nextGuest)
    (passes : Passes event c.filesystem.wiredGuest d.filesystem.wiredGuest)
    (taker : ∀ guest, event.Takes guest → guest ∈ c.ids)
    (no_drop : ∀ guest, event ≠ .dropped guest) : Roster (events ++ [event]) d := by
  refine ⟨ids ▸ roster.distinct, ?_, fun guest held => ?_, fun guest among => ?_⟩
  · rw [ids, next]
    exact roster.known
  · rw [ids]
    rcases (passes.holder_iff guest).mp held with takes | ⟨still, -, -⟩
    · exact taker guest takes
    · exact roster.holder guest still
  · rw [ids, next]
    rcases List.mem_append.mp among with earlier | last
    · exact roster.gone guest earlier
    · exact absurd (List.mem_singleton.mp last).symm (no_drop guest)

private theorem come (roster : Roster events c) {id : GuestId} (fresh : id = c.nextGuest)
    (ids : d.ids = c.ids ++ [id]) (next : d.nextGuest = c.nextGuest + 1)
    (same : d.filesystem = c.filesystem) : Roster (events ++ [.came id]) d := by
  subst fresh
  have unknown : c.nextGuest ∉ c.ids := fun known => Nat.lt_irrefl _ (roster.known _ known)
  refine ⟨?_, fun guest among => ?_, fun guest held => ?_, fun guest dropped => ?_⟩
  · rw [ids, List.nodup_append]
    refine ⟨roster.distinct, by simp, fun guest known other last equal => unknown ?_⟩
    rw [← List.mem_singleton.mp last, ← equal]
    exact known
  · rw [ids] at among
    rw [next]
    rcases List.mem_append.mp among with known | new
    · exact Nat.lt_succ_of_lt (roster.known guest known)
    · exact Nat.lt_succ_of_le (Nat.le_of_eq (List.mem_singleton.mp new))
  · rw [ids]
    exact List.mem_append_left _ (roster.holder guest (same ▸ held))
  · obtain ⟨below, missing⟩ := roster.gone guest (by simpa using dropped)
    rw [ids, next]
    refine ⟨Nat.lt_succ_of_lt below, fun among => ?_⟩
    rcases List.mem_append.mp among with known | new
    · exact missing known
    · exact Nat.ne_of_lt below (List.mem_singleton.mp new)

private theorem drop (roster : Roster events c) {guest : GuestId} {before after : List GuestId}
    (there : c.ids = before ++ guest :: after) (ids : d.ids = before ++ after)
    (next : d.nextGuest = c.nextGuest)
    (passes : Passes (.dropped guest) c.filesystem.wiredGuest d.filesystem.wiredGuest) :
    Roster (events ++ [.dropped guest]) d := by
  have distinct := roster.distinct
  have known := roster.known
  rw [there, List.perm_middle.nodup_iff, List.nodup_cons] at distinct
  have rest {other : GuestId} (among : other ∈ before ++ after) : other ∈ c.ids := by
    rw [there]
    exact List.perm_middle.mem_iff.mpr (List.mem_cons_of_mem _ among)
  refine ⟨ids ▸ distinct.2, fun other among => ?_, fun other held => ?_, fun other dropped => ?_⟩
  · rw [next]
    exact known other (rest (ids ▸ among))
  · rcases (passes.holder_iff other).mp held with takes | ⟨still, -, apart⟩
    · cases takes
    · have among := roster.holder other still
      rw [there, List.perm_middle.mem_iff, List.mem_cons] at among
      rw [ids]
      exact among.resolve_left fun same => apart (congrArg _ same.symm)
  · rw [ids, next]
    rcases List.mem_append.mp dropped with earlier | last
    · obtain ⟨below, missing⟩ := roster.gone other earlier
      exact ⟨below, fun among => missing (rest among)⟩
    · cases List.mem_singleton.mp last
      refine ⟨known guest ?_, distinct.1⟩
      rw [there]
      exact List.mem_append_right _ List.mem_cons_self

theorem step (roster : Roster events c) (step : Step c event d) :
    Roster (events ++ [event]) d := by
  have passes := step.passes.1
  cases step with
  | come program arguments module writesStdout =>
    exact roster.come rfl (by simp [ids]) rfl rfl
  | @deed deed before after there found done =>
    have same : deed.after.id = deed.before.id := by rw [done.same]
    refine roster.keep (by simp [ids, there, same]) rfl passes (fun guest takes => ?_) nofun
    rw [takes.own, ids, there]
    simp
  | @drop guest before after trace left there ran =>
    have there_ids : c.ids = before.map Guest.id ++ guest.id :: after.map Guest.id := by
      simp [ids, there]
    exact roster.drop there_ids (by simp [ids]) rfl passes
  | forward ran => exact roster.keep rfl rfl passes nofun nofun
  | flush ran => exact roster.keep rfl rfl passes nofun nofun
  | call ran => exact roster.keep rfl rfl passes nofun nofun
  | access ran => exact roster.keep rfl rfl passes nofun nofun
  | listen on => exact roster.keep rfl rfl passes nofun nofun

end Roster

/-- What holds of the filesystem and of guests at any time. -/
structure Rules (engine : Engine) : Prop where
  refused : ∀ (fs : Filesystem engine) (guest : GuestId) (name : String) (memory : Memory)
    (arguments : List Value) (results : Nat) (trace : Trace)
    (reached : Except Signal (List Value) × Memory × Filesystem engine),
    Host.Runs (fs.forward guest name memory arguments results) trace reached →
      ∃ closed rest, trace = ⟨.isClosed, closed⟩ :: rest ∧
        ∀ signal, fs.refusal closed guest name = some signal →
          rest = [] ∧ reached = (.error signal, memory, fs)
  /-- a memory that is lent for a call is given back by its end -/
  returned : ∀ (fs : Filesystem engine) (guest : GuestId) (name : String) (memory : Memory)
    (arguments : List Value) (results : Nat) (trace : Trace)
    (reached : Except Signal (List Value) × Memory × Filesystem engine), fs.desk.window = none →
    Host.Runs (fs.forward guest name memory arguments results) trace reached →
      reached.2.2.desk.window = none
  /-- who is called again has the filesystem before its call begins -/
  again : ∀ (deed : Guest.Deed engine) (name : String) (outcome : Outcome), deed.Done →
    deed.operation = .callAgain name → deed.answer = .calledAgain (.ok outcome) →
    ∃ state bindings type wiring said desk, deed.trace = wiring ++ said ∧
      Host.Runs (deed.found.desk.wire deed.before.id deed.before.writesStdout) wiring desk ∧
      ({ deed.found with desk } : Filesystem engine).wiredGuest = some deed.before.id ∧
      Guest.Invoked deed.before { deed.found with desk } state bindings type name .standard said
        outcome deed.after deed.left
  /-- while a guest calls its host, the holder stays -/
  guarded : ∀ (self : Identity) (bindings : List Binding) (act : Activity engine.Instance)
    (found : Filesystem engine) (calls : List (HostCall (Filesystem engine)))
    (ended : Activity.End engine.Instance (Filesystem engine)), found.desk.window = none →
    Activity.Records engine (serveBindings self bindings) act found calls ended →
      ∀ call ∈ calls, Guest.Guarded found.wiredGuest call

/-- What holds of a company after these events. -/
structure Lawful (events : List Event) (c : Company engine) : Prop where
  holder : ∀ guest, c.filesystem.wiredGuest = some guest ↔ Holds events guest
  gone : ∀ guest, .dropped guest ∈ events → c.filesystem.wiredGuest ≠ some guest
  /-- to drop anyone but the holder does nothing -/
  others : ∀ (guest : Guest engine) (trace : Trace) (left : Filesystem engine),
    c.filesystem.wiredGuest ≠ some guest.id → Host.Runs (guest.drop c.filesystem) trace left →
      trace = [] ∧ left = c.filesystem
  unlent : c.filesystem.desk.window = none
  /-- what the module does on the host's behalf, it does without anybody's memory -/
  unaided : ∀ (name : String) (arguments : List Value) (result : Except Failure UInt32)
    (trace : Trace) (left : Filesystem engine),
    Host.Does (Filesystem.call name arguments) c.filesystem trace result left →
      c.filesystem.CallsUnaided name arguments trace

theorem Run.holder {first c : Company engine} {events : List Event} (run : Run first events c)
    (nobody : first.filesystem.wiredGuest = none) (guest : GuestId) :
    c.filesystem.wiredGuest = some guest ↔ Holds events guest := by
  induction run with
  | here =>
    rw [nobody]
    constructor
    · exact nofun
    · rintro ⟨_, _, _, split, -, -⟩
      simp at split
  | step earlier step ih => rw [step.passes.1.holder_iff, holds_append, ih]

theorem Run.unlent {first c : Company engine} {events : List Event} (run : Run first events c)
    (unlent : first.filesystem.desk.window = none) : c.filesystem.desk.window = none := by
  induction run with
  | here => exact unlent
  | step earlier step ih => exact step.passes.2 ih

theorem Run.roster {first c : Company engine} {events : List Event} (run : Run first events c)
    (roster : Roster [] first) : Roster events c := by
  induction run with
  | here => exact roster
  | step earlier step ih => exact ih.step step

private theorem taken_before_call {deed : Guest.Deed engine} {name : String} {outcome : Outcome}
    (done : deed.Done) (operation : deed.operation = .callAgain name)
    (answer : deed.answer = .calledAgain (.ok outcome)) :
    ∃ state bindings type wiring said desk, deed.trace = wiring ++ said ∧
      Host.Runs (deed.found.desk.wire deed.before.id deed.before.writesStdout) wiring desk ∧
      ({ deed.found with desk } : Filesystem engine).wiredGuest = some deed.before.id ∧
      Guest.Invoked deed.before { deed.found with desk } state bindings type name .standard said
        outcome deed.after deed.left := by
  obtain ⟨given, before, found, trace, reply, after, left⟩ := deed
  cases operation
  cases answer
  cases done.comes with
  | calledAgain finished allowed taking invoked =>
    have wired := (Filesystem.Desk.taken_of_wire taking).1
    exact ⟨_, _, _, _, _, _, rfl, taking, Filesystem.wiredGuest_of_wired wired, invoked⟩

theorem rules (engine : Engine) : Rules engine where
  refused _ _ _ _ _ _ _ _ run := Filesystem.refused_of_forward run
  returned _ _ _ _ _ _ _ _ unlent run := (Filesystem.keeps_of_forward run).unlent unlent
  again _ _ _ done operation answer := taken_before_call done operation answer
  guarded _ _ _ _ _ _ unlent records := Guest.guarded_of_records unlent records

/-- A filesystem that was brought up and is shared by guests which come, are instantiated, run,
called again and dropped in any order is held by the one that took it last, if that is still there.
A call that may not be forwarded changes nothing. No memory is lent but in forwarded calls. -/
theorem Run.held_by_last_taker {module : engine.Module} {bringing : Trace} {fs : Filesystem engine}
    {first : GuestId} {events : List Event} {c : Company engine}
    (up : Host.Runs (Filesystem.new engine module).run bringing (.ok fs))
    (run : Run ⟨fs, [], first⟩ events c) :
    Filesystem.BroughtUp module bringing ∧ Rules engine ∧ Lawful events c := by
  obtain ⟨unwired, unlent_first, brought_up⟩ := Filesystem.unaided_of_new up
  have nobody : fs.wiredGuest = none := by
    rw [Filesystem.wiredGuest, unwired]
    rfl
  have empty : Roster [] (⟨fs, [], first⟩ : Company engine) := by
    refine ⟨List.nodup_nil, List.forall_mem_nil _, fun guest held => ?_, fun _ among => ?_⟩
    · cases nobody.symm.trans held
    · cases among
  have roster := run.roster empty
  have unlent := run.unlent unlent_first
  refine ⟨brought_up, rules engine, run.holder nobody, fun guest dropped held => ?_,
    fun guest trace left other ran => ?_, unlent,
    fun _ _ _ _ _ ran => Filesystem.unaided_of_call unlent ran⟩
  · exact (roster.gone guest dropped).2 (roster.holder guest held)
  · have ran : Host.Runs (c.filesystem.onDesk (·.unwire guest.id)) trace left := ran
    obtain ⟨desk, unwiring, rfl⟩ := Filesystem.runs_onDesk ran
    rw [Ne, Filesystem.wiredGuest_eq_iff] at other
    rw [Filesystem.Desk.unwire, if_neg other] at unwiring
    obtain ⟨rfl, rfl⟩ := Host.runs_pure.mp unwiring
    exact ⟨rfl, rfl⟩

def idleFilesystem : ScriptedModule where
  scripts := Filesystem.required.map fun (name, type) => { name, type }
  memory := .ofBytes []

private def idler (id : GuestId) : Guest Engine.scripted :=
  { Guest.newcomer Guest.idleModule with id, phase := .instantiated Guest.idleModule [] }

private def idleHeldBy (guest : Option GuestId) : Filesystem Engine.scripted :=
  ⟨idleFilesystem, idleFilesystem, { wired := guest.map (⟨·, true⟩) }⟩

private def idleStart (id : GuestId) (holder : Option GuestId) : Guest.Deed Engine.scripted :=
  ⟨.instantiate, { idler id with phase := .created }, idleHeldBy holder, [],
    .instantiated (.ok ()), idler id, idleHeldBy (some id)⟩

/-- Of two guests the later one takes the filesystem, and when it is dropped nobody has it, though
the other one is still there. -/
theorem Run.second_taker_dropped :
    ∃ (fs : Filesystem Engine.scripted) (before after : Company Engine.scripted)
      (events : List Event),
      Host.Runs (Filesystem.new Engine.scripted idleFilesystem).run [] (.ok fs) ∧
        Run ⟨fs, [], 1⟩ events before ∧ before.filesystem.wiredGuest = some 2 ∧
        Run ⟨fs, [], 1⟩ (events ++ [.dropped 2]) after ∧ after.ids = [1] ∧
        after.filesystem.wiredGuest = none ∧ Lawful (events ++ [.dropped 2]) after := by
  have up : Host.Runs (Filesystem.new Engine.scripted idleFilesystem).run []
      (.ok (idleHeldBy none)) := Host.runs_of_follow rfl
  have start : Run (⟨idleHeldBy none, [], 1⟩ : Company Engine.scripted) [] _ := .here
  have first := (start.step (.come "test" [] Guest.idleModule true)).step
    (@Step.deed _ _ (idleStart 1 none) [] [] rfl rfl (Host.runs_of_follow rfl))
  have second := (first.step (.come "test" [] Guest.idleModule true)).step
    (@Step.deed _ _ (idleStart 2 (some 1)) [idler 1] [] rfl rfl
      (Host.runs_of_follow (by with_unfolding_all rfl)))
  have last := second.step (@Step.drop _ _ (idler 2) [idler 1] [] [] (idleHeldBy none) rfl
    (Host.runs_of_follow (by with_unfolding_all rfl)))
  obtain ⟨-, -, lawful⟩ := last.held_by_last_taker up
  exact ⟨_, _, _, _, up, second, rfl, last, rfl, rfl, lawful⟩

end Company

end Buildbox
