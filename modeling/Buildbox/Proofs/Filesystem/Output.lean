import Buildbox.Proofs.Engine.Scripted
import Buildbox.Proofs.Filesystem.History
import Buildbox.Proofs.Text.Stream

/-!
The output of many guests on one filesystem. It is cut into segments where its writer flushes, gives
the filesystem up or loses it to another guest. The listener hears the segments one after another,
each read as one text, and the terminal shows those whose guest writes there.
-/

set_option autoImplicit false

namespace Buildbox.Filesystem

variable {engine : Engine}

/-- The bytes that a write puts out, if it succeeds: those of the guest's buffers. -/
def Step.written (step : Step) : Option Bytes :=
  match step.act, step.before.window with
  | .serve _ (some .hostWrite) arguments (.ok _), some window =>
    match arguments.map Value.word with
    | [_, buffers, count, _] => some (window.held (window.bufferList buffers count))
    | _ => none
  | _, _ => none

theorem written_eq {guest : GuestId} {arguments values : List Value} {before after : Desk}
    {trace : Trace} {descriptor buffers count writtenOut : UInt32} {window : Memory}
    (lent : before.window = some window)
    (words : arguments.map Value.word = [descriptor, buffers, count, writtenOut]) :
    Step.written ⟨.serve guest (some .hostWrite) arguments (.ok values), before, trace, after⟩ =
      some (window.held (window.bufferList buffers count)) := by
  simp only [Step.written, lent, words]

theorem written_eq_none {guest : GuestId} {f : HostFunction} {arguments : List Value}
    {result : Except Signal (List Value)} {before after : Desk} {trace : Trace}
    (failed : f = .hostWrite → ∃ signal, result = .error signal) :
    Step.written ⟨.serve guest (some f) arguments result, before, trace, after⟩ = none := by
  unfold Step.written
  split
  · next same _ =>
    cases same
    obtain ⟨signal, impossible⟩ := failed rfl
    cases impossible
  · rfl

structure Segment where
  guest : GuestId
  writes : List (GuestId × Bytes)

def Segment.text (segment : Segment) : String :=
  Utf8.lossy (segment.writes.map Prod.snd).flatten

def textOf : List Segment → String
  | [] => ""
  | segment :: later => segment.text ++ textOf later

theorem textOf_append (early late : List Segment) :
    textOf (early ++ late) = textOf early ++ textOf late := by
  induction early with
  | nil => simp [textOf]
  | cons segment segments ih => simp [textOf, ih, String.append_assoc]

/-- Output cut into segments: who holds the filesystem, the segments that are over, and the writes of
the one that is not. -/
structure Cut where
  holder : Option GuestId := none
  closed : List Segment := []
  opened : List (GuestId × Bytes) := []

namespace Cut

/-- Ends the segment of the holder. -/
def finish (cut : Cut) : Cut :=
  match cut.holder with
  | some guest => { cut with closed := cut.closed ++ [⟨guest, cut.opened⟩], opened := [] }
  | none => cut

def wire (cut : Cut) (guest : GuestId) : Cut :=
  if cut.holder = some guest then cut else { cut.finish with holder := some guest }

def unwire (cut : Cut) (guest : GuestId) : Cut :=
  if cut.holder = some guest then { cut.finish with holder := none } else cut

def flush (cut : Cut) (guest : GuestId) : Cut :=
  if cut.holder = some guest then cut.finish else cut

def write (cut : Cut) (guest : GuestId) : Option Bytes → Cut
  | some bytes => { cut with opened := cut.opened ++ [(guest, bytes)] }
  | none => cut

/-- A flush by the holder, a wiring of another guest and an unwiring of the holder end a segment. -/
def add (cut : Cut) (step : Step) : Cut :=
  match step.act with
  | .wire guest _ => cut.wire guest
  | .unwire guest => cut.unwire guest
  | .flush guest => cut.flush guest
  | .serve guest _ _ _ => cut.write guest step.written
  | .enter _ | .leave _ => cut

def reading (cut : Cut) : String × Utf8.Carry :=
  Utf8.Carry.empty.feed (cut.opened.map Prod.snd)

@[simp] theorem write_closed (cut : Cut) (guest : GuestId) (written : Option Bytes) :
    (cut.write guest written).closed = cut.closed := by
  cases written <;> rfl

theorem finish_of_holder {cut : Cut} {guest : GuestId} (holds : cut.holder = some guest) :
    cut.finish = { cut with closed := cut.closed ++ [⟨guest, cut.opened⟩], opened := [] } := by
  rw [finish, holds]

theorem text_opened (cut : Cut) (guest : GuestId) :
    Segment.text ⟨guest, cut.opened⟩ = cut.reading.1 ++ cut.reading.2.finish :=
  (Utf8.Carry.stream_eq_lossy _).symm

theorem reading_write (cut : Cut) (guest : GuestId) (bytes : Bytes) :
    (cut.write guest (some bytes)).reading =
      (cut.reading.1 ++ (cut.reading.2.decode bytes).1, (cut.reading.2.decode bytes).2) := by
  rw [reading, write, List.map_append, Utf8.Carry.feed_append]
  simp [reading, Utf8.Carry.feed]

end Cut

/-- The segments of steps from the first wiring on. -/
def cutOf (steps : List Step) : Cut :=
  steps.foldl Cut.add {}

/-- The desk, with what was shown so far, agrees with the segments of its output: the listener heard
`earlier` and then the segments, the terminal shows those of the guests with the flag. -/
structure Agrees (flag : GuestId → Bool) (earlier : String) (desk : Desk) (shown : String)
    (cut : Cut) : Prop where
  holder : cut.holder = desk.wired.map Wiring.guest
  routed : ∀ wiring, desk.wired = some wiring → wiring.writesStdout = flag wiring.guest
  carry : desk.carry = cut.reading.2
  heard : desk.heard = some (earlier ++ (textOf cut.closed ++ cut.reading.1))
  shown_eq : shown = textOf (cut.closed.filter fun segment => flag segment.guest) ++
    if cut.holder.any flag then cut.reading.1 else ""
  free : desk.wired = none → desk.unread = [] ∧ cut.opened = []
  mine : ∀ write ∈ cut.opened, cut.holder = some write.1
  theirs : ∀ segment ∈ cut.closed, ∀ write ∈ segment.writes, write.1 = segment.guest

namespace Agrees

variable {flag : GuestId → Bool} {earlier shown : String} {desk : Desk} {cut : Cut}

theorem start (heard : desk.heard = some earlier) (free : desk.wired = none)
    (nothing : desk.unread = []) (settled : desk.carry = .empty) :
    Agrees flag earlier desk "" {} where
  holder := by rw [free]; rfl
  routed wiring wired := by rw [free] at wired; cases wired
  carry := settled
  heard := by rw [heard]; simp [textOf, Cut.reading, Utf8.Carry.feed]
  shown_eq := by simp [textOf]
  free _ := ⟨nothing, rfl⟩
  mine _ member := by cases member
  theirs _ member := by cases member

private theorem routed_eq (agrees : Agrees flag earlier desk shown cut) {wiring : Wiring}
    (wired : desk.wired = some wiring) (text : String) :
    desk.routed text = if flag wiring.guest then text else "" := by
  rw [Desk.routed, wired, Option.any_some, agrees.routed wiring wired]

private theorem holder_eq (agrees : Agrees flag earlier desk shown cut) {wiring : Wiring}
    (wired : desk.wired = some wiring) : cut.holder = some wiring.guest := by
  rw [agrees.holder, wired]
  rfl

theorem silent (agrees : Agrees flag earlier desk shown cut) :
    Agrees flag earlier desk (shown ++ "") cut := by
  rw [String.append_empty]
  exact agrees

theorem bare (agrees : Agrees flag earlier desk shown cut) (nobody : desk.wired = none) :
    desk.unread = [] ∧ desk.carry = .empty := by
  obtain ⟨nothing, complete⟩ := agrees.free nobody
  refine ⟨nothing, ?_⟩
  rw [agrees.carry, Cut.reading, complete]
  rfl

theorem complete (agrees : Agrees flag earlier desk shown cut) (complete : cut.opened = []) :
    desk.heard = some (earlier ++ textOf cut.closed) ∧
      shown = textOf (cut.closed.filter fun segment => flag segment.guest) := by
  have settled : cut.reading.1 = "" := by
    rw [Cut.reading, complete]
    rfl
  have heard := agrees.heard
  have shown_eq := agrees.shown_eq
  rw [settled, String.append_empty] at heard
  rw [settled, ite_self, String.append_empty] at shown_eq
  exact ⟨heard, shown_eq⟩

theorem finish (agrees : Agrees flag earlier desk shown cut) {wiring : Wiring}
    (wired : desk.wired = some wiring) :
    Agrees flag earlier desk.flushed (shown ++ desk.routed desk.carry.finish) cut.finish := by
  have holds := agrees.holder_eq wired
  have text := cut.text_opened wiring.guest
  rw [Cut.finish_of_holder holds]
  refine ⟨agrees.holder, agrees.routed, rfl, ?_, ?_, ?_, ?_, ?_⟩
  · show desk.heard.map (· ++ desk.carry.finish) = _
    rw [agrees.heard, Option.map_some, agrees.carry, textOf_append]
    simp [textOf, text, Cut.reading, Utf8.Carry.feed, String.append_assoc]
  · rw [agrees.shown_eq, agrees.routed_eq wired, agrees.carry, holds, List.filter_append,
      textOf_append]
    by_cases shows : flag wiring.guest = true
    · simp [shows, textOf, text, Cut.reading, Utf8.Carry.feed, String.append_assoc]
    · simp [shows, textOf]
  · intro nobody
    rw [show desk.flushed.wired = desk.wired from rfl, wired] at nobody
    cases nobody
  · intro write member
    cases member
  · intro segment member
    rcases List.mem_append.mp member with early | last
    · exact agrees.theirs segment early
    · cases List.mem_singleton.mp last
      intro write among
      have same := agrees.mine write among
      rw [holds] at same
      exact (Option.some.inj same).symm

theorem handOver (agrees : Agrees flag earlier desk shown cut) (complete : cut.opened = [])
    (wired : Option Wiring) (unread : Bytes)
    (routed : ∀ wiring, wired = some wiring → wiring.writesStdout = flag wiring.guest)
    (free : wired = none → unread = []) :
    Agrees flag earlier { desk with wired, unread } shown
      { cut with holder := wired.map Wiring.guest } := by
  have settled : cut.reading = ("", .empty) := by
    rw [Cut.reading, complete]
    rfl
  refine ⟨rfl, routed, agrees.carry, agrees.heard, ?_, fun nobody => ⟨free nobody, complete⟩, ?_,
    agrees.theirs⟩
  · have same := agrees.shown_eq
    rw [settled, ite_self] at same
    rw [same]
    show _ = _ ++ if _ then cut.reading.1 else ""
    rw [settled, ite_self]
  · intro write member
    rw [show cut.opened = [] from complete] at member
    cases member

theorem aside (agrees : Agrees flag earlier desk shown cut) {left : Desk} {unread : Bytes}
    (same : left.shut = { desk.shut with unread }) (free : desk.wired = none → unread = []) :
    Agrees flag earlier left shown cut := by
  have wired : left.wired = desk.wired := (congrArg Desk.wired same :)
  have carry : left.carry = desk.carry := (congrArg Desk.carry same :)
  have heard : left.heard = desk.heard := (congrArg Desk.heard same :)
  have kept : left.unread = unread := (congrArg Desk.unread same :)
  refine ⟨?_, ?_, ?_, ?_, agrees.shown_eq, ?_, agrees.mine, agrees.theirs⟩
  · rw [wired]
    exact agrees.holder
  · rw [wired]
    exact agrees.routed
  · rw [carry]
    exact agrees.carry
  · rw [heard]
    exact agrees.heard
  · intro nobody
    rw [wired] at nobody
    rw [kept]
    exact ⟨free nobody, (agrees.free nobody).2⟩

theorem write (agrees : Agrees flag earlier desk shown cut) {left : Desk} {wiring : Wiring}
    {bytes : Bytes} (wired : desk.wired = some wiring)
    (written : left.shut = (desk.writing bytes).shut) :
    Agrees flag earlier left (shown ++ desk.routed (desk.settled bytes))
      (cut.write wiring.guest (some bytes)) := by
  have holds := agrees.holder_eq wired
  have reading := cut.reading_write wiring.guest bytes
  have writing : Agrees flag earlier (desk.writing bytes)
      (shown ++ desk.routed (desk.settled bytes)) (cut.write wiring.guest (some bytes)) := by
    refine ⟨agrees.holder, agrees.routed, ?_, ?_, ?_, ?_, ?_, agrees.theirs⟩
    · rw [reading, ← agrees.carry]
      rfl
    · show desk.heard.map (· ++ desk.settled bytes) = _
      rw [reading, agrees.heard, Option.map_some, Desk.settled, agrees.carry]
      simp [String.append_assoc]
    · rw [reading, agrees.shown_eq, agrees.routed_eq wired, Desk.settled, agrees.carry]
      show _ = _ ++ if cut.holder.any flag then _ else ""
      rw [holds]
      by_cases shows : flag wiring.guest = true
      · simp [shows, String.append_assoc]
      · simp [shows]
    · intro nobody
      rw [show (desk.writing bytes).wired = desk.wired from rfl, wired] at nobody
      cases nobody
    · intro write member
      rcases List.mem_append.mp member with early | last
      · exact agrees.mine write early
      · cases List.mem_singleton.mp last
        exact holds
  have same : left.shut =
      { (desk.writing bytes).shut with unread := (desk.writing bytes).unread } := written
  exact writing.aside same fun nobody => (writing.free nobody).1

end Agrees

section Steps

variable {flag : GuestId → Bool} {earlier shown : String} {cut : Cut} {act : Act}
  {before after : Desk} {trace : Trace} {guest : GuestId}

private theorem Agrees.holder_ne (agrees : Agrees flag earlier before shown cut)
    (other : before.isHeldBy guest = false) : cut.holder ≠ some guest := by
  intro holds
  rw [agrees.holder] at holds
  obtain ⟨wiring, wired, mine⟩ := Option.map_eq_some_iff.mp holds
  rw [Desk.isHeldBy_iff.mpr ⟨wiring, wired, mine⟩] at other
  cases other

private theorem agrees_wire {writesStdout : Bool} (agrees : Agrees flag earlier before shown cut)
    (flagged : writesStdout = flag guest)
    (ran : Host.Runs (before.wire guest writesStdout) trace after) :
    Agrees flag earlier after (shown ++ trace.shown) (cut.wire guest) ∧
      (before.isHeldBy guest = false → after.unread = [] ∧ after.carry = .empty) := by
  have routed : ∀ wiring, some (Wiring.mk guest writesStdout) = some wiring →
      wiring.writesStdout = flag wiring.guest := by
    rintro wiring ⟨⟩
    exact flagged
  rcases Desk.runs_wire ran with ⟨⟨wiring, wired, other⟩, rfl, shows⟩ | ⟨same, rfl, shows⟩
  · have holds := agrees.holder_eq wired
    have passes : cut.wire guest = { cut.finish with holder := some guest } := by
      rw [Cut.wire, if_neg]
      rw [holds]
      exact fun same => other (Option.some.inj same)
    rw [passes, shows.shown]
    have complete : cut.finish.opened = [] := by rw [Cut.finish_of_holder holds]
    exact ⟨(agrees.finish wired).handOver complete (some ⟨guest, writesStdout⟩) [] routed fun _ => rfl,
      fun _ => ⟨rfl, rfl⟩⟩
  · rw [shows.shown, String.append_empty]
    cases wired : before.wired with
    | none =>
      have complete := (agrees.free wired).2
      have unheld : cut.holder = none := by
        rw [agrees.holder, wired]
        rfl
      have passes : cut.wire guest = { cut with holder := some guest } := by
        rw [Cut.wire, if_neg (by simp [unheld]), Cut.finish, unheld]
      rw [passes]
      exact ⟨agrees.handOver complete (some ⟨guest, writesStdout⟩) before.unread routed
        fun _ => (agrees.bare wired).1, fun _ => agrees.bare wired⟩
    | some wiring =>
      obtain rfl := same wiring wired
      have stays : cut.wire wiring.guest = cut := by
        rw [Cut.wire, if_pos (agrees.holder_eq wired)]
      have unchanged : some (Wiring.mk wiring.guest writesStdout) = before.wired := by
        rw [wired, flagged, ← agrees.routed wiring wired]
      have held : before.isHeldBy wiring.guest = true := Desk.isHeldBy_iff.mpr ⟨wiring, wired, rfl⟩
      rw [stays, unchanged]
      refine ⟨agrees, fun other => ?_⟩
      rw [held] at other
      cases other

private theorem agrees_unwire (agrees : Agrees flag earlier before shown cut)
    (ran : Host.Runs (before.unwire guest) trace after) :
    Agrees flag earlier after (shown ++ trace.shown) (cut.unwire guest) := by
  rcases Desk.runs_unwire ran with ⟨held, rfl, shows⟩ | ⟨other, rfl, shows⟩
  · obtain ⟨wiring, wired, rfl⟩ := Desk.isHeldBy_iff.mp held
    have holds := agrees.holder_eq wired
    have complete : cut.finish.opened = [] := by rw [Cut.finish_of_holder holds]
    rw [Cut.unwire, if_pos holds, shows.shown]
    exact (agrees.finish wired).handOver complete none [] (fun _ same => by cases same) fun _ => rfl
  · rw [Cut.unwire, if_neg (agrees.holder_ne other), shows.shown, String.append_empty]
    exact agrees

private theorem agrees_flush (agrees : Agrees flag earlier before shown cut)
    (ran : Host.Runs (before.flushOf guest) trace after) :
    Agrees flag earlier after (shown ++ trace.shown) (cut.flush guest) := by
  rcases Desk.runs_flushOf ran with ⟨held, rfl, shows⟩ | ⟨other, rfl, shows⟩
  · obtain ⟨wiring, wired, rfl⟩ := Desk.isHeldBy_iff.mp held
    rw [Cut.flush, if_pos (agrees.holder_eq wired), shows.shown]
    exact agrees.finish wired
  · rw [Cut.flush, if_neg (agrees.holder_ne other), shows.shown, String.append_empty]
    exact agrees

private theorem agrees_serve {f : HostFunction} {arguments : List Value}
    {result : Except Signal (List Value)} (agrees : Agrees flag earlier before shown cut)
    (held : before.isHeldBy guest = true)
    (served : Served before trace after f (arguments.map Value.word) result) :
    Agrees flag earlier after (shown ++ trace.shown)
      (cut.write guest (Step.written ⟨.serve guest (some f) arguments result, before, trace, after⟩)) := by
  obtain ⟨wiring, wired, rfl⟩ := Desk.isHeldBy_iff.mp held
  have free : ∀ unread : Bytes, before.wired = none → unread = [] := by
    intro unread nobody
    rw [wired] at nobody
    cases nobody
  generalize words : arguments.map Value.word = w at served
  cases served with
  | idle elsewhere failed kept shows =>
    rw [written_eq_none failed, shows.shown, String.append_empty]
    exact agrees.aside kept (free _)
  | wrote lent written shows =>
    rw [written_eq lent words, shows.shown]
    exact agrees.write wired written
  | read reads =>
    rw [reads.shown, String.append_empty]
    rcases reads.ends with ⟨-, kept⟩ | ⟨_, _, _, -, -, -, -, kept, -⟩
    · exact agrees.aside kept (free _)
    · exact agrees.aside kept (free _)
  | misread same nothing =>
    rw [written_eq_none (fun impossible => by cases impossible), nothing, same]
    exact agrees.silent

private theorem agrees_step (agrees : Agrees flag earlier before shown cut)
    (taken : act.Takes before trace after)
    (flagged : ∀ guest writesStdout, act = .wire guest writesStdout → writesStdout = flag guest) :
    Agrees flag earlier after (shown ++ trace.shown) (cut.add ⟨act, before, trace, after⟩) ∧
      ∀ guest writesStdout, act = .wire guest writesStdout → before.isHeldBy guest = false →
        after.unread = [] ∧ after.carry = .empty := by
  cases act with
  | wire guest writesStdout =>
    obtain ⟨still, fresh⟩ := agrees_wire agrees (flagged guest writesStdout rfl) taken
    refine ⟨still, ?_⟩
    rintro _ _ ⟨⟩
    exact fresh
  | unwire guest => exact ⟨agrees_unwire agrees taken, fun _ _ same => by cases same⟩
  | flush guest => exact ⟨agrees_flush agrees taken, fun _ _ same => by cases same⟩
  | enter guest =>
    obtain ⟨⟨closed, asked⟩, stays⟩ := taken
    have kept : after.shut = { before.shut with unread := before.unread } := by
      rcases stays with same | ⟨_, memory, same⟩ <;> rw [same] <;> rfl
    refine ⟨?_, fun _ _ same => by cases same⟩
    rw [asked]
    exact (agrees.aside kept fun nobody => (agrees.free nobody).1).silent
  | serve guest function arguments result =>
    refine ⟨?_, fun _ _ same => by cases same⟩
    cases function with
    | none =>
      obtain ⟨_, _, nothing, same⟩ := taken
      rw [nothing, same]
      exact agrees.silent
    | some f =>
      obtain ⟨held, _, _, ran⟩ := taken
      exact agrees_serve agrees held (served_of_run ran)
  | leave guest =>
    obtain ⟨nothing, same⟩ := taken
    refine ⟨?_, fun _ _ same => by cases same⟩
    have kept : after.shut = { before.shut with unread := before.unread } := by
      rw [same]
      rfl
    rw [nothing]
    exact (agrees.aside kept fun nobody => (agrees.free nobody).1).silent

private theorem agrees_history {desk left : Desk} {steps : List Step}
    (history : History desk steps left) (agrees : Agrees flag earlier desk shown cut)
    (flagged : ∀ step ∈ steps, ∀ guest writesStdout, step.act = .wire guest writesStdout →
      writesStdout = flag guest) :
    Agrees flag earlier left (shown ++ (traceOf steps).shown) (steps.foldl Cut.add cut) ∧
      ∀ step ∈ steps,
        (∀ guest writesStdout, step.act = .wire guest writesStdout →
          step.before.isHeldBy guest = false → step.after.unread = [] ∧ step.after.carry = .empty) ∧
        (step.after.wired = none → step.after.unread = [] ∧ step.after.carry = .empty) := by
  induction history generalizing shown cut with
  | nil => exact ⟨agrees.silent, fun step member => by cases member⟩
  | @cons act before after left trace steps taken later ih =>
    obtain ⟨still, fresh⟩ := agrees_step agrees taken (flagged _ List.mem_cons_self)
    obtain ⟨at_last, all_fresh⟩ :=
      ih still fun step member => flagged step (List.mem_cons_of_mem _ member)
    rw [traceOf_cons, Trace.shown_append, ← String.append_assoc]
    refine ⟨at_last, fun step member => ?_⟩
    rcases List.mem_cons.mp member with rfl | member
    · exact ⟨fresh, still.bare⟩
    · exact all_fresh step member

end Steps

/-- The listener hears the segments of the output one after another, each read as one text, and the
terminal shows those of the guests that write there; each segment is made of writes by one guest. A
guest that takes the filesystem finds nothing of another one's input or output. -/
theorem output_heard_by_segments {fs left : Filesystem engine} {operations : List Operation}
    {trace : Trace} {flag : GuestId → Bool} {earlier : String}
    (run : Host.Runs (fs.performAll operations) trace left)
    (flagged : ∀ guest writesStdout, .wire guest writesStdout ∈ operations →
      writesStdout = flag guest)
    (listening : fs.desk.heard = some earlier) (free : fs.desk.wired = none)
    (nothing : fs.desk.unread = []) (settled : fs.desk.carry = .empty) :
    (∃ steps, RecordedAll fs operations steps left ∧ trace = traceOf steps) ∧
    ∀ steps, RecordedAll fs operations steps left → trace = traceOf steps →
      (∀ segment ∈ (cutOf steps).closed, ∀ write ∈ segment.writes, write.1 = segment.guest) ∧
      ((cutOf steps).opened = [] →
        left.desk.heard = some (earlier ++ textOf (cutOf steps).closed) ∧
        trace.shown = textOf ((cutOf steps).closed.filter fun segment => flag segment.guest)) ∧
      (∀ guest, (cutOf steps).holder = some guest →
        left.desk.heard.map (· ++ left.desk.carry.finish) =
          some (earlier ++ textOf (cutOf steps).finish.closed) ∧
        trace.shown ++ left.desk.routed left.desk.carry.finish =
          textOf ((cutOf steps).finish.closed.filter fun segment => flag segment.guest)) ∧
      ∀ step ∈ steps,
        (∀ guest writesStdout, step.act = .wire guest writesStdout →
          step.before.isHeldBy guest = false → step.after.unread = [] ∧ step.after.carry = .empty) ∧
        (step.after.wired = none → step.after.unread = [] ∧ step.after.carry = .empty) := by
  refine ⟨recordedAll_of_run run, fun steps recorded traced => ?_⟩
  have wires : ∀ step ∈ steps, ∀ guest writesStdout, step.act = .wire guest writesStdout →
      writesStdout = flag guest := by
    intro step member guest writesStdout wiring
    obtain ⟨operation, among, part_of⟩ := recorded.act_of step member
    rw [wiring] at part_of
    subst part_of
    exact flagged guest writesStdout among
  obtain ⟨agrees, fresh⟩ :=
    agrees_history recorded.history (.start listening free nothing settled) wires
  rw [String.empty_append, ← traced] at agrees
  refine ⟨agrees.theirs, agrees.complete, fun guest holds => ?_, fresh⟩
  have held : (cutOf steps).holder = left.desk.wired.map Wiring.guest := agrees.holder
  rw [holds] at held
  obtain ⟨wiring, wired, -⟩ := Option.map_eq_some_iff.mp held.symm
  exact (agrees.finish wired).complete (congrArg Cut.opened (Cut.finish_of_holder holds))

/-- A guest that writes to the terminal stops inside a character; another one, which does not, goes on
with the byte that would complete it. -/
def brokenCharacter : List Operation :=
  [.wire 1 true, .forward 1 "fd_write" (consoleMemory [0x68, 0xC3]) [] 0, .wire 2 false,
    .forward 2 "fd_write" (consoleMemory [0xA9]) [] 0, .unwire 2]

def brokenCharacterTrace : Trace :=
  [⟨.isClosed, false⟩, ⟨.isClosed, false⟩, ⟨.write "h", ()⟩, ⟨.write "\uFFFD", ()⟩,
    ⟨.isClosed, false⟩, ⟨.isClosed, false⟩]

/-- The two halves of the character are two segments, and stay two invalid parts. -/
theorem character_of_two_guests_stays_broken :
    ∃ left : Filesystem Engine.scripted,
      Host.Runs (console.performAll brokenCharacter) brokenCharacterTrace left ∧
      left.desk.heard = some "h\uFFFD\uFFFD" ∧
      ∃ steps, RecordedAll console brokenCharacter steps left ∧
        (∀ segment ∈ (cutOf steps).closed, ∀ write ∈ segment.writes, write.1 = segment.guest) ∧
        ((cutOf steps).opened = [] →
          left.desk.heard = some ("" ++ textOf (cutOf steps).closed) ∧
          brokenCharacterTrace.shown =
            textOf ((cutOf steps).closed.filter fun segment => segment.guest == 1)) := by
  have evaluated : (Host.follow brokenCharacterTrace (console.performAll brokenCharacter)).map
      (·.desk.heard) = some (some "h\uFFFD\uFFFD") := by decide +kernel
  obtain ⟨left, followed, heard⟩ := Option.map_eq_some_iff.mp evaluated
  have run := Host.runs_of_follow followed
  have flagged : ∀ guest writesStdout, .wire guest writesStdout ∈ brokenCharacter →
      writesStdout = (fun guest => guest == 1) guest := by
    simp [brokenCharacter]
  obtain ⟨⟨steps, recorded, traced⟩, laws⟩ :=
    output_heard_by_segments run flagged rfl rfl rfl rfl
  obtain ⟨theirs, complete, -, -⟩ := laws steps recorded traced
  exact ⟨left, run, heard, steps, recorded, theirs, complete⟩

end Buildbox.Filesystem
