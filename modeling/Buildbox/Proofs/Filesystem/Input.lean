import Buildbox.Proofs.Engine.Scripted
import Buildbox.Proofs.Filesystem.History

/-!
The input of one guest. However its reads fall between its other operations, what they deliver and
what is still unread are the lines that were taken, in order and whole. A read that fails keeps the
input, and a line is asked for only when nothing is left to read.
-/

set_option autoImplicit false

namespace Buildbox.Filesystem

variable {engine : Engine}

section Delivery

variable {buffers count readOut : UInt32} {part : Bytes} {lent left : Memory}

theorem Delivers.stored (delivers : Delivers buffers count readOut part lent left) :
    left.slice readOut.toNat 4 = Bytes.ofWord part.length.toUInt32 := by
  obtain ⟨filled, _, _, inside, rfl⟩ := delivers
  exact Memory.slice_splice inside

theorem Delivers.readable (delivers : Delivers buffers count readOut part lent left)
    (apart : (lent.bufferList buffers count ++ [Buffer.mk readOut 4]).Pairwise Buffer.Apart) :
    part <+: left.held (lent.bufferList buffers count) := by
  obtain ⟨filled, fills, _, inside, rfl⟩ := delivers
  obtain ⟨among, _, beside⟩ := List.pairwise_append.mp apart
  have clear : ∀ buffer ∈ lent.bufferList buffers count,
      buffer.address.toNat + buffer.length.toNat ≤ readOut.toNat ∨
        readOut.toNat + 4 ≤ buffer.address.toNat :=
    fun buffer member => beside buffer member _ List.mem_cons_self
  rw [Memory.held_splice inside clear]
  exact fills.prefix_held among

end Delivery

def Operation.KeepsInput (guest : GuestId) : Operation → Prop
  | .unwire _ => False
  | .wire other _ | .flush other | .forward other .. => other = guest

namespace Step

def isRead (step : Step) : Bool :=
  match step.act with
  | .serve _ (some .hostRead) _ (.ok _) => true
  | _ => false

/-- A read puts these bytes into the buffers of its guest, in order, and stores their number; where
the buffers and the number lie apart from each other, the bytes can be read back. -/
def Delivers (step : Step) (part : Bytes) : Prop :=
  ∃ guest arguments values descriptor buffers count readOut lent left,
    step.act = .serve guest (some .hostRead) arguments (.ok values) ∧
    arguments.map Value.word = [descriptor, buffers, count, readOut] ∧
    step.before.window = some lent ∧ step.after.window = some left ∧
    Filesystem.Delivers buffers count readOut part lent left ∧
    left.slice readOut.toNat 4 = Bytes.ofWord part.length.toUInt32 ∧
    ((lent.bufferList buffers count ++ [Buffer.mk readOut 4]).Pairwise Buffer.Apart →
      part <+: left.held (lent.bufferList buffers count))

structure Moves (step : Step) (part : Bytes) : Prop where
  conserved : step.before.unread ++ step.trace.taken.flatten = part ++ step.after.unread
  asks : step.trace.Asks → step.before.unread = []
  taken : step.trace.taken = [] ∨ step.before.unread = [] ∧ ∃ line, step.trace.taken = [line]
  delivers : if step.isRead then step.Delivers part else part = []

variable {act : Act} {before after : Desk} {trace : Trace}

private theorem moves_of_quiet {text : String} (other : isRead ⟨act, before, trace, after⟩ = false)
    (shows : trace.Shows text) (kept : after.unread = before.unread) :
    Moves ⟨act, before, trace, after⟩ [] where
  conserved := by
    rw [shows.taken]
    exact (List.append_nil _).trans kept.symm
  asks asked := absurd asked shows.asks
  taken := .inl shows.taken
  delivers := by rw [if_neg (by simp [other])]

private theorem moves_of_served {guest : GuestId} {f : HostFunction} {arguments : List Value}
    {result : Except Signal (List Value)}
    (served : Served before trace after f (arguments.map Value.word) result) :
    ∃ part, Moves ⟨.serve guest (some f) arguments result, before, trace, after⟩ part := by
  generalize words : arguments.map Value.word = w at served
  cases served with
  | idle elsewhere failed kept shows =>
    have other : isRead ⟨.serve guest (some f) arguments result, before, trace, after⟩ = false := by
      unfold isRead
      split
      · next same =>
        cases same
        exact absurd rfl elsewhere
      · rfl
    exact ⟨[], moves_of_quiet other shows (congrArg Desk.unread kept :)⟩
  | wrote lent written shows =>
    exact ⟨[], moves_of_quiet rfl shows (congrArg Desk.unread written :)⟩
  | read reads =>
    rcases reads.ends with
      ⟨⟨signal, rfl⟩, kept⟩ | ⟨window, part, put, lent, delivers, rfl, stays, kept, conserved⟩
    · have all_unread : after.unread = before.unread ++ trace.taken.flatten :=
        (congrArg Desk.unread kept :)
      exact ⟨[], all_unread.symm, reads.asks, reads.taken, rfl⟩
    · exact ⟨part, conserved, reads.asks, reads.taken, guest, arguments, success, _, _, _, _, window,
        put, rfl, words, lent, stays, delivers, delivers.stored, delivers.readable⟩
  | misread same nothing =>
    rw [same, nothing]
    exact ⟨[], moves_of_quiet rfl .nil rfl⟩

private theorem moves {operation : Operation} {guest : GuestId}
    (taken : act.Takes before trace after) (part_of : act.Of operation)
    (keeps : operation.KeepsInput guest)
    (owned : before.unread = [] ∨ before.isHeldBy guest = true) :
    (∃ part, Moves ⟨act, before, trace, after⟩ part) ∧
      (after.unread = [] ∨ after.isHeldBy guest = true) := by
  cases act with
  | wire holder writesStdout =>
    subst part_of
    obtain rfl : holder = guest := keeps
    rcases Desk.runs_wire taken with ⟨⟨wiring, wired, other⟩, rfl, shows⟩ | ⟨_, rfl, shows⟩
    · have lost : before.unread = [] := by
        rcases owned with nothing | held
        · exact nothing
        · obtain ⟨_, same, mine⟩ := Desk.isHeldBy_iff.mp held
          rw [wired] at same
          cases same
          exact absurd mine other
      exact ⟨⟨[], moves_of_quiet rfl shows lost.symm⟩, .inl rfl⟩
    · exact ⟨⟨[], moves_of_quiet rfl shows rfl⟩, .inr (beq_self_eq_true holder)⟩
  | unwire holder =>
    subst part_of
    exact keeps.elim
  | flush holder =>
    rcases Desk.runs_flushOf taken with ⟨_, rfl, shows⟩ | ⟨_, rfl, shows⟩
    · exact ⟨⟨[], moves_of_quiet rfl shows rfl⟩, owned⟩
    · exact ⟨⟨[], moves_of_quiet rfl shows rfl⟩, owned⟩
  | enter caller =>
    obtain ⟨⟨closed, asked⟩, stays⟩ := taken
    have shows : Trace.Shows "" trace := by
      rw [asked]
      exact .isClosed closed
    rcases stays with same | ⟨_, memory, same⟩
    · rw [same]
      exact ⟨⟨[], moves_of_quiet rfl shows rfl⟩, owned⟩
    · rw [same]
      exact ⟨⟨[], moves_of_quiet rfl shows rfl⟩, owned⟩
  | serve caller function arguments result =>
    obtain ⟨name, memory, given, results, rfl⟩ := part_of
    obtain rfl : caller = guest := keeps
    have same_wiring := Act.wired_of_serve taken
    cases function with
    | none =>
      obtain ⟨holds, _, nothing, same⟩ := taken
      rw [nothing, same]
      exact ⟨⟨[], moves_of_quiet rfl .nil rfl⟩, owned⟩
    | some f =>
      obtain ⟨holds, _, _, ran⟩ := taken
      refine ⟨moves_of_served (served_of_run ran), .inr ?_⟩
      rw [Desk.isHeldBy_congr same_wiring]
      exact holds
  | leave caller =>
    obtain ⟨nothing, same⟩ := taken
    rw [nothing, same]
    exact ⟨⟨[], moves_of_quiet rfl .nil rfl⟩, owned⟩

theorem Moves.length_lt {step : Step} {part : Bytes} {bound : Nat} (moves : step.Moves part)
    (short : step.before.unread.length < bound)
    (lines : ∀ line ∈ step.trace.taken, line.length < bound) :
    part.length < bound ∧ step.after.unread.length < bound := by
  have lengths := congrArg List.length moves.conserved
  rw [List.length_append, List.length_append] at lengths
  rcases moves.taken with none_taken | ⟨nothing, line, taken⟩
  · rw [none_taken, List.flatten_nil, List.length_nil] at lengths
    omega
  · have longest := lines line (by rw [taken]; exact List.mem_cons_self)
    rw [nothing, taken, List.flatten_singleton, List.length_nil] at lengths
    omega

end Step

theorem History.moves {desk left : Desk} {steps : List Step} {operations : List Operation}
    {guest : GuestId} (history : History desk steps left)
    (part_of : ∀ step ∈ steps, ∃ operation ∈ operations, step.act.Of operation)
    (alone : ∀ operation ∈ operations, operation.KeepsInput guest)
    (owned : desk.unread = [] ∨ desk.isHeldBy guest = true) :
    ∃ parts : List (Step × Bytes), parts.map Prod.fst = steps ∧
      (∀ entry ∈ parts, entry.1.Moves entry.2) ∧
      desk.unread ++ (traceOf steps).taken.flatten =
        (parts.map Prod.snd).flatten ++ left.unread ∧
      ∀ bound, desk.unread.length < bound →
        (∀ line ∈ (traceOf steps).taken, line.length < bound) →
          ∀ entry ∈ parts, entry.2.length < bound := by
  induction history with
  | nil =>
    refine ⟨[], rfl, fun entry member => ?_, List.append_nil _, fun _ _ _ entry member => ?_⟩
    · cases member
    · cases member
  | @cons act before after left trace steps taken later ih =>
    obtain ⟨operation, among, first_of⟩ := part_of _ List.mem_cons_self
    obtain ⟨⟨part, moves⟩, still_owned⟩ := Step.moves taken first_of (alone operation among) owned
    obtain ⟨parts, steps_eq, all_move, conserved, short⟩ :=
      ih (fun step member => part_of step (List.mem_cons_of_mem _ member)) still_owned
    have first := moves.conserved
    refine ⟨(⟨act, before, trace, after⟩, part) :: parts, ?_, ?_, ?_, ?_⟩
    · rw [List.map_cons, steps_eq]
    · intro entry member
      rcases List.mem_cons.mp member with rfl | member
      · exact moves
      · exact all_move entry member
    · rw [traceOf_cons, Trace.taken_append, List.flatten_append, ← List.append_assoc, first,
        List.append_assoc, conserved, List.map_cons, List.flatten_cons, List.append_assoc]
    · intro bound starts lines entry member
      rw [traceOf_cons, Trace.taken_append] at lines
      obtain ⟨part_short, goes_on⟩ := moves.length_lt starts fun line among =>
        lines line (List.mem_append_left _ among)
      rcases List.mem_cons.mp member with rfl | member
      · exact part_short
      · exact short bound goes_on (fun line among => lines line (List.mem_append_right _ among))
          entry member

/-- What the reads of a guest deliver is the input in order, whatever else the guest does in between
and however its buffers are laid out; no byte is lost and none comes twice. -/
theorem reads_deliver_input {fs left : Filesystem engine} {operations : List Operation}
    {trace : Trace} {guest : GuestId} (run : Host.Runs (fs.performAll operations) trace left)
    (alone : ∀ operation ∈ operations, operation.KeepsInput guest)
    (fresh : fs.desk.unread = []) :
    (∃ steps, RecordedAll fs operations steps left ∧ trace = traceOf steps) ∧
    ∀ steps, RecordedAll fs operations steps left → trace = traceOf steps →
      ∃ parts : List (Step × Bytes), parts.map Prod.fst = steps ∧
        (parts.map Prod.snd).flatten ++ left.desk.unread = trace.taken.flatten ∧
        (∀ entry ∈ parts,
          (entry.1.trace.Asks → entry.1.before.unread = []) ∧
          (entry.1.isRead = true → entry.1.Delivers entry.2) ∧
          (entry.1.isRead = false → entry.2 = [] ∧
            entry.1.after.unread = entry.1.before.unread ++ entry.1.trace.taken.flatten)) ∧
        ((∀ line ∈ trace.taken, line.length < UInt32.size) →
          ∀ entry ∈ parts, entry.2.length.toUInt32.toNat = entry.2.length) := by
  refine ⟨recordedAll_of_run run, fun steps recorded traced => ?_⟩
  obtain ⟨parts, steps_eq, all_move, conserved, short⟩ :=
    recorded.history.moves recorded.act_of alone (.inl fresh)
  rw [fresh, List.nil_append, ← traced] at conserved
  refine ⟨parts, steps_eq, conserved.symm, fun entry member => ?_, fun lines entry member => ?_⟩
  · have moves := all_move entry member
    have delivers := moves.delivers
    refine ⟨moves.asks, fun read => ?_, fun other => ?_⟩
    · rw [if_pos read] at delivers
      exact delivers
    · rw [if_neg (by simp [other])] at delivers
      have unread := moves.conserved
      rw [delivers, List.nil_append] at unread
      exact ⟨delivers, unread.symm⟩
  · rw [traced] at lines
    have below := short UInt32.size (by rw [fresh]; decide) lines entry member
    exact UInt32.toNat_ofNat_of_lt below

def twoReads : List Operation :=
  [.wire 1 true, .forward 1 "fd_read" (consoleMemory [0, 0]) [] 0, .flush 1, .wire 1 true,
    .forward 1 "fd_read" (consoleMemory [0, 0]) [] 0]

def lineOfThree : Trace :=
  [⟨.isClosed, false⟩, ⟨.isClosed, false⟩, ⟨.askLine, true⟩, ⟨.takeLine, some [104, 105, 10]⟩,
    ⟨.isClosed, false⟩, ⟨.isClosed, false⟩]

/-- The second read delivers what the first one left of the line. -/
theorem line_of_three_read_by_twos :
    ∃ left : Filesystem Engine.scripted, Host.Runs (console.performAll twoReads) lineOfThree left ∧
      left.desk.unread = [] ∧
      ∃ parts : List (Step × Bytes), (parts.map Prod.snd).flatten = [104, 105, 10] ∧
        ∀ entry ∈ parts, entry.1.isRead = true → entry.1.Delivers entry.2 := by
  have evaluated : (Host.follow lineOfThree (console.performAll twoReads)).map (·.desk.unread) =
      some [] := by decide +kernel
  obtain ⟨left, followed, nothing⟩ := Option.map_eq_some_iff.mp evaluated
  have run := Host.runs_of_follow followed
  have alone : ∀ operation ∈ twoReads, operation.KeepsInput 1 := by
    simp [twoReads, Operation.KeepsInput]
  obtain ⟨⟨steps, recorded, traced⟩, laws⟩ := reads_deliver_input run alone rfl
  obtain ⟨parts, -, conserved, delivered, -⟩ := laws steps recorded traced
  rw [nothing, List.append_nil] at conserved
  exact ⟨left, run, nothing, parts, conserved, fun entry member => (delivered entry member).2.1⟩

end Buildbox.Filesystem
