import Buildbox.Proofs.Engine.Scripted
import Buildbox.Proofs.Session.Regions
import Buildbox.Proofs.Session.Waiting

/-!
What becomes of a line that is sent. It reaches the generation that its reply was made for or
nobody, and a read that waits when its generation is retired fails, whether a line was stored for it
or not.
-/

set_option autoImplicit false

namespace Buildbox.Session.Lines

variable {engine : Engine} {config : Config} {trace events : List Event} {s t : Scene engine}

def Serving (s : Scene engine) : Prop :=
  ∀ runner ∈ s.runners, ∀ id task, runner.thread = .serving id task →
    ∃ builder request, (Builder.serve builder request).Continues task

private theorem mem_or_of_replaced {α : Type} {before after : List α} {old new a : α}
    (among : a ∈ before ++ new :: after) : a = new ∨ a ∈ before ++ old :: after := by
  rcases List.mem_append.mp among with left | right
  · exact .inr (List.mem_append_left _ left)
  · rcases List.mem_cons.mp right with same | right
    · exact .inl same
    · exact .inr (List.mem_append_right _ (List.mem_cons_of_mem _ right))

theorem continues_of_step {closed : Bool} {live later : Live engine}
    {events : List (Session.Event engine)} {messages : List HostMessage}
    (step : ThreadStep closed live events messages later)
    (earlier : ∀ id task, live.thread = .serving id task →
      ∃ builder request, (Builder.serve builder request).Continues task) :
    ∀ id task, later.thread = .serving id task →
      ∃ builder request, (Builder.serve builder request).Continues task := by
  have resumed {id : RequestId} {query : Query}
      {resume : query.Answer → Host (Option Response × Builder engine)} (answer : query.Answer)
      (serving : live.thread = .serving id (.ask query resume)) (other : RequestId)
      (task : Host (Option Response × Builder engine))
      (same : Thread.serving id (resume answer) = Thread.serving other task) :
      ∃ builder request, (Builder.serve builder request).Continues task := by
    cases same
    obtain ⟨builder, request, continues⟩ := earlier id _ serving
    exact ⟨builder, request, continues.answered answer⟩
  cases step with
  | takeTiming idle inbox => exact fun _ _ => nofun
  | takeRequest idle inbox =>
    rintro id task ⟨⟩
    exact ⟨_, _, .start⟩
  | write serving => exact resumed () serving
  | isClosed serving => exact resumed closed serving
  | askLine serving => exact resumed true serving
  | takeLine serving taken => exact resumed (some _) serving
  | takeNothing serving taken => exact resumed none serving
  | outside answer serving external => exact resumed answer serving
  | finish serving => exact fun _ _ => nofun

namespace Serving

theorem start (config : Config) : Serving (.start config : Scene engine) := by
  intro runner among id task serving
  cases List.mem_singleton.mp among
  cases serving

theorem move (serving : Serving s) (move : Move config s events t) : Serving t := by
  cases move with
  | @go before after runner cell events messages later split found step =>
    intro other among id task doing
    rcases mem_or_of_replaced among with rfl | earlier
    · exact continues_of_step step (serving runner (mem_of_split split)) id task doing
    · exact serving other (split ▸ earlier) id task doing
  | restart showTiming closed =>
    intro runner among id task doing
    rcases List.mem_append.mp among with earlier | new
    · exact serving runner earlier id task doing
    · cases List.mem_singleton.mp new
      cases doing
  | order order free found => exact serving
  | take posts free => exact serving
  | judge inHand free => exact serving
  | evict inHand other => exact serving
  | reply inHand own => exact serving
  | act inHand own other => exact serving
  | send line split found => exact serving
  | flag free found => exact serving
  | close flagged found => exact serving

theorem run (serving : Serving s) (run : Run config s events t) : Serving t := by
  induction run with
  | here => exact serving
  | step _ move ih => exact ih.move move

end Serving

section Parked

variable {runner : Runner engine} {id : RequestId} {input : InputRegion}
  {resume : Option Bytes → Host (Option Response × Builder engine)}

/-- A read that waits fails when its line does not come, and what is left goes on from there. -/
def Fails (resume : Option Bytes → Host (Option Response × Builder engine)) : Prop :=
  ∃ found buffers count readOut goOn,
    Host.ask .takeLine resume =
      (Filesystem.awaitLine buffers count readOut).run.run found >>= goOn ∧
    resume none = goOn (.error (.fault .inputClosed), found)

theorem Serving.fails (serving : Serving s) (here : runner ∈ s.runners)
    (waits : runner.thread = .serving id (.ask .takeLine resume)) : Fails resume := by
  obtain ⟨builder, request, continues⟩ := serving runner here id _ waits
  obtain ⟨found, buffers, count, readOut, goOn, same⟩ :=
    Builder.heeds_serve builder request resume continues
  refine ⟨found, buffers, count, readOut, goOn, same, ?_⟩
  cases same
  rfl

theorem Sound.kept (sound : Sound config trace s) (run : Run config s events t) {place : Place}
    (found : s.inputs[place]? = some input) (gone : input.isClosed = true) :
    t.inputs[place]? = some input := by
  induction run with
  | here => exact found
  | step earlier move ih => exact ((sound.run earlier).stirs move).kept ih gone

theorem Move.of_parked (move : Move config s events t) (here : runner ∈ s.runners)
    (waits : runner.thread = .serving id (.ask .takeLine resume))
    (found : s.inputs[runner.place]? = some input) (gone : input.isClosed = true) :
    runner ∈ t.runners ∨
      (events = [.read runner.generation runner.place none] ∧ t.cells = s.cells ∧
        { runner with thread := .serving id (resume none) } ∈ t.runners) := by
  cases move with
  | @go before after other cell events messages later split at_place step =>
    by_cases same : other = runner
    · subst same
      right
      have closed : cell.input = input := Option.some.inj ((inputs_found at_place).symm.trans found)
      cases step with
      | takeNothing serving taken =>
        cases serving.symm.trans waits
        exact ⟨rfl, set_of_found at_place, List.mem_append_right _ List.mem_cons_self⟩
      | takeLine serving taken =>
        have nothing := InputRegion.take_of_closed (closed ▸ gone)
        cases nothing.symm.trans taken
      | outside answer serving external =>
        cases serving.symm.trans waits
        cases external
      | takeTiming serving | takeRequest serving | write serving | isClosed serving
      | askLine serving | finish serving => cases serving.symm.trans waits
    · left
      rw [split] at here
      rcases List.mem_append.mp here with left | right
      · exact List.mem_append_left _ left
      · rcases List.mem_cons.mp right with rfl | right
        · exact absurd rfl same
        · exact List.mem_append_right _ (List.mem_cons_of_mem _ right)
  | restart showTiming closed => exact .inl (List.mem_append_left _ here)
  | order order free at_place => exact .inl here
  | take posts free => exact .inl here
  | judge inHand free => exact .inl here
  | evict inHand other => exact .inl here
  | reply inHand own => exact .inl here
  | act inHand own other => exact .inl here
  | send line split at_place => exact .inl here
  | flag free at_place => exact .inl here
  | close flagged at_place => exact .inl here

/-- A read that waits when its generation is retired: it can go on, only by failing, and nothing is
taken from its region, then or later. -/
structure Released (config : Config) (s : Scene engine) (runner : Runner engine) (id : RequestId)
    (resume : Option Bytes → Host (Option Response × Builder engine)) : Prop where
  fails : Fails resume
  goes : ∃ t, Move config s [.read runner.generation runner.place none] t ∧ t.cells = s.cells ∧
    { runner with thread := .serving id (resume none) } ∈ t.runners
  only : ∀ events t, Run config s events t → runner ∈ t.runners ∨
    ∃ early late u v, events = early ++ .read runner.generation runner.place none :: late ∧
      Run config s early u ∧ Move config u [.read runner.generation runner.place none] v ∧
      v.cells = u.cells ∧ { runner with thread := .serving id (resume none) } ∈ v.runners ∧
      Run config v late t
  untouched : ∀ events t, Run config s events t →
    t.inputs[runner.place]? = s.inputs[runner.place]?

private theorem exists_goes (config : Config) (here : runner ∈ s.runners)
    (waits : runner.thread = .serving id (.ask .takeLine resume)) {cell : Cell}
    (found : s.cells[runner.place]? = some cell) (gone : cell.input.isClosed = true) :
    ∃ t, Move config s [.read runner.generation runner.place none] t ∧ t.cells = s.cells ∧
      { runner with thread := .serving id (resume none) } ∈ t.runners := by
  obtain ⟨before, after, split⟩ := List.append_of_mem here
  have step : ThreadStep cell.terminated (runner.on cell) _ _ _ :=
    .takeNothing waits (InputRegion.take_of_closed gone)
  exact ⟨_, .go split found step, set_of_found found, List.mem_append_right _ List.mem_cons_self⟩

theorem Sound.released (sound : Sound config trace s) (serving : Serving s)
    (here : runner ∈ s.runners) (retired : .retired runner.generation ∈ trace)
    (waits : runner.thread = .serving id (.ask .takeLine resume)) :
    Released config s runner id resume := by
  obtain ⟨number, inside⟩ := sound.seated.numbered here
  have at_place : s.cells[runner.place]? = some s.cells[runner.place] :=
    List.getElem?_eq_getElem inside
  have found := inputs_found at_place
  have gone : s.cells[runner.place].input.isClosed = true := by
    rw [sound.regions.closed _ _ found, ← number]
    exact retired
  refine ⟨serving.fails here waits, exists_goes config here waits at_place gone,
    fun events t run => ?_, fun events t run => ?_⟩
  · induction run with
    | here => exact .inl here
    | @step trace events u t earlier move ih =>
      rcases ih with still | ⟨early, late, u, v, rfl, before, learns, same, there, onward⟩
      · rcases move.of_parked still waits (sound.kept earlier found gone) gone with
          again | ⟨rfl, same, there⟩
        · exact .inl again
        · exact .inr ⟨_, [], _, _, rfl, earlier, move, same, there, .here⟩
      · refine .inr ⟨early, late ++ events, u, v, ?_, before, learns, same, there, onward.step move⟩
        rw [List.append_assoc, List.cons_append]
  · rw [found]
    exact sound.kept run found gone

end Parked

/-- What sending a line through a reply does: the reply was made for a request of one generation,
and nothing changes but the region of that one's thread, which keeps the line until the generation
is retired, and nothing at all afterwards. -/
structure Sends (trace : List Event) (s : Scene engine) (generation : Generation) (place : Place)
    (line : String) (t : Scene engine) : Prop where
  replied : Replied trace generation place
  owner : ∃ runner ∈ s.runners, runner.generation = generation ∧ runner.place = place ∧
    ∀ other ∈ s.runners, other.generation = generation ∨ other.place = place → other = runner
  frame : ∃ cells replies, t = { s with cells, replies }
  others : ∀ other, other ≠ place → t.cells[other]? = s.cells[other]?
  stored : .retired generation ∉ trace → ∃ cell, s.cells[place]? = some cell ∧
    (cell.input.post (Bytes.ofString line)).1 = true ∧
    t.cells[place]? = some { cell with input := (cell.input.post (Bytes.ofString line)).2 }
  dropped : .retired generation ∈ trace → t.cells = s.cells

theorem Seated.owner (seated : Seated s) {place : Place} (inside : place < s.cells.length) :
    ∃ runner ∈ s.runners, runner.generation = place + 1 ∧ runner.place = place ∧
      ∀ other ∈ s.runners, other.generation = place + 1 ∨ other.place = place → other = runner := by
  have listed : Contact.mk (place + 1) place ∈ s.runners.map Runner.toContact := by
    rw [seated.runners]
    exact List.mem_map_of_mem (List.mem_range.mpr inside)
  obtain ⟨runner, here, same⟩ := List.mem_map.mp listed
  have number : runner.generation = place + 1 := congrArg Contact.generation same
  have at_place : runner.place = place := congrArg Contact.place same
  refine ⟨runner, here, number, at_place, fun other among either => ?_⟩
  refine seated.unique here among ?_
  rw [at_place]
  rcases either with numbered | placed
  · exact Nat.succ.inj ((seated.numbered among).1.symm.trans numbered)
  · exact placed

theorem Sound.sends (sound : Sound config trace s) {place : Place} {line : String} {stored : Bool}
    (move : Move config s [.sent place line stored] t) :
    ∃ generation, Sends trace s generation place line t := by
  generalize told : [Event.sent place line stored] = events at move
  cases move with
  | @send before after other cell sent split found =>
    cases told
    have inside := (List.getElem?_eq_some_iff.mp found).1
    have closed := sound.regions.closed place _ (inputs_found found)
    have replied := sound.regions.replied (sound.sourced.replies place (mem_of_split split))
    refine ⟨place + 1, replied, sound.seated.owner inside, ⟨_, _, rfl⟩, fun other different => ?_,
      fun unretired => ⟨cell, found, ?_, ?_⟩, fun retired => ?_⟩
    · exact List.getElem?_set_ne different.symm
    · exact (sound.regions.accepts (inputs_found found) _).mpr unretired
    · exact List.getElem?_set_self inside
    · have dropped := InputRegion.post_of_closed (closed.mpr retired) (Bytes.ofString line)
      show s.cells.set place { cell with input := (cell.input.post _).2 } = s.cells
      rw [dropped]
      exact set_of_found found
  | @go before after runner cell events messages later split found step =>
    have does := Runner.does_of_step step
    rw [← told] at does
    generalize later.input = input at does
    cases does
  | order | take | judge | evict | reply | act | flag | close | restart => cases told

/-- Whatever requests for lines, threads, the dispatching side, senders and aborts do, and in
whatever order: a line that is sent is stored only for the generation that its reply was made for,
and not once that is retired; a thread reads only lines that were stored for its own generation; and
a read that waits when its generation is retired fails without taking a line. -/
theorem Run.lines_keep_to_their_generation (run : Run config (.start config) trace s) :
    (∀ early event late, trace = early ++ event :: late → event.Lawful config early) ∧
    (∀ place line stored t, Move config s [.sent place line stored] t →
      ∃ generation, Sends trace s generation place line t) ∧
    ∀ runner ∈ s.runners, .retired runner.generation ∈ trace → ∀ id resume,
      runner.thread = .serving id (.ask .takeLine resume) → Released config s runner id resume := by
  have sound : Sound config trace s := (Sound.start config).run run
  have serving : Serving s := (Serving.start config).run run
  exact ⟨sound.lawful, fun _ _ _ _ => sound.sends,
    fun runner here retired id resume => sound.released serving here retired⟩

def eagerEngine : Engine :=
  { Engine.scripted with
    load := fun _ => some Filesystem.consoleModule
    start := Script.play (.ok []) [(1, [.i32 0, .i32 0, .i32 1, .i32 8])] }

def fruitless : Trace :=
  [⟨.fetch "memfs.wasm", .ok []⟩, ⟨.isClosed, false⟩, ⟨.askLine, true⟩, ⟨.takeLine, none⟩]

private theorem reply_pending :
    ∃ (cell : Cell) (runner : Runner eagerEngine) (id : RequestId)
      (resume : Option Bytes → Host (Option Response × Builder eagerEngine)),
      Run {} (.start {}) [.posted 1 .readLine, .asked 1 0]
        { cells := [cell], runners := [runner], live := ⟨1, 0⟩, replies := [0] } ∧
      runner.generation = 1 ∧ runner.thread = .serving id (.ask .takeLine resume) := by
  obtain ⟨result, followed⟩ : ∃ result, Host.follow fruitless
      ((Builder.new {} : Builder eagerEngine).setShowTiming (Config.showTiming {})
        |>.serve (.runCppCheck [])) = some result := Option.isSome_iff_exists.mp (by decide +kernel)
  obtain ⟨resume, fetches, later⟩ := Host.runs_cons.mp (Host.runs_of_follow followed)
  obtain ⟨opened, looks, later⟩ := Host.runs_cons.mp later
  obtain ⟨answered, asks, later⟩ := Host.runs_cons.mp later
  obtain ⟨received, waits, -⟩ := Host.runs_cons.mp later
  have first : Run {} (.start {} : Scene eagerEngine) [] (.start {}) := .here
  have ordered := first.step (.order (.request 1 (.runCppCheck [])) rfl rfl)
  have timed := ordered.step (.go (show _ = [] ++ _ :: [] from rfl) rfl (.takeTiming rfl rfl))
  have begun := timed.step (.go (show _ = [] ++ _ :: [] from rfl) rfl (.takeRequest rfl rfl))
  have fetched := begun.step (.go (show _ = [] ++ _ :: [] from rfl) rfl
    (.outside (show Query.Answer (.fetch "memfs.wasm") from .ok [])
      (congrArg (Thread.serving 1) fetches) rfl))
  have looked := fetched.step (.go (show _ = [] ++ _ :: [] from rfl) rfl
    (.isClosed (congrArg (Thread.serving 1) looks)))
  have asked := looked.step (.go (show _ = [] ++ _ :: [] from rfl) rfl
    (.askLine (congrArg (Thread.serving 1) asks)))
  have taken := asked.step (.take rfl rfl)
  have judged := taken.step (.judge rfl rfl)
  have replied := judged.step (.reply rfl rfl)
  exact ⟨_, _, _, _, replied, rfl, congrArg (Thread.serving 1) waits⟩

/-- A thread waits when it is given up: a line that was stored for it is lost, and one that is sent
later changes nothing. -/
theorem Run.line_lost_with_its_generation :
    ∃ (trace : List Event) (runner : Runner eagerEngine) (id : RequestId)
      (resume : Option Bytes → Host (Option Response × Builder eagerEngine)),
      runner.thread = .serving id (.ask .takeLine resume) ∧
      (∃ s : Scene eagerEngine,
        Run {} (.start {}) (trace ++ [.sent 0 "on time" true] ++ [] ++ [.retired 1]) s ∧
        runner ∈ s.runners ∧ Released {} s runner id resume) ∧
      ∃ s t : Scene eagerEngine, Run {} (.start {}) (trace ++ [] ++ [.retired 1]) s ∧
        Move {} s [.sent 0 "too late" false] t ∧ t.cells = s.cells := by
  obtain ⟨cell, runner, id, resume, run, numbered, waits⟩ := reply_pending
  have pending : [0] = [] ++ (0 : Place) :: [] := rfl
  refine ⟨[.posted 1 .readLine, .asked 1 0], runner, id, resume, waits, ?_, ?_⟩
  · obtain ⟨-, sends, -⟩ := Run.lines_keep_to_their_generation run
    obtain ⟨generation, sent⟩ := sends 0 "on time" _ _ (.send "on time" pending rfl)
    obtain rfl := sent.replied.only 1 (by simp)
    obtain ⟨other, found, stored, -⟩ := sent.stored (by simp)
    cases found
    have kept := run.step (.send "on time" pending rfl)
    rw [stored] at kept
    have closed := (kept.step (.flag rfl rfl)).step (.close rfl rfl)
    obtain ⟨-, -, released⟩ := Run.lines_keep_to_their_generation closed
    have here : runner ∈ [runner] := List.mem_cons_self
    refine ⟨_, closed, here, released runner here ?_ id resume waits⟩
    rw [numbered]
    exact List.mem_append_right _ List.mem_cons_self
  · obtain ⟨s, closed, cells, replies⟩ : ∃ s : Scene eagerEngine,
        Run {} (.start {}) ([.posted 1 .readLine, .asked 1 0] ++ [] ++ [.retired 1]) s ∧
        s.cells = [⟨cell.inbox, true, cell.input.close⟩] ∧ s.replies = [0] :=
      ⟨_, (run.step (.flag rfl rfl)).step (.close rfl rfl), rfl, rfl⟩
    have found : s.cells[0]? = some ⟨cell.inbox, true, cell.input.close⟩ := by
      rw [cells]
      rfl
    have send : Move {} s [.sent 0 "too late" false] _ :=
      .send "too late" (replies.trans pending) found
    obtain ⟨-, sends, -⟩ := Run.lines_keep_to_their_generation closed
    obtain ⟨generation, sent⟩ := sends 0 "too late" _ _ send
    obtain rfl := sent.replied.only 1 (by simp)
    exact ⟨s, _, closed, send, sent.dropped (List.mem_append_right _ List.mem_cons_self)⟩

end Buildbox.Session.Lines
