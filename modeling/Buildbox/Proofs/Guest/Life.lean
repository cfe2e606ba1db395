import Buildbox.Proofs.Engine.Logged
import Buildbox.Proofs.Guest.Deed
import Buildbox.Proofs.Guest.Speech

/-!
The life of a guest. Its stage only goes on, its permission only goes away, and a bad outcome ends
both its output and its calls. Which exports its host calls is read off guests that keep a record of
it.
-/

set_option autoImplicit false

namespace Buildbox.Guest

variable {engine : Engine}

/-- The stage of a guest's life, without what exists of it. -/
inductive Stage
  | created
  | instantiated
  | finished
deriving Repr, DecidableEq

def stage (guest : Guest engine) : Stage :=
  match guest.phase with
  | .created => .created
  | .instantiated _ _ => .instantiated
  | .finished _ _ => .finished

section Stage

variable {guest : Guest engine}

theorem stage_eq_created_iff : guest.stage = .created ↔ guest.phase = .created := by
  unfold stage
  cases guest.phase <;> simp

theorem stage_eq_instantiated_iff :
    guest.stage = .instantiated ↔ ∃ state bindings, guest.phase = .instantiated state bindings := by
  unfold stage
  cases guest.phase <;> simp

theorem stage_eq_finished_iff :
    guest.stage = .finished ↔ ∃ state bindings, guest.phase = .finished state bindings := by
  unfold stage
  cases guest.phase <;> simp

end Stage

def Sound (guest : Guest engine) : Prop :=
  guest.stage = .created ∨ (engine.functionType? guest.module startExport).isSome = true

/-- What is shown, and how the desk is, when a guest call begins: to be called again, a guest is first
given the filesystem. -/
def Opens (guest : Guest engine) (found : Filesystem.Desk) :
    Operation → Trace → Filesystem.Desk → Prop
  | .callAgain _, trace, desk => Host.Runs (found.wire guest.id guest.writesStdout) trace desk
  | _, trace, desk => trace = [] ∧ desk = found

namespace Deed

/-- Nothing changes, and nothing is shown. -/
structure Idle (deed : Deed engine) : Prop where
  guest : deed.after = deed.before
  filesystem : deed.left = deed.found
  nothing : deed.trace = []

def Starts (deed : Deed engine) : Prop :=
  deed.operation = .instantiate ∧ deed.answer = .instantiated (.ok ())

/-- What a guest call that ends with this outcome does. -/
structure Called (deed : Deed engine) (mode : RunMode) (outcome : Outcome) : Prop where
  stage : deed.after.stage = .finished
  permission : deed.after.allowed = true ↔
    deed.before.allowed = true ∧ (outcome = .exited 0 ∨ outcome = .paused)
  /-- the output comes before the report, whole characters or not, and none is left for later -/
  said : ∃ opening desk output, deed.before.Opens deed.found.desk deed.operation opening desk ∧
    deed.trace = opening ++ output ++ deed.before.report outcome mode ∧
    desk.Speaks output deed.left.desk ∧
    (deed.left.desk.isHeldBy deed.before.id = true → deed.left.desk.carry = .empty)

/-- What each deed keeps to. -/
def Lawful (deed : Deed engine) : Prop :=
  match deed.operation, deed.answer with
  | .instantiate, .instantiated (.ok _) =>
    deed.before.stage = .created ∧ deed.after.stage = .instantiated ∧
      deed.after.allowed = deed.before.allowed
  | .instantiate, .instantiated (.error _) =>
    deed.after = deed.before ∧ deed.left.desk.wired = deed.found.desk.wired ∧
      (deed.before.stage ≠ .created → deed.Idle)
  | .run mode, .ran outcome =>
    deed.before.stage = .instantiated ∧ deed.Called mode outcome ∨
      deed.before.stage ≠ .instantiated ∧ deed.Idle
  | .callAgain _, .calledAgain (.ok outcome) =>
    deed.before.stage = .finished ∧ deed.before.allowed = true ∧ deed.Called .standard outcome
  | .callAgain _, .calledAgain (.error _) => deed.Idle
  | .revoke, .revoked =>
    deed.after = deed.before.revoke ∧ deed.left = deed.found ∧ deed.trace = []
  | _, _ => False

end Deed

section Invoked

variable {guest after : Guest engine} {fs left : Filesystem engine} {state : engine.Instance}
  {bindings : List Binding} {type : FunctionType} {name : String} {mode : RunMode} {trace : Trace}
  {outcome : Outcome}

theorem Entered.speaks {put : engine.Instance}
    (entered : Entered guest fs state bindings type name trace outcome put left) :
    fs.desk.Speaks trace left.desk := by
  cases entered with
  | mismatched checked => exact Filesystem.Desk.stretch_speaks.refl _
  | called checked ran => exact speaks_of_drive ran

theorem Invoked.called {operation : Operation} {answer : Answer} {found : Filesystem engine}
    {opening : Trace}
    (opens : guest.Opens found.desk operation opening fs.desk)
    (invoked : Invoked guest fs state bindings type name mode trace outcome after left) :
    Deed.Called ⟨operation, guest, found, opening ++ trace, answer, after, left⟩ mode outcome := by
  cases invoked with
  | @settled said flushed outcome put reached desk entered flushing =>
    obtain ⟨speaks, settled⟩ := Filesystem.Desk.speaks_flushOf flushing
    have spoken := Filesystem.Desk.stretch_speaks.trans entered.speaks speaks
    refine ⟨rfl, ?_, opening, fs.desk, said ++ flushed, opens, ?_, spoken, settled⟩
    · rw [← Outcome.isSuccess_iff]
      exact Bool.and_eq_true_iff
    · simp only [List.append_assoc]

end Invoked

private theorem not_instantiated {guest : Guest engine} (sound : guest.Sound)
    (not_ready : ∀ state bindings, guest.phase = .instantiated state bindings →
      engine.functionType? guest.module startExport = none) : guest.stage ≠ .instantiated := by
  intro ready
  obtain ⟨state, bindings, phase⟩ := stage_eq_instantiated_iff.mp ready
  rcases sound with fresh | entry
  · rw [fresh] at ready
    cases ready
  · rw [not_ready state bindings phase] at entry
    cases entry

theorem Deed.Done.lawful {deed : Deed engine} (done : deed.Done) (sound : deed.before.Sound) :
    deed.Lawful := by
  obtain ⟨operation, before, found, trace, answer, after, left⟩ := deed
  have comes : Comes before found operation trace answer after left := done.comes
  cases comes with
  | unlinked => exact ⟨rfl, rfl, fun _ => ⟨rfl, rfl, rfl⟩⟩
  | unstarted fresh ran =>
    have created := stage_eq_created_iff.mpr fresh
    exact ⟨rfl, (speaks_of_drive ran).wired, fun moved_on => absurd created moved_on⟩
  | started fresh entry ran taking => exact ⟨stage_eq_created_iff.mpr fresh, rfl, rfl⟩
  | unready not_ready => exact .inr ⟨not_instantiated sound not_ready, rfl, rfl, rfl⟩
  | @ran mode _ _ _ _ _ _ _ ready invoked =>
    refine .inl ⟨stage_eq_instantiated_iff.mpr ⟨_, _, ready⟩, ?_⟩
    have opens : before.Opens found.desk (.run mode) [] found.desk := ⟨rfl, rfl⟩
    exact invoked.called opens
  | refused => exact ⟨rfl, rfl, rfl⟩
  | @calledAgain name _ _ _ _ _ _ _ _ _ finished allowed taking invoked =>
    have opens : before.Opens found.desk (.callAgain name) _ _ := taking
    exact ⟨stage_eq_finished_iff.mpr ⟨_, _, finished⟩, allowed, invoked.called opens⟩
  | revoked => exact ⟨rfl, rfl, rfl⟩

namespace Deed.Lawful

variable {deed : Deed engine}

theorem moves (lawful : deed.Lawful) : deed.after.stage = deed.before.stage ∨
    deed.before.stage = .created ∧ deed.after.stage = .instantiated ∧ deed.Starts ∨
    deed.before.stage = .instantiated ∧ deed.after.stage = .finished := by
  unfold Lawful at lawful
  split at lawful
  · next u operation answer =>
    exact .inr (.inl ⟨lawful.1, lawful.2.1, operation, answer⟩)
  · exact .inl (congrArg stage lawful.1)
  · rcases lawful with ⟨ready, called⟩ | ⟨-, idle⟩
    · exact .inr (.inr ⟨ready, called.stage⟩)
    · exact .inl (congrArg stage idle.guest)
  · exact .inl (lawful.2.2.stage.trans lawful.1.symm)
  · exact .inl (congrArg stage lawful.guest)
  · rw [lawful.1]
    exact .inl rfl
  · exact lawful.elim

theorem permission (lawful : deed.Lawful) (gone : deed.before.allowed = false) :
    deed.after.allowed = false := by
  have lost {mode : RunMode} {outcome : Outcome} (called : deed.Called mode outcome) :
      deed.after.allowed = false := by
    rw [Bool.eq_false_iff, Ne, called.permission, gone]
    exact fun both => Bool.false_ne_true both.1
  unfold Lawful at lawful
  split at lawful
  · exact lawful.2.2.trans gone
  · rw [lawful.1, gone]
  · rcases lawful with ⟨-, called⟩ | ⟨-, idle⟩
    · exact lost called
    · rw [idle.guest, gone]
  · exact lost lawful.2.2
  · rw [lawful.guest, gone]
  · rw [lawful.1]
    rfl
  · exact lawful.elim

theorem ran {mode : RunMode} (lawful : deed.Lawful) (operation : deed.operation = .run mode) :
    deed.before.stage = .instantiated ∧ (∃ outcome, deed.Called mode outcome) ∨
      deed.before.stage ≠ .instantiated ∧ deed.Idle := by
  unfold Lawful at lawful
  rw [operation] at lawful
  split at lawful
  any_goals contradiction
  next same answer =>
  cases same
  exact lawful.imp_left fun ready => ⟨ready.1, _, ready.2⟩

theorem idle_of_spent (lawful : deed.Lawful) (finished : deed.before.stage = .finished)
    (gone : deed.before.allowed = false) : deed.Idle := by
  -- what is not idle by itself asks for an earlier stage or for the permission
  unfold Lawful at lawful
  split at lawful
  · rw [finished] at lawful
    exact nomatch lawful.1
  · exact lawful.2.2 (by rw [finished]; exact nofun)
  · rw [finished] at lawful
    exact (lawful.resolve_left fun ready => nomatch ready.1).2
  · exact absurd lawful.2.1 (by rw [gone]; exact Bool.false_ne_true)
  · exact lawful
  · refine ⟨lawful.1.trans ?_, lawful.2.1, lawful.2.2⟩
    rw [revoke, ← gone]
  · exact lawful.elim

end Deed.Lawful

theorem Deed.Done.same {deed : Deed engine} (done : deed.Done) : deed.after =
    { deed.before with phase := deed.after.phase, allowed := deed.after.allowed } := by
  obtain ⟨operation, before, found, trace, answer, after, left⟩ := deed
  have comes : Comes before found operation trace answer after left := done.comes
  cases comes with
  | ran ready invoked | calledAgain _ _ _ invoked =>
    cases invoked
    rfl
  | _ => rfl

theorem Deed.Done.sound {deed : Deed engine} (done : deed.Done) (sound : deed.before.Sound) :
    deed.after.Sound := by
  obtain ⟨operation, before, found, trace, answer, after, left⟩ := deed
  have comes : Comes before found operation trace answer after left := done.comes
  cases comes with
  | unlinked | unstarted _ _ | unready _ | refused => exact sound
  | started fresh entry ran taking => exact .inr entry
  | ran ready invoked =>
    cases invoked
    refine .inr (sound.resolve_left ?_)
    rw [stage_eq_instantiated_iff.mpr ⟨_, _, ready⟩]
    exact nofun
  | calledAgain finished allowed taking invoked =>
    cases invoked
    refine .inr (sound.resolve_left ?_)
    rw [stage_eq_finished_iff.mpr ⟨_, _, finished⟩]
    exact nofun
  | revoked => exact sound

namespace Life

variable {guest last : Guest engine} {deeds : List (Deed engine)}

theorem split {early late : List (Deed engine)} {deed : Deed engine}
    (life : Life guest (early ++ deed :: late) last) :
    Life guest early deed.before ∧ deed.Done ∧ Life deed.after late last := by
  induction early generalizing guest with
  | nil =>
    cases life with
    | cons done onward => exact ⟨.nil, done, onward⟩
  | cons first rest ih =>
    cases life with
    | cons done onward =>
      obtain ⟨earlier, at_last⟩ := ih onward
      exact ⟨.cons done earlier, at_last⟩

theorem nil_iff : Life guest [] last ↔ last = guest := by
  constructor
  · intro life
    cases life
    rfl
  · rintro rfl
    exact .nil

theorem cons_iff {deed : Deed engine} {later : List (Deed engine)} :
    Life guest (deed :: later) last ↔
      guest = deed.before ∧ deed.Done ∧ Life deed.after later last := by
  constructor
  · intro life
    cases life with
    | cons done onward => exact ⟨rfl, done, onward⟩
  · rintro ⟨rfl, done, onward⟩
    exact .cons done onward

theorem append_iff {early late : List (Deed engine)} :
    Life guest (early ++ late) last ↔
      ∃ between, Life guest early between ∧ Life between late last := by
  constructor
  · intro life
    induction early generalizing guest with
    | nil => exact ⟨guest, .nil, life⟩
    | cons first rest ih =>
      cases life with
      | cons done onward =>
        obtain ⟨between, earlier, later⟩ := ih onward
        exact ⟨between, .cons done earlier, later⟩
  · rintro ⟨between, earlier, later⟩
    induction earlier with
    | nil => exact later
    | cons done onward ih => exact .cons done (ih later)

theorem keeps {P : Guest engine → Prop}
    (step : ∀ deed : Deed engine, deed.Done → P deed.before → P deed.after)
    (life : Life guest deeds last) (start : P guest) :
    P last ∧ ∀ deed ∈ deeds, deed.Done ∧ P deed.before := by
  induction life with
  | nil => exact ⟨start, fun _ member => absurd member List.not_mem_nil⟩
  | cons done onward ih =>
    obtain ⟨finally_kept, later⟩ := ih (step _ done start)
    refine ⟨finally_kept, fun deed member => ?_⟩
    rcases List.mem_cons.mp member with rfl | member
    · exact ⟨done, start⟩
    · exact later deed member

theorem sound (life : Life guest deeds last) (fresh : guest.stage = .created) : last.Sound :=
  (life.keeps (fun _ done => done.sound) (.inl fresh)).1

theorem start (life : Life guest deeds last) (fresh : guest.stage = .created)
    (gone_on : last.stage ≠ .created) : ∃ start ∈ deeds, start.Starts := by
  induction life with
  | nil => exact absurd fresh gone_on
  | cons done onward ih =>
    rcases (done.lawful (.inl fresh)).moves with same | ⟨-, -, starts⟩ | ⟨ready, -⟩
    · obtain ⟨start, member, starts⟩ := ih (same.trans fresh) gone_on
      exact ⟨start, .tail _ member, starts⟩
    · exact ⟨_, List.mem_cons_self, starts⟩
    · rw [fresh] at ready
      cases ready

theorem idle_runs (life : Life guest deeds last) (sound : guest.Sound)
    (finished : guest.stage = .finished) :
    ∀ deed ∈ deeds, ∀ mode, deed.operation = .run mode → deed.Idle := by
  have kept := life.keeps (P := fun guest => guest.Sound ∧ guest.stage = .finished) <| by
    rintro deed done ⟨sound, finished⟩
    refine ⟨done.sound sound, ?_⟩
    rcases (done.lawful sound).moves with same | ⟨created, -, -⟩ | ⟨-, finished⟩
    · exact same.trans finished
    · rw [finished] at created
      cases created
    · exact finished
  intro deed member mode operation
  obtain ⟨done, sound, finished⟩ := (kept ⟨sound, finished⟩).2 deed member
  rcases (done.lawful sound).ran operation with ⟨ready, -⟩ | ⟨-, idle⟩
  · rw [finished] at ready
    cases ready
  · exact idle

theorem idle_when_spent (life : Life guest deeds last) (sound : guest.Sound)
    (finished : guest.stage = .finished) (gone : guest.allowed = false) :
    ∀ deed ∈ deeds, deed.Idle := by
  have kept := life.keeps
      (P := fun guest => guest.Sound ∧ guest.stage = .finished ∧ guest.allowed = false) <| by
    rintro deed done ⟨sound, finished, gone⟩
    have idle := (done.lawful sound).idle_of_spent finished gone
    rw [idle.guest]
    exact ⟨sound, finished, gone⟩
  intro deed member
  obtain ⟨done, sound, finished, gone⟩ := (kept ⟨sound, finished, gone⟩).2 deed member
  exact (done.lawful sound).idle_of_spent finished gone

end Life

/-- The deed is a guest call, in this mode and with this outcome. -/
def Deed.Calls (deed : Deed engine) (mode : RunMode) (outcome : Outcome) : Prop :=
  deed.before.stage = .instantiated ∧ deed.operation = .run mode ∧ deed.answer = .ran outcome ∨
    mode = .standard ∧ ∃ name, deed.operation = .callAgain name ∧
      deed.answer = .calledAgain (.ok outcome)

/-- A deed in its place in the life of a guest. -/
structure Deed.Placed (early : List (Deed engine)) (deed : Deed engine)
    (late : List (Deed engine)) : Prop where
  lawful : deed.Lawful
  same : deed.after =
    { deed.before with phase := deed.after.phase, allowed := deed.after.allowed }
  stage : deed.after.stage = deed.before.stage ∨
    deed.before.stage = .created ∧ deed.after.stage = .instantiated ∧ deed.Starts ∨
    deed.before.stage = .instantiated ∧ deed.after.stage = .finished
  permission : deed.before.allowed = false → deed.after.allowed = false
  /-- a guest runs once, after it was instantiated -/
  once : deed.before.stage = .instantiated → ∀ mode, deed.operation = .run mode →
    (∃ start ∈ early, start.Starts) ∧
      ∀ later ∈ late, ∀ mode, later.operation = .run mode → later.Idle
  /-- a bad outcome is the end of it all, so that it is the only one reported -/
  last : ∀ mode outcome, deed.Calls mode outcome → outcome.isSuccess = false →
    ∀ later ∈ late, later.Idle

theorem Deed.Lawful.called {deed : Deed engine} {mode : RunMode} {outcome : Outcome}
    (lawful : deed.Lawful) (calls : deed.Calls mode outcome) : deed.Called mode outcome := by
  unfold Lawful at lawful
  rcases calls with ⟨ready, operation, answer⟩ | ⟨rfl, name, operation, answer⟩
  · rw [operation, answer] at lawful
    exact (lawful.resolve_right fun unready => unready.1 ready).2
  · rw [operation, answer] at lawful
    exact lawful.2.2

theorem Life.placed {guest last : Guest engine} {early late : List (Deed engine)}
    {deed : Deed engine} (life : Life guest (early ++ deed :: late) last)
    (fresh : guest.stage = .created) : deed.Placed early late := by
  obtain ⟨earlier, done, onward⟩ := life.split
  have sound := earlier.sound fresh
  have lawful := done.lawful sound
  have still_sound := done.sound sound
  refine ⟨lawful, done.same, lawful.moves, lawful.permission, fun ready mode operation => ⟨?_, ?_⟩, ?_⟩
  · -- the guest was created, so something has instantiated it
    exact earlier.start fresh (by rw [ready]; exact nofun)
  · rcases lawful.ran operation with ⟨-, outcome, called⟩ | ⟨unready, -⟩
    · exact onward.idle_runs still_sound called.stage
    · exact absurd ready unready
  · intro mode outcome calls bad
    have called := lawful.called calls
    refine onward.idle_when_spent still_sound called.stage ?_
    rw [Bool.eq_false_iff, Ne, called.permission, ← Outcome.isSuccess_iff, bad]
    exact fun both => Bool.false_ne_true both.2

end Buildbox.Guest
