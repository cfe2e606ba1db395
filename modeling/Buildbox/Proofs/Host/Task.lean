import Buildbox.Progress
import Buildbox.Proofs.Host.Action

/-!
Tasks on the terminal. A task is announced and worked on; only a success ends its line, and when times
are shown, with the time that it took.
-/

set_option autoImplicit false

namespace Buildbox.Progress

def opening (message : String) (begun : Nat) : Trace :=
  [⟨.elapsed, begun⟩, ⟨.write (arrow ++ (message ++ "...")), ()⟩]

/-- The line of a task is ended. -/
inductive Closes : Bool → Nat → Trace → Prop
  | plain {begun : Nat} : Closes false begun [⟨.write " done.", ()⟩, ⟨.write "\r\n", ()⟩]
  | timed {begun : Nat} (now : Nat) : Closes true begun
      [⟨.write " done.", ()⟩, ⟨.elapsed, now⟩,
        ⟨.write s!" {green}({seconds (now - begun)}s){normal}\r\n", ()⟩, ⟨.write "\r\n", ()⟩]

/-- The exchanges of a task around those of its work. -/
inductive Frames {ε α : Type} (timing : Bool) (message : String) (during : Trace) :
    Except ε α → Trace → Prop
  | failed (begun : Nat) (failure : ε) :
      Frames timing message during (.error failure) (opening message begun ++ during)
  | done {begun : Nat} {closing : Trace} (a : α) (closes : Closes timing begun closing) :
      Frames timing message during (.ok a) (opening message begun ++ during ++ closing)

theorem exists_closes (timing : Bool) (begun : Nat) : ∃ trace, Closes timing begun trace := by
  cases timing with
  | false => exact ⟨_, .plain⟩
  | true => exact ⟨_, .timed 0⟩

theorem exists_frames {ε α : Type} (timing : Bool) (message : String) (during : Trace)
    (result : Except ε α) : ∃ trace, Frames timing message during result trace := by
  cases result with
  | error failure => exact ⟨_, .failed 0 failure⟩
  | ok a =>
    obtain ⟨closing, closes⟩ := exists_closes timing 0
    exact ⟨_, .done a closes⟩

theorem Frames.lies_within {ε α : Type} {timing : Bool} {message : String} {during trace : Trace}
    {result : Except ε α} (frames : Frames timing message during result trace) :
    during <:+: trace := by
  cases frames with
  | failed begun failure => exact (List.suffix_append _ _).isInfix
  | done a closes => exact List.infix_append _ _ _

private def begin (message : String) : Host Nat := do
  let begun ← Host.elapsed
  line (message ++ "...")
  return begun

/-- What a task asks after its work. -/
private def finish (timing : Bool) (begun : Nat) : Host Unit := do
  Host.write " done."
  if timing then
    let now ← Host.elapsed
    Host.write s!" {green}({seconds (now - begun)}s){normal}\r\n"
  Host.write "\r\n"

private theorem task_eq {m : Type → Type} {α : Type} [Monad m] [LawfulMonad m]
    [MonadLiftT Host m] [LawfulMonadLiftT Host m] (timing : Bool) (message : String) (work : m α) :
    task timing message work = do
      let begun ← liftM (begin message)
      let a ← work
      liftM (finish timing begun)
      return a := by
  cases timing <;> simp [task, begin, finish, liftM_bind]

private theorem runs_begin {message : String} {trace : Trace} {begun : Nat} :
    Host.Runs (begin message) trace begun ↔ trace = opening message begun := by
  rw [begin, Host.runs_bind]
  constructor
  · rintro ⟨started, clock, rest, asked, announced, rfl⟩
    obtain ⟨_, shown, last, line, ended, rfl⟩ := Host.runs_bind.mp announced
    obtain rfl := Host.runs_query.mp asked
    obtain rfl := Host.runs_query.mp line
    obtain ⟨rfl, rfl⟩ := Host.runs_pure.mp ended
    rfl
  · rintro rfl
    exact ⟨begun, _, _, Host.runs_query.mpr rfl, .ask _ () (.done begun), rfl⟩

private theorem runs_finish {timing : Bool} {begun : Nat} {trace : Trace} :
    Host.Runs (finish timing begun) trace () ↔ Closes timing begun trace := by
  cases timing with
  | false =>
    constructor
    · intro run
      obtain ⟨_, _, _, marked, ended, rfl⟩ := Host.runs_bind.mp run
      obtain rfl := Host.runs_query.mp marked
      obtain rfl := Host.runs_query.mp ended
      exact .plain
    · rintro ⟨⟩
      refine .ask _ _ ?_
      refine .ask _ _ ?_
      exact .done _
  | true =>
    constructor
    · intro run
      obtain ⟨_, _, _, marked, timed, rfl⟩ := Host.runs_bind.mp run
      obtain ⟨now, _, _, asked, told, rfl⟩ := Host.runs_bind.mp timed
      obtain ⟨_, _, _, duration, ended, rfl⟩ := Host.runs_bind.mp told
      obtain rfl := Host.runs_query.mp marked
      obtain rfl := Host.runs_query.mp asked
      obtain rfl := Host.runs_query.mp duration
      obtain rfl := Host.runs_query.mp ended
      exact .timed now
    · rintro ⟨⟩
      refine .ask _ _ ?_
      refine .ask _ _ ?_
      refine .ask _ _ ?_
      refine .ask _ _ ?_
      exact .done _

variable {ε σ α : Type} {timing : Bool} {message : String} {trace : Trace} {result : Except ε α}

theorem runs_task {work : ExceptT ε Host α} :
    Host.Runs (task timing message work).run trace result ↔
      ∃ during, Host.Runs work.run during result ∧ Frames timing message during result trace := by
  rw [task_eq, Host.runs_try_lift_bind]
  constructor
  · rintro ⟨begun, first, rest, opened, working, rfl⟩
    obtain rfl := runs_begin.mp opened
    rcases Host.runs_try_bind.mp working with
      ⟨failure, failed, rfl⟩ | ⟨a, during, last, worked, ending, rfl⟩
    · exact ⟨rest, failed, .failed begun failure⟩
    · obtain ⟨_, closing, later, finished, ended, rfl⟩ := Host.runs_try_lift_bind.mp ending
      obtain ⟨rfl, rfl⟩ := Host.runs_pure.mp ended
      refine ⟨during, worked, ?_⟩
      rw [List.append_nil, ← List.append_assoc]
      exact .done a (runs_finish.mp finished)
  · rintro ⟨during, worked, frames⟩
    cases frames with
    | failed begun failure =>
      exact ⟨begun, _, _, runs_begin.mpr rfl,
        Host.runs_try_bind.mpr (.inl ⟨failure, worked, rfl⟩), rfl⟩
    | @done begun closing a closes =>
      refine ⟨begun, _, during ++ closing, runs_begin.mpr rfl, ?_, List.append_assoc ..⟩
      refine Host.runs_try_bind.mpr (.inr ⟨a, during, closing, worked, ?_, rfl⟩)
      exact Host.runs_try_lift_bind.mpr
        ⟨(), closing, [], runs_finish.mpr closes, .done _, (List.append_nil _).symm⟩

theorem does_task {work : ExceptT ε (StateT σ Host) α} {found left : σ} :
    Host.Does (task timing message work) found trace result left ↔
      ∃ during, Host.Does work found during result left ∧
        Frames timing message during result trace := by
  rw [task_eq, Host.does_lift_bind]
  constructor
  · rintro ⟨begun, first, rest, opened, working, rfl⟩
    obtain rfl := runs_begin.mp opened
    rcases Host.does_bind.mp working with
      ⟨failure, failed, rfl⟩ | ⟨a, between, during, last, worked, ending, rfl⟩
    · exact ⟨rest, failed, .failed begun failure⟩
    · obtain ⟨_, closing, later, finished, ended, rfl⟩ := Host.does_lift_bind.mp ending
      obtain ⟨rfl, rfl, rfl⟩ := Host.does_pure.mp ended
      refine ⟨during, worked, ?_⟩
      rw [List.append_nil, ← List.append_assoc]
      exact .done a (runs_finish.mp finished)
  · rintro ⟨during, worked, frames⟩
    cases frames with
    | failed begun failure =>
      exact ⟨begun, _, _, runs_begin.mpr rfl,
        Host.does_bind.mpr (.inl ⟨failure, worked, rfl⟩), rfl⟩
    | @done begun closing a closes =>
      refine ⟨begun, _, during ++ closing, runs_begin.mpr rfl, ?_, List.append_assoc ..⟩
      refine Host.does_bind.mpr (.inr ⟨a, left, during, closing, worked, ?_, rfl⟩)
      exact Host.does_lift_bind.mpr ⟨(), closing, [], runs_finish.mpr closes,
        Host.does_pure.mpr ⟨rfl, rfl, rfl⟩, (List.append_nil _).symm⟩

end Buildbox.Progress
