import Buildbox.Host.Basic

/-!
What a computation does outside, as the list of its queries with their answers. The surroundings are
left open: a computation has one trace for each way of answering it.
-/

set_option autoImplicit false

namespace Buildbox

deriving instance DecidableEq for Query

/-- A query with the answer that it got. -/
structure Exchange where
  query : Query
  answer : query.Answer

abbrev Trace := List Exchange

theorem split_concat {α : Type} {first early late : List α} {a b : α}
    (split : first ++ [b] = early ++ a :: late) :
    (first = early ∧ b = a ∧ late = []) ∨
      ∃ rest, first = early ++ a :: rest ∧ late = rest ++ [b] := by
  rcases List.eq_nil_or_concat late with rfl | ⟨rest, last, rfl⟩
  · obtain ⟨rfl, same⟩ := List.append_inj' split rfl
    exact .inl ⟨rfl, List.head_eq_of_cons_eq same, rfl⟩
  · rw [List.concat_eq_append, ← List.cons_append, ← List.append_assoc] at split
    obtain ⟨rfl, same⟩ := List.append_inj' split rfl
    refine .inr ⟨rest, rfl, ?_⟩
    rw [List.concat_eq_append, same]

namespace Trace

def shown : Trace → String
  | [] => ""
  | ⟨.write text, _⟩ :: rest => text ++ shown rest
  | _ :: rest => shown rest

/-- The texts shown on the terminal, each for itself. -/
def texts (trace : Trace) : List String :=
  trace.filterMap fun
    | ⟨.write text, _⟩ => some text
    | _ => none

/-- The lines of input taken, in order. -/
def taken : Trace → List Bytes
  | [] => []
  | ⟨.takeLine, some line⟩ :: rest => line :: taken rest
  | _ :: rest => taken rest

/-- A line of input is asked for. -/
def Asks (trace : Trace) : Prop :=
  ∃ answer : Bool, Exchange.mk .askLine answer ∈ trace

@[simp] theorem shown_append (first later : Trace) :
    shown (first ++ later) = shown first ++ shown later := by
  induction first using shown.induct with
  | case1 => simp [shown]
  | case2 text answer rest ih => simp [shown, ih, String.append_assoc]
  | case3 exchange rest other ih => simp [shown, ih]

theorem shown_silent {exchange : Exchange} (silent : ∀ text, exchange.query ≠ .write text) :
    shown [exchange] = "" := by
  obtain ⟨query, answer⟩ := exchange
  cases query with
  | write text => exact absurd rfl (silent text)
  | _ => rfl

theorem shown_eq_empty {trace : Trace}
    (silent : ∀ exchange ∈ trace, ∀ text, exchange.query ≠ .write text) : trace.shown = "" := by
  induction trace with
  | nil => rfl
  | cons exchange rest ih =>
    have first := shown_silent (silent exchange List.mem_cons_self)
    have later := ih fun other among => silent other (.tail _ among)
    rw [← List.singleton_append, shown_append, first, later]
    rfl

@[simp] theorem taken_append (first later : Trace) :
    taken (first ++ later) = taken first ++ taken later := by
  induction first using taken.induct with
  | case1 => rfl
  | case2 line rest ih => simp [taken, ih]
  | case3 exchange rest other ih => simp [taken, ih]

@[simp] theorem not_asks_nil : ¬ Asks [] := by
  rintro ⟨answer, member⟩
  cases member

theorem asks_append {first later : Trace} :
    Asks (first ++ later) ↔ Asks first ∨ Asks later := by
  simp only [Asks, List.mem_append, exists_or]

end Trace

namespace Host

variable {α β : Type}

/-- A computation goes through these exchanges and ends with this result. -/
inductive Runs : Host α → Trace → α → Prop
  | done (a : α) : Runs (.done a) [] a
  | ask (query : Query) (answer : query.Answer) {resume : query.Answer → Host α} {trace : Trace}
      {a : α} (later : Runs (resume answer) trace a) :
      Runs (.ask query resume) (⟨query, answer⟩ :: trace) a

@[simp] theorem runs_pure {a b : α} {trace : Trace} :
    Runs (pure a) trace b ↔ trace = [] ∧ b = a := by
  constructor
  · intro run
    cases run
    exact ⟨rfl, rfl⟩
  · rintro ⟨rfl, rfl⟩
    exact .done _

theorem runs_query {q : Query} {trace : Trace} {answer : q.Answer} :
    Runs (query q) trace answer ↔ trace = [⟨q, answer⟩] := by
  constructor
  · intro run
    cases run with
    | ask _ answer later =>
      cases later
      rfl
  · rintro rfl
    exact .ask q answer (.done answer)

theorem runs_cons {c : Host α} {query : Query} {answer : query.Answer} {trace : Trace} {a : α} :
    Runs c (⟨query, answer⟩ :: trace) a ↔
      ∃ resume, c = .ask query resume ∧ Runs (resume answer) trace a := by
  constructor
  · intro run
    cases run with
    | ask _ _ later => exact ⟨_, rfl, later⟩
  · rintro ⟨resume, rfl, later⟩
    exact .ask query answer later

theorem runs_bind {c : Host α} {next : α → Host β} {trace : Trace} {b : β} :
    Runs (c >>= next) trace b ↔
      ∃ a first later, Runs c first a ∧ Runs (next a) later b ∧ trace = first ++ later := by
  constructor
  · intro run
    induction c generalizing trace with
    | done a => exact ⟨a, [], trace, .done a, run, rfl⟩
    | ask query resume ih =>
      cases run with
      | ask _ answer continued =>
        obtain ⟨a, first, later, ran, went, rfl⟩ := ih answer continued
        exact ⟨a, ⟨query, answer⟩ :: first, later, .ask query answer ran, went, rfl⟩
  · rintro ⟨a, first, later, ran, went, rfl⟩
    induction ran with
    | done a => exact went
    | ask query answer _ ih => exact .ask query answer (ih went)

def Goes (c : Host α) (trace : Trace) (rest : Host α) : Prop :=
  ∀ later a, Runs rest later a → Runs c (trace ++ later) a

theorem Goes.start (c : Host α) : Goes c [] c :=
  fun _ _ run => run

theorem Goes.answered {c : Host α} {trace : Trace} {query : Query}
    {resume : query.Answer → Host α} (goes : Goes c trace (.ask query resume))
    (answer : query.Answer) : Goes c (trace ++ [⟨query, answer⟩]) (resume answer) := by
  intro later a run
  have asked := goes _ a (.ask query answer run)
  simpa using asked

theorem Goes.done {c : Host α} {trace : Trace} {a : α} (goes : Goes c trace (.done a)) :
    Runs c trace a := by
  simpa using goes [] a (.done a)

/-- What a computation comes to when its surroundings answer each query, as they like after what was
exchanged before. -/
def answered (answers : Trace → (q : Query) → q.Answer) : Trace → Host α → Trace × α
  | _, .done a => ([], a)
  | early, .ask query resume =>
    let exchange : Exchange := ⟨query, answers early query⟩
    let (later, a) := answered answers (early ++ [exchange]) (resume exchange.answer)
    (exchange :: later, a)

theorem runs_answered (answers : Trace → (q : Query) → q.Answer) (early : Trace) (c : Host α) :
    Runs c (answered answers early c).1 (answered answers early c).2 := by
  induction c generalizing early with
  | done a => exact .done a
  | ask query resume ih => exact .ask query _ (ih _ _)

theorem answered_as_given {answers : Trace → (q : Query) → q.Answer} {early first late : Trace}
    {exchange : Exchange} {c : Host α}
    (split : (answered answers early c).1 = first ++ exchange :: late) :
    exchange.answer = answers (early ++ first) exchange.query := by
  induction c generalizing early first with
  | done a => simp [answered] at split
  | ask query resume ih =>
    cases first with
    | nil =>
      rw [answered, List.nil_append, List.cons.injEq] at split
      obtain ⟨rfl, -⟩ := split
      rw [List.append_nil]
    | cons head rest =>
      rw [answered, List.cons_append, List.cons.injEq] at split
      obtain ⟨rfl, later⟩ := split
      have given := ih _ later
      rw [List.append_assoc] at given
      exact given

def follow : Trace → Host α → Option α
  | [], .done a => some a
  | exchange :: rest, .ask query resume =>
    if same : exchange.query = query then follow rest (resume (same ▸ exchange.answer)) else none
  | _, _ => none

theorem runs_of_follow {trace : Trace} {c : Host α} {a : α} (followed : follow trace c = some a) :
    Runs c trace a := by
  induction c generalizing trace with
  | done b =>
    cases trace with
    | nil =>
      cases followed
      exact .done _
    | cons _ _ => cases followed
  | ask query resume ih =>
    cases trace with
    | nil => cases followed
    | cons exchange rest =>
      obtain ⟨asked, answer⟩ := exchange
      rw [follow] at followed
      split at followed
      · next same =>
        cases same
        exact .ask _ answer (ih answer followed)
      · cases followed

end Host

end Buildbox
