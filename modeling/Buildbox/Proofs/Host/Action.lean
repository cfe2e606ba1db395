import Buildbox.Proofs.Host.Service

/-!
Operations that keep a state and may fail. What such an operation does is told by the state that it
finds, its exchanges, its result, and the state that it leaves; a sequence stops at the first
failure and leaves what was done by then.
-/

set_option autoImplicit false

namespace Buildbox.Host

variable {ε σ α β : Type}

/-- An operation on this state goes through these exchanges, with this result, and leaves that. -/
def Does (action : ExceptT ε (StateT σ Host) α) (found : σ) (trace : Trace) (result : Except ε α)
    (left : σ) : Prop :=
  Runs (action.run.run found) trace (result, left)

variable {found left : σ} {trace : Trace}

/-- Each exchange has the answer that the surroundings give after the earlier ones. -/
def AnsweredBy (answers : Trace → (q : Query) → q.Answer) (trace : Trace) : Prop :=
  ∀ early exchange late, trace = early ++ exchange :: late →
    exchange.answer = answers early exchange.query

theorem exists_does (answers : Trace → (q : Query) → q.Answer)
    (action : ExceptT ε (StateT σ Host) α) (found : σ) :
    ∃ trace result left, Does action found trace result left ∧ AnsweredBy answers trace :=
  ⟨_, _, _, runs_answered answers [] (action.run.run found),
    fun _ _ _ split => answered_as_given split⟩

theorem does_pure {a : α} {result : Except ε α} :
    Does (pure a) found trace result left ↔ trace = [] ∧ result = .ok a ∧ left = found := by
  rw [Does, ← Prod.mk.injEq]
  exact runs_pure

theorem does_throw {failure : ε} {result : Except ε α} :
    Does (throw failure) found trace result left ↔
      trace = [] ∧ result = .error failure ∧ left = found := by
  rw [Does, ← Prod.mk.injEq]
  exact runs_pure

/-- A sequence stops with its first part or goes on with the second. -/
theorem does_bind {action : ExceptT ε (StateT σ Host) α} {next : α → ExceptT ε (StateT σ Host) β}
    {result : Except ε β} :
    Does (action >>= next) found trace result left ↔
      (∃ failure, Does action found trace (.error failure) left ∧ result = .error failure) ∨
      ∃ a between first later, Does action found first (.ok a) between ∧
        Does (next a) between later result left ∧ trace = first ++ later := by
  have whole : (action >>= next).run.run found = action.run.run found >>= fun reached =>
      match reached.1 with
      | .ok a => (next a).run.run reached.2
      | .error failure => pure (.error failure, reached.2) := by
    rw [ExceptT.run_bind, StateT.run_bind]
    congr 1
    funext ⟨reached, between⟩
    cases reached with
    | ok a => rfl
    | error failure => rfl
  rw [Does, whole, runs_bind]
  constructor
  · rintro ⟨⟨reached, between⟩, first, later, ran, went, rfl⟩
    cases reached with
    | ok a => exact .inr ⟨a, between, first, later, ran, went, rfl⟩
    | error failure =>
      obtain ⟨rfl, same⟩ := runs_pure.mp went
      cases same
      rw [List.append_nil]
      exact .inl ⟨failure, ran, rfl⟩
  · rintro (⟨failure, ran, rfl⟩ | ⟨a, between, first, later, ran, went, rfl⟩)
    · exact ⟨_, trace, [], ran, runs_pure.mpr ⟨rfl, rfl⟩, (List.append_nil _).symm⟩
    · exact ⟨_, first, later, ran, went, rfl⟩

theorem does_bind_ok {action : ExceptT ε (StateT σ Host) α} {next : α → ExceptT ε (StateT σ Host) β}
    {b : β} :
    Does (action >>= next) found trace (.ok b) left ↔
      ∃ a between first later, Does action found first (.ok a) between ∧
        Does (next a) between later (.ok b) left ∧ trace = first ++ later := by
  rw [does_bind]
  constructor
  · rintro (⟨failure, -, impossible⟩ | went)
    · cases impossible
    · exact went
  · exact .inr

theorem onward_of_bind {action : ExceptT ε (StateT σ Host) α}
    {next : α → ExceptT ε (StateT σ Host) β} {result : Except ε β} {P : α → σ → Prop}
    (always : ∀ first outcome between, Does action found first outcome between →
      ∃ a, outcome = .ok a ∧ P a between)
    (run : Does (action >>= next) found trace result left) :
    ∃ a between later, P a between ∧ Does (next a) between later result left := by
  rcases does_bind.mp run with ⟨failure, failed, -⟩ | ⟨a, between, first, later, went, onward, -⟩
  · obtain ⟨a, impossible, -⟩ := always _ _ _ failed
    cases impossible
  · obtain ⟨b, same, holds⟩ := always _ _ _ went
    cases same
    exact ⟨a, between, later, holds, onward⟩

/-- A visit of all fails with the first one that fails; those before it were made, and none of those
behind it. -/
theorem does_forM_error {visit : β → ExceptT ε (StateT σ Host) PUnit} {all : List β} {failure : ε} :
    Does (all.forM visit) found trace (.error failure) left ↔
      ∃ done b later between first rest, all = done ++ b :: later ∧
        Does (done.forM visit) found first (.ok ⟨⟩) between ∧
        Does (visit b) between rest (.error failure) left ∧ trace = first ++ rest := by
  constructor
  · intro run
    induction all generalizing found trace with
    | nil =>
      obtain ⟨-, impossible, -⟩ := does_pure.mp run
      cases impossible
    | cons b later ih =>
      rcases does_bind.mp run with ⟨_, failed, same⟩ | ⟨_, between, first, rest, went, onward, rfl⟩
      · cases same
        exact ⟨[], b, later, found, [], trace, rfl, does_pure.mpr ⟨rfl, rfl, rfl⟩, failed, rfl⟩
      · obtain ⟨done, c, behind, middle, early, late, rfl, done_so, failed, rfl⟩ := ih onward
        refine ⟨b :: done, c, behind, middle, first ++ early, late, rfl, ?_, failed, ?_⟩
        · exact does_bind_ok.mpr ⟨_, between, first, early, went, done_so, rfl⟩
        · rw [List.append_assoc]
  · rintro ⟨done, b, later, between, first, rest, rfl, done_so, failed, rfl⟩
    induction done generalizing found first with
    | nil =>
      obtain ⟨rfl, -, rfl⟩ := does_pure.mp done_so
      exact does_bind.mpr (.inl ⟨failure, failed, rfl⟩)
    | cons c others ih =>
      obtain ⟨_, middle, early, late, went, onward, rfl⟩ := does_bind_ok.mp done_so
      rw [List.append_assoc]
      exact does_bind.mpr (.inr ⟨_, middle, early, late ++ rest, went, ih _ onward, rfl⟩)

theorem does_tryCatch {action : ExceptT ε (StateT σ Host) α}
    {handler : ε → ExceptT ε (StateT σ Host) α} {result : Except ε α} :
    Does (tryCatch action handler) found trace result left ↔
      (∃ a, Does action found trace (.ok a) left ∧ result = .ok a) ∨
      ∃ failure between first later, Does action found first (.error failure) between ∧
        Does (handler failure) between later result left ∧ trace = first ++ later := by
  have whole : (tryCatch action handler).run.run found = action.run.run found >>= fun reached =>
      match reached.1 with
      | .ok a => pure (.ok a, reached.2)
      | .error failure => (handler failure).run.run reached.2 := by
    change (action.run >>= fun reached =>
      match reached with
      | .ok a => pure (.ok a)
      | .error failure => (handler failure).run).run found = _
    rw [StateT.run_bind]
    congr 1
    funext ⟨reached, between⟩
    cases reached with
    | ok a => rfl
    | error failure => rfl
  rw [Does, whole, runs_bind]
  constructor
  · rintro ⟨⟨reached, between⟩, first, later, ran, went, rfl⟩
    cases reached with
    | ok a =>
      obtain ⟨rfl, same⟩ := runs_pure.mp went
      cases same
      rw [List.append_nil]
      exact .inl ⟨a, ran, rfl⟩
    | error failure => exact .inr ⟨failure, between, first, later, ran, went, rfl⟩
  · rintro (⟨a, ran, rfl⟩ | ⟨failure, between, first, later, ran, went, rfl⟩)
    · exact ⟨_, trace, [], ran, runs_pure.mpr ⟨rfl, rfl⟩, (List.append_nil _).symm⟩
    · exact ⟨_, first, later, ran, went, rfl⟩

section Sequence

variable {next : α → ExceptT ε (StateT σ Host) β} {result : Except ε β}

theorem does_lift_bind {c : Host α} :
    Does ((liftM c : ExceptT ε (StateT σ Host) α) >>= next) found trace result left ↔
      ∃ a first later, Runs c first a ∧ Does (next a) found later result left ∧
        trace = first ++ later := by
  have whole : ((liftM c : ExceptT ε (StateT σ Host) α) >>= next).run.run found =
      c >>= fun a => (next a).run.run found := by
    change (do
      let reached ← (Except.ok <$> (StateT.lift c : StateT σ Host α)).run found
      (ExceptT.bindCont next reached.1).run reached.2) = _
    rw [StateT.run_map, StateT.run_lift, map_bind]
    simp only [map_pure, LawfulMonad.bind_assoc, pure_bind]
    rfl
  rw [Does, whole]
  exact runs_bind

theorem does_lift_last {c : Host α} {outcome : α → Except ε β} {put : α → σ}
    (ends : ∀ a trace result left, Does (next a) found trace result left ↔
      trace = [] ∧ result = outcome a ∧ left = put a) :
    Does ((liftM c : ExceptT ε (StateT σ Host) α) >>= next) found trace result left ↔
      ∃ a, Runs c trace a ∧ result = outcome a ∧ left = put a := by
  rw [does_lift_bind]
  constructor
  · rintro ⟨a, first, later, ran, ended, rfl⟩
    obtain ⟨rfl, same, kept⟩ := (ends a _ _ _).mp ended
    rw [List.append_nil]
    exact ⟨a, ran, same, kept⟩
  · rintro ⟨a, ran, same, kept⟩
    exact ⟨a, trace, [], ran, (ends a _ _ _).mpr ⟨rfl, same, kept⟩, (List.append_nil _).symm⟩

theorem does_get_bind {next : σ → ExceptT ε (StateT σ Host) β} :
    Does (get >>= next) found trace result left ↔ Does (next found) found trace result left :=
  Iff.rfl

theorem does_set_bind {put : σ} {next : PUnit → ExceptT ε (StateT σ Host) β} :
    Does (set put >>= next) found trace result left ↔ Does (next ⟨⟩) put trace result left :=
  Iff.rfl

theorem does_modify_bind {change : σ → σ} {next : PUnit → ExceptT ε (StateT σ Host) β} :
    Does (modify change >>= next) found trace result left ↔
      Does (next ⟨⟩) (change found) trace result left :=
  Iff.rfl

theorem does_throw_bind {failure : ε} {next : α → ExceptT ε (StateT σ Host) β} :
    Does (throw failure >>= next) found trace result left ↔
      trace = [] ∧ result = .error failure ∧ left = found :=
  does_throw

end Sequence

/-- What holds of the state holds after the operation, however that ends. -/
def Preserves (P : σ → Prop) (action : ExceptT ε (StateT σ Host) α) : Prop :=
  ∀ found trace result left, Does action found trace result left → P found → P left

namespace Preserves

variable {P : σ → Prop}

theorem pure (a : α) : Preserves P (Pure.pure a : ExceptT ε (StateT σ Host) α) := by
  intro found trace result left ran holds
  obtain ⟨-, -, rfl⟩ := does_pure.mp ran
  exact holds

theorem bind {action : ExceptT ε (StateT σ Host) α} {next : α → ExceptT ε (StateT σ Host) β}
    (first : Preserves P action) (onward : ∀ a, Preserves P (next a)) :
    Preserves P (action >>= next) := by
  intro found trace result left ran holds
  rcases does_bind.mp ran with ⟨_, failed, -⟩ | ⟨a, between, _, _, went, later, -⟩
  · exact first _ _ _ _ failed holds
  · exact onward a _ _ _ _ later (first _ _ _ _ went holds)

theorem get_bind {next : σ → ExceptT ε (StateT σ Host) β} (onward : ∀ a, Preserves P (next a)) :
    Preserves P (get >>= next) :=
  fun found _ _ _ ran => onward found _ _ _ _ (does_get_bind.mp ran)

theorem tryCatch {action : ExceptT ε (StateT σ Host) α}
    {handler : ε → ExceptT ε (StateT σ Host) α} (first : Preserves P action)
    (onward : ∀ failure, Preserves P (handler failure)) :
    Preserves P (MonadExcept.tryCatch action handler) := by
  intro found trace result left ran holds
  rcases does_tryCatch.mp ran with ⟨_, went, -⟩ | ⟨failure, between, _, _, failed, later, -⟩
  · exact first _ _ _ _ went holds
  · exact onward failure _ _ _ _ later (first _ _ _ _ failed holds)

end Preserves

/-- Whatever the operation does to its state and shows meanwhile is of this kind. -/
def Within (R : σ → Trace → σ → Prop) (action : ExceptT ε (StateT σ Host) α) : Prop :=
  ∀ found trace result left, Does action found trace result left → R found trace left

namespace Within

variable {R : σ → Trace → σ → Prop}

theorem pure (stretch : Service.Stretch R) (a : α) :
    Within R (Pure.pure a : ExceptT ε (StateT σ Host) α) := by
  intro found trace result left ran
  obtain ⟨rfl, -, rfl⟩ := does_pure.mp ran
  exact stretch.refl _

theorem throw (stretch : Service.Stretch R) (failure : ε) :
    Within R (MonadExcept.throw failure : ExceptT ε (StateT σ Host) α) := by
  intro found trace result left ran
  obtain ⟨rfl, -, rfl⟩ := does_throw.mp ran
  exact stretch.refl _

theorem bind (stretch : Service.Stretch R) {action : ExceptT ε (StateT σ Host) α}
    {next : α → ExceptT ε (StateT σ Host) β} (first : Within R action)
    (onward : ∀ a, Within R (next a)) : Within R (action >>= next) := by
  intro found trace result left ran
  rcases does_bind.mp ran with ⟨_, failed, -⟩ | ⟨a, between, early, late, went, later, rfl⟩
  · exact first _ _ _ _ failed
  · exact stretch.trans (first _ _ _ _ went) (onward a _ _ _ _ later)

theorem get_bind {next : σ → ExceptT ε (StateT σ Host) β} (onward : ∀ a, Within R (next a)) :
    Within R (get >>= next) :=
  fun found _ _ _ ran => onward found _ _ _ _ (does_get_bind.mp ran)

theorem get_set_bind (stretch : Service.Stretch R) {change : σ → σ}
    {next : σ → PUnit → ExceptT ε (StateT σ Host) β} (changed : ∀ found, R found [] (change found))
    (onward : ∀ a, Within R (next a ⟨⟩)) :
    Within R (get >>= fun a => set (change a) >>= next a) :=
  fun found _ _ _ ran =>
    stretch.trans (changed found) (onward found _ _ _ _ (does_set_bind.mp (does_get_bind.mp ran)))

theorem tryCatch (stretch : Service.Stretch R) {action : ExceptT ε (StateT σ Host) α}
    {handler : ε → ExceptT ε (StateT σ Host) α} (first : Within R action)
    (onward : ∀ failure, Within R (handler failure)) :
    Within R (MonadExcept.tryCatch action handler) := by
  intro found trace result left ran
  rcases does_tryCatch.mp ran with ⟨_, went, -⟩ | ⟨failure, between, _, _, failed, later, rfl⟩
  · exact first _ _ _ _ went
  · exact stretch.trans (first _ _ _ _ failed) (onward failure _ _ _ _ later)

theorem ite {c : Prop} [Decidable c] {yes no : ExceptT ε (StateT σ Host) α} (first : Within R yes)
    (second : Within R no) : Within R (if c then yes else no) := by
  split
  · exact first
  · exact second

theorem when (stretch : Service.Stretch R) {c : Prop} [Decidable c]
    {action : ExceptT ε (StateT σ Host) α} {rest : ExceptT ε (StateT σ Host) β}
    (first : Within R action) (onward : Within R rest) :
    Within R (if c then action >>= fun _ => rest else rest) :=
  ite (bind stretch first fun _ => onward) onward

theorem forM (stretch : Service.Stretch R) {visit : β → ExceptT ε (StateT σ Host) PUnit}
    (each : ∀ b, Within R (visit b)) (all : List β) : Within R (all.forM visit) := by
  induction all with
  | nil => exact pure stretch _
  | cons b rest ih => exact bind stretch (each b) fun _ => ih

end Within

/-- However its surroundings answer, an operation ends, and each of its ends is like this. -/
structure Ends (action : ExceptT ε (StateT σ Host) α) (found : σ)
    (holds : Except ε α → σ → Prop) : Prop where
  some : ∀ answers, ∃ trace result left,
    Does action found trace result left ∧ AnsweredBy answers trace
  every : ∀ trace result left, Does action found trace result left → holds result left

theorem Ends.of_every {action : ExceptT ε (StateT σ Host) α} {found : σ}
    {holds : Except ε α → σ → Prop}
    (every : ∀ trace result left, Does action found trace result left → holds result left) :
    Ends action found holds :=
  ⟨fun answers => exists_does answers action found, every⟩

theorem Ends.mono {action : ExceptT ε (StateT σ Host) α} {found : σ}
    {holds wider : Except ε α → σ → Prop} (ends : Ends action found holds)
    (more : ∀ result left, holds result left → wider result left) : Ends action found wider :=
  ⟨ends.some, fun trace result left run => more result left (ends.every trace result left run)⟩

section Stateless

variable {next : α → ExceptT ε Host β} {result : Except ε β}

theorem runs_try_bind {action : ExceptT ε Host α} :
    Runs (action >>= next).run trace result ↔
      (∃ failure, Runs action.run trace (.error failure) ∧ result = .error failure) ∨
      ∃ a first later, Runs action.run first (.ok a) ∧ Runs (next a).run later result ∧
        trace = first ++ later := by
  rw [ExceptT.run_bind, runs_bind]
  constructor
  · rintro ⟨reached, first, later, ran, went, rfl⟩
    cases reached with
    | ok a => exact .inr ⟨a, first, later, ran, went, rfl⟩
    | error failure =>
      obtain ⟨rfl, rfl⟩ := runs_pure.mp went
      rw [List.append_nil]
      exact .inl ⟨failure, ran, rfl⟩
  · rintro (⟨failure, ran, rfl⟩ | ⟨a, first, later, ran, went, rfl⟩)
    · exact ⟨_, trace, [], ran, runs_pure.mpr ⟨rfl, rfl⟩, (List.append_nil _).symm⟩
    · exact ⟨_, first, later, ran, went, rfl⟩

theorem runs_try_lift_bind {c : Host α} :
    Runs ((liftM c : ExceptT ε Host α) >>= next).run trace result ↔
      ∃ a first later, Runs c first a ∧ Runs (next a).run later result ∧
        trace = first ++ later := by
  have whole : ((liftM c : ExceptT ε Host α) >>= next).run = c >>= fun a => (next a).run := by
    change ((Except.ok <$> c) >>= fun reached => ExceptT.bindCont next reached) = _
    rw [bind_map_left]
    rfl
  rw [whole]
  exact runs_bind

end Stateless

end Buildbox.Host

namespace Buildbox.Service

variable {σ α : Type} {found left : Option Memory × σ} {trace : Trace} {result : Except Signal α}
  {service : Service σ α}

/-- How the program comes down with a sum that is no word. -/
def crashOn : Signal → Trace
  | .fault (.access .overflow) => [⟨.crash, ()⟩]
  | _ => []

theorem crashOn_other {signal : Signal} (other : signal ≠ .fault (.access .overflow)) :
    crashOn signal = [] := by
  unfold crashOn
  split
  · exact absurd rfl other
  · rfl

def crashOf : Except Signal α → Trace
  | .ok _ => []
  | .error signal => crashOn signal

theorem runs_checked :
    Runs (checked service) found trace result left ↔
      ∃ first, Runs service found first result left ∧ trace = first ++ crashOf result := by
  have caught (signal : Signal) {between : Option Memory × σ} {later : Trace} :
      Runs (do
        if signal = .fault (.access .overflow) then ofHost Host.crash
        throw signal) between later result left ↔
      later = crashOn signal ∧ result = .error signal ∧ left = between := by
    split
    · next overflows =>
      rw [runs_ofHost_bind, overflows]
      constructor
      · rintro ⟨_, first, rest, asked, went, rfl⟩
        obtain ⟨rfl, rfl, rfl⟩ := runs_throw.mp went
        rw [Host.runs_query.mp asked]
        exact ⟨rfl, rfl, rfl⟩
      · rintro ⟨rfl, rfl, rfl⟩
        exact ⟨(), _, [], Host.runs_query.mpr rfl, runs_throw.mpr ⟨rfl, rfl, rfl⟩, rfl⟩
    · next other => rw [runs_throw, crashOn_other other]
  refine Host.does_tryCatch.trans ?_
  constructor
  · rintro (⟨a, ran, rfl⟩ | ⟨signal, between, first, later, ran, went, rfl⟩)
    · exact ⟨trace, ran, (List.append_nil _).symm⟩
    · obtain ⟨rfl, rfl, rfl⟩ := (caught signal).mp went
      exact ⟨first, ran, rfl⟩
  · rintro ⟨first, ran, rfl⟩
    cases result with
    | ok a => exact .inl ⟨a, (List.append_nil first).symm ▸ ran, rfl⟩
    | error signal =>
      exact .inr ⟨signal, left, first, _, ran, (caught signal).mpr ⟨rfl, rfl, rfl⟩, rfl⟩

theorem Stretch.checked {R : σ → Trace → σ → Prop} (stretch : Stretch R)
    (crashes : ∀ host, R host [⟨.crash, ()⟩] host) (within : Within R service) :
    Within R (checked service) := by
  intro found left trace result run
  obtain ⟨first, ran, rfl⟩ := runs_checked.mp run
  refine stretch.trans (within _ _ _ _ ran) ?_
  cases result with
  | ok a => exact stretch.refl _
  | error signal =>
    simp only [crashOf, crashOn]
    split
    · exact crashes _
    · exact stretch.refl _

end Buildbox.Service
