import Buildbox.Host.Service
import Buildbox.Proofs.Host.Trace

/-!
Guest calls with the calls to their host on record. A guest call is its host calls, one after
another: what each of them does to the host and shows outside, the whole call does.
-/

set_option autoImplicit false

namespace Buildbox

namespace Service

variable {σ α β : Type}

/-- A service that finds this memory and state goes through these exchanges, and leaves those. -/
def Runs (service : Service σ α) (found : Option Memory × σ) (trace : Trace)
    (result : Except Signal α) (left : Option Memory × σ) : Prop :=
  Host.Runs (service.run.run found) trace (result, left)

variable {found left : Option Memory × σ} {trace : Trace}

theorem runs_pure {a : α} {result : Except Signal α} :
    Runs (pure a : Service σ α) found trace result left ↔
      trace = [] ∧ result = .ok a ∧ left = found := by
  rw [Runs, ← Prod.mk.injEq]
  exact Host.runs_pure

theorem runs_throw {signal : Signal} {result : Except Signal α} :
    Runs (throw signal : Service σ α) found trace result left ↔
      trace = [] ∧ result = .error signal ∧ left = found := by
  rw [Runs, ← Prod.mk.injEq]
  exact Host.runs_pure

theorem runs_fault {fault : Fault} {result : Except Signal α} :
    Runs (Service.fault fault : Service σ α) found trace result left ↔
      trace = [] ∧ result = .error (.fault fault) ∧ left = found :=
  runs_throw

theorem runs_bind {service : Service σ α} {next : α → Service σ β} {result : Except Signal β} :
    Runs (service >>= next) found trace result left ↔
      (∃ signal, Runs service found trace (.error signal) left ∧ result = .error signal) ∨
      ∃ a between first later, Runs service found first (.ok a) between ∧
        Runs (next a) between later result left ∧ trace = first ++ later := by
  have whole : (service >>= next).run.run found =
      service.run.run found >>= fun reached =>
        match reached.1 with
        | .ok a => (next a).run.run reached.2
        | .error signal => pure (.error signal, reached.2) := by
    rw [ExceptT.run_bind, StateT.run_bind]
    congr 1
    funext ⟨reached, between⟩
    cases reached with
    | ok a => rfl
    | error signal => rfl
  rw [Runs, whole, Host.runs_bind]
  constructor
  · rintro ⟨⟨reached, between⟩, first, later, ran, went, rfl⟩
    cases reached with
    | ok a => exact .inr ⟨a, between, first, later, ran, went, rfl⟩
    | error signal =>
      obtain ⟨rfl, same⟩ := Host.runs_pure.mp went
      cases same
      rw [List.append_nil]
      exact .inl ⟨signal, ran, rfl⟩
  · rintro (⟨signal, ran, rfl⟩ | ⟨a, between, first, later, ran, went, rfl⟩)
    · exact ⟨_, trace, [], ran, Host.runs_pure.mpr ⟨rfl, rfl⟩, (List.append_nil _).symm⟩
    · exact ⟨_, first, later, ran, went, rfl⟩

section Sequence

variable {next : α → Service σ β} {result : Except Signal β}

theorem runs_ofHost_bind {c : Host α} :
    Runs (ofHost c >>= next) found trace result left ↔
      ∃ a first later, Host.Runs c first a ∧ Runs (next a) found later result left ∧
        trace = first ++ later := by
  have whole : (ofHost c >>= next).run.run found = c >>= fun a => (next a).run.run found := by
    change (do
      let reached ← (Except.ok <$> (StateT.lift c : StateT (Option Memory × σ) Host α)).run found
      (ExceptT.bindCont next reached.1).run reached.2) = _
    rw [StateT.run_map, StateT.run_lift, map_bind]
    simp only [map_pure, bind_assoc, pure_bind]
    rfl
  rw [Runs, whole]
  exact Host.runs_bind

theorem runs_fault_bind {fault : Fault} :
    Runs (Service.fault fault >>= next) found trace result left ↔
      trace = [] ∧ result = .error (.fault fault) ∧ left = found :=
  runs_throw

theorem runs_get_bind {next : Option Memory × σ → Service σ β} :
    Runs (get >>= next) found trace result left ↔ Runs (next found) found trace result left :=
  Iff.rfl

theorem runs_state_bind {next : σ → Service σ β} :
    Runs (state >>= next) found trace result left ↔ Runs (next found.2) found trace result left :=
  Iff.rfl

theorem runs_set_bind {put : Option Memory × σ} {next : PUnit → Service σ β} :
    Runs (set put >>= next) found trace result left ↔ Runs (next ⟨⟩) put trace result left :=
  Iff.rfl

theorem runs_update_bind {change : σ → σ} {next : Unit → Service σ β} :
    Runs (update change >>= next) found trace result left ↔
      Runs (next ()) (found.1, change found.2) trace result left :=
  Iff.rfl

theorem runs_onMemory_bind {access : Memory.Access α} {memory : Memory} {host : σ} :
    Runs (onMemory access >>= next) (some memory, host) trace result left ↔
      match (access.run.run memory).1 with
      | .ok a => Runs (next a) (some (access.run.run memory).2, host) trace result left
      | .error fault => trace = [] ∧ result = .error (.fault (.access fault)) ∧
          left = (some (access.run.run memory).2, host) := by
  rcases reached : (access.run.run memory : Except AccessFault α × Memory) with ⟨outcome, put⟩
  rw [onMemory, bind_assoc, runs_get_bind]
  simp only [reached]
  rw [bind_assoc, runs_set_bind]
  cases outcome with
  | ok a => rw [pure_bind]
  | error fault => exact runs_fault_bind

end Sequence

/-- Something that holds of nothing happening, and of two stretches in a row when it holds of both. -/
structure Stretch (R : σ → Trace → σ → Prop) : Prop where
  refl : ∀ host, R host [] host
  trans : ∀ {a b c : σ} {first later : Trace}, R a first b → R b later c → R a (first ++ later) c

/-- Whatever the service does to the state of the host is of this kind. -/
def Within (R : σ → Trace → σ → Prop) (service : Service σ α) : Prop :=
  ∀ found left trace result, Runs service found trace result left → R found.2 trace left.2

namespace Stretch

variable {R : σ → Trace → σ → Prop}

theorem bind (stretch : Stretch R) {service : Service σ α} {next : α → Service σ β}
    (first : Within R service) (onward : ∀ a, Within R (next a)) : Within R (service >>= next) := by
  intro found left trace result run
  rcases runs_bind.mp run with ⟨signal, ran, -⟩ | ⟨a, between, early, late, ran, went, rfl⟩
  · exact first _ _ _ _ ran
  · exact stretch.trans (first _ _ _ _ ran) (onward a _ _ _ _ went)

theorem pure (stretch : Stretch R) (a : α) : Within R (Pure.pure a : Service σ α) := by
  intro found left trace result run
  obtain ⟨rfl, -, rfl⟩ := runs_pure.mp run
  exact stretch.refl _

theorem throw (stretch : Stretch R) (signal : Signal) :
    Within R (MonadExcept.throw signal : Service σ α) := by
  intro found left trace result run
  obtain ⟨rfl, -, rfl⟩ := runs_throw.mp run
  exact stretch.refl _

theorem onMemory (stretch : Stretch R) (access : Memory.Access α) :
    Within R (Service.onMemory access : Service σ α) := by
  intro found left trace result run
  rw [Service.onMemory, runs_get_bind] at run
  split at run
  · obtain ⟨rfl, -, rfl⟩ := runs_fault.mp run
    exact stretch.refl _
  · next memory state =>
    rcases reached : (access.run.run memory : Except AccessFault α × Memory) with ⟨outcome, put⟩
    rw [reached] at run
    have ended := runs_set_bind.mp run
    cases outcome with
    | ok a =>
      obtain ⟨rfl, -, rfl⟩ := runs_pure.mp ended
      exact stretch.refl _
    | error fault =>
      obtain ⟨rfl, -, rfl⟩ := runs_fault.mp ended
      exact stretch.refl _

theorem ofHost_bind (stretch : Stretch R) {c : Host α} {next : α → Service σ β}
    (asked : ∀ host trace a, Host.Runs c trace a → R host trace host)
    (onward : ∀ a, Within R (next a)) : Within R (ofHost c >>= next) := by
  intro found left trace result run
  obtain ⟨a, early, late, ran, went, rfl⟩ := runs_ofHost_bind.mp run
  exact stretch.trans (asked _ _ _ ran) (onward a _ _ _ _ went)

end Stretch

end Service

/-- A call of a guest to its host: the memory of the caller, where one stands behind the call, and
the state of the host, before it and after it. -/
structure HostCall (σ : Type) where
  callee : Nat
  arguments : List Value
  found : Option Memory × σ
  trace : Trace
  result : Except Signal (List Value)
  left : Option Memory × σ

def HostCall.Served {σ : Type} (serve : Nat → List Value → Service σ (List Value))
    (call : HostCall σ) : Prop :=
  Service.Runs (serve call.callee call.arguments) call.found call.trace call.result call.left

/-- An instance with the memory that its host leaves it. -/
def Engine.restore (engine : Engine) (inst : engine.Instance) : Option Memory → engine.Instance
  | some memory => engine.setMemory inst memory
  | none => inst

namespace Activity

variable {σ : Type} {engine : Engine} {serve : Nat → List Value → Service σ (List Value)}

/-- A guest call with its calls to the host in order, and its end. -/
inductive Records (engine : Engine) (serve : Nat → List Value → Service σ (List Value)) :
    Activity engine.Instance → σ → List (HostCall σ) → End engine.Instance σ → Prop
  | returned {inst : engine.Instance} {results : List Value} {host : σ} :
      Records engine serve (.returned inst results) host [] ⟨inst, host, .ok results⟩
  | trapped {inst : engine.Instance} {trap : Trap} {host : σ} :
      Records engine serve (.trapped inst trap) host [] ⟨inst, host, .error (.fault (.trap trap))⟩
  | stopped {inst : engine.Instance} {direct : Bool}
      {resume : engine.Instance → List Value → Activity engine.Instance}
      {call : HostCall σ} {signal : Signal} (served : call.Served serve)
      (lent : call.found.1 = if direct then none else engine.memory inst)
      (stops : call.result = .error signal) :
      Records engine serve (.calling inst call.callee call.arguments direct resume) call.found.2
        [call] ⟨engine.restore inst call.left.1, call.left.2, .error signal⟩
  | answered {inst : engine.Instance} {direct : Bool}
      {resume : engine.Instance → List Value → Activity engine.Instance}
      {call : HostCall σ} {values : List Value} {calls : List (HostCall σ)}
      {ended : End engine.Instance σ} (served : call.Served serve)
      (lent : call.found.1 = if direct then none else engine.memory inst)
      (answers : call.result = .ok values)
      (later : Records engine serve (resume (engine.restore inst call.left.1) values) call.left.2
        calls ended) :
      Records engine serve (.calling inst call.callee call.arguments direct resume) call.found.2
        (call :: calls) ended

theorem drive_calling (inst : engine.Instance) (callee : Nat) (arguments : List Value)
    (direct : Bool) (resume : engine.Instance → List Value → Activity engine.Instance) (host : σ) :
    (calling inst callee arguments direct resume).drive engine serve host =
      (serve callee arguments).run.run (if direct then none else engine.memory inst, host) >>=
        fun reached =>
          match reached.1 with
          | .ok values =>
            (resume (engine.restore inst reached.2.1) values).drive engine serve reached.2.2
          | .error signal =>
            pure ⟨engine.restore inst reached.2.1, reached.2.2, .error signal⟩ := by
  rw [drive]
  rfl

theorem runs_drive {act : Activity engine.Instance} {host : σ} {trace : Trace}
    {ended : End engine.Instance σ} :
    Host.Runs (act.drive engine serve host) trace ended ↔
      ∃ calls, Records engine serve act host calls ended ∧
        trace = calls.flatMap HostCall.trace := by
  constructor
  · intro run
    induction act generalizing host trace with
    | returned inst results =>
      obtain ⟨rfl, rfl⟩ := Host.runs_pure.mp run
      exact ⟨[], .returned, rfl⟩
    | trapped inst trap =>
      obtain ⟨rfl, rfl⟩ := Host.runs_pure.mp run
      exact ⟨[], .trapped, rfl⟩
    | calling inst callee arguments direct resume ih =>
      rw [drive_calling] at run
      obtain ⟨⟨result, memory, left⟩, first, later, served, went, rfl⟩ := Host.runs_bind.mp run
      let call : HostCall σ :=
        ⟨callee, arguments, (if direct then none else engine.memory inst, host), first, result,
          (memory, left)⟩
      have served : call.Served serve := served
      cases result with
      | ok values =>
        obtain ⟨calls, recorded, rfl⟩ := ih _ _ went
        exact ⟨call :: calls, .answered served rfl rfl recorded, rfl⟩
      | error signal =>
        obtain ⟨rfl, rfl⟩ := Host.runs_pure.mp went
        exact ⟨[call], .stopped served rfl rfl, rfl⟩
  · rintro ⟨calls, recorded, rfl⟩
    induction recorded with
    | returned => exact .done _
    | trapped => exact .done _
    | @stopped inst direct resume call signal served lent stops =>
      rw [drive_calling, ← lent, List.flatMap_singleton, ← List.append_nil call.trace]
      refine Host.runs_bind.mpr ⟨_, _, _, served, ?_, rfl⟩
      rw [stops]
      exact .done _
    | @answered inst direct resume call values calls ended served lent answers later ih =>
      rw [drive_calling, ← lent, List.flatMap_cons]
      refine Host.runs_bind.mpr ⟨_, _, _, served, ?_, rfl⟩
      rw [answers]
      exact ih

theorem Records.closure {R : σ → Trace → σ → Prop} (stretch : Service.Stretch R)
    (within : ∀ callee arguments, Service.Within R (serve callee arguments))
    {act : Activity engine.Instance} {host : σ} {calls : List (HostCall σ)}
    {ended : End engine.Instance σ} (recorded : Records engine serve act host calls ended) :
    R host (calls.flatMap HostCall.trace) ended.host := by
  induction recorded with
  | returned => exact stretch.refl _
  | trapped => exact stretch.refl _
  | @stopped inst direct resume call signal served lent stops =>
    rw [List.flatMap_singleton]
    exact within _ _ _ _ _ _ served
  | @answered inst direct resume call values calls ended served lent answers later ih =>
    rw [List.flatMap_cons]
    exact stretch.trans (within _ _ _ _ _ _ served) ih

theorem Records.each {R : σ → Trace → σ → Prop} (stretch : Service.Stretch R)
    (within : ∀ callee arguments, Service.Within R (serve callee arguments))
    {act : Activity engine.Instance} {host : σ} {calls : List (HostCall σ)}
    {ended : End engine.Instance σ} (recorded : Records engine serve act host calls ended) :
    ∀ call ∈ calls, call.Served serve ∧ (∃ trace, R host trace call.found.2) ∧
      ∃ trace, R host trace call.left.2 := by
  induction recorded with
  | returned => exact fun _ => nofun
  | trapped => exact fun _ => nofun
  | @stopped inst direct resume call signal served lent stops =>
    intro other among
    obtain rfl := List.mem_singleton.mp among
    exact ⟨served, ⟨[], stretch.refl _⟩, _, within _ _ _ _ _ _ served⟩
  | @answered inst direct resume call values calls ended served lent answers later ih =>
    intro other among
    have first := within _ _ _ _ _ _ served
    rcases List.mem_cons.mp among with rfl | among
    · exact ⟨served, ⟨[], stretch.refl _⟩, _, first⟩
    · obtain ⟨then_served, ⟨_, finds⟩, _, leaves⟩ := ih other among
      exact ⟨then_served, ⟨_, stretch.trans first finds⟩, _, stretch.trans first leaves⟩

end Activity

end Buildbox
