import Buildbox.Proofs.Host.Service

/-!
Guests with a record of how they were called. Each instance carries the names of the exports that its
host called, in order; for the rest it is the guest that it was.
-/

set_option autoImplicit false

namespace Buildbox

/-- A guest call whose instances carry a record. -/
def Activity.logged {ι : Type} (log : List String) : Activity ι → Activity (ι × List String)
  | .returned inst results => .returned (inst, log) results
  | .trapped inst trap => .trapped (inst, log) trap
  | .calling inst callee arguments direct resume =>
    .calling (inst, log) callee arguments direct fun found values =>
      (resume found.1 values).logged log

def Engine.logged (engine : Engine) : Engine where
  Module := engine.Module
  Instance := engine.Instance × List String
  load := engine.load
  imports := engine.imports
  exports := engine.exports
  start module := (engine.start module).logged []
  memory inst := engine.memory inst.1
  setMemory inst memory := (engine.setMemory inst.1 memory, inst.2)
  call inst name arguments := (engine.call inst.1 name arguments).logged (inst.2 ++ [name])

namespace Activity

variable {σ : Type} {engine : Engine} {serve : Nat → List Value → Service σ (List Value)}

private theorem restore_logged (inst : engine.Instance) (log : List String)
    (memory : Option Memory) :
    engine.logged.restore (inst, log) memory = (engine.restore inst memory, log) := by
  cases memory <;> rfl

theorem drive_logged (act : Activity engine.Instance) (log : List String) (host : σ) :
    (act.logged log).drive engine.logged serve host = do
      let ended ← act.drive engine serve host
      return ⟨(ended.guest, log), ended.host, ended.result⟩ := by
  induction act generalizing host with
  | returned inst results => rfl
  | trapped inst trap => rfl
  | calling inst callee arguments direct resume ih =>
    refine (@drive_calling σ engine.logged serve (inst, log) callee arguments direct _ host).trans ?_
    rw [drive_calling, bind_assoc]
    -- the call is served from the same memory, so that only what is resumed differs
    congr 1
    funext ⟨result, memory, left⟩
    cases result with
    | ok values =>
      simp only [restore_logged]
      exact ih _ _ left
    | error signal =>
      simp only [restore_logged]
      rfl

theorem record_of_drive {act : Activity engine.Instance} {log : List String} {host : σ}
    {trace : Trace} {ended : End engine.logged.Instance σ}
    (run : Host.Runs ((act.logged log).drive engine.logged serve host) trace ended) :
    ended.guest.2 = log := by
  rw [drive_logged] at run
  obtain ⟨plain, first, later, ran, recorded, rfl⟩ := Host.runs_bind.mp run
  obtain ⟨rfl, rfl⟩ := Host.runs_pure.mp recorded
  rfl

end Activity

end Buildbox
