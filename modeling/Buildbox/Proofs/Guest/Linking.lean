import Mathlib.Data.List.Nodup
import Buildbox.Guest.Link
import Buildbox.Proofs.Engine.Scripted
import Buildbox.Proofs.Host.Service

/-!
The linking of a guest whose imports are all system calls. It comes about exactly when no call that
is forwarded is imported twice: the process system calls may be imported as often as a guest likes,
while for each of the others one definition is made per import, and a second one of the same name is
refused. Where it comes about, every import is bound as its name says.
-/

set_option autoImplicit false

namespace Buildbox

theorem Syscall.ofName?_eq_some_iff {name : String} {call : Syscall} :
    ofName? name = some call ↔ call.name = name := by
  constructor
  · intro found
    simpa using List.find?_some found
  · rintro rfl
    cases call <;> decide

theorem Syscall.name_injective {call other : Syscall} (same : call.name = other.name) :
    call = other := by
  have found := ofName?_eq_some_iff.mpr same
  rw [ofName?_eq_some_iff.mpr rfl] at found
  exact (Option.some.inj found).symm

theorem Syscall.ofName?_eq_none_iff {name : String} :
    ofName? name = none ↔ ∀ call : Syscall, call.name ≠ name := by
  rw [Option.eq_none_iff_forall_ne_some]
  exact forall_congr' fun call => not_congr ofName?_eq_some_iff

namespace Import

/-- A function among the system calls; where a process system call has its name, of that call's
type. -/
def IsSystemCall (wanted : Import) : Prop :=
  wanted.space = systemSpace ∧ ∃ type, wanted.type = .function type ∧
    ∀ call : Syscall, call.name = wanted.name → call.type = type

def definition? (wanted : Import) : Option (String × FunctionType) :=
  match wanted.type with
  | .function type =>
    if wanted.space != systemSpace || (Syscall.ofName? wanted.name).isSome then none
    else some (wanted.name, type)
  | _ => none

variable {wanted : Import} {name : String} {type : FunctionType}

theorem definition?_eq_some_iff :
    wanted.definition? = some (name, type) ↔
      wanted.space = systemSpace ∧ wanted.type = .function type ∧ wanted.name = name ∧
        ∀ call : Syscall, call.name ≠ wanted.name := by
  rw [← Syscall.ofName?_eq_none_iff]
  unfold definition?
  split
  · next found typed =>
    rw [typed, ite_eq_iff]
    simp only [Bool.or_eq_true, bne_iff_ne, Option.isSome_iff_ne_none, not_or, ne_eq, not_not,
      Option.some.injEq, Prod.mk.injEq, ExternType.function.injEq, reduceCtorEq, and_false, false_or]
    constructor
    · rintro ⟨⟨here, other⟩, named, same⟩
      exact ⟨here, same, named, other⟩
    · rintro ⟨here, same, named, other⟩
      exact ⟨⟨here, other⟩, named, same⟩
  · next other =>
    simp only [reduceCtorEq, false_iff]
    rintro ⟨-, typed, -⟩
    exact other type typed

end Import

def Definitions.wantedBy (imports : List Import) : Definitions :=
  imports.filterMap Import.definition?

/-- The names of the calls to be forwarded, one for each import. -/
def forwardedNames (imports : List Import) : List String :=
  (Definitions.wantedBy imports).map Prod.fst

/-- The failure of a second definition of a name. -/
def duplicate (name : String) : Failure :=
  .instantiation s!"duplicate definition of {systemSpace}::{name}"

namespace Definitions

variable {imports rest : List Import} {wanted : Import} {definitions : Definitions}
  {name : String} {type : FunctionType}

theorem find?_isSome_iff : (definitions.find? name).isSome ↔ name ∈ definitions.map Prod.fst := by
  rw [find?, List.lookup_isSome_iff, List.mem_map]
  exact exists_congr fun _ => and_congr_right fun _ => beq_iff_eq.trans eq_comm

theorem find?_of_nodup (once : (definitions.map Prod.fst).Nodup)
    (there : (name, type) ∈ definitions) : definitions.find? name = some type := by
  induction definitions with
  | nil => cases there
  | cons first later ih =>
    obtain ⟨other, found⟩ := first
    obtain ⟨fresh, once⟩ := List.nodup_cons.mp once
    rw [find?, List.lookup_cons]
    rcases List.mem_cons.mp there with same | there
    · cases same
      rw [beq_self_eq_true]
    · have differs : (name == other) = false :=
        beq_false_of_ne fun same => fresh (List.mem_map.mpr ⟨_, there, same⟩)
      rw [differs]
      exact ih once there

theorem wantedBy_cons_none (idle : wanted.definition? = none) :
    wantedBy (wanted :: rest) = wantedBy rest :=
  List.filterMap_cons_none idle

theorem wantedBy_cons_some (made : wanted.definition? = some (name, type)) :
    wantedBy (wanted :: rest) = (name, type) :: wantedBy rest :=
  List.filterMap_cons_some made

theorem ofImports_cons_none (idle : wanted.definition? = none) :
    ofImports (wanted :: rest) definitions = ofImports rest definitions := by
  rw [ofImports]
  cases typed : wanted.type with
  | function type =>
    have elsewhere : (wanted.space != systemSpace || (Syscall.ofName? wanted.name).isSome) = true := by
      by_contra here
      simp [Import.definition?, typed, here] at idle
    exact if_pos elsewhere
  | memory | table | global => rfl

theorem ofImports_cons_some (made : wanted.definition? = some (name, type)) :
    ofImports (wanted :: rest) definitions =
      if name ∈ definitions.map Prod.fst then .error (duplicate name)
      else ofImports rest (definitions ++ [(name, type)]) := by
  obtain ⟨here, typed, rfl, other⟩ := Import.definition?_eq_some_iff.mp made
  have defined : ¬ (wanted.space != systemSpace || (Syscall.ofName? wanted.name).isSome) = true := by
    simp [here, Syscall.ofName?_eq_none_iff.mpr other]
  rw [ofImports, typed]
  simp only [if_neg defined, find?_isSome_iff]
  rw [here]
  rfl

theorem ofImports_eq (fresh : (definitions.map Prod.fst).Nodup) :
    ((definitions.map Prod.fst ++ forwardedNames imports).Nodup ∧
      ofImports imports definitions = .ok (definitions ++ wantedBy imports)) ∨
    ∃ name, 1 < (definitions.map Prod.fst ++ forwardedNames imports).count name ∧
      ofImports imports definitions = .error (duplicate name) := by
  induction imports generalizing definitions with
  | nil => exact .inl ⟨by simpa [forwardedNames, wantedBy] using fresh, by simp [ofImports, wantedBy]⟩
  | cons wanted rest ih =>
    rcases made : wanted.definition? with _ | ⟨name, type⟩
    · rw [ofImports_cons_none made, forwardedNames, wantedBy_cons_none made]
      exact ih fresh
    · have names : forwardedNames (wanted :: rest) = name :: forwardedNames rest := by
        rw [forwardedNames, wantedBy_cons_some made, List.map_cons, forwardedNames]
      have split : definitions.map Prod.fst ++ name :: forwardedNames rest =
          (definitions ++ [(name, type)]).map Prod.fst ++ forwardedNames rest := by simp
      have whole : definitions ++ wantedBy (wanted :: rest) =
          definitions ++ [(name, type)] ++ wantedBy rest := by
        rw [wantedBy_cons_some made, List.append_cons]
      rw [ofImports_cons_some made, names, whole]
      split
      · next known =>
        refine .inr ⟨name, ?_, rfl⟩
        have earlier := List.count_pos_iff.mpr known
        rw [List.count_append, List.count_cons_self]
        omega
      · next unknown =>
        rw [split]
        refine ih ?_
        rw [List.map_append]
        exact List.nodup_append'.mpr
          ⟨fresh, List.nodup_singleton name, by simpa [List.disjoint_singleton] using unknown⟩

end Definitions

/-- What an import of a system call is to be bound to: a process system call to the guest's own host
half, another call to the filesystem's export of its name, and to nothing where there is none. -/
inductive Binds (provided : String → Bool) (wanted : Import) : Binding → Prop
  | process {call : Syscall} (named : call.name = wanted.name) : Binds provided wanted (.process call)
  | forwarded {type : FunctionType} (other : ∀ call : Syscall, call.name ≠ wanted.name)
      (typed : wanted.type = .function type) (exported : provided wanted.name = true) :
      Binds provided wanted (.forwarded wanted.name type)
  | missing (other : ∀ call : Syscall, call.name ≠ wanted.name)
      (nowhere : provided wanted.name = false) : Binds provided wanted (.missing wanted.name)

theorem exists_mapM_of_forall {α β ε : Type} {R : α → β → Prop} {f : α → Except ε β} {all : List α}
    (each : ∀ a ∈ all, ∃ b, f a = .ok b ∧ R a b) :
    ∃ results, all.mapM f = .ok results ∧ List.Forall₂ R all results := by
  induction all with
  | nil => exact ⟨[], rfl, .nil⟩
  | cons a rest ih =>
    obtain ⟨b, found, related⟩ := each a List.mem_cons_self
    obtain ⟨results, mapped, all_related⟩ := ih fun other among => each other (.tail _ among)
    refine ⟨b :: results, ?_, .cons related all_related⟩
    rw [List.mapM_cons, found, mapped]
    rfl

section Resolve

variable {definitions : Definitions} {provided : String → Bool} {wanted : Import}

theorem resolve_of_isSystemCall (call : wanted.IsSystemCall)
    (defined : ∀ name type, wanted.definition? = some (name, type) →
      definitions.find? name = some type) :
    ∃ binding, definitions.resolve provided wanted = .ok binding ∧ Binds provided wanted binding := by
  obtain ⟨here, type, typed, fits⟩ := call
  rcases named : Syscall.ofName? wanted.name with _ | call
  · have other := Syscall.ofName?_eq_none_iff.mp named
    have found := defined _ _ (Import.definition?_eq_some_iff.mpr ⟨here, typed, rfl, other⟩)
    by_cases exported : provided wanted.name = true
    · refine ⟨_, ?_, .forwarded other typed exported⟩
      simp [Definitions.resolve, here, typed, named, found, exported]
    · have nowhere : provided wanted.name = false := by simpa using exported
      refine ⟨_, ?_, .missing other nowhere⟩
      simp [Definitions.resolve, here, typed, named, found, nowhere]
  · have named_so := Syscall.ofName?_eq_some_iff.mp named
    refine ⟨_, ?_, .process named_so⟩
    simp [Definitions.resolve, here, typed, named, fits call named_so]

end Resolve

variable {engine : Engine} {imports : List Import}

theorem find?_wantedBy (once : (forwardedNames imports).Nodup) {wanted : Import}
    (among : wanted ∈ imports) {name : String} {type : FunctionType}
    (made : wanted.definition? = some (name, type)) :
    (Definitions.wantedBy imports).find? name = some type :=
  Definitions.find?_of_nodup once (List.mem_filterMap.mpr ⟨wanted, among, made⟩)

/-- A guest whose imports are all system calls, those of process system calls under their own types,
is linked exactly when no call to be forwarded is imported twice. Each import is then bound as its
name says, and a call that nobody provides stops the guest with its name and does nothing else.
Otherwise a name that is imported twice is reported. -/
theorem linked_iff_forwarded_once (calls : ∀ wanted ∈ imports, wanted.IsSystemCall)
    (provided : String → Bool) :
    ((∃ bindings, link imports provided = .ok bindings) ↔ (forwardedNames imports).Nodup) ∧
    (∀ bindings, link imports provided = .ok bindings →
      List.Forall₂ (Binds provided) imports bindings ∧
      ∀ (self : Identity) callee name arguments (found : Option Memory × Filesystem engine) trace
        result left, bindings[callee]? = some (.missing name) →
          (Service.Runs (serveBindings self bindings callee arguments) found trace result left ↔
            trace = [] ∧ result = .error (.notImplemented systemSpace name) ∧ left = found)) ∧
    (¬ (forwardedNames imports).Nodup → ∃ name, 1 < (forwardedNames imports).count name ∧
      link imports provided = .error (duplicate name)) := by
  have stub (self : Identity) (bindings : List Binding) (callee : Nat) (name : String)
      (arguments : List Value) (bound : bindings[callee]? = some (.missing name)) :
      (serveBindings self bindings callee arguments : Service (Filesystem engine) (List Value)) =
        throw (.notImplemented systemSpace name) := by
    rw [serveBindings, bound]
    rfl
  rcases @Definitions.ofImports_eq imports [] List.nodup_nil with
    ⟨once, made⟩ | ⟨name, twice, refused⟩
  · have once : (forwardedNames imports).Nodup := once
    obtain ⟨resolved, mapped, bound⟩ := exists_mapM_of_forall (R := Binds provided)
      (f := (Definitions.wantedBy imports).resolve provided) fun wanted among =>
        resolve_of_isSystemCall (calls wanted among) fun _ _ => find?_wantedBy once among
    have linked : link imports provided = .ok resolved := by
      rw [link, made]
      exact mapped
    refine ⟨⟨fun _ => once, fun _ => ⟨_, linked⟩⟩, fun bindings same => ?_, fun not_once =>
      absurd once not_once⟩
    rw [linked] at same
    cases same
    refine ⟨bound, fun self callee name arguments found trace result left missing => ?_⟩
    rw [stub self resolved callee name arguments missing]
    exact Service.runs_throw
  · have twice : 1 < (forwardedNames imports).count name := twice
    have linked : link imports provided = .error (duplicate name) := by
      rw [link, refused]
      rfl
    have not_once : ¬ (forwardedNames imports).Nodup := fun once =>
      Nat.not_lt.mpr (List.nodup_iff_count_le_one.mp once name) twice
    refine ⟨⟨fun ⟨_, same⟩ => ?_, fun once => absurd once not_once⟩, fun bindings same => ?_,
      fun _ => ⟨name, twice, linked⟩⟩
    · rw [linked] at same
      cases same
    · rw [linked] at same
      cases same

def wantsProcess (call : Syscall) : Import :=
  ⟨systemSpace, call.name, .function call.type⟩

def wantsFourWords (name : String) : Import :=
  ⟨systemSpace, name, .function ⟨[.i32, .i32, .i32, .i32], [.i32]⟩⟩

theorem isSystemCall_wantsProcess (call : Syscall) : (wantsProcess call).IsSystemCall :=
  ⟨rfl, _, rfl, fun _ named => congrArg Syscall.type (Syscall.name_injective named)⟩

theorem isSystemCall_wantsFourWords {name : String} (other : Syscall.ofName? name = none) :
    (wantsFourWords name).IsSystemCall :=
  ⟨rfl, _, rfl, fun call named => absurd named (Syscall.ofName?_eq_none_iff.mp other call)⟩

def exitTwice : List Import :=
  [wantsProcess .procExit, wantsFourWords "fd_write", wantsProcess .procExit,
    wantsFourWords "path_open"]

theorem exit_imported_twice_linked :
    (∀ wanted ∈ exitTwice, wanted.IsSystemCall) ∧ ∃ bindings,
      link exitTwice (· == "fd_write") = .ok bindings ∧
        List.Forall₂ (Binds (· == "fd_write")) exitTwice bindings ∧
        ∀ (self : Identity) (found : Option Memory × Filesystem Engine.scripted), Service.Runs
          (serveBindings self bindings 3 [.i32 0, .i32 0, .i32 0, .i32 0]) found []
            (.error (.notImplemented systemSpace "path_open")) found := by
  have calls : ∀ wanted ∈ exitTwice, wanted.IsSystemCall := by
    simp only [exitTwice, List.forall_mem_cons]
    exact ⟨isSystemCall_wantsProcess _, isSystemCall_wantsFourWords (by decide),
      isSystemCall_wantsProcess _, isSystemCall_wantsFourWords (by decide), nofun⟩
  obtain ⟨links, bound, -⟩ := @linked_iff_forwarded_once Engine.scripted _ calls (· == "fd_write")
  obtain ⟨bindings, linked⟩ := links.mpr (by decide)
  obtain ⟨all_bound, stub⟩ := bound bindings linked
  have last : bindings[3]? = some (.missing "path_open") := by
    cases linked
    rfl
  refine ⟨calls, bindings, linked, all_bound, fun self found => ?_⟩
  exact (stub self 3 _ _ found [] _ found last).mpr ⟨rfl, rfl, rfl⟩

/-- A call to be forwarded that is imported twice, both times under one type, is not linked, whether
the filesystem has it or not. -/
theorem write_imported_twice_refused :
    (∀ wanted ∈ [wantsFourWords "fd_write", wantsFourWords "fd_write"], wanted.IsSystemCall) ∧
    ∀ provided, link [wantsFourWords "fd_write", wantsFourWords "fd_write"] provided =
      .error (duplicate "fd_write") := by
  have call : (wantsFourWords "fd_write").IsSystemCall :=
    isSystemCall_wantsFourWords (by decide)
  refine ⟨?_, fun provided => rfl⟩
  simp only [List.forall_mem_cons]
  exact ⟨call, call, nofun⟩

end Buildbox
