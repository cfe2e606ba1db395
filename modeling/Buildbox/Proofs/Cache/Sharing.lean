import Mathlib.Data.Finset.Card
import Mathlib.Data.List.Dedup
import Buildbox.ModuleCache
import Buildbox.Proofs.Engine.Scripted
import Buildbox.Proofs.Host.Task

/-!
What the handles of a module cache share. Handles of a name are asked for and awaited in any order,
while what the source of artifacts holds changes; the first await of a name loads what is held then,
and every later one gets what came of that.
-/

set_option autoImplicit false

namespace Buildbox

def Trace.fetched (trace : Trace) : List String :=
  trace.filterMap fun
    | ⟨.fetch name, _⟩ => some name
    | _ => none

namespace ModuleCache

variable {engine : Engine}

/-- What the source of artifacts holds: the bytes of each name, or why there are none. -/
abbrev Source := String → Except FetchFault Bytes

def Source.Serves (source : Source) (trace : Trace) : Prop :=
  ∀ name answer, Exchange.mk (.fetch name) answer ∈ trace → answer = source name

/-- The task of loading an artifact. -/
def message (name : String) : String :=
  s!"{Progress.gray}Fetching and compiling {name}"

def announcement (name : String) : String :=
  Progress.arrow ++ (message name ++ "...")

/-- What comes of a name when the source holds this for it. -/
def loaded (engine : Engine) (name : String) :
    Except FetchFault Bytes → Except Failure engine.Module
  | .ok bytes => engine.compile bytes []
  | .error fault => .error (.artifactUnavailable name fault.message)

/-- A handle awaited, while the source holds this. -/
structure Await (engine : Engine) where
  name : String
  timing : Bool
  source : Source
  trace : Trace
  result : Except Failure engine.Module

/-- The handle is the one that loads: it announces that, and fetches what the source holds. -/
structure Await.Loads (a : Await engine) : Prop where
  result : a.result = loaded engine a.name (a.source a.name)
  trace : Progress.Frames a.timing (message a.name) [⟨.fetch a.name, a.source a.name⟩] a.result
    a.trace

/-- A use of a cache. -/
inductive Use (engine : Engine)
  | get (name : String)
  | await (a : Await engine)

namespace Use

def name : Use engine → String
  | .get name => name
  | .await a => a.name

def requested? : Use engine → Option String
  | .get name => some name
  | .await _ => none

def await? : Use engine → Option (Await engine)
  | .get _ => none
  | .await a => some a

end Use

variable {cache after : ModuleCache engine} {uses : List (Use engine)}

def requested (uses : List (Use engine)) : List String :=
  uses.filterMap Use.requested?

def awaits (uses : List (Use engine)) : List (Await engine) :=
  uses.filterMap Use.await?

/-- What was exchanged with the outside. -/
def traceOf (uses : List (Use engine)) : Trace :=
  (awaits uses).flatMap Await.trace

/-- Uses of a cache from its beginning. A handle is awaited when it has been given out, at any time
and any number of times. -/
inductive History (engine : Engine) : List (Use engine) → ModuleCache engine → Prop
  | start : History engine [] {}
  | get {uses : List (Use engine)} {cache : ModuleCache engine} (name : String)
      (before : History engine uses cache) :
      History engine (uses ++ [.get name]) (cache.request name)
  | await {uses : List (Use engine)} {cache after : ModuleCache engine} {a : Await engine}
      (before : History engine uses cache) (given : a.name ∈ requested uses)
      (ran : Host.Runs (cache.get a.timing a.name) a.trace (a.result, after))
      (served : a.source.Serves a.trace) :
      History engine (uses ++ [.await a]) after

theorem runs_load {timing : Bool} {name : String} {trace : Trace}
    {result : Except Failure engine.Module} :
    Host.Runs (load engine timing name).run trace result ↔
      ∃ held, result = loaded engine name held ∧
        Progress.Frames timing (message name) [⟨.fetch name, held⟩] result trace := by
  rw [load, Progress.runs_task]
  simp only [fetchArtifact, bind_assoc, Host.runs_try_lift_bind]
  constructor
  · rintro ⟨_, ⟨held, first, later, fetched, went, rfl⟩, frames⟩
    obtain rfl := Host.runs_query.mp fetched
    refine ⟨held, ?_⟩
    cases held with
    | error fault =>
      obtain ⟨rfl, rfl⟩ := Host.runs_pure.mp went
      exact ⟨rfl, frames⟩
    | ok bytes =>
      simp only [loaded]
      cases compiled : engine.compile bytes []
      all_goals
        simp only [pure_bind, compiled] at went
        obtain ⟨rfl, rfl⟩ := Host.runs_pure.mp went
        exact ⟨rfl, frames⟩
  · rintro ⟨held, rfl, frames⟩
    refine ⟨_, ⟨held, _, [], Host.runs_query.mpr rfl, ?_, rfl⟩, frames⟩
    cases held with
    | error fault => exact .done _
    | ok bytes =>
      simp only [loaded, pure_bind]
      cases engine.compile bytes [] <;> exact .done _

theorem runs_get {timing : Bool} {name : String} {trace : Trace}
    {result : Except Failure engine.Module} :
    Host.Runs (cache.get timing name) trace (result, after) ↔
      ((cache.request name).result? name = some result ∧ trace = [] ∧
        after = cache.request name) ∨
      ((cache.request name).result? name = none ∧
        Host.Runs (load engine timing name).run trace result ∧
        after = (cache.request name).settle name result) := by
  rw [get]
  cases known : (cache.request name).result? name with
  | some settled =>
    simp only [Host.runs_pure, Prod.mk.injEq, Option.some.injEq, reduceCtorEq, false_and, or_false]
    tauto
  | none =>
    simp only [reduceCtorEq, false_and, false_or, true_and]
    rw [Host.runs_bind]
    constructor
    · rintro ⟨reached, first, later, ran, ended, rfl⟩
      obtain ⟨rfl, same⟩ := Host.runs_pure.mp ended
      cases same
      rw [List.append_nil]
      exact ⟨ran, rfl⟩
    · rintro ⟨ran, rfl⟩
      exact ⟨result, trace, [], ran, .done _, (List.append_nil _).symm⟩

theorem request_of_known {name : String} (known : (cache.entries.lookup name).isSome) :
    cache.request name = cache :=
  if_pos known

@[simp] theorem lookup_request (name other : String) :
    (cache.request name).entries.lookup other =
      if other = name then some (cache.result? name) else cache.entries.lookup other := by
  cases known : cache.entries.lookup name with
  | some state =>
    rw [request_of_known (by simp [known]), result?, known]
    split
    · next same => rw [same, known, Option.join_some]
    · rfl
  | none =>
    have added : cache.request name = ⟨cache.entries ++ [(name, none)]⟩ := by
      simp [request, known]
    rw [added, List.lookup_append, result?, known, List.lookup_cons]
    by_cases same : other = name
    · simp [same, known]
    · simp [same, beq_false_of_ne same]

private theorem lookup_map {α : Type} (table : List (String × α)) (change : String → α → α)
    (key : String) :
    (table.map fun entry => (entry.1, change entry.1 entry.2)).lookup key =
      (table.lookup key).map (change key) := by
  induction table with
  | nil => rfl
  | cons entry rest ih =>
    rw [List.map_cons, List.lookup_cons, List.lookup_cons, ih]
    cases here : key == entry.1 with
    | true => rw [eq_of_beq here, Option.map_some]
    | false => rfl

private theorem entries_settle (name : String) (result : Except Failure engine.Module) :
    (cache.settle name result).entries = cache.entries.map fun entry =>
      (entry.1, if entry.1 == name then some result else entry.2) := by
  apply List.map_congr_left
  rintro ⟨key, state⟩ -
  by_cases same : key = name
  · simp [same]
  · simp [same]

@[simp] theorem lookup_settle (name other : String) (result : Except Failure engine.Module) :
    (cache.settle name result).entries.lookup other =
      if other = name then (cache.entries.lookup name).map fun _ => some result
      else cache.entries.lookup other := by
  rw [entries_settle, lookup_map cache.entries fun key state =>
    if key == name then some result else state]
  by_cases same : other = name
  · simp [same]
  · simp [same]

theorem nodup_request {name : String} (distinct : (cache.entries.map Prod.fst).Nodup) :
    ((cache.request name).entries.map Prod.fst).Nodup := by
  cases known : cache.entries.lookup name with
  | some state => rwa [request_of_known (by simp [known])]
  | none =>
    have added : cache.request name = ⟨cache.entries ++ [(name, none)]⟩ := by
      simp [request, known]
    rw [added, List.map_append, List.nodup_append]
    refine ⟨distinct, List.nodup_singleton _, ?_⟩
    intro key among other here same
    obtain rfl := List.mem_singleton.mp here
    obtain ⟨entry, member, rfl⟩ := List.mem_map.mp among
    have unlike := List.lookup_eq_none_iff.mp known entry member
    simp [same] at unlike

/-- What came of a name, by the first of its handles that was awaited. -/
def settled (uses : List (Use engine)) (name : String) : Option (Except Failure engine.Module) :=
  ((awaits uses).find? (·.name == name)).map Await.result

@[simp] theorem requested_get (uses : List (Use engine)) (name : String) :
    requested (uses ++ [.get name]) = requested uses ++ [name] := by
  simp [requested, Use.requested?]

@[simp] theorem requested_await (uses : List (Use engine)) (a : Await engine) :
    requested (uses ++ [.await a]) = requested uses := by
  simp [requested, Use.requested?]

@[simp] theorem awaits_get (uses : List (Use engine)) (name : String) :
    awaits (uses ++ [.get name]) = awaits uses := by
  simp [awaits, Use.await?]

@[simp] theorem awaits_await (uses : List (Use engine)) (a : Await engine) :
    awaits (uses ++ [.await a]) = awaits uses ++ [a] := by
  simp [awaits, Use.await?]

@[simp] theorem settled_get (uses : List (Use engine)) (name other : String) :
    settled (uses ++ [.get name]) other = settled uses other := by
  rw [settled, awaits_get, settled]

@[simp] theorem settled_await (uses : List (Use engine)) (a : Await engine) (name : String) :
    settled (uses ++ [.await a]) name =
      (settled uses name).or (if a.name = name then some a.result else none) := by
  rw [settled, awaits_await, List.find?_append, settled]
  cases (awaits uses).find? (·.name == name) with
  | some earlier => rfl
  | none =>
    by_cases same : a.name = name
    · simp [same]
    · simp [same]

theorem settled_eq_none_iff {name : String} :
    settled uses name = none ↔ ∀ a ∈ awaits uses, a.name ≠ name := by
  simp [settled]

/-- The cache knows the names that were asked for, and of each what its first await came to. -/
structure Keeps (uses : List (Use engine)) (cache : ModuleCache engine) : Prop where
  lookup : ∀ name, cache.entries.lookup name =
    if name ∈ requested uses then some (settled uses name) else none
  distinct : (cache.entries.map Prod.fst).Nodup
  given : ∀ a ∈ awaits uses, a.name ∈ requested uses

namespace Keeps

theorem result?_eq (keeps : Keeps uses cache) (name : String) :
    cache.result? name = settled uses name := by
  rw [result?, keeps.lookup]
  split
  · rfl
  · next unasked =>
    symm
    rw [Option.join_none, settled_eq_none_iff]
    rintro a among rfl
    exact unasked (keeps.given a among)

theorem mem_keys (keeps : Keeps uses cache) {name : String} :
    name ∈ requested uses ↔ name ∈ cache.entries.map Prod.fst := by
  have found := keeps.lookup name
  split at found
  · next asked =>
    obtain ⟨entry, member, here⟩ := List.lookup_isSome_iff.mp (Option.isSome_of_eq_some found)
    exact iff_of_true asked (List.mem_map.mpr ⟨entry, member, (eq_of_beq here).symm⟩)
  · next unasked =>
    refine iff_of_false unasked fun known => ?_
    obtain ⟨entry, member, rfl⟩ := List.mem_map.mp known
    have unlike := List.lookup_eq_none_iff.mp found entry member
    simp at unlike

theorem request_eq (keeps : Keeps uses cache) {name : String} (given : name ∈ requested uses) :
    cache.request name = cache :=
  request_of_known (by rw [keeps.lookup, if_pos given]; rfl)

theorem await_cases (keeps : Keeps uses cache) {a : Await engine} (given : a.name ∈ requested uses)
    (ran : Host.Runs (cache.get a.timing a.name) a.trace (a.result, after))
    (served : a.source.Serves a.trace) :
    (settled uses a.name = some a.result ∧ a.trace = [] ∧ after = cache) ∨
    (settled uses a.name = none ∧ a.Loads ∧ after = cache.settle a.name a.result) := by
  have cases := runs_get.mp ran
  rw [keeps.request_eq given, keeps.result?_eq] at cases
  rcases cases with known | ⟨unknown, loading, rfl⟩
  · exact .inl known
  · obtain ⟨held, came, frames⟩ := runs_load.mp loading
    obtain rfl := served _ held (frames.lies_within.subset (List.mem_singleton.mpr rfl))
    exact .inr ⟨unknown, ⟨came, frames⟩, rfl⟩

theorem get (keeps : Keeps uses cache) (name : String) :
    Keeps (uses ++ [.get name]) (cache.request name) where
  lookup other := by
    rw [lookup_request, keeps.result?_eq, keeps.lookup, requested_get, settled_get]
    by_cases same : other = name
    · simp [same]
    · simp [same]
  distinct := nodup_request keeps.distinct
  given a among := by
    rw [awaits_get] at among
    rw [requested_get]
    exact List.mem_append_left _ (keeps.given a among)

theorem await (keeps : Keeps uses cache) {a : Await engine} (given : a.name ∈ requested uses)
    (ran : Host.Runs (cache.get a.timing a.name) a.trace (a.result, after))
    (served : a.source.Serves a.trace) : Keeps (uses ++ [.await a]) after := by
  have given_all : ∀ b ∈ awaits (uses ++ [.await a]), b.name ∈ requested (uses ++ [.await a]) := by
    rw [awaits_await, requested_await]
    intro b among
    rcases List.mem_append.mp among with among | here
    · exact keeps.given b among
    · obtain rfl := List.mem_singleton.mp here
      exact given
  rcases keeps.await_cases given ran served with ⟨known, -, rfl⟩ | ⟨unknown, -, rfl⟩
  · refine ⟨fun name => ?_, keeps.distinct, given_all⟩
    rw [keeps.lookup, requested_await, settled_await]
    by_cases same : a.name = name
    · obtain rfl := same
      rw [known, Option.some_or]
    · rw [if_neg same, Option.or_none]
  · refine ⟨fun name => ?_, ?_, given_all⟩
    · rw [lookup_settle, keeps.lookup, keeps.lookup, requested_await, settled_await, if_pos given]
      by_cases same : name = a.name
      · simp [same, unknown, given]
      · simp [same, Ne.symm same]
    · rw [entries_settle, List.map_map]
      exact keeps.distinct

end Keeps

theorem History.keeps (history : History engine uses cache) : Keeps uses cache := by
  induction history with
  | start => exact ⟨fun _ => rfl, .nil, fun _ => nofun⟩
  | get name before ih => exact ih.get name
  | await before given ran served ih => exact ih.await given ran served

theorem History.settled_of_mem (history : History engine uses cache) :
    ∀ a ∈ awaits uses, settled uses a.name = some a.result := by
  induction history with
  | start => exact fun _ => nofun
  | get name before ih =>
    intro a among
    rw [awaits_get] at among
    rw [settled_get]
    exact ih a among
  | @await uses cache after a before given ran served ih =>
    intro b among
    rw [settled_await]
    rw [awaits_await] at among
    rcases List.mem_append.mp among with among | here
    · rw [ih b among, Option.some_or]
    · obtain rfl := List.mem_singleton.mp here
      rcases before.keeps.await_cases given ran served with ⟨known, -⟩ | ⟨unknown, -⟩
      · rw [known, Option.some_or]
      · rw [unknown, Option.none_or, if_pos rfl]

theorem History.await_cases {early late : List (Use engine)} {a : Await engine}
    (history : History engine uses cache) (split : uses = early ++ .await a :: late) :
    (settled early a.name = some a.result ∧ a.trace = []) ∨
      (settled early a.name = none ∧ a.Loads) := by
  induction history generalizing late with
  | start => cases early <;> cases split
  | get name before ih =>
    rcases split_concat split with ⟨-, impossible, -⟩ | ⟨rest, rfl, -⟩
    · cases impossible
    · exact ih rfl
  | await before given ran served ih =>
    rcases split_concat split with ⟨rfl, same, -⟩ | ⟨rest, rfl, -⟩
    · cases same
      rcases before.keeps.await_cases given ran served with ⟨known, quiet, -⟩ | ⟨unknown, loads, -⟩
      · exact .inl ⟨known, quiet⟩
      · exact .inr ⟨unknown, loads⟩
    · exact ih rfl

theorem History.of_append {early late : List (Use engine)}
    (history : History engine (early ++ late) cache) : ∃ cache, History engine early cache := by
  induction late using List.reverseRecOn generalizing cache with
  | nil => exact ⟨cache, by simpa using history⟩
  | append_singleton late last ih =>
    rw [← List.append_assoc] at history
    generalize whole : early ++ late ++ [last] = uses at history
    cases history with
    | start => simp at whole
    | get name before =>
      obtain ⟨rfl, -⟩ := List.append_inj' whole rfl
      exact ih before
    | await before given ran served =>
      obtain ⟨rfl, -⟩ := List.append_inj' whole rfl
      exact ih before

private theorem toList_announcement (name : String) :
    (announcement name).toList =
      Progress.arrow.toList ++ Progress.gray.toList ++ "Fetching and compiling ".toList ++
        name.toList ++ "...".toList := by
  have whole : announcement name =
      Progress.arrow ++ (Progress.gray ++ ("Fetching and compiling " ++ name) ++ "...") := by
    simp only [announcement, message, String.append_assoc]
    rfl
  simp [whole, -String.reduceToList]

theorem announcement_inj {name other : String} :
    announcement name = announcement other ↔ name = other := by
  rw [← String.toList_inj, toList_announcement, toList_announcement]
  simp [String.toList_inj]

private theorem announcement_not_mem {timing : Bool} {begun : Nat} {closing : Trace}
    (closes : Progress.Closes timing begun closing) (name : String) :
    announcement name ∉ closing.texts := by
  -- an announcement begins with the escape of its colour
  have other (text : String) (head : text.toList.head? ≠ some '\x1b') :
      announcement name ≠ text := by
    rintro rfl
    rw [toList_announcement] at head
    exact head rfl
  cases closes with
  | plain =>
    have done := other " done." (by simp)
    have ended := other "\r\n" (by simp)
    simp [Trace.texts, done, ended]
  | timed now =>
    have done := other " done." (by simp)
    have ended := other "\r\n" (by simp)
    have timed (duration : String) :
        announcement name ≠ s!" {Progress.green}({duration}s){Progress.normal}\r\n" := by
      refine other _ ?_
      change (" " ++ _ ++ _ ++ _ ++ _ ++ _ ++ _).toList.head? ≠ _
      simp
    simp [Trace.texts, done, ended, timed]

theorem fetched_closes {timing : Bool} {begun : Nat} {closing : Trace}
    (closes : Progress.Closes timing begun closing) : closing.fetched = [] := by
  cases closes <;> rfl

namespace Await.Loads

variable {a : Await engine}

theorem parts (loads : a.Loads) : ∃ (begun : Nat) (closing : Trace),
    a.trace = Progress.opening (message a.name) begun ++
      ⟨.fetch a.name, a.source a.name⟩ :: closing ∧
    (closing = [] ∨ Progress.Closes a.timing begun closing) := by
  obtain ⟨-, frames⟩ := loads
  generalize a.result = result, a.trace = trace at frames
  cases frames with
  | failed begun failure => exact ⟨begun, [], rfl, .inl rfl⟩
  | @done begun closing module closes => exact ⟨begun, closing, by simp, .inr closes⟩

theorem serves (loads : a.Loads) : a.source.Serves a.trace := by
  intro name answer among
  obtain ⟨begun, closing, parts, ending⟩ := loads.parts
  rw [parts, List.mem_append, List.mem_cons] at among
  rcases among with early | here | late
  · simp [Progress.opening] at early
  · cases here
    rfl
  · rcases ending with rfl | closes
    · cases late
    · have fetched : name ∈ closing.fetched := List.mem_filterMap.mpr ⟨_, late, rfl⟩
      rw [fetched_closes closes] at fetched
      cases fetched

theorem fetched (loads : a.Loads) : a.trace.fetched = [a.name] := by
  obtain ⟨begun, closing, parts, ending⟩ := loads.parts
  have none_after : closing.fetched = [] := by
    rcases ending with rfl | closes
    · rfl
    · exact fetched_closes closes
  rw [parts, Trace.fetched, List.filterMap_append, List.filterMap_cons, ← Trace.fetched,
    ← Trace.fetched, none_after]
  rfl

theorem announced (loads : a.Loads) (name : String) :
    a.trace.texts.count (announcement name) = [a.name].count name := by
  obtain ⟨begun, closing, parts, ending⟩ := loads.parts
  have quiet : closing.texts.count (announcement name) = 0 := by
    rw [List.count_eq_zero]
    rcases ending with rfl | closes
    · exact List.not_mem_nil
    · exact announcement_not_mem closes name
  rw [parts, Trace.texts, List.filterMap_append, List.filterMap_cons, ← Trace.texts,
    ← Trace.texts, List.count_append, quiet]
  change [announcement a.name].count (announcement name) = _
  simp only [List.count_singleton, beq_iff_eq, announcement_inj]

end Await.Loads

theorem traceOf_await (uses : List (Use engine)) (a : Await engine) :
    traceOf (uses ++ [.await a]) = traceOf uses ++ a.trace := by
  rw [traceOf, awaits_await, List.flatMap_append, List.flatMap_singleton, traceOf]

theorem fetched_append (first later : Trace) :
    (first ++ later).fetched = first.fetched ++ later.fetched :=
  List.filterMap_append

theorem History.fetched_once (history : History engine uses cache) :
    (traceOf uses).fetched.Nodup ∧
      ∀ name, name ∈ (traceOf uses).fetched ↔ ∃ a ∈ awaits uses, a.name = name := by
  induction history with
  | start => exact ⟨.nil, fun _ => by simp [traceOf, awaits, Trace.fetched]⟩
  | get name before ih => rwa [traceOf, awaits_get]
  | @await uses cache after a before given ran served ih =>
    obtain ⟨once, exactly⟩ := ih
    rw [traceOf_await, fetched_append, awaits_await]
    rcases before.keeps.await_cases given ran served with ⟨known, quiet, -⟩ | ⟨unknown, loads, -⟩
    · obtain ⟨b, earlier, same⟩ : ∃ b ∈ awaits uses, b.name = a.name := by
        by_contra none_before
        have unknown := settled_eq_none_iff.mpr fun b among same => none_before ⟨b, among, same⟩
        rw [unknown] at known
        cases known
      have nothing : Trace.fetched a.trace = [] := by rw [quiet]; rfl
      rw [nothing, List.append_nil]
      refine ⟨once, fun name => (exactly name).trans ?_⟩
      constructor
      · rintro ⟨c, among, rfl⟩
        exact ⟨c, List.mem_append_left _ among, rfl⟩
      · rintro ⟨c, among, rfl⟩
        rcases List.mem_append.mp among with among | here
        · exact ⟨c, among, rfl⟩
        · obtain rfl := List.mem_singleton.mp here
          exact ⟨b, earlier, same⟩
    · have fresh : a.name ∉ (traceOf uses).fetched := by
        rw [exactly]
        rintro ⟨b, among, same⟩
        exact settled_eq_none_iff.mp unknown b among same
      rw [loads.fetched]
      constructor
      · exact List.nodup_append.mpr ⟨once, List.nodup_singleton _,
          fun name among other here same => fresh (List.mem_singleton.mp here ▸ same ▸ among)⟩
      · intro name
        simp [exactly, or_and_right, exists_or, eq_comm]

theorem History.announced (history : History engine uses cache) (name : String) :
    (traceOf uses).texts.count (announcement name) = (traceOf uses).fetched.count name := by
  induction history with
  | start => rfl
  | get other before ih => rwa [traceOf, awaits_get]
  | @await uses cache after a before given ran served ih =>
    rw [traceOf_await, fetched_append, Trace.texts, List.filterMap_append, ← Trace.texts,
      ← Trace.texts, List.count_append, List.count_append, ih]
    rcases before.keeps.await_cases given ran served with ⟨-, quiet, -⟩ | ⟨-, loads, -⟩
    · rw [quiet]
      rfl
    · rw [loads.announced, loads.fetched]

theorem get_congr {alone : ModuleCache engine} {timing : Bool} {name : String} {trace : Trace}
    {result : Except Failure engine.Module}
    (same : alone.entries.lookup name = cache.entries.lookup name)
    (ran : Host.Runs (cache.get timing name) trace (result, after)) :
    ∃ left, Host.Runs (alone.get timing name) trace (result, left) ∧
      left.entries.lookup name = after.entries.lookup name := by
  have agree : (alone.request name).entries.lookup name =
      (cache.request name).entries.lookup name := by
    rw [lookup_request, lookup_request, result?, result?, same]
  have known : (alone.request name).result? name = (cache.request name).result? name := by
    rw [result?, result?, agree]
  rcases runs_get.mp ran with ⟨found, quiet, rfl⟩ | ⟨missing, loading, rfl⟩
  · exact ⟨_, runs_get.mpr (.inl ⟨known.trans found, quiet, rfl⟩), agree⟩
  · refine ⟨_, runs_get.mpr (.inr ⟨known.trans missing, loading, rfl⟩), ?_⟩
    rw [lookup_settle, lookup_settle, agree]

theorem lookup_of_get {timing : Bool} {name other : String} {trace : Trace}
    {result : Except Failure engine.Module} (apart : other ≠ name)
    (ran : Host.Runs (cache.get timing other) trace (result, after)) :
    after.entries.lookup name = cache.entries.lookup name := by
  rcases runs_get.mp ran with ⟨-, -, rfl⟩ | ⟨-, -, rfl⟩
  · rw [lookup_request, if_neg apart.symm]
  · rw [lookup_settle, if_neg apart.symm, lookup_request, if_neg apart.symm]

theorem mem_requested {name : String} : name ∈ requested uses ↔ Use.get name ∈ uses := by
  rw [requested, List.mem_filterMap]
  constructor
  · rintro ⟨use | a, among, same⟩
    · cases same
      exact among
    · cases same
  · exact fun among => ⟨_, among, rfl⟩

theorem History.alone (history : History engine uses cache) (name : String) :
    ∃ alone, History engine (uses.filter (·.name == name)) alone ∧
      alone.entries.lookup name = cache.entries.lookup name := by
  induction history with
  | start => exact ⟨_, .start, rfl⟩
  | @get uses cache other before ih =>
    obtain ⟨alone, history, same⟩ := ih
    by_cases here : other = name
    · obtain rfl := here
      have kept : (uses ++ [Use.get other]).filter (·.name == other) =
          uses.filter (·.name == other) ++ [.get other] := by
        simp [Use.name]
      rw [kept]
      refine ⟨_, history.get other, ?_⟩
      rw [lookup_request, lookup_request, result?, result?, same]
    · have gone : (uses ++ [Use.get other]).filter (·.name == name) =
          uses.filter (·.name == name) := by
        simp [Use.name, here]
      rw [gone, lookup_request, if_neg (Ne.symm here)]
      exact ⟨alone, history, same⟩
  | @await uses cache after a before given ran served ih =>
    obtain ⟨alone, history, same⟩ := ih
    by_cases here : a.name = name
    · obtain rfl := here
      have kept : (uses ++ [Use.await a]).filter (·.name == a.name) =
          uses.filter (·.name == a.name) ++ [.await a] := by
        simp [Use.name]
      have given : a.name ∈ requested (uses.filter (·.name == a.name)) :=
        mem_requested.mpr (List.mem_filter.mpr ⟨mem_requested.mp given, by simp [Use.name]⟩)
      obtain ⟨left, went, agree⟩ := get_congr same ran
      rw [kept]
      exact ⟨left, history.await given went served, agree⟩
    · have gone : (uses ++ [Use.await a]).filter (·.name == name) =
          uses.filter (·.name == name) := by
        simp [Use.name, here]
      rw [gone, lookup_of_get here ran]
      exact ⟨alone, history, same⟩

theorem History.awaitable (history : History engine uses cache) :
    ∀ name ∈ requested uses, ∀ timing source, ∃ a after, a.name = name ∧
      a.timing = timing ∧ a.source = source ∧ History engine (uses ++ [.await a]) after := by
  intro name given timing source
  obtain ⟨trace, result, after, ran, served⟩ : ∃ trace result after,
      Host.Runs (cache.get timing name) trace (result, after) ∧ source.Serves trace := by
    cases known : (cache.request name).result? name with
    | some result =>
      exact ⟨_, _, _, runs_get.mpr (.inl ⟨known, rfl, rfl⟩), fun _ _ => nofun⟩
    | none =>
      obtain ⟨trace, frames⟩ := Progress.exists_frames timing (message name)
        [⟨.fetch name, source name⟩] (loaded engine name (source name))
      let a : Await engine := ⟨name, timing, source, trace, loaded engine name (source name)⟩
      have loads : a.Loads := ⟨rfl, frames⟩
      have loading := runs_load.mpr ⟨source name, rfl, frames⟩
      exact ⟨_, _, _, runs_get.mpr (.inr ⟨known, loading, rfl⟩), loads.serves⟩
  exact ⟨⟨name, timing, source, trace, result⟩, after, rfl, rfl, rfl,
    history.await given ran served⟩

/-- What the handles of one name share, whatever the source holds in the meantime. -/
structure Shared (uses : List (Use engine)) (cache : ModuleCache engine) : Prop where
  first : ∀ early a late, uses = early ++ .await a :: late →
    (∀ b ∈ awaits early, b.name ≠ a.name) → a.Loads
  later : ∀ early a late, uses = early ++ .await a :: late →
    ∀ b ∈ awaits early, b.name = a.name → a.trace = [] ∧ a.result = b.result
  /-- no name is fetched twice, and none that is not awaited -/
  fetched : (traceOf uses).fetched.Nodup ∧
    ∀ name, name ∈ (traceOf uses).fetched ↔ ∃ a ∈ awaits uses, a.name = name
  announced : ∀ name,
    (traceOf uses).texts.count (announcement name) = (traceOf uses).fetched.count name
  size : cache.size = (requested uses).toFinset.card
  apart : ∀ name, ∃ alone, History engine (uses.filter (·.name == name)) alone ∧
    alone.result? name = cache.result? name
  awaitable : ∀ name ∈ requested uses, ∀ timing source, ∃ a after, a.name = name ∧
    a.timing = timing ∧ a.source = source ∧ History engine (uses ++ [.await a]) after

/-- Handles of a name share its one load, in whatever order they are asked for and awaited. -/
theorem History.handles_share (history : History engine uses cache) : Shared uses cache where
  first early a late split unlike := by
    rcases history.await_cases split with ⟨known, -⟩ | ⟨-, loads⟩
    · rw [settled_eq_none_iff.mpr unlike] at known
      cases known
    · exact loads
  later early a late split b among same := by
    obtain ⟨before, prior⟩ := (split ▸ history).of_append
    have known := prior.settled_of_mem b among
    rw [same] at known
    rcases history.await_cases split with ⟨given, quiet⟩ | ⟨unknown, -⟩
    · rw [known] at given
      exact ⟨quiet, (Option.some.inj given).symm⟩
    · rw [known] at unknown
      cases unknown
  fetched := history.fetched_once
  announced := history.announced
  size := by
    rw [size, ← List.length_map Prod.fst, ← List.toFinset_card_of_nodup history.keeps.distinct]
    congr 1
    ext name
    rw [List.mem_toFinset, List.mem_toFinset, ← history.keeps.mem_keys]
  apart name := by
    obtain ⟨alone, ran, same⟩ := history.alone name
    exact ⟨alone, ran, by rw [result?, result?, same]⟩
  awaitable := history.awaitable

/-- The engine of scripted modules, to which every binary is the console module. -/
def lenient : Engine :=
  { Engine.scripted with load := fun _ => some Filesystem.consoleModule }

/-- A handle that is awaited when its artifact is gone still gets the module that was loaded. -/
theorem module_outlives_artifact : ∃ (first second : Await lenient) (cache : ModuleCache lenient),
    History lenient [.get "lld.wasm", .await first, .get "lld.wasm", .await second] cache ∧
    first.source "lld.wasm" = .ok [] ∧ second.source "lld.wasm" = .error .notFound ∧
    second.trace = [] ∧ second.result = .ok Filesystem.consoleModule ∧ cache.size = 1 := by
  have unused : History lenient [] {} := .start
  have asked := unused.get "lld.wasm"
  obtain ⟨first, _, named, -, held, loading⟩ := asked.handles_share.awaitable "lld.wasm"
    (List.mem_singleton_self _) false fun _ => .ok []
  have again := loading.get "lld.wasm"
  obtain ⟨second, cache, same, -, gone, history⟩ := again.handles_share.awaitable "lld.wasm"
    (List.mem_cons_self ..) false fun _ => .error .notFound
  have loads := history.handles_share.first [.get "lld.wasm"] first _ rfl fun _ => nofun
  obtain ⟨quiet, shared⟩ := history.handles_share.later
    [.get "lld.wasm", .await first, .get "lld.wasm"] second [] rfl first (List.mem_singleton_self _)
    (named.trans same.symm)
  refine ⟨first, second, cache, history, by rw [held], by rw [gone], quiet, ?_, ?_⟩
  · rw [shared, loads.result, held]
    rfl
  · rw [history.handles_share.size]
    rfl

end ModuleCache

end Buildbox
