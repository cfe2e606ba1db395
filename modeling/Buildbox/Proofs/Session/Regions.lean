import Buildbox.Proofs.Host.Trace
import Buildbox.Proofs.Session.Lines

/-!
Lines in regions. Whatever is sent when, a line is stored in the region of the generation that its
reply was made for, or dropped once that is retired; only the threads of that generation read it.
-/

set_option autoImplicit false

namespace Buildbox.Session.Lines

variable {engine : Engine} {config : Config} {trace events : List Event} {s t : Scene engine}

def received (config : Config) (line : String) : Bytes :=
  Bytes.ofString (Utf8.lossy
    ((InputRegion.new config.inputCapacity.toNat).fitting (Bytes.ofString line)))

def Event.Moves (place : Place) : Event → Prop
  | .sent other _ stored => other = place ∧ stored = true
  | .read _ other line => other = place ∧ line ≠ none
  | _ => False

/-- A reply to this region was made for a request of this generation, and none for another one. -/
structure Replied (early : List Event) (generation : Generation) (place : Place) : Prop where
  order : [.posted generation .readLine, .asked generation place].Sublist early
  only : ∀ other, .asked other place ∈ early → other = generation

/-- A line that was sent through a reply for this generation is the last that was done to the
region. -/
def Stored (early : List Event) (generation : Generation) (place : Place) (line : String) : Prop :=
  ∃ first later, early = first ++ .sent place line true :: later ∧
    Replied first generation place ∧ ∀ event ∈ later, ¬ event.Moves place

/-- What an event says of what happened before: a reply is made for a request; a line that is sent
is stored for the generation of its reply until that is retired; and a thread reads the line that
was stored last for its own generation, and none any more once it is retired. -/
def Event.Lawful (config : Config) (early : List Event) : Event → Prop
  | .asked generation place =>
    .posted generation .readLine ∈ early ∧ ∀ other, .asked other place ∈ early → other = generation
  | .sent place _ stored => ∃ generation, Replied early generation place ∧
    (stored = true ↔ .retired generation ∉ early)
  | .read generation place (some bytes) => .retired generation ∉ early ∧
    ∃ line, Stored early generation place line ∧ bytes = received config line
  | .read generation place none => .retired generation ∈ early ∧
    ∀ other, .asked other place ∈ early → other = generation
  | .posted .. | .retired _ => True

/-- What is in the region at a place after what happened. -/
inductive Slot (config : Config) (trace : List Event) (place : Place) : InputRegion → Prop
  | empty : Slot config trace place (.new config.inputCapacity.toNat)
  | full {input : InputRegion} {line : String} (sized : input.Sized config.inputCapacity.toNat)
      (isOpen : input.isClosed = false) (stored : Stored trace (place + 1) place line) :
      Slot config trace place (input.post (Bytes.ofString line)).2
  | closed {input : InputRegion} (gone : input.isClosed = true) : Slot config trace place input

theorem Stored.mono {generation : Generation} {place : Place} {line : String}
    (stored : Stored trace generation place line)
    (still : ∀ event ∈ events, ¬ event.Moves place) :
    Stored (trace ++ events) generation place line := by
  obtain ⟨first, later, rfl, replied, untouched⟩ := stored
  refine ⟨first, later ++ events, (List.append_assoc ..), replied, fun event among => ?_⟩
  rcases List.mem_append.mp among with earlier | new
  · exact untouched event earlier
  · exact still event new

theorem Slot.mono {place : Place} {input : InputRegion} (slot : Slot config trace place input)
    (still : ∀ event ∈ events, ¬ event.Moves place) :
    Slot config (trace ++ events) place input := by
  cases slot with
  | empty => exact .empty
  | full sized isOpen stored => exact .full sized isOpen (stored.mono still)
  | closed gone => exact .closed gone

theorem Slot.sized {place : Place} {input : InputRegion} (slot : Slot config trace place input)
    (isOpen : input.isClosed = false) : input.Sized config.inputCapacity.toNat := by
  cases slot with
  | empty => exact InputRegion.sized_new _
  | full sized before stored => exact (sized.post before _).2.2.1
  | closed gone => exact absurd (gone.symm.trans isOpen) (by decide)

theorem Slot.taken {place : Place} {input rest : InputRegion} {bytes : Bytes}
    (slot : Slot config trace place input) (taken : input.take = .line bytes rest) :
    input.isClosed = false ∧ rest = .new config.inputCapacity.toNat ∧
      ∃ line, Stored trace (place + 1) place line ∧ bytes = received config line := by
  cases slot with
  | empty =>
    rw [InputRegion.take_new] at taken
    cases taken
  | @full input line sized isOpen stored =>
    obtain ⟨-, still_open, -, gives⟩ := sized.post isOpen (Bytes.ofString line)
    rw [gives] at taken
    cases taken
    exact ⟨still_open, rfl, line, stored, rfl⟩
  | closed gone =>
    rw [InputRegion.take_of_closed gone] at taken
    cases taken

/-- The regions after what happened: those of retired generations are closed, and what is in the
others was stored for their own. -/
structure Regions (config : Config) (trace : List Event) (inputs : List InputRegion) : Prop where
  asked : ∀ generation place, .asked generation place ∈ trace → generation = place + 1
  retired : ∀ generation, .retired generation ∈ trace →
    ∃ place < inputs.length, generation = place + 1
  closed : ∀ place input, inputs[place]? = some input →
    (input.isClosed = true ↔ .retired (place + 1) ∈ trace)
  slots : ∀ place input, inputs[place]? = some input → Slot config trace place input

namespace Regions

variable {inputs later : List InputRegion}

private theorem start (config : Config) :
    Regions config [] [.new config.inputCapacity.toNat] := by
  have only {place : Place} {input : InputRegion}
      (found : [InputRegion.new config.inputCapacity.toNat][place]? = some input) :
      input = .new config.inputCapacity.toNat := by
    obtain ⟨inside, rfl⟩ := List.getElem?_eq_some_iff.mp found
    exact List.getElem_singleton inside
  refine ⟨fun _ _ => nofun, fun _ => nofun, fun place input found => ?_,
    fun place input found => ?_⟩
  · rw [only found, InputRegion.isClosed_new]
    exact ⟨nofun, nofun⟩
  · rw [only found]
    exact .empty

private theorem note (regions : Regions config trace inputs) {event : Event}
    (asked : ∀ generation place, event = .asked generation place → generation = place + 1)
    (retired : ∀ generation, event ≠ .retired generation)
    (still : ∀ place, ¬ event.Moves place) : Regions config (trace ++ [event]) inputs := by
  have earlier {generation : Generation} :
      .retired generation ∈ trace ++ [event] ↔ .retired generation ∈ trace := by
    refine ⟨fun among => ?_, List.mem_append_left _⟩
    rcases List.mem_append.mp among with earlier | new
    · exact earlier
    · exact absurd (List.mem_singleton.mp new).symm (retired generation)
  refine ⟨fun generation place among => ?_, fun generation among => ?_, fun place input found => ?_,
    fun place input found => ?_⟩
  · rcases List.mem_append.mp among with earlier | new
    · exact regions.asked generation place earlier
    · exact asked generation place (List.mem_singleton.mp new).symm
  · exact regions.retired generation (earlier.mp among)
  · rw [earlier]
    exact regions.closed place input found
  · refine (regions.slots place input found).mono fun other among => ?_
    rw [List.mem_singleton.mp among]
    exact still place

private theorem set (regions : Regions config trace inputs) {event : Event} {place : Place}
    {input next : InputRegion} (found : inputs[place]? = some input)
    (asked : ∀ generation other, event ≠ .asked generation other)
    (retired : ∀ generation, event = .retired generation → generation = place + 1)
    (closed : next.isClosed = true ↔ input.isClosed = true ∨ event = .retired (place + 1))
    (still : ∀ other, other ≠ place → ¬ event.Moves other)
    (slot : Slot config (trace ++ [event]) place next) :
    Regions config (trace ++ [event]) (inputs.set place next) := by
  have inside : place < inputs.length := (List.getElem?_eq_some_iff.mp found).1
  have split {other : Place} {region : InputRegion}
      (at_other : (inputs.set place next)[other]? = some region) :
      (other = place ∧ region = next) ∨ (other ≠ place ∧ inputs[other]? = some region) := by
    rw [List.getElem?_set] at at_other
    split at at_other
    · next same =>
      exact .inl ⟨same.symm, (Option.some.inj at_other).symm⟩
    · next different => exact .inr ⟨fun same => different same.symm, at_other⟩
  have new {e : Event} : e ∈ trace ++ [event] ↔ e ∈ trace ∨ event = e := by
    rw [List.mem_append, List.mem_singleton, eq_comm]
  refine ⟨fun generation other among => ?_, fun generation among => ?_,
    fun other region at_other => ?_, fun other region at_other => ?_⟩
  · rcases new.mp among with earlier | same
    · exact regions.asked generation other earlier
    · exact absurd same (asked generation other)
  · rw [List.length_set]
    rcases new.mp among with earlier | same
    · exact regions.retired generation earlier
    · exact ⟨place, inside, retired generation same⟩
  · rw [new]
    rcases split at_other with ⟨rfl, rfl⟩ | ⟨different, before⟩
    · rw [closed, regions.closed other input found]
    · rw [regions.closed other region before]
      refine ⟨.inl, fun either => either.resolve_right fun same => ?_⟩
      exact different (Nat.succ.inj (retired _ same))
  · rcases split at_other with ⟨rfl, rfl⟩ | ⟨different, before⟩
    · exact slot
    · refine (regions.slots other region before).mono fun e among => ?_
      rw [List.mem_singleton.mp among]
      exact still other different

private theorem add (regions : Regions config trace inputs) :
    Regions config trace (inputs ++ [.new config.inputCapacity.toNat]) := by
  have split {place : Place} {input : InputRegion}
      (found : (inputs ++ [.new config.inputCapacity.toNat])[place]? = some input) :
      inputs[place]? = some input ∨
        (place = inputs.length ∧ input = .new config.inputCapacity.toNat) := by
    rw [List.getElem?_append] at found
    split at found
    · exact .inl found
    · next beyond =>
      obtain ⟨inside, same⟩ := List.getElem?_eq_some_iff.mp found
      have within : place ≤ inputs.length := Nat.le_of_sub_eq_zero (Nat.lt_one_iff.mp inside)
      rw [List.getElem_singleton] at same
      exact .inr ⟨Nat.le_antisymm within (Nat.le_of_not_lt beyond), same.symm⟩
  refine ⟨regions.asked, fun generation among => ?_, fun place input found => ?_,
    fun place input found => ?_⟩
  · obtain ⟨place, inside, same⟩ := regions.retired generation among
    refine ⟨place, ?_, same⟩
    rw [List.length_append]
    exact Nat.lt_add_right _ inside
  · rcases split found with before | ⟨rfl, rfl⟩
    · exact regions.closed place input before
    · rw [InputRegion.isClosed_new]
      refine ⟨nofun, fun among => ?_⟩
      obtain ⟨place, inside, same⟩ := regions.retired _ among
      cases same
      exact absurd inside (Nat.lt_irrefl _)
  · rcases split found with before | ⟨rfl, rfl⟩
    · exact regions.slots place input before
    · exact .empty

theorem replied (regions : Regions config trace inputs) {place : Place}
    (source : [.posted (place + 1) .readLine, .asked (place + 1) place].Sublist trace) :
    Replied trace (place + 1) place :=
  ⟨source, fun other among => regions.asked other place among⟩

theorem accepts (regions : Regions config trace inputs) {place : Place} {input : InputRegion}
    (found : inputs[place]? = some input) (line : Bytes) :
    (input.post line).1 = true ↔ .retired (place + 1) ∉ trace := by
  rw [← regions.closed place input found, Bool.not_eq_true]
  cases gone : input.isClosed with
  | true =>
    rw [InputRegion.post_of_closed gone]
    exact ⟨nofun, nofun⟩
  | false =>
    obtain ⟨taken, -⟩ := ((regions.slots place input found).sized gone).post gone line
    exact ⟨fun _ => rfl, fun _ => taken⟩

private theorem send (regions : Regions config trace inputs) {place : Place} {input : InputRegion}
    (line : String) (found : inputs[place]? = some input)
    (source : [.posted (place + 1) .readLine, .asked (place + 1) place].Sublist trace) :
    Regions config (trace ++ [.sent place line (input.post (Bytes.ofString line)).1])
        (inputs.set place (input.post (Bytes.ofString line)).2) := by
  cases gone : input.isClosed with
  | true =>
    rw [InputRegion.post_of_closed gone, set_of_found found]
    exact regions.note (fun _ _ => nofun) (fun _ => nofun) fun _ moves => Bool.false_ne_true moves.2
  | false =>
    have sized := (regions.slots place input found).sized gone
    obtain ⟨taken, still_open, -⟩ := sized.post gone (Bytes.ofString line)
    rw [taken]
    refine regions.set found (fun _ _ => nofun) (fun _ => nofun) ?_ ?_ ?_
    · rw [still_open, gone]
      exact ⟨nofun, fun either => either.elim nofun nofun⟩
    · exact fun other different moves => different moves.1.symm
    · exact .full sized gone ⟨trace, [], rfl, regions.replied source, fun _ => nofun⟩

theorem stirs (regions : Regions config trace inputs)
    (stirs : Stirs config trace inputs events later) :
    Regions config (trace ++ events) later ∧ ∀ event ∈ events, event.Lawful config trace := by
  cases stirs with
  | nothing =>
    rw [List.append_nil]
    exact ⟨regions, fun _ => nofun⟩
  | post generation message =>
    refine ⟨regions.note (fun _ _ => nofun) (fun _ => nofun) fun _ => id, fun event among => ?_⟩
    rw [List.mem_singleton.mp among]
    trivial
  | @ask place source =>
    refine ⟨regions.note ?_ (fun _ => nofun) fun _ => id, fun event among => ?_⟩
    · rintro generation other ⟨⟩
      rfl
    · rw [List.mem_singleton.mp among]
      exact ⟨source, fun other among => regions.asked other place among⟩
  | @send place input line source found =>
    refine ⟨regions.send line found source, fun event among => ?_⟩
    rw [List.mem_singleton.mp among]
    exact ⟨place + 1, regions.replied source, regions.accepts found _⟩
  | @take place input rest bytes found taken =>
    obtain ⟨isOpen, rfl, line, stored, same⟩ := (regions.slots place input found).taken taken
    have unretired : .retired (place + 1) ∉ trace := by
      rw [← regions.closed place input found, isOpen]
      decide
    refine ⟨regions.set found (fun _ _ => nofun) (fun _ => nofun) ?_ ?_ .empty,
      fun event among => ?_⟩
    · rw [InputRegion.isClosed_new, isOpen]
      exact ⟨nofun, fun either => either.elim nofun nofun⟩
    · exact fun other different moves => different moves.1.symm
    · rw [List.mem_singleton.mp among]
      exact ⟨unretired, line, stored, same⟩
  | @miss place input found taken =>
    have gone : input.isClosed = true := by
      cases gone : input.isClosed with
      | true => rfl
      | false =>
        unfold InputRegion.take at taken
        rw [gone] at taken
        split at taken
        · contradiction
        · split at taken <;> cases taken
    refine ⟨regions.note (fun _ _ => nofun) (fun _ => nofun) fun _ moves => moves.2 rfl,
      fun event among => ?_⟩
    rw [List.mem_singleton.mp among]
    exact ⟨(regions.closed place input found).mp gone,
      fun other among => regions.asked other place among⟩
  | @close place input found isOpen =>
    have closes := input.isClosed_close
    refine ⟨regions.set found (fun _ _ => nofun) ?_ ?_ (fun _ _ => id) (.closed closes),
      fun event among => ?_⟩
    · rintro generation ⟨⟩
      rfl
    · rw [closes]
      exact ⟨fun _ => .inr rfl, fun _ => rfl⟩
    · rw [List.mem_singleton.mp among]
      trivial
  | add =>
    rw [List.append_nil]
    exact ⟨regions.add, fun _ => nofun⟩

end Regions

theorem Stirs.events_cases {inputs later : List InputRegion}
    (stirs : Stirs config trace inputs events later) : events = [] ∨ ∃ event, events = [event] := by
  cases stirs with
  | nothing | add => exact .inl rfl
  | post | ask | send | take | miss | close => exact .inr ⟨_, rfl⟩

theorem Stirs.kept {inputs later : List InputRegion}
    (stirs : Stirs config trace inputs events later) {place : Place} {input : InputRegion}
    (found : inputs[place]? = some input) (gone : input.isClosed = true) :
    later[place]? = some input := by
  have inside : place < inputs.length := (List.getElem?_eq_some_iff.mp found).1
  have set {other : Place} {region next : InputRegion} (here : inputs[other]? = some region)
      (same : region.isClosed = true → next = region) :
      (inputs.set other next)[place]? = some input := by
    rw [List.getElem?_set]
    split
    · next here_too =>
      subst here_too
      rw [found] at here
      cases here
      rw [same gone]
      exact if_pos inside
    · exact found
  cases stirs with
  | nothing | post | ask | miss => exact found
  | @send other region line source here =>
    exact set here fun closed => by rw [InputRegion.post_of_closed closed]
  | @take other region rest bytes here taken =>
    refine set here fun closed => ?_
    rw [InputRegion.take_of_closed closed] at taken
    cases taken
  | close here isOpen => exact set here fun closed => absurd (closed.symm.trans isOpen) (by decide)
  | add => exact (List.getElem?_append_left inside).trans found

/-- A session after what happened in it. -/
structure Sound (config : Config) (trace : List Event) (s : Scene engine) : Prop where
  seated : Seated s
  sourced : Sourced trace s
  succession : Succession trace s
  regions : Regions config trace s.inputs
  lawful : ∀ early event late, trace = early ++ event :: late → event.Lawful config early

namespace Sound

theorem start (config : Config) : Sound config [] (.start config : Scene engine) where
  seated := .start config
  sourced := .start config
  succession := .start config
  regions := .start config
  lawful early event late split := by simp at split

theorem stirs (sound : Sound config trace s) (move : Move config s events t) :
    Stirs config trace s.inputs events t.inputs := by
  refine move.stirs sound.seated sound.sourced fun unclosed input found => ?_
  rw [Bool.eq_false_iff, Ne, sound.regions.closed _ _ found, ← sound.seated.number,
    sound.succession]
  rintro ⟨-, impossible | ⟨-, closed⟩⟩
  · exact Nat.lt_irrefl _ impossible
  · exact unclosed closed

theorem move (sound : Sound config trace s) (move : Move config s events t) :
    Sound config (trace ++ events) t := by
  have stirs := sound.stirs move
  obtain ⟨regions, lawful⟩ := sound.regions.stirs stirs
  refine ⟨sound.seated.move move, sound.sourced.move sound.seated move,
    sound.succession.move sound.seated move, regions, ?_⟩
  rcases stirs.events_cases with rfl | ⟨last, rfl⟩
  · rw [List.append_nil]
    exact sound.lawful
  · intro early event late split
    rcases split_concat split with ⟨rfl, rfl, -⟩ | ⟨rest, before, -⟩
    · exact lawful last List.mem_cons_self
    · exact sound.lawful early event rest before

theorem run (sound : Sound config trace s) (run : Run config s events t) :
    Sound config (trace ++ events) t := by
  induction run with
  | here =>
    rw [List.append_nil]
    exact sound
  | step _ move ih =>
    rw [← List.append_assoc]
    exact ih.move move

end Sound

end Buildbox.Session.Lines
