import Buildbox.Proofs.Archive.Walk

/-!
A cursor that goes over an image field by field and gives one item at a time. A read that would leave
the image gives nothing at all, and the walk over an image never comes to one: every item it yields
is the item that reading the image as a whole gives.
-/

set_option autoImplicit false

namespace Buildbox.Archive

section Scan

variable (image : Bytes)

def scanBytes (width : Nat) : StateT Nat Option Bytes := fun offset =>
  if offset + width ≤ image.length then some (image.stretch offset width, offset + width) else none

def scanText (width : Nat) : StateT Nat Option String := do
  return (Field.mk 0 width).text (← scanBytes image width)

def scanOctal (width : Nat) : StateT Nat Option Nat := do
  return (Field.mk 0 width).octal (← scanBytes image width)

/-- How many bytes are left, if the place is not behind the image. -/
def scanLeft : StateT Nat Option Nat := fun offset =>
  if offset ≤ image.length then some (image.length - offset, offset) else none

/-- The fields of a header with its tag, or nothing when its magic is another one. -/
def scanHeader : StateT Nat Option (Option (UInt8 × Entry)) := do
  let name ← scanText image 100
  let mode ← scanOctal image 8
  let owner ← scanOctal image 8
  let group ← scanOctal image 8
  let size ← scanOctal image 12
  let modified ← scanOctal image 12
  let checksum ← scanOctal image 8
  let tag ← scanBytes image 1
  let linkName ← scanText image 100
  if (← scanText image 8) != magicText then return none
  let ownerName ← scanText image 32
  let groupName ← scanText image 32
  let deviceMajor ← scanText image 8
  let deviceMinor ← scanText image 8
  let namePrefix ← scanText image 155
  let entry : Entry := {
    body := .directory, name, mode, owner, group, size, modified, checksum, linkName, ownerName,
    groupName, deviceMajor, deviceMinor, namePrefix }
  return some (tag.headD 0, entry)

/-- What follows a header; the place moves to whole records behind the fields and behind the body. -/
def scanBody (tag : UInt8) (entry : Entry) : StateT Nat Option (Except Fault Entry) := do
  modify padded
  if tag == fileTag then
    let available ← scanLeft image
    if available < entry.size then return .error (.truncated entry.name entry.size available)
    let contents ← scanBytes image entry.size
    modify padded
    return .ok { entry with body := .file contents }
  else if tag == directoryTag then
    return .ok entry
  else
    return .error (.unsupported entry.name (Char.ofNat tag.toNat))

/-- One entry or fault, or nothing at the end of the archive. -/
def scanItem : StateT Nat Option (Option (Except Fault Entry)) := do
  let start ← get
  if image.length < start + blockSize then return none
  match ← scanHeader image with
  | none =>
    set start
    return none
  | some (tag, entry) => return some (← scanBody image tag entry)

end Scan

/-- A place in an image, and whether the iteration is over. -/
structure Cursor where
  offset : Nat := 0
  finished : Bool := false

namespace Cursor

/-- The next item, if nothing outside of the image is read for it. Anything but an entry ends the
iteration. -/
def advance (image : Bytes) (cursor : Cursor) : Option (Option (Except Fault Entry) × Cursor) := do
  if cursor.finished then return (none, cursor)
  let (item, offset) ← scanItem image cursor.offset
  match item with
  | some (.ok entry) => return (some (.ok entry), { cursor with offset })
  | item => return (item, ⟨offset, true⟩)

def iterate (image : Bytes) : Nat → Cursor → Option (List (Option (Except Fault Entry)))
  | 0, _ => some []
  | count + 1, cursor => do
    let (item, cursor) ← cursor.advance image
    return item :: (← iterate image count cursor)

end Cursor

private theorem scan_bind {α β : Type} {scan : StateT Nat Option α} {next : α → StateT Nat Option β}
    {offset after : Nat} {a : α} (scanned : scan offset = some (a, after)) :
    (scan >>= next) offset = next a after := by
  show (scan offset >>= fun result => next result.1 result.2) = next a after
  rw [scanned]
  rfl

section Header

variable {image : Bytes} {start : Nat} (inside : start + blockSize ≤ image.length)

include inside

private theorem scanBytes_at (field : Field) (within : field.Inside blockSize) :
    scanBytes image field.width (start + field.offset) =
      some (field.bytes (image.stretch start blockSize), start + (field.offset + field.width)) := by
  have fits : start + field.offset + field.width ≤ image.length := by
    unfold Field.Inside at within
    omega
  rw [scanBytes, if_pos fits, Field.bytes_stretch within, Nat.add_assoc]

private theorem bytes_whole (field : Field) (within : field.Inside blockSize) :
    (Field.mk 0 field.width).bytes (field.bytes (image.stretch start blockSize)) =
      field.bytes (image.stretch start blockSize) := by
  have length : (field.bytes (image.stretch start blockSize)).length = field.width := by
    rw [Field.bytes_stretch within]
    apply length_stretch
    unfold Field.Inside at within
    omega
  rw [Field.bytes, List.drop_zero, ← length, List.take_length]

private theorem scanText_at (field : Field) (within : field.Inside blockSize) :
    scanText image field.width (start + field.offset) =
      some (field.text (image.stretch start blockSize), start + (field.offset + field.width)) := by
  rw [scanText, scan_bind (scanBytes_at inside field within), Field.text, bytes_whole inside field within]
  rfl

private theorem scanOctal_at (field : Field) (within : field.Inside blockSize) :
    scanOctal image field.width (start + field.offset) =
      some (field.octal (image.stretch start blockSize), start + (field.offset + field.width)) := by
  rw [scanOctal, scan_bind (scanBytes_at inside field within), Field.octal, bytes_whole inside field within]
  rfl

private theorem scanHeader_at :
    ∃ after, scanHeader image start =
      if Layout.magic.text (image.stretch start blockSize) = magicText then
        some (some ((Layout.tag.bytes (image.stretch start blockSize)).headD 0,
          .ofHeader (image.stretch start blockSize) .directory), start + 500)
      else some (none, after) := by
  refine ⟨start + 265, ?_⟩
  unfold scanHeader
  refine (scan_bind (scanText_at inside Layout.name (by decide))).trans ?_
  refine (scan_bind (scanOctal_at inside Layout.mode (by decide))).trans ?_
  refine (scan_bind (scanOctal_at inside Layout.owner (by decide))).trans ?_
  refine (scan_bind (scanOctal_at inside Layout.group (by decide))).trans ?_
  refine (scan_bind (scanOctal_at inside Layout.size (by decide))).trans ?_
  refine (scan_bind (scanOctal_at inside Layout.modified (by decide))).trans ?_
  refine (scan_bind (scanOctal_at inside Layout.checksum (by decide))).trans ?_
  refine (scan_bind (scanBytes_at inside Layout.tag (by decide))).trans ?_
  refine (scan_bind (scanText_at inside Layout.linkName (by decide))).trans ?_
  refine (scan_bind (scanText_at inside Layout.magic (by decide))).trans ?_
  by_cases magic : Layout.magic.text (image.stretch start blockSize) = magicText
  · rw [if_neg (by simpa using magic), if_pos magic]
    refine (scan_bind (scanText_at inside Layout.ownerName (by decide))).trans ?_
    refine (scan_bind (scanText_at inside Layout.groupName (by decide))).trans ?_
    refine (scan_bind (scanText_at inside Layout.deviceMajor (by decide))).trans ?_
    refine (scan_bind (scanText_at inside Layout.deviceMinor (by decide))).trans ?_
    refine (scan_bind (scanText_at inside Layout.namePrefix (by decide))).trans ?_
    rfl
  · rw [if_pos (by simpa using magic), if_neg magic]
    rfl

end Header

private theorem padded_fields {start : Nat} (whole : blockSize ∣ start) :
    padded (start + 500) = start + blockSize := by
  rw [padded_add whole]
  rfl

private theorem scanLeft_at {image : Bytes} {offset : Nat} (inside : offset ≤ image.length) :
    scanLeft image offset = some (image.length - offset, offset) :=
  if_pos inside

private theorem scanBody_entry {image : Bytes} {start : Nat} {entry : Entry}
    (whole : blockSize ∣ start) (stands : EntryAt image start entry) {tag : UInt8}
    (tagged : image[start + 156]? = some tag) :
    scanBody image tag { entry with body := .directory } (start + 500) =
      some (.ok entry, start + entry.span) := by
  have body := stands.body
  have inside := stands.header.inside
  unfold scanBody
  refine (scan_bind (a := ()) rfl).trans ?_
  rw [padded_fields whole]
  cases kind : entry.body with
  | file contents =>
    rw [kind] at body
    obtain ⟨file, fits, held⟩ := body
    rw [tagged, Option.some.injEq] at file
    have behind : padded (start + blockSize + entry.size) = start + entry.span := by
      rw [padded_add (Nat.dvd_add whole (Nat.dvd_refl _)), Entry.span, kind, Nat.add_assoc]
    have same : { entry with body := .file contents } = entry := by rw [← kind]
    rw [if_pos (by simpa using file)]
    refine (scan_bind (scanLeft_at inside)).trans ?_
    dsimp only
    rw [if_neg (by omega)]
    refine (scan_bind (if_pos fits)).trans ?_
    refine (scan_bind (a := ()) rfl).trans ?_
    rw [behind, ← held, same]
    rfl
  | directory =>
    rw [kind] at body
    have directory : tag = directoryTag := Option.some.inj (tagged.symm.trans body)
    have span : entry.span = blockSize := by
      rw [Entry.span, kind]
      rfl
    have same : { entry with body := .directory } = entry := by rw [← kind]
    rw [if_neg (by rw [directory]; decide), if_pos (by simpa using directory), span, same]
    rfl

private theorem scanBody_fault {image : Bytes} {start : Nat} {fault : Fault}
    (whole : blockSize ∣ start) (stands : FaultAt image start fault) {tag : UInt8}
    (tagged : image[start + 156]? = some tag) :
    scanBody image tag (.ofHeader (image.stretch start blockSize) .directory) (start + 500) =
      some (.error fault, start + blockSize) := by
  unfold scanBody
  refine (scan_bind (a := ()) rfl).trans ?_
  rw [padded_fields whole]
  cases fault with
  | truncated name needed available =>
    obtain ⟨header, file, named, size, left, short⟩ := stands
    rw [tagged, Option.some.injEq] at file
    rw [if_pos (by simpa using file)]
    refine (scan_bind (scanLeft_at header.inside)).trans ?_
    rw [size, left] at short
    have missing : image.length - (start + blockSize) <
        (Entry.ofHeader (image.stretch start blockSize) .directory).size := short
    rw [if_pos missing, named, size, left]
    rfl
  | unsupported name char =>
    obtain ⟨header, b, byte, no_file, no_directory, named, shown⟩ := stands
    rw [tagged, Option.some.injEq] at byte
    subst byte
    rw [if_neg (by simpa using no_file), if_neg (by simpa using no_directory), named, shown]
    rfl

theorem scanItem_eq {image : Bytes} {start : Nat} (whole : blockSize ∣ start) :
    scanItem image start = match next (image.drop start) with
      | .entry entry _ => some (some (.ok entry), start + entry.span)
      | .fault fault => some (some (.error fault), start + blockSize)
      | .finished => some (none, start) := by
  refine (scan_bind (a := start) rfl).trans ?_
  by_cases header : HeaderAt image start
  · obtain ⟨after, scanned⟩ := scanHeader_at header.inside
    rw [if_pos ((magic_text_iff header.inside).mpr header)] at scanned
    have inside := header.inside
    rw [if_neg (by omega)]
    refine (scan_bind scanned).trans ?_
    rcases next_at_header header with ⟨entry, reading, stands⟩ | ⟨fault, reading, stands⟩
    · have bare : Entry.ofHeader (image.stretch start blockSize) .directory =
          { entry with body := .directory } := by
        rw [stands.fields]
        rfl
      rw [reading, bare]
      exact scan_bind (scanBody_entry whole stands (tag_at header))
    · rw [reading]
      exact scan_bind (scanBody_fault whole stands (tag_at header))
  · rw [next_of_no_header header]
    split
    · rfl
    · rename_i long
      have inside : start + blockSize ≤ image.length := by omega
      obtain ⟨after, scanned⟩ := scanHeader_at inside
      rw [if_neg fun magic => header ((magic_text_iff inside).mp magic)] at scanned
      refine (scan_bind scanned).trans ?_
      rfl

def items (image : Bytes) : List (Except Fault Entry) :=
  (read image).1.map .ok ++ (read image).2.toList.map .error

private theorem items_of_entry {image rest : Bytes} {entry : Entry}
    (reading : next image = .entry entry rest) : items image = .ok entry :: items rest := by
  rw [items, read_of_entry reading]
  rfl

private theorem items_of_fault {image : Bytes} {fault : Fault}
    (reading : next image = .fault fault) : items image = [.error fault] := by
  rw [items, read_of_fault reading]
  rfl

private theorem items_of_finished {image : Bytes} (reading : next image = .finished) :
    items image = [] := by
  rw [items, read_of_finished reading]
  rfl

private theorem iterate_finished (image : Bytes) (count offset : Nat) :
    Cursor.iterate image count ⟨offset, true⟩ = some (List.replicate count none) := by
  induction count with
  | zero => rfl
  | succ count ih =>
    have ended : Cursor.advance image ⟨offset, true⟩ = some (none, ⟨offset, true⟩) := rfl
    rw [Cursor.iterate, ended, List.replicate_succ]
    show (Cursor.iterate image count ⟨offset, true⟩ >>= fun later => some (none :: later)) = _
    rw [ih]
    rfl

private theorem advance_entry {image : Bytes} {start after : Nat} {entry : Entry}
    (scanned : scanItem image start = some (some (.ok entry), after)) :
    Cursor.advance image ⟨start, false⟩ = some (some (.ok entry), ⟨after, false⟩) := by
  unfold Cursor.advance
  rw [if_neg (by simp), scanned]
  rfl

private theorem advance_last {image : Bytes} {start after : Nat}
    {item : Option (Except Fault Entry)} (last : ∀ entry, item ≠ some (.ok entry))
    (scanned : scanItem image start = some (item, after)) :
    Cursor.advance image ⟨start, false⟩ = some (item, ⟨after, true⟩) := by
  unfold Cursor.advance
  rw [if_neg (by simp), scanned]
  rcases item with _ | fault | entry
  · rfl
  · rfl
  · exact absurd rfl (last entry)

private theorem iterate_succ {image : Bytes} {count : Nat} {cursor after : Cursor}
    {item : Option (Except Fault Entry)} (advanced : cursor.advance image = some (item, after)) :
    Cursor.iterate image (count + 1) cursor =
      (Cursor.iterate image count after).map (item :: ·) := by
  rw [Cursor.iterate, advanced]
  show (Cursor.iterate image count after).bind (fun later => some (item :: later)) = _
  rw [Option.map_eq_bind]
  rfl

theorem iterate_from {image : Bytes} {start : Nat} (whole : blockSize ∣ start) (count : Nat) :
    Cursor.iterate image count ⟨start, false⟩ =
      some ((List.range count).map fun place => (items (image.drop start))[place]?) := by
  induction count generalizing start with
  | zero => rfl
  | succ count ih =>
    have scanned := @scanItem_eq image start whole
    rw [List.range_succ_eq_map, List.map_cons, List.map_map]
    cases reading : next (image.drop start) with
    | entry entry rest =>
      rw [reading] at scanned
      obtain ⟨_, rfl⟩ := EntryAt.of_next reading
      have later := ih (Nat.dvd_add whole entry.blockSize_dvd_span)
      rw [iterate_succ (advance_entry scanned), later, items_of_entry reading]
      rfl
    | fault fault =>
      rw [reading] at scanned
      rw [iterate_succ (advance_last (by simp) scanned), iterate_finished, items_of_fault reading]
      simp [Function.comp_def, List.map_const']
    | finished =>
      rw [reading] at scanned
      rw [iterate_succ (advance_last (by simp) scanned), iterate_finished,
        items_of_finished reading]
      simp [Function.comp_def, List.map_const']

section Visitor

variable {ε σ : Type}

def noting (visit : Entry → ExceptT ε (StateM σ) Unit) (entry : Entry) :
    ExceptT ε (StateM (List Entry × σ)) Unit :=
  ExceptT.mk fun (handed, state) =>
    let (result, state) := (visit entry).run.run state
    (result, (handed ++ [entry], state))

/-- A visitor that accepts every one of these entries, one after another. -/
inductive Accepts (visit : Entry → ExceptT ε (StateM σ) Unit) : List Entry → σ → σ → Prop
  | none (state : σ) : Accepts visit [] state state
  | next {entry : Entry} {entries : List Entry} {state middle last : σ} :
    (visit entry).run.run state = (.ok (), middle) → Accepts visit entries middle last →
    Accepts visit (entry :: entries) state last

def Refuses (visit : Entry → ExceptT ε (StateM σ) Unit) (before : List Entry) (entry : Entry)
    (state : σ) (refusal : ε) (last : σ) : Prop :=
  ∃ middle, Accepts visit before state middle ∧
    (visit entry).run.run middle = (.error refusal, last)

private theorem run_bind {τ α β : Type} (action : ExceptT ε (StateM τ) α)
    (next : α → ExceptT ε (StateM τ) β) (state : τ) :
    (action >>= next).run.run state = match action.run.run state with
      | (.ok a, state) => (next a).run.run state
      | (.error refusal, state) => (.error refusal, state) := by
  show StateT.run (action.run >>= ExceptT.bindCont next) state = _
  rw [StateT.run_bind]
  rcases action.run.run state with ⟨refusal | a, state⟩
  · rfl
  · rfl

private theorem run_noting (visit : Entry → ExceptT ε (StateM σ) Unit) (entry : Entry)
    (handed : List Entry) (state : σ) :
    (noting visit entry).run.run (handed, state) =
      (((visit entry).run.run state).1, (handed ++ [entry], ((visit entry).run.run state).2)) :=
  rfl

private theorem run_forM_noting (visit : Entry → ExceptT ε (StateM σ) Unit) (entries : List Entry)
    (handed : List Entry) (state : σ) :
    (∃ last, Accepts visit entries state last ∧
      (entries.forM (noting visit)).run.run (handed, state) = (.ok (), (handed ++ entries, last))) ∨
    ∃ before entry after refusal last, entries = before ++ entry :: after ∧
      Refuses visit before entry state refusal last ∧
      (entries.forM (noting visit)).run.run (handed, state) =
        (.error refusal, (handed ++ before ++ [entry], last)) := by
  induction entries generalizing handed state with
  | nil =>
    refine .inl ⟨state, .none state, ?_⟩
    rw [List.append_nil]
    rfl
  | cons entry entries ih =>
    have first : (entry :: entries).forM (noting visit) =
        (noting visit entry >>= fun _ => entries.forM (noting visit)) := rfl
    rw [first, run_bind, run_noting]
    rcases visited : (visit entry).run.run state with ⟨refusal | done, middle⟩
    · refine .inr ⟨[], entry, entries, refusal, middle, rfl, ⟨state, .none state, visited⟩, ?_⟩
      rw [List.append_nil]
    · dsimp only
      rcases ih (handed ++ [entry]) middle with ⟨last, accepted, run⟩ |
        ⟨before, refused, after, refusal, last, rfl, ⟨turn, accepted, refusing⟩, run⟩
      · refine .inl ⟨last, .next visited accepted, ?_⟩
        rw [run, List.append_assoc]
        rfl
      · refine .inr ⟨entry :: before, refused, after, refusal, last, rfl,
          ⟨turn, .next visited accepted, refusing⟩, ?_⟩
        rw [run]
        simp only [List.append_assoc, List.cons_append, List.nil_append]

theorem unpack_noting (ofFault : Fault → ε) (visit : Entry → ExceptT ε (StateM σ) Unit)
    (image : Bytes) (state : σ) :
    (∃ last, Accepts visit (read image).1 state last ∧
      (unpack ofFault (noting visit) image).run.run ([], state) =
        (match (read image).2 with
          | some fault => .error (ofFault fault)
          | none => .ok (read image).1.length, ((read image).1, last))) ∨
    ∃ before entry after refusal last, (read image).1 = before ++ entry :: after ∧
      Refuses visit before entry state refusal last ∧
      (unpack ofFault (noting visit) image).run.run ([], state) =
        (.error refusal, (before ++ [entry], last)) := by
  have unpacked : unpack ofFault (noting visit) image =
      ((read image).1.forM (noting visit) >>= fun _ => match (read image).2 with
        | some fault => throw (ofFault fault)
        | none => pure (read image).1.length) := rfl
  rw [unpacked, run_bind]
  rcases run_forM_noting visit (read image).1 [] state with ⟨last, accepted, run⟩ |
    ⟨before, entry, after, refusal, last, split, refused, run⟩
  · refine .inl ⟨last, accepted, ?_⟩
    rw [run]
    cases (read image).2 <;> rfl
  · refine .inr ⟨before, entry, after, refusal, last, split, refused, ?_⟩
    rw [run]
    rfl

end Visitor

/-- Iterating over an image reads nothing outside of it and gives its entries one by one, each behind
the one before it, then at most one fault, then nothing. What stands behind the last entry decides
how it ends. A visitor is handed these entries, in this order, up to the first fault or refusal. -/
theorem image_walk_exact (image : Bytes) :
    let entries := (read image).1
    let fault := (read image).2
    let offset := offsetAfter entries
    (∀ count, Cursor.iterate image count {} = some ((List.range count).map fun place =>
      (entries.map Except.ok ++ fault.toList.map Except.error)[place]?)) ∧
    entries.length ≤ image.length / 512 ∧
    offset 0 = 0 ∧
    (∀ k entry, entries[k]? = some entry →
      EntryAt image (offset k) entry ∧
      offset (k + 1) = offset k + 512 + match entry.body with
        | .file _ => padded entry.size
        | .directory => 0) ∧
    (fault = none ↔ ¬ HeaderAt image (offset entries.length)) ∧
    (∀ f, fault = some f ↔ FaultAt image (offset entries.length) f) ∧
    ∀ (ε σ : Type) (ofFault : Fault → ε) (visit : Entry → ExceptT ε (StateM σ) Unit) (state : σ),
      (∃ last, Accepts visit entries state last ∧
        (unpack ofFault (noting visit) image).run.run ([], state) =
          (match fault with
            | some fault => .error (ofFault fault)
            | none => .ok entries.length, (entries, last))) ∨
      ∃ before entry after refusal last, entries = before ++ entry :: after ∧
        Refuses visit before entry state refusal last ∧
        (unpack ofFault (noting visit) image).run.run ([], state) =
          (.error refusal, (before ++ [entry], last)) := by
  intro entries fault offset
  refine ⟨fun count => ?_, length_read_le image, rfl, fun k entry there => ⟨?_, ?_⟩,
    read_ends_iff image, read_fails_iff image, fun ε σ ofFault visit state => ?_⟩
  · exact iterate_from (Nat.dvd_zero _) count
  · exact entryAt_of_getElem? there
  · have next := offsetAfter_succ there
    rw [Entry.span, ← Nat.add_assoc] at next
    exact next
  · exact unpack_noting ofFault visit image state

end Buildbox.Archive
