import Buildbox.Proofs.Archive.RoundTrip

/-!
The walk over an image. Each entry starts where the one before it ends, every header and every body
lies inside the image, and the bytes where the walk stops say why it does.
-/

set_option autoImplicit false

namespace Buildbox

def Bytes.stretch (bytes : Bytes) (offset count : Nat) : Bytes :=
  (bytes.drop offset).take count

namespace Archive

/-- The eight bytes of the magic field. -/
def magicBytes : Bytes :=
  Bytes.ofString magicText ++ [0]

/-- A header record starts at a place of an image. -/
structure HeaderAt (image : Bytes) (offset : Nat) : Prop where
  inside : offset + blockSize ≤ image.length
  magic : image.stretch (offset + 257) 8 = magicBytes

/-- The bytes from the start of an entry to the start of the next one. -/
def Entry.span (entry : Entry) : Nat :=
  blockSize + match entry.body with
    | .file _ => padded entry.size
    | .directory => 0

/-- An entry stands at a place of an image, its body included. -/
structure EntryAt (image : Bytes) (offset : Nat) (entry : Entry) : Prop where
  header : HeaderAt image offset
  fields : entry = .ofHeader (image.stretch offset blockSize) entry.body
  body : match entry.body with
    | .file contents =>
      image[offset + 156]? = some fileTag ∧
        offset + blockSize + entry.size ≤ image.length ∧
        contents = image.stretch (offset + blockSize) entry.size
    | .directory => image[offset + 156]? = some directoryTag

/-- A header stands at a place of an image that no entry can be read from. -/
def FaultAt (image : Bytes) (offset : Nat) : Fault → Prop
  | .truncated name needed available =>
    HeaderAt image offset ∧ image[offset + 156]? = some fileTag ∧
      name = Layout.name.text (image.stretch offset blockSize) ∧
      needed = Layout.size.octal (image.stretch offset blockSize) ∧
      available = image.length - (offset + blockSize) ∧ available < needed
  | .unsupported name tag =>
    HeaderAt image offset ∧ ∃ b, image[offset + 156]? = some b ∧ b ≠ fileTag ∧ b ≠ directoryTag ∧
      name = Layout.name.text (image.stretch offset blockSize) ∧ tag = Char.ofNat b.toNat

theorem length_stretch {image : Bytes} {offset count : Nat}
    (inside : offset + count ≤ image.length) : (image.stretch offset count).length = count := by
  rw [Bytes.stretch, List.length_take, List.length_drop]
  omega

theorem Field.bytes_stretch {field : Field} (inside : field.Inside blockSize) (image : Bytes)
    (offset : Nat) :
    field.bytes (image.stretch offset blockSize) =
      image.stretch (offset + field.offset) field.width := by
  have enough : field.width ≤ blockSize - field.offset := by
    unfold Field.Inside at inside
    omega
  rw [Field.bytes, Bytes.stretch, Bytes.stretch, List.drop_take, List.drop_drop, List.take_take,
    Nat.min_eq_left enough]

private theorem magic_iff {bytes : Bytes} (full : bytes.length = 8) :
    Utf8.lossy bytes.beforeNul = magicText ↔ bytes = magicBytes := by
  have sound : Utf8.replacement ∉ magicText.toList := by decide
  rw [Utf8.lossy_eq_iff sound]
  constructor
  · intro before
    have whole : bytes.beforeNul ++ bytes.dropWhile (· != 0) = bytes :=
      List.takeWhile_append_dropWhile
    have text : (Bytes.ofString magicText).length = 7 := rfl
    have lengths := congrArg List.length whole
    rw [before, List.length_append] at lengths
    rcases rest : bytes.dropWhile (· != 0) with _ | ⟨b, more⟩
    · rw [rest, List.length_nil] at lengths
      omega
    · have nul := List.head?_dropWhile_not (· != 0) bytes
      rw [rest] at nul lengths
      have alone : more = [] := by
        apply List.eq_nil_of_length_eq_zero
        simp only [List.length_cons] at lengths
        omega
      have zero : b = 0 := by simpa using nul
      rw [← whole, before, rest, alone, zero]
      rfl
  · intro same
    rw [same]
    rfl

theorem magic_text_iff {image : Bytes} {offset : Nat}
    (inside : offset + blockSize ≤ image.length) :
    Layout.magic.text (image.stretch offset blockSize) = magicText ↔ HeaderAt image offset := by
  have field : Layout.magic.Inside blockSize := by decide
  have bytes := Field.bytes_stretch field image offset
  have full : (image.stretch (offset + 257) 8).length = 8 := by
    apply length_stretch
    unfold blockSize at inside
    omega
  rw [Field.text, bytes]
  exact (magic_iff full).trans ⟨fun same => ⟨inside, same⟩, fun header => header.magic⟩

theorem next_of_header {image : Bytes} {offset : Nat} (header : HeaderAt image offset) :
    next (image.drop offset) =
      nextBody (image.stretch offset blockSize) (image.drop (offset + blockSize)) := by
  have full := length_stretch header.inside
  have magic := (magic_text_iff header.inside).mpr header
  rw [Bytes.stretch] at full magic
  rw [next, full, if_neg (Nat.lt_irrefl _), magic, if_neg (by simp), List.drop_drop]
  rfl

theorem next_of_no_header {image : Bytes} {offset : Nat} (none_there : ¬ HeaderAt image offset) :
    next (image.drop offset) = .finished := by
  rw [next]
  split
  · rfl
  · rename_i long
    have inside : offset + blockSize ≤ image.length := by
      rw [List.length_take, List.length_drop] at long
      unfold blockSize at long ⊢
      omega
    have foreign : Layout.magic.text (image.stretch offset blockSize) ≠ magicText :=
      fun magic => none_there ((magic_text_iff inside).mp magic)
    rw [Bytes.stretch] at foreign
    rw [if_pos (by simpa using foreign)]

theorem tag_at {image : Bytes} {offset : Nat} (header : HeaderAt image offset) :
    image[offset + 156]? =
      some ((Layout.tag.bytes (image.stretch offset blockSize)).headD 0) := by
  have inside := header.inside
  have field : Layout.tag.Inside blockSize := by decide
  have there : offset + 156 < image.length := by
    unfold blockSize at inside
    omega
  have bytes : Layout.tag.bytes (image.stretch offset blockSize) =
      image.stretch (offset + 156) 1 := Field.bytes_stretch field image offset
  rw [bytes, Bytes.stretch, List.drop_eq_getElem_cons there, List.getElem?_eq_getElem there]
  rfl

theorem next_at_header {image : Bytes} {offset : Nat} (header : HeaderAt image offset) :
    (∃ entry, next (image.drop offset) = .entry entry (image.drop (offset + entry.span)) ∧
      EntryAt image offset entry) ∨
    ∃ fault, next (image.drop offset) = .fault fault ∧ FaultAt image offset fault := by
  have reading := next_of_header header
  have tag := tag_at header
  have inside := header.inside
  have available : (image.drop (offset + blockSize)).length =
      image.length - (offset + blockSize) := List.length_drop
  simp only [nextBody] at reading
  split at reading
  · rename_i file
    rw [beq_iff_eq] at file
    rw [file] at tag
    split at reading
    · rename_i short
      refine .inr ⟨_, reading, header, tag, rfl, rfl, ?_, ?_⟩
      · rw [List.length_take] at short ⊢
        omega
      · exact short
    · rename_i whole
      have size : Layout.size.octal (image.stretch offset blockSize) ≤
          image.length - (offset + blockSize) := by
        rw [List.length_take, available] at whole
        omega
      rw [List.drop_drop, Nat.add_assoc] at reading
      refine .inl ⟨_, reading, header, rfl, ?_⟩
      refine ⟨tag, ?_, rfl⟩
      simp only [Entry.ofHeader]
      omega
  · rename_i no_file
    rw [beq_iff_eq] at no_file
    split at reading
    · rename_i directory
      rw [beq_iff_eq] at directory
      rw [directory] at tag
      refine .inl ⟨.ofHeader (image.stretch offset blockSize) .directory, reading, header, rfl, ?_⟩
      exact tag
    · rename_i no_directory
      rw [beq_iff_eq] at no_directory
      exact .inr ⟨_, reading, header, _, tag, no_file, no_directory, rfl, rfl⟩

theorem next_eq_finished_iff {image : Bytes} {offset : Nat} :
    next (image.drop offset) = .finished ↔ ¬ HeaderAt image offset := by
  constructor
  · intro finished header
    rcases next_at_header header with ⟨entry, reading, _⟩ | ⟨fault, reading, _⟩
    · rw [finished] at reading
      cases reading
    · rw [finished] at reading
      cases reading
  · exact next_of_no_header

theorem EntryAt.of_next {image rest : Bytes} {offset : Nat} {entry : Entry}
    (reading : next (image.drop offset) = .entry entry rest) :
    EntryAt image offset entry ∧ rest = image.drop (offset + entry.span) := by
  by_cases header : HeaderAt image offset
  · rcases next_at_header header with ⟨other, same, stands⟩ | ⟨fault, same, _⟩
    · rw [reading] at same
      cases same
      exact ⟨stands, rfl⟩
    · rw [reading] at same
      cases same
  · rw [next_of_no_header header] at reading
    cases reading

theorem next_of_faultAt {image : Bytes} {offset : Nat} {fault : Fault}
    (stands : FaultAt image offset fault) : next (image.drop offset) = .fault fault := by
  have available : (image.drop (offset + blockSize)).length =
      image.length - (offset + blockSize) := List.length_drop
  cases fault with
  | truncated name needed left =>
    obtain ⟨header, file, named, size, rest, short⟩ := stands
    have tag := tag_at header
    rw [file, Option.some.injEq] at tag
    have contents : ((image.drop (offset + blockSize)).take needed).length = left := by
      rw [List.length_take]
      omega
    rw [next_of_header header, nextBody, ← tag, if_pos (beq_self_eq_true _), ← size]
    dsimp only
    rw [contents, if_pos short, named]
  | unsupported name char =>
    obtain ⟨header, b, byte, no_file, no_directory, named, shown⟩ := stands
    have tag := tag_at header
    rw [byte, Option.some.injEq] at tag
    rw [next_of_header header, nextBody, ← tag]
    dsimp only
    rw [if_neg (by simpa using no_file), if_neg (by simpa using no_directory), named, shown]

theorem next_eq_fault_iff {image : Bytes} {offset : Nat} {fault : Fault} :
    next (image.drop offset) = .fault fault ↔ FaultAt image offset fault := by
  constructor
  · intro reading
    by_cases header : HeaderAt image offset
    · rcases next_at_header header with ⟨entry, same, _⟩ | ⟨other, same, stands⟩
      · rw [reading] at same
        cases same
      · rw [reading] at same
        cases same
        exact stands
    · rw [next_of_no_header header] at reading
      cases reading
  · exact next_of_faultAt

/-- Where the walk stands after so many entries. -/
def offsetAfter (entries : List Entry) (count : Nat) : Nat :=
  ((entries.take count).map Entry.span).sum

theorem offsetAfter_succ {entries : List Entry} {count : Nat} {entry : Entry}
    (there : entries[count]? = some entry) :
    offsetAfter entries (count + 1) = offsetAfter entries count + entry.span := by
  rw [offsetAfter, offsetAfter, List.take_add_one, there, List.map_append, List.sum_append]
  rfl

theorem offsetAfter_ge {entries : List Entry} {count : Nat} (within : count ≤ entries.length) :
    count * blockSize ≤ offsetAfter entries count := by
  induction count with
  | zero => omega
  | succ count ih =>
    obtain ⟨entry, there⟩ : ∃ entry, entries[count]? = some entry :=
      ⟨entries[count], List.getElem?_eq_getElem within⟩
    have before := ih (Nat.le_of_succ_le within)
    have span : blockSize ≤ entry.span := Nat.le_add_right _ _
    rw [offsetAfter_succ there, Nat.succ_mul]
    omega

theorem Entry.blockSize_dvd_span (entry : Entry) : blockSize ∣ entry.span := by
  unfold Entry.span
  apply Nat.dvd_add (Nat.dvd_refl _)
  split
  · exact padded_dvd _
  · exact Nat.dvd_zero _

theorem read_eq_cons {image : Bytes} {entry : Entry} {entries : List Entry}
    {fault : Option Fault} (reads : read image = (entry :: entries, fault)) :
    ∃ rest, next image = .entry entry rest ∧ read rest = (entries, fault) := by
  cases reading : next image with
  | entry first rest =>
    rw [read_of_entry reading] at reads
    obtain ⟨same, ended⟩ := Prod.mk.inj reads
    obtain ⟨rfl, rfl⟩ := List.cons.inj same
    exact ⟨rest, rfl, Prod.ext rfl ended⟩
  | fault other =>
    rw [read_of_fault reading] at reads
    cases reads
  | finished =>
    rw [read_of_finished reading] at reads
    cases reads

private theorem read_eq_nil {image : Bytes} {fault : Option Fault} (reads : read image = ([], fault)) :
    (next image = .finished ∧ fault = none) ∨ ∃ f, next image = .fault f ∧ fault = some f := by
  cases reading : next image with
  | entry first rest =>
    rw [read_of_entry reading] at reads
    cases reads
  | fault other =>
    rw [read_of_fault reading] at reads
    cases reads
    exact .inr ⟨other, rfl, rfl⟩
  | finished =>
    rw [read_of_finished reading] at reads
    cases reads
    exact .inl ⟨rfl, rfl⟩

/-- Reading from where an entry starts gives that entry and all later ones. -/
theorem read_from {image : Bytes} {count : Nat} (within : count ≤ (read image).1.length) :
    read (image.drop (offsetAfter (read image).1 count)) =
      ((read image).1.drop count, (read image).2) := by
  induction count with
  | zero => rfl
  | succ count ih =>
    have there : (read image).1[count]? = some (read image).1[count] :=
      List.getElem?_eq_getElem within
    have before := ih (Nat.le_of_succ_le within)
    rw [List.drop_eq_getElem_cons within] at before
    obtain ⟨rest, reading, later⟩ := read_eq_cons before
    obtain ⟨_, rfl⟩ := EntryAt.of_next reading
    rw [offsetAfter_succ there, later]

theorem entryAt_of_getElem? {image : Bytes} {count : Nat} {entry : Entry}
    (there : (read image).1[count]? = some entry) :
    EntryAt image (offsetAfter (read image).1 count) entry := by
  obtain ⟨within, rfl⟩ := List.getElem?_eq_some_iff.mp there
  have reads := read_from (Nat.le_of_lt within)
  rw [List.drop_eq_getElem_cons within] at reads
  obtain ⟨rest, reading, _⟩ := read_eq_cons reads
  exact (EntryAt.of_next reading).1

def walkEnd (image : Bytes) : Nat :=
  offsetAfter (read image).1 (read image).1.length

theorem read_walkEnd (image : Bytes) :
    read (image.drop (walkEnd image)) = ([], (read image).2) := by
  have reads := read_from (Nat.le_refl (read image).1.length)
  rw [List.drop_length] at reads
  exact reads

theorem read_ends_iff (image : Bytes) :
    (read image).2 = none ↔ ¬ HeaderAt image (walkEnd image) := by
  rw [← next_eq_finished_iff]
  rcases read_eq_nil (read_walkEnd image) with ⟨reading, ended⟩ | ⟨fault, reading, ended⟩
  · simp [reading, ended]
  · simp [reading, ended]

theorem read_fails_iff (image : Bytes) (fault : Fault) :
    (read image).2 = some fault ↔ FaultAt image (walkEnd image) fault := by
  rw [← next_eq_fault_iff]
  rcases read_eq_nil (read_walkEnd image) with ⟨reading, ended⟩ | ⟨other, reading, ended⟩
  · simp [reading, ended]
  · simp [reading, ended]

theorem length_read_le (image : Bytes) : (read image).1.length ≤ image.length / blockSize := by
  rw [Nat.le_div_iff_mul_le (by decide)]
  cases count : (read image).1.length with
  | zero => omega
  | succ last =>
    have within : last < (read image).1.length := by omega
    have stands := entryAt_of_getElem? (List.getElem?_eq_getElem within)
    have start := offsetAfter_ge (Nat.le_of_lt within)
    have inside := stands.header.inside
    rw [Nat.succ_mul]
    omega

end Archive

end Buildbox
