import Buildbox.Proofs.Archive.Walk

/-!
Reading the front of an image. Every entry that is wholly there is read as in the whole image, and
nothing else is: the walk over the front takes the same places, and where it stops either a header
is not complete, or the front of a body is reported as such, or the whole image ends there in the
same way.
-/

set_option autoImplicit false

namespace Buildbox.Archive

/-- The bytes from the start of an entry to the end of its body, without the padding. -/
def Entry.extent (entry : Entry) : Nat :=
  blockSize + match entry.body with
    | .file _ => entry.size
    | .directory => 0

theorem Entry.extent_le_span (entry : Entry) : entry.extent ≤ entry.span := by
  unfold extent span
  cases entry.body with
  | file contents => exact Nat.add_le_add_left (le_padded entry.size) blockSize
  | directory => exact Nat.le_refl _

section Front

variable {image : Bytes} {n : Nat} {offset : Nat}

theorem stretch_take {count : Nat} (inside : offset + count ≤ n) :
    Bytes.stretch (image.take n) offset count = image.stretch offset count := by
  have enough : count ≤ n - offset := by omega
  rw [Bytes.stretch, Bytes.stretch, List.drop_take, List.take_take, Nat.min_eq_left enough]

theorem headerAt_take (within : n ≤ image.length) :
    HeaderAt (image.take n) offset ↔ HeaderAt image offset ∧ offset + blockSize ≤ n := by
  have length : (image.take n).length = n := List.length_take_of_le within
  have magic (inside : offset + blockSize ≤ n) :
      Bytes.stretch (image.take n) (offset + 257) 8 = image.stretch (offset + 257) 8 := by
    apply stretch_take
    unfold blockSize at inside
    omega
  constructor
  · rintro ⟨inside, same⟩
    rw [length] at inside
    rw [magic inside] at same
    exact ⟨⟨by omega, same⟩, inside⟩
  · rintro ⟨header, inside⟩
    refine ⟨by omega, ?_⟩
    rw [magic inside]
    exact header.magic

theorem tag_take (inside : offset + blockSize ≤ n) :
    (image.take n)[offset + 156]? = image[offset + 156]? := by
  apply List.getElem?_take_of_lt
  unfold blockSize at inside
  omega

theorem entryAt_take (within : n ≤ image.length) {entry : Entry} :
    EntryAt (image.take n) offset entry ↔
      EntryAt image offset entry ∧ offset + entry.extent ≤ n := by
  have length : (image.take n).length = n := List.length_take_of_le within
  constructor
  · rintro ⟨front, fields, body⟩
    obtain ⟨header, inside⟩ := (headerAt_take within).mp front
    rw [stretch_take inside] at fields
    rw [Entry.extent, ← Nat.add_assoc]
    cases kind : entry.body with
    | file contents =>
      rw [kind, length] at body
      obtain ⟨file, fits, held⟩ := body
      rw [tag_take inside] at file
      rw [stretch_take fits] at held
      refine ⟨⟨header, fields, ?_⟩, fits⟩
      rw [kind]
      exact ⟨file, Nat.le_trans fits within, held⟩
    | directory =>
      rw [kind, tag_take inside] at body
      refine ⟨⟨header, fields, ?_⟩, inside⟩
      rw [kind]
      exact body
  · rintro ⟨⟨header, fields, body⟩, ends⟩
    rw [Entry.extent, ← Nat.add_assoc] at ends
    have inside : offset + blockSize ≤ n := Nat.le_trans (Nat.le_add_right _ _) ends
    refine ⟨(headerAt_take within).mpr ⟨header, inside⟩, ?_, ?_⟩
    · rw [stretch_take inside]
      exact fields
    · cases kind : entry.body with
      | file contents =>
        rw [kind] at body ends
        obtain ⟨file, -, held⟩ := body
        dsimp only at ends ⊢
        rw [tag_take inside, length, stretch_take ends]
        exact ⟨file, ends, held⟩
      | directory =>
        rw [kind] at body
        dsimp only
        rw [tag_take inside]
        exact body

/-- A fault in the front of an image: the image has the same fault there, or it goes on with a file
whose body the front cuts. -/
theorem faultAt_take (within : n ≤ image.length) {fault : Fault}
    (stands : FaultAt (image.take n) offset fault) :
    match fault with
    | .truncated name needed available =>
      offset + blockSize ≤ n ∧ available = n - (offset + blockSize) ∧ available < needed ∧
        ((∃ entry contents, EntryAt image offset entry ∧ entry.body = .file contents ∧
            entry.name = name ∧ entry.size = needed) ∨
          ∃ left, FaultAt image offset (.truncated name needed left))
    | .unsupported name tag => FaultAt image offset (.unsupported name tag) := by
  have length : (image.take n).length = n := List.length_take_of_le within
  cases fault with
  | truncated name needed available =>
    obtain ⟨front, file, named, size, left, short⟩ := stands
    obtain ⟨header, inside⟩ := (headerAt_take within).mp front
    rw [tag_take inside] at file
    rw [stretch_take inside] at named size
    rw [length] at left
    refine ⟨inside, left, short, ?_⟩
    by_cases fits : needed ≤ image.length - (offset + blockSize)
    · have ends : offset + blockSize + needed ≤ image.length := by omega
      rw [size] at ends
      refine .inl ⟨.ofHeader (image.stretch offset blockSize)
        (.file (image.stretch (offset + blockSize) needed)), _, ⟨header, rfl, file, ends, ?_⟩, rfl,
        named.symm, size.symm⟩
      rw [size]
      rfl
    · exact .inr ⟨_, header, file, named, size, rfl, by omega⟩
  | unsupported name tag =>
    obtain ⟨front, b, byte, no_file, no_directory, named, shown⟩ := stands
    obtain ⟨header, inside⟩ := (headerAt_take within).mp front
    rw [tag_take inside] at byte
    rw [stretch_take inside] at named
    exact ⟨header, b, byte, no_file, no_directory, named, shown⟩

end Front

theorem next_of_entryAt {image : Bytes} {offset : Nat} {entry : Entry}
    (stands : EntryAt image offset entry) :
    next (image.drop offset) = .entry entry (image.drop (offset + entry.span)) := by
  obtain ⟨header, fields, body⟩ := stands
  have tag := tag_at header
  have size : entry.size = Layout.size.octal (image.stretch offset blockSize) := by
    rw [fields]
    rfl
  rw [next_of_header header, nextBody, Entry.span]
  cases kind : entry.body with
  | file contents =>
    rw [kind] at body fields
    obtain ⟨file, fits, held⟩ := body
    rw [file, Option.some.injEq] at tag
    have whole : ((image.drop (offset + blockSize)).take entry.size).length = entry.size := by
      rw [List.length_take, List.length_drop]
      omega
    rw [held] at fields
    rw [← tag, if_pos (beq_self_eq_true _), ← size]
    dsimp only
    rw [whole, if_neg (Nat.lt_irrefl _), List.drop_drop, Nat.add_assoc]
    exact congrArg (Item.entry · _) fields.symm
  | directory =>
    rw [kind] at body fields
    rw [body, Option.some.injEq] at tag
    rw [← tag, fields]
    rfl

theorem read_take_prefix {image : Bytes} {n : Nat} (within : n ≤ image.length) {offset : Nat}
    {entries : List Entry} {fault : Option Fault}
    (reads : read ((image.take n).drop offset) = (entries, fault)) :
    entries <+: (read (image.drop offset)).1 := by
  induction entries generalizing offset with
  | nil => exact List.nil_prefix
  | cons entry entries ih =>
    obtain ⟨rest, reading, later⟩ := read_eq_cons reads
    obtain ⟨stands, rfl⟩ := EntryAt.of_next reading
    have there := ((entryAt_take within).mp stands).1
    rw [read_of_entry (next_of_entryAt there)]
    exact (List.prefix_cons_inj entry).mpr (ih later)

theorem not_entryAt_walkEnd (image : Bytes) (entry : Entry) :
    ¬ EntryAt image (walkEnd image) entry := by
  intro stands
  have reads := read_walkEnd image
  rw [read_of_entry (next_of_entryAt stands)] at reads
  cases reads

theorem offsetAfter_take {entries : List Entry} {count k : Nat} (before : k ≤ count) :
    offsetAfter (entries.take count) k = offsetAfter entries k := by
  rw [offsetAfter, offsetAfter, List.take_take, Nat.min_eq_left before]

theorem offsetAfter_mono {entries : List Entry} {k count : Nat} (before : k ≤ count) :
    offsetAfter entries k ≤ offsetAfter entries count := by
  induction before with
  | refl => exact Nat.le_refl _
  | @step count _ ih =>
    refine Nat.le_trans ih ?_
    rcases there : entries[count]? with _ | entry
    · have same : offsetAfter entries (count + 1) = offsetAfter entries count := by
        rw [offsetAfter, offsetAfter, List.take_add_one, there, Option.toList_none, List.append_nil]
      exact Nat.le_of_eq same.symm
    · rw [offsetAfter_succ there]
      omega

private theorem extent_le_next {entries : List Entry} {k count : Nat} {entry : Entry}
    (there : entries[k]? = some entry) (before : k < count) :
    offsetAfter entries k + entry.extent ≤ offsetAfter entries count := by
  have next := offsetAfter_succ there
  have later : offsetAfter entries (k + 1) ≤ offsetAfter entries count := offsetAfter_mono before
  have padded := entry.extent_le_span
  omega

private theorem exists_further {entries : List Entry} {k count : Nat} {entry : Entry}
    (there : entries[k]? = some entry) (before : count ≤ k) :
    ∃ next, entries[count]? = some next := by
  have inside := (List.getElem?_eq_some_iff.mp there).1
  exact ⟨_, List.getElem?_eq_getElem (Nat.lt_of_le_of_lt before inside)⟩

theorem getElem?_of_entryAt {image : Bytes} {count : Nat} {entry : Entry}
    (within : count ≤ (read image).1.length)
    (stands : EntryAt image (offsetAfter (read image).1 count) entry) :
    (read image).1[count]? = some entry := by
  have reads := read_from within
  rw [read_of_entry (next_of_entryAt stands)] at reads
  have first := congrArg (fun result => result.1.head?) reads
  simpa [List.head?_drop] using first.symm

theorem ends_of_no_header {image : Bytes} {count : Nat} (within : count ≤ (read image).1.length)
    (no_header : ¬ HeaderAt image (offsetAfter (read image).1 count)) :
    count = (read image).1.length ∧ (read image).2 = none := by
  have all : count = (read image).1.length := by
    rcases Nat.lt_or_ge count (read image).1.length with further | all
    · have stands := entryAt_of_getElem? (List.getElem?_eq_getElem further)
      exact absurd stands.header no_header
    · omega
  refine ⟨all, (read_ends_iff image).mpr ?_⟩
  rw [walkEnd, ← all]
  exact no_header

theorem fails_of_faultAt {image : Bytes} {count : Nat} (within : count ≤ (read image).1.length)
    {fault : Fault} (stands : FaultAt image (offsetAfter (read image).1 count) fault) :
    count = (read image).1.length ∧ (read image).2 = some fault := by
  have all : count = (read image).1.length := by
    rcases Nat.lt_or_ge count (read image).1.length with further | all
    · have there := entryAt_of_getElem? (List.getElem?_eq_getElem further)
      have reading := next_of_entryAt there
      rw [next_of_faultAt stands] at reading
      cases reading
    · omega
  refine ⟨all, (read_fails_iff image fault).mpr ?_⟩
  rw [walkEnd, ← all]
  exact stands

/-- How reading the first bytes of an image ends behind so many of its entries. -/
inductive Cut (image : Bytes) (n count : Nat) : Option Fault → Prop
  | header (short : n < offsetAfter (read image).1 count + 512) : Cut image n count none
  | body {entry : Entry} {contents : Bytes} (further : (read image).1[count]? = some entry)
      (file : entry.body = .file contents)
      (inside : offsetAfter (read image).1 count + 512 ≤ n)
      (short : n < offsetAfter (read image).1 count + 512 + entry.size) :
      Cut image n count
        (some (.truncated entry.name entry.size (n - (offsetAfter (read image).1 count + 512))))
  | finished (all : count = (read image).1.length) (ended : (read image).2 = none) :
      Cut image n count none
  | truncated {name : String} {needed left : Nat} (all : count = (read image).1.length)
      (failed : (read image).2 = some (.truncated name needed left))
      (inside : offsetAfter (read image).1 count + 512 ≤ n) :
      Cut image n count
        (some (.truncated name needed (n - (offsetAfter (read image).1 count + 512))))
  | unsupported {name : String} {tag : Char} (all : count = (read image).1.length)
      (failed : (read image).2 = some (.unsupported name tag)) :
      Cut image n count (some (.unsupported name tag))

section Walks

variable {image : Bytes} {n : Nat} (within : n ≤ image.length)

include within

private theorem exists_count : ∃ count ≤ (read image).1.length,
    (read (image.take n)).1 = (read image).1.take count ∧
      walkEnd (image.take n) = offsetAfter (read image).1 count := by
  have front : (read (image.take n)).1 <+: (read (image.drop 0)).1 :=
    read_take_prefix within (show read ((image.take n).drop 0) = read (image.take n) from rfl)
  rw [List.drop_zero] at front
  obtain ⟨count, bound, same⟩ : ∃ count ≤ (read image).1.length,
      (read (image.take n)).1 = (read image).1.take count := by
    refine ⟨_, front.length_le, ?_⟩
    exact List.prefix_iff_eq_take.mp front
  refine ⟨count, bound, same, ?_⟩
  rw [walkEnd, same, List.length_take_of_le bound, offsetAfter_take (Nat.le_refl _)]

private theorem cut_of_read {count : Nat} (bound : count ≤ (read image).1.length)
    (stop : walkEnd (image.take n) = offsetAfter (read image).1 count) :
    Cut image n count (read (image.take n)).2 := by
  rcases ending : (read (image.take n)).2 with _ | fault
  · have no_header := (read_ends_iff _).mp ending
    rw [stop, headerAt_take within] at no_header
    by_cases inside : offsetAfter (read image).1 count + 512 ≤ n
    · obtain ⟨all, ended⟩ := ends_of_no_header bound fun header => no_header ⟨header, inside⟩
      exact .finished all ended
    · exact .header (by omega)
  · have stands := (read_fails_iff _ fault).mp ending
    rw [stop] at stands
    have compared := faultAt_take within stands
    cases fault with
    | truncated name needed available =>
      obtain ⟨inside, remaining, short, compared⟩ := compared
      unfold blockSize at inside remaining
      rw [remaining] at short ⊢
      rcases compared with ⟨entry, contents, there, file, named, size⟩ | ⟨left, there⟩
      · have further := getElem?_of_entryAt bound there
        rw [← named, ← size]
        exact .body further file inside (by omega)
      · obtain ⟨all, failed⟩ := fails_of_faultAt bound there
        exact .truncated all failed inside
    | unsupported name tag =>
      obtain ⟨all, failed⟩ := fails_of_faultAt bound compared
      exact .unsupported all failed

private theorem lt_count_iff {count : Nat}
    (same : (read (image.take n)).1 = (read image).1.take count)
    (stop : walkEnd (image.take n) = offsetAfter (read image).1 count) {k : Nat} {entry : Entry}
    (there : (read image).1[k]? = some entry) :
    k < count ↔ offsetAfter (read image).1 k + entry.extent ≤ n := by
  constructor
  · intro before
    have taken : (read (image.take n)).1[k]? = some entry := by
      rw [same, List.getElem?_take_of_lt before]
      exact there
    have stands := entryAt_of_getElem? taken
    rw [same, offsetAfter_take (Nat.le_of_lt before)] at stands
    exact ((entryAt_take within).mp stands).2
  · intro ends
    rcases Nat.lt_or_ge k count with before | behind
    · exact before
    -- the front holds the entry at which the walk over it stops
    obtain ⟨next, further⟩ := exists_further there behind
    have fits : offsetAfter (read image).1 count + next.extent ≤ n := by
      rcases Nat.eq_or_lt_of_le behind with here | later
      · subst here
        rw [further, Option.some.injEq] at there
        exact there ▸ ends
      · have step := extent_le_next further later
        omega
    have stands := (entryAt_take within).mpr ⟨entryAt_of_getElem? further, fits⟩
    rw [← stop] at stands
    exact absurd stands (not_entryAt_walkEnd _ _)

end Walks

/-- The front of an image reads as the first entries of the image, whole as they are: those whose
bodies end in the front. It ends without a fault before a further entry only where the header of
that entry is cut, and a body that is cut is always reported. -/
theorem front_reads_prefix {image : Bytes} {n : Nat} (within : n ≤ image.length) :
    let entries := (read image).1
    let offset := offsetAfter entries
    ∃ count ≤ entries.length, ∃ ending,
      read (image.take n) = (entries.take count, ending) ∧ Cut image n count ending ∧
      (∀ k entry, entries[k]? = some entry → (k < count ↔ offset k + entry.extent ≤ n)) ∧
      (ending = none → ∀ entry, entries[count]? = some entry → n < offset count + 512) ∧
      ∀ k entry contents, entries[k]? = some entry → entry.body = .file contents →
        offset k + 512 ≤ n → n < offset k + 512 + entry.size →
        read (image.take n) =
          (entries.take k, some (.truncated entry.name entry.size (n - (offset k + 512)))) := by
  intro entries offset
  obtain ⟨count, bound, same, stop⟩ := exists_count within
  have cut := cut_of_read within bound stop
  have reads : read (image.take n) = (entries.take count, (read (image.take n)).2) :=
    Prod.ext same rfl
  have whole : ∀ k entry, entries[k]? = some entry →
      (k < count ↔ offset k + entry.extent ≤ n) := fun _ _ there =>
    lt_count_iff within same stop there
  generalize (read (image.take n)).2 = ending at cut reads
  refine ⟨count, bound, ending, reads, cut, whole, ?_, ?_⟩
  · rintro rfl entry further
    cases cut with
    | header short => exact short
    | finished all ended =>
      have inside := (List.getElem?_eq_some_iff.mp further).1
      exact absurd all (Nat.ne_of_lt inside)
  · intro k entry contents there file inside short
    have extent : entry.extent = 512 + entry.size := by
      rw [Entry.extent, file]
      rfl
    have behind : count ≤ k := by
      have cut_off := whole k entry there
      omega
    have here : count = k := by
      rcases Nat.eq_or_lt_of_le behind with here | before
      · exact here
      obtain ⟨next, further⟩ := exists_further there behind
      have ends : offset count + next.extent ≤ offset k := extent_le_next further before
      have counted := (whole count next further).mpr (by omega)
      omega
    subst here
    have more := (List.getElem?_eq_some_iff.mp there).1
    rw [reads]
    cases cut with
    | header cut_header => exact absurd inside (Nat.not_le_of_lt cut_header)
    | body further _ _ _ =>
      obtain rfl := Option.some.inj (further.symm.trans there)
      rfl
    | finished all _ => exact absurd all (Nat.ne_of_lt more)
    | truncated all _ _ => exact absurd all (Nat.ne_of_lt more)
    | unsupported all _ => exact absurd all (Nat.ne_of_lt more)

/-- A directory and a file of three bytes, cut behind the second of them. -/
theorem front_of_file_reported :
    let image := write [.directory "lib", .file "lib/a" [0x61, 0x62, 0x63]]
    1026 ≤ image.length ∧
      read (image.take 1026) =
        ([(Source.directory "lib").entry], some (.truncated "lib/a" 3 2)) := by
  intro image
  have length : image.length = 2560 := by
    simp only [image, write, List.length_append, List.flatMap_cons, List.flatMap_nil,
      length_record, Bytes.length_zeros]
    rfl
  have within : 1026 ≤ image.length := by omega
  have reads : read image = ([(Source.directory "lib").entry,
      (Source.file "lib/a" [0x61, 0x62, 0x63]).entry], none) := read_write (by decide)
  obtain ⟨-, -, -, -, -, -, -, reported⟩ := front_reads_prefix within
  rw [reads] at reported
  refine ⟨within, ?_⟩
  rw [reported 1 _ _ rfl rfl (by decide) (by decide)]
  have name : (Source.file "lib/a" [0x61, 0x62, 0x63]).entry.name = "lib/a" :=
    Utf8.lossy_ofString "lib/a"
  rw [name]
  rfl

end Buildbox.Archive
