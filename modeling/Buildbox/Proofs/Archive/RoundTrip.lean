import Buildbox.Archive.Reader
import Buildbox.Proofs.Archive.Field
import Buildbox.Proofs.Text.Reading

/-!
What a writer wrote is what a reader reads: one entry for each step, in order, with the body, the
name, the mode, the size and the checksum of that step.
-/

set_option autoImplicit false

namespace Buildbox.Archive

/-- What the header of a step holds, but for its checksum. -/
def headerParts (source : Source) : List (Field × Bytes) := [
  (Layout.name, Bytes.ofString source.name),
  (Layout.mode, octalDigits 7 source.mode),
  (Layout.owner, octalDigits 7 0),
  (Layout.group, octalDigits 7 0),
  (Layout.size, octalDigits 11 source.contents.length),
  (Layout.modified, octalDigits 11 0),
  (Layout.tag, [source.tag]),
  (Layout.magic, Bytes.ofString magicText ++ [0]),
  (Layout.ownerName, Bytes.ofString "root"),
  (Layout.groupName, Bytes.ofString "root")]

/-- The header of a step before it is sealed. -/
def unsealed (source : Source) : Bytes :=
  fill (Bytes.zeros blockSize) (headerParts source)

/-- The checksum field as spaces. -/
def blanked (header : Bytes) : Bytes :=
  Layout.checksum.put (List.replicate 8 0x20) header

/-- The checksum field of a step's header. -/
def sealDigits (source : Source) : Bytes :=
  octalDigits 6 (byteSum (blanked (unsealed source))) ++ [0x00, 0x20]

/-- All that the header of a step holds. -/
def sealedParts (source : Source) : List (Field × Bytes) :=
  headerParts source ++ [(Layout.checksum, sealDigits source)]

/-- The fields that a header is made of; the others stay zero. -/
def writtenFields : List Field := [Layout.name, Layout.mode, Layout.owner, Layout.group,
  Layout.size, Layout.modified, Layout.tag, Layout.magic, Layout.ownerName, Layout.groupName,
  Layout.checksum]

private theorem byteSum_append (first second : Bytes) :
    byteSum (first ++ second) = byteSum first + byteSum second := by
  have shifted (bytes : Bytes) (total : Nat) :
      bytes.foldl (fun total b => total + b.toNat) total = total + byteSum bytes := by
    unfold byteSum
    induction bytes generalizing total with
    | nil => rfl
    | cons b bytes ih =>
      rw [List.foldl_cons, List.foldl_cons, ih, ih (0 + b.toNat)]
      omega
  rw [byteSum, List.foldl_append, shifted]
  rfl

theorem byteSum_le (bytes : Bytes) : byteSum bytes ≤ 255 * bytes.length := by
  induction bytes with
  | nil => exact Nat.le_refl 0
  | cons b bytes ih =>
    have parts := byteSum_append [b] bytes
    have single : byteSum [b] = b.toNat := Nat.zero_add _
    have small := b.toNat_lt
    rw [List.singleton_append] at parts
    rw [parts, List.length_cons]
    omega

private theorem separate_sealedParts (source : Source) :
    Separate ((sealedParts source).map Prod.fst) := by
  show Separate writtenFields
  decide

private theorem inside_sealedParts (source : Source) :
    ∀ part ∈ sealedParts source, part.1.Inside blockSize :=
  List.forall_mem_map.mp (separate_sealedParts source).1

private theorem length_zeros_block : (Bytes.zeros blockSize).length = blockSize :=
  Bytes.length_zeros blockSize

private theorem length_unsealed (source : Source) : (unsealed source).length = blockSize :=
  length_fill length_zeros_block fun part among =>
    inside_sealedParts source part (List.mem_append_left _ among)

private theorem checksum_inside (source : Source) :
    Layout.checksum.Inside (unsealed source).length := by
  rw [length_unsealed]
  decide

private theorem byteSum_blanked_lt (source : Source) :
    byteSum (blanked (unsealed source)) < 8 ^ 6 := by
  have bound := byteSum_le (blanked (unsealed source))
  have length : (blanked (unsealed source)).length = 512 :=
    (Field.length_put (checksum_inside source) _).trans (length_unsealed source)
  rw [length] at bound
  omega

private theorem length_sealDigits (source : Source) : (sealDigits source).length = 8 := by
  rw [sealDigits, List.length_append, length_octalDigits (by decide) (byteSum_blanked_lt source)]
  rfl

private theorem spaces_length (source : Source) :
    (List.replicate 8 (0x20 : UInt8)).length = (sealDigits source).length :=
  (length_sealDigits source).symm

theorem header_eq_fill (source : Source) :
    header source = fill (Bytes.zeros blockSize) (sealedParts source) := by
  have covered := Field.put_put (checksum_inside source) (Nat.le_of_eq (spaces_length source))
  rw [sealedParts, fill, List.foldl_append]
  exact covered

theorem blanked_header (source : Source) : blanked (header source) = blanked (unsealed source) := by
  have covered := Field.put_put (checksum_inside source) (Nat.le_of_eq (spaces_length source).symm)
  rw [header_eq_fill, sealedParts, fill, List.foldl_append]
  exact covered

theorem length_header (source : Source) : (header source).length = blockSize := by
  rw [header_eq_fill]
  exact length_fill length_zeros_block (inside_sealedParts source)

private theorem bytes_header {source : Source} {field : Field} {bytes : Bytes}
    (among : (field, bytes) ∈ sealedParts source) :
    field.bytes (header source) =
      bytes.take field.width ++ Bytes.zeros (field.width - bytes.length) := by
  rw [header_eq_fill]
  have blank : ∀ part ∈ sealedParts source,
      part.1.bytes (Bytes.zeros blockSize) = Bytes.zeros part.1.width :=
    fun part among => bytes_zeros (inside_sealedParts source part among)
  exact bytes_fill length_zeros_block (separate_sealedParts source) blank among

private theorem text_header {source : Source} {field : Field} {bytes : Bytes}
    (among : (field, bytes) ∈ sealedParts source) :
    field.text (header source) = Utf8.lossy (Bytes.beforeNul (bytes.take field.width)) := by
  rw [Field.text, bytes_header among, Bytes.beforeNul_append_zeros]

private theorem text_header_of_apart {source : Source} {field : Field}
    (inside : field.Inside blockSize) (apart : ∀ other ∈ writtenFields, field.Apart other) :
    field.text (header source) = "" := by
  have kept := bytes_fill_of_apart length_zeros_block (inside_sealedParts source)
    (List.forall_mem_map.mp apart)
  have nothing := Bytes.beforeNul_append_zeros [] field.width
  rw [List.nil_append] at nothing
  rw [Field.text, header_eq_fill, kept, bytes_zeros inside, nothing]
  exact Utf8.lossy_ofString ""

private theorem octal_header {source : Source} {field : Field} {value : Nat}
    (fits : value < 8 ^ field.width) (wide : 2 ≤ field.width)
    (among : (field, octalDigits (field.width - 1) value) ∈ sealedParts source) :
    field.octal (header source) = value := by
  have width : field.width - 1 + 1 = field.width := by omega
  obtain ⟨least, most⟩ := length_octalDigits_le (width.symm ▸ fits)
  have bytes := bytes_header among
  rw [List.take_of_length_le (by omega)] at bytes
  have some_digit : octalDigits (field.width - 1) value ≠ [] := by
    apply List.ne_nil_of_length_pos
    omega
  have ends : (Bytes.zeros (field.width - (octalDigits (field.width - 1) value).length)).takeWhile
      Field.isOctal = [] := by
    rw [Bytes.zeros]
    cases field.width - (octalDigits (field.width - 1) value).length with
    | zero => rfl
    | succ count => rfl
  rw [Field.octal_of_bytes bytes some_digit (fun _ => isOctal_of_mem_octalDigits) ends]
  exact octalValue_octalDigits _ _

private theorem checksum_header (source : Source) :
    Layout.checksum.octal (header source) = byteSum (blanked (header source)) := by
  have bytes := bytes_header (List.mem_append_right (headerParts source)
    (List.mem_singleton_self (Layout.checksum, sealDigits source)))
  have width : (sealDigits source).length = Layout.checksum.width := length_sealDigits source
  rw [List.take_of_length_le (Nat.le_of_eq width), width, sealDigits, List.append_assoc] at bytes
  have digits := length_octalDigits (by decide) (byteSum_blanked_lt source)
  have some_digit := List.ne_nil_of_length_pos (Nat.lt_of_lt_of_eq (by decide) digits.symm)
  rw [Field.octal_of_bytes bytes some_digit (fun _ => isOctal_of_mem_octalDigits) rfl,
    octalValue_octalDigits, blanked_header]

def Source.body : Source → Body
  | .file _ contents => .file contents
  | .directory _ => .directory

/-- The entry that is read for a step. -/
def Source.entry (source : Source) : Entry where
  name := Utf8.lossy (Bytes.beforeNul ((Bytes.ofString source.name).take 100))
  mode := source.mode
  owner := 0
  group := 0
  size := source.contents.length
  modified := 0
  checksum := byteSum (blanked (header source))
  linkName := ""
  ownerName := "root"
  groupName := "root"
  deviceMajor := ""
  deviceMinor := ""
  namePrefix := ""
  body := source.body

private theorem Source.mode_lt (source : Source) : source.mode < 8 ^ 8 := by
  cases source with
  | file name contents => show 0o644 < 8 ^ 8; decide
  | directory name => show 0o755 < 8 ^ 8; decide

private theorem size_header {source : Source} (fits : source.contents.length < 8 ^ 12) :
    Layout.size.octal (header source) = source.contents.length :=
  octal_header fits (by decide) (List.mem_append_left _ (by simp [headerParts, Layout.size]))

theorem ofHeader_header {source : Source} (fits : source.contents.length < 8 ^ 12) :
    Entry.ofHeader (header source) source.body = source.entry := by
  have fields : ∀ part ∈ headerParts source, part ∈ sealedParts source :=
    fun _ => List.mem_append_left _
  have root : Utf8.lossy (Bytes.beforeNul ((Bytes.ofString "root").take 32)) = "root" :=
    Utf8.lossy_ofString "root"
  have mode : Layout.mode.octal (header source) = source.mode :=
    octal_header source.mode_lt (by decide) (fields _ (by simp [headerParts, Layout.mode]))
  have owner : Layout.owner.octal (header source) = 0 :=
    octal_header (by decide) (by decide) (fields _ (by simp [headerParts, Layout.owner]))
  have group : Layout.group.octal (header source) = 0 :=
    octal_header (by decide) (by decide) (fields _ (by simp [headerParts, Layout.group]))
  have size := size_header fits
  have modified : Layout.modified.octal (header source) = 0 :=
    octal_header (by decide) (by decide) (fields _ (by simp [headerParts, Layout.modified]))
  have name : Layout.name.text (header source) = source.entry.name :=
    text_header (fields _ (List.mem_cons_self ..))
  have ownerName : Layout.ownerName.text (header source) = "root" :=
    (text_header (fields (Layout.ownerName, _) (by simp [headerParts]))).trans root
  have groupName : Layout.groupName.text (header source) = "root" :=
    (text_header (fields (Layout.groupName, _) (by simp [headerParts]))).trans root
  have linkName : Layout.linkName.text (header source) = "" :=
    text_header_of_apart (by decide) (by decide)
  have deviceMajor : Layout.deviceMajor.text (header source) = "" :=
    text_header_of_apart (by decide) (by decide)
  have deviceMinor : Layout.deviceMinor.text (header source) = "" :=
    text_header_of_apart (by decide) (by decide)
  have namePrefix : Layout.namePrefix.text (header source) = "" :=
    text_header_of_apart (by decide) (by decide)
  rw [Entry.ofHeader, mode, owner, group, size, modified, checksum_header, name, ownerName,
    groupName, linkName, deviceMajor, deviceMinor, namePrefix]
  rfl

private theorem magic_header (source : Source) :
    Layout.magic.text (header source) = magicText := by
  have text : Bytes.beforeNul ((Bytes.ofString magicText ++ [0]).take 8) =
      Bytes.ofString magicText := rfl
  have among : (Layout.magic, Bytes.ofString magicText ++ [0]) ∈ sealedParts source :=
    List.mem_append_left _ (by simp [headerParts])
  have width : Layout.magic.width = 8 := rfl
  rw [text_header among, width, text, Utf8.lossy_ofString]

private theorem tag_header (source : Source) :
    (Layout.tag.bytes (header source)).headD 0 = source.tag := by
  have among : (Layout.tag, [source.tag]) ∈ sealedParts source :=
    List.mem_append_left _ (by simp [headerParts])
  rw [bytes_header among]
  rfl

theorem le_padded (size : Nat) : size ≤ padded size := by
  unfold padded blockSize
  omega

theorem next_record {source : Source} (fits : source.contents.length < 8 ^ 12) (rest : Bytes) :
    next (record source ++ rest) = .entry source.entry rest := by
  have length := length_header source
  have size := size_header fits
  have laid : record source ++ rest = header source ++ (source.contents ++
      (Bytes.zeros (padded source.contents.length - source.contents.length) ++ rest)) := by
    simp only [record, List.append_assoc]
  have head : (record source ++ rest).take blockSize = header source := by
    rw [laid, List.take_append_of_le_length (by omega), List.take_of_length_le (by omega)]
  have after : (record source ++ rest).drop blockSize = source.contents ++
      (Bytes.zeros (padded source.contents.length - source.contents.length) ++ rest) := by
    rw [laid, List.drop_append_of_le_length (by omega), List.drop_eq_nil_of_le (by omega)]
    rfl
  rw [next, head, if_neg (by omega), magic_header, if_neg (by simp), after, nextBody, tag_header,
    size]
  cases source with
  | file name contents =>
    have behind : (contents ++ (Bytes.zeros (padded contents.length - contents.length) ++ rest)).drop
        (padded contents.length) = rest := by
      have enough := le_padded contents.length
      rw [List.drop_append, List.drop_eq_nil_of_le enough, List.nil_append, List.drop_append,
        Bytes.drop_zeros, Nat.sub_self, Bytes.length_zeros, Nat.sub_self]
      rfl
    have body := ofHeader_header fits
    have is_file : ((Source.file name contents).tag == fileTag) = true := beq_self_eq_true fileTag
    rw [if_pos is_file]
    dsimp only
    rw [List.take_left, if_neg (Nat.lt_irrefl _)]
    simp only [Source.contents, Source.body] at body behind ⊢
    rw [behind, body]
  | directory name =>
    have body := ofHeader_header fits
    have no_file : ¬ ((Source.directory name).tag == fileTag) = true := by
      show ¬ (directoryTag == fileTag) = true
      decide
    have is_directory : ((Source.directory name).tag == directoryTag) = true :=
      beq_self_eq_true directoryTag
    rw [if_neg no_file, if_pos is_directory]
    simp only [Source.contents, Source.body] at body ⊢
    rw [body]
    rfl

theorem next_trailer : next (Bytes.zeros (2 * blockSize)) = .finished := by
  have head : (Bytes.zeros (2 * blockSize)).take blockSize = Bytes.zeros blockSize :=
    Bytes.take_zeros _ _
  have inside : Layout.magic.Inside blockSize := by decide
  have nothing : Layout.magic.text (Bytes.zeros blockSize) = "" := by
    have blank := Bytes.beforeNul_append_zeros [] Layout.magic.width
    rw [List.nil_append] at blank
    rw [Field.text, bytes_zeros inside, blank]
    exact Utf8.lossy_ofString ""
  rw [next, head, Bytes.length_zeros, if_neg (Nat.lt_irrefl _), nothing, if_pos (by decide)]

theorem read_of_entry {image rest : Bytes} {entry : Entry}
    (reading : next image = .entry entry rest) :
    read image = (entry :: (read rest).1, (read rest).2) := by
  rw [read]
  split
  · rename_i entry rest same
    rw [reading] at same
    cases same
    rfl
  · rename_i fault same
    rw [reading] at same
    cases same
  · rename_i same
    rw [reading] at same
    cases same

theorem read_of_fault {image : Bytes} {fault : Fault} (reading : next image = .fault fault) :
    read image = ([], some fault) := by
  rw [read]
  split
  · rename_i entry rest same
    rw [reading] at same
    cases same
  · rename_i other same
    rw [reading] at same
    cases same
    rfl
  · rename_i same
    rw [reading] at same
    cases same

theorem read_of_finished {image : Bytes} (reading : next image = .finished) :
    read image = ([], none) := by
  rw [read]
  split
  · rename_i entry rest same
    rw [reading] at same
    cases same
  · rename_i fault same
    rw [reading] at same
    cases same
  · rfl

/-- Reading an image gives the entries that it was written from, and ends without a fault. -/
theorem read_write {sources : List Source}
    (fits : ∀ source ∈ sources, source.contents.length < 8 ^ 12) :
    read (write sources) = (sources.map Source.entry, none) := by
  induction sources with
  | nil => exact read_of_finished next_trailer
  | cons source sources ih =>
    have first := next_record (fits source (List.mem_cons_self ..)) (write sources)
    have later := ih fun other among => fits other (List.mem_cons_of_mem _ among)
    have image : write (source :: sources) = record source ++ write sources := by
      rw [write, write, List.flatMap_cons, List.append_assoc]
    rw [image, read_of_entry first, later]
    rfl

theorem padded_dvd (size : Nat) : blockSize ∣ padded size :=
  Nat.dvd_mul_left _ _

theorem padded_add {front : Nat} (whole : blockSize ∣ front) (size : Nat) :
    padded (front + size) = front + padded size := by
  obtain ⟨count, rfl⟩ := whole
  unfold padded blockSize
  omega

theorem length_record (source : Source) :
    (record source).length = blockSize + padded source.contents.length := by
  have enough := le_padded source.contents.length
  rw [record, List.length_append, List.length_append, length_header, Bytes.length_zeros]
  omega

theorem buffer_append {writer : Writer} (whole : blockSize ∣ writer.buffer.length)
    (source : Source) : (writer.append source).buffer = writer.buffer ++ record source := by
  cases source with
  | file name contents =>
    have headed : blockSize ∣ (writer.buffer ++ header (.file name contents)).length := by
      rw [List.length_append, length_header]
      exact Nat.dvd_add whole (Nat.dvd_refl _)
    have filler : padded (writer.buffer ++ header (.file name contents) ++ contents).length -
        (writer.buffer ++ header (.file name contents) ++ contents).length =
          padded contents.length - contents.length := by
      have whole_length : (writer.buffer ++ header (.file name contents) ++ contents).length =
          (writer.buffer ++ header (.file name contents)).length + contents.length :=
        List.length_append
      rw [whole_length, padded_add headed]
      omega
    simp only [Writer.append, record, Source.contents]
    rw [filler]
    simp only [List.append_assoc]
  | directory name =>
    have nothing : padded 0 - 0 = 0 := rfl
    simp only [Writer.append, record, Source.contents, List.length_nil, nothing]
    rw [Bytes.zeros, List.replicate_zero, List.append_nil, List.append_nil]

theorem buffer_appendAll {writer : Writer} (whole : blockSize ∣ writer.buffer.length)
    (sources : List Source) :
    (writer.appendAll sources).buffer = writer.buffer ++ sources.flatMap record := by
  induction sources generalizing writer with
  | nil => exact (List.append_nil _).symm
  | cons source sources ih =>
    have appended := buffer_append whole source
    have still_whole : blockSize ∣ (writer.append source).buffer.length := by
      rw [appended, List.length_append, length_record]
      exact Nat.dvd_add whole (Nat.dvd_add (Nat.dvd_refl _) (padded_dvd _))
    have later := ih still_whole
    rw [Writer.appendAll, List.foldl_cons, ← Writer.appendAll, later, appended,
      List.flatMap_cons, List.append_assoc]

theorem image_appendAll (sources : List Source) :
    (Writer.appendAll {} sources).finish.1 = write sources := by
  rw [Writer.finish, buffer_appendAll (Nat.dvd_zero _)]
  rfl

/-- Where the records of a step start, behind those of the steps before it. -/
def startAfter (before : List Source) : Nat :=
  (before.map fun source => blockSize + padded source.contents.length).sum

private theorem length_records (sources : List Source) :
    (sources.flatMap record).length = startAfter sources := by
  induction sources with
  | nil => rfl
  | cons source sources ih =>
    rw [List.flatMap_cons, List.length_append, ih, length_record]
    rfl

private theorem header_in_write (before : List Source) (source : Source) (after : List Source) :
    ((write (before ++ source :: after)).drop (startAfter before)).take blockSize =
      header source := by
  have length := length_header source
  rw [write, List.flatMap_append, List.flatMap_cons, List.append_assoc, ← length_records,
    List.drop_left, record, List.append_assoc, List.append_assoc, List.append_assoc,
    List.take_append_of_le_length (by omega), List.take_of_length_le (by omega)]

/-- What an entry says about the step whose records start at a place of an image. -/
structure Source.DescribedBy (source : Source) (image : Bytes) (start : Nat) (entry : Entry) :
    Prop where
  kind : match source with
    | .file _ contents =>
      entry.body = .file contents ∧ entry.mode = 0o644 ∧ entry.size = contents.length
    | .directory _ => entry.body = .directory ∧ entry.mode = 0o755 ∧ entry.size = 0
  name : entry.name = Utf8.lossy (Bytes.beforeNul ((Bytes.ofString source.name).take 100))
  checksum : entry.checksum = byteSum (blanked ((image.drop start).take blockSize))

theorem Source.describedBy_entry {source : Source} {image : Bytes} {start : Nat}
    (placed : (image.drop start).take blockSize = header source) :
    source.DescribedBy image start source.entry := by
  constructor
  · cases source with
    | file name contents => exact ⟨rfl, rfl, rfl⟩
    | directory name => exact ⟨rfl, rfl, rfl⟩
  · rfl
  · rw [placed, Source.entry]

/-- Whatever a writer finished before, the image of its next steps is that of a new writer, and it
reads as one entry for each step, in order, and nothing more. -/
theorem finished_image_reads_back (earlier sources : List Source)
    (fits : ∀ source ∈ sources, source.contents.length < 8 ^ 12) :
    let writer := (Writer.appendAll {} earlier).finish.2
    let image := (writer.appendAll sources).finish.1
    image = (Writer.appendAll {} sources).finish.1 ∧
      (read image).2 = none ∧ (read image).1.length = sources.length ∧
      ∀ before source after, sources = before ++ source :: after →
        ∃ entry, (read image).1[before.length]? = some entry ∧
          source.DescribedBy image (startAfter before) entry := by
  intro writer image
  have written : image = write sources := image_appendAll sources
  have reads : read image = (sources.map Source.entry, none) := written ▸ read_write fits
  refine ⟨rfl, ?_, ?_, ?_⟩
  · rw [reads]
  · rw [reads, List.length_map]
  · intro before source after split
    refine ⟨source.entry, ?_, Source.describedBy_entry ?_⟩
    · rw [reads, split, List.map_append, List.map_cons]
      simp
    · rw [written, split]
      exact header_in_write before source after

theorem finished_image_of_two_steps :
    let steps : List Source := [.directory "lib", .file "lib/a" [0x78]]
    let image := ((Writer.appendAll {} [.file "old" []]).finish.2.appendAll steps).finish.1
    (∀ source ∈ steps, source.contents.length < 8 ^ 12) ∧ (read image).2 = none ∧
      ∃ entry, (read image).1[1]? = some entry ∧
        (Source.file "lib/a" [0x78]).DescribedBy image 512 entry := by
  intro steps image
  have fits : ∀ source ∈ steps, source.contents.length < 8 ^ 12 := by decide
  obtain ⟨_, sound, _, described⟩ := finished_image_reads_back [.file "old" []] steps fits
  exact ⟨fits, sound, described [.directory "lib"] (.file "lib/a" [0x78]) [] rfl⟩

end Buildbox.Archive
