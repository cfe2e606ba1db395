import Buildbox.Archive.Basic

/-!
Reading an archive image. `next` reads one entry; `read` reads them all, in order, up to the end of
the archive or its first fault; `unpack` hands them to a visitor.
-/

set_option autoImplicit false

namespace Buildbox.Archive

/-- What stands at the front of an image. -/
inductive Item
  | entry (e : Entry) (rest : Bytes)
  | fault (f : Fault)
  /-- no further entry: too few bytes for a header, or no header -/
  | finished

def Entry.ofHeader (header : Bytes) (body : Body) : Entry where
  name := Layout.name.text header
  mode := Layout.mode.octal header
  owner := Layout.owner.octal header
  group := Layout.group.octal header
  size := Layout.size.octal header
  modified := Layout.modified.octal header
  checksum := Layout.checksum.octal header
  linkName := Layout.linkName.text header
  ownerName := Layout.ownerName.text header
  groupName := Layout.groupName.text header
  deviceMajor := Layout.deviceMajor.text header
  deviceMinor := Layout.deviceMinor.text header
  namePrefix := Layout.namePrefix.text header
  body := body

def nextBody (header after : Bytes) : Item :=
  let tag := (Layout.tag.bytes header).headD 0
  if tag == fileTag then
    let size := Layout.size.octal header
    let contents := after.take size
    if contents.length < size then
      .fault (.truncated (Layout.name.text header) size contents.length)
    else
      .entry (.ofHeader header (.file contents)) (after.drop (padded size))
  else if tag == directoryTag then
    .entry (.ofHeader header .directory) after
  else
    .fault (.unsupported (Layout.name.text header) (Char.ofNat tag.toNat))

def next (image : Bytes) : Item :=
  let header := image.take blockSize
  if header.length < blockSize then .finished
  else if Layout.magic.text header != magicText then .finished
  else nextBody header (image.drop blockSize)

theorem nextBody_length_le {header after rest : Bytes} {e : Entry}
    (h : nextBody header after = .entry e rest) : rest.length ≤ after.length := by
  simp only [nextBody] at h
  split at h
  · split at h
    · cases h
    · cases h
      simp
  · split at h
    · cases h
      exact Nat.le_refl _
    · cases h

theorem next_length_lt {image rest : Bytes} {e : Entry} (h : next image = .entry e rest) :
    rest.length < image.length := by
  simp only [next] at h
  split at h
  · cases h
  · split at h
    · cases h
    · rename_i full _
      have shorter := nextBody_length_le h
      simp only [List.length_drop] at shorter
      simp only [List.length_take, blockSize] at full shorter
      omega

def read (image : Bytes) : List Entry × Option Fault :=
  match _h : next image with
  | .entry e rest =>
    let later := read rest
    (e :: later.1, later.2)
  | .fault f => ([], some f)
  | .finished => ([], none)
termination_by image.length
decreasing_by exact next_length_lt ‹_›

/-- Hands every entry to a visitor and counts them. The first fault, of the archive or of the
visitor, ends the walk. -/
def unpack {m : Type → Type} {ε : Type} [Monad m] [MonadExceptOf ε m] (ofFault : Fault → ε)
    (visit : Entry → m Unit) (image : Bytes) : m Nat := do
  let (entries, fault) := read image
  entries.forM visit
  match fault with
  | some f => throw (ofFault f)
  | none => pure entries.length

end Buildbox.Archive
