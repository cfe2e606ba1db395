import Buildbox.Archive.Basic

/-!
Writing an archive image in the layout that `Archive.read` reads.
-/

set_option autoImplicit false

namespace Buildbox.Archive

/-- An entry as it is handed to a writer. -/
inductive Source
  | file (name : String) (contents : Bytes)
  | directory (name : String)

namespace Source

def name : Source → String
  | .file name _ => name
  | .directory name => name

def contents : Source → Bytes
  | .file _ contents => contents
  | .directory _ => []

def mode : Source → Nat
  | .file .. => 0o644
  | .directory _ => 0o755

def tag : Source → UInt8
  | .file .. => fileTag
  | .directory _ => directoryTag

end Source

def octalDigits (width value : Nat) : Bytes :=
  let digits := (Nat.toDigits 8 value).map (fun c => c.toNat.toUInt8)
  List.replicate (width - digits.length) 0x30 ++ digits

/-- The header with a number in a field: zero-filled so that a terminator fits, cut when it is wider
than the field. -/
def putOctal (field : Field) (value : Nat) (header : Bytes) : Bytes :=
  field.put (octalDigits (field.width - 1) value) header

def byteSum (header : Bytes) : Nat :=
  header.foldl (fun total b => total + b.toNat) 0

def sealed (header : Bytes) : Bytes :=
  let blank := Layout.checksum.put (List.replicate Layout.checksum.width 0x20) header
  Layout.checksum.put (octalDigits 6 (byteSum blank) ++ [0x00, 0x20]) blank

def header (source : Source) : Bytes :=
  Bytes.zeros blockSize
    |> Layout.name.put (Bytes.ofString source.name)
    |> putOctal Layout.mode source.mode
    |> putOctal Layout.owner 0
    |> putOctal Layout.group 0
    |> putOctal Layout.size source.contents.length
    |> putOctal Layout.modified 0
    |> Layout.tag.put [source.tag]
    |> Layout.magic.put (Bytes.ofString magicText ++ [0])
    |> Layout.ownerName.put (Bytes.ofString "root")
    |> Layout.groupName.put (Bytes.ofString "root")
    |> sealed

def record (source : Source) : Bytes :=
  header source ++ source.contents ++
    Bytes.zeros (padded source.contents.length - source.contents.length)

/-- The image of a list of entries, ended by two zero records. -/
def write (sources : List Source) : Bytes :=
  sources.flatMap record ++ Bytes.zeros (2 * blockSize)

structure Writer where
  buffer : Bytes := []

namespace Writer

def append (writer : Writer) (source : Source) : Writer :=
  let headed := writer.buffer ++ header source
  match source with
  | .directory _ => ⟨headed⟩
  | .file _ contents =>
    let filled := headed ++ contents
    ⟨filled ++ Bytes.zeros (padded filled.length - filled.length)⟩

def appendAll (writer : Writer) (sources : List Source) : Writer :=
  sources.foldl append writer

/-- The image of what was appended, ended by two zero records; the writer starts anew. -/
def finish (writer : Writer) : Bytes × Writer :=
  (writer.buffer ++ Bytes.zeros (2 * blockSize), {})

end Writer

end Buildbox.Archive
