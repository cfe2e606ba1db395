import Buildbox.Bytes
import Buildbox.Text.Utf8

/-!
Archive images: 512-byte header records, each followed by the body of its file, padded to whole
records. `Field` and `Layout` say where a header keeps what.
-/

set_option autoImplicit false

namespace Buildbox.Archive

/-- The size of a header record, and the alignment of file bodies. -/
def blockSize : Nat := 512

/-- The least multiple of the record size that is not below `size`. -/
def padded (size : Nat) : Nat :=
  (size + (blockSize - 1)) / blockSize * blockSize

inductive Body
  | file (contents : Bytes)
  | directory
deriving Repr, DecidableEq

structure Entry where
  name : String
  mode : Nat
  owner : Nat
  group : Nat
  size : Nat
  modified : Nat
  checksum : Nat
  linkName : String
  ownerName : String
  groupName : String
  deviceMajor : String
  deviceMinor : String
  namePrefix : String
  body : Body
deriving Repr, DecidableEq

/-- Why reading an archive stops before its end. -/
inductive Fault
  /-- neither a regular file nor a directory -/
  | unsupported (name : String) (tag : Char)
  /-- a body that runs past the end of the image -/
  | truncated (name : String) (needed available : Nat)
deriving Repr, DecidableEq

def Fault.message : Fault → String
  | .unsupported name tag => s!"unsupported tar entry type '{tag}' for {name}"
  | .truncated name needed available =>
    s!"tar entry {name} is truncated: needs {needed} bytes, {available} available"

/-- A stretch of a header record. -/
structure Field where
  offset : Nat
  width : Nat

namespace Field

def bytes (field : Field) (header : Bytes) : Bytes :=
  (header.drop field.offset).take field.width

/-- A field read as text: UTF-8 up to the first NUL. -/
def text (field : Field) (header : Bytes) : String :=
  Utf8.lossy (field.bytes header).beforeNul

def isOctal (b : UInt8) : Bool :=
  0x30 ≤ b && b ≤ 0x37

/-- A field read as a number: leading spaces skipped, then octal digits; no digit is zero. -/
def octal (field : Field) (header : Bytes) : Nat :=
  (((field.bytes header).dropWhile (· == 0x20)).takeWhile isOctal).foldl
    (fun total digit => total * 8 + (digit.toNat - 0x30)) 0

/-- The header with bytes put at the front of a field, cut to its width. -/
def put (field : Field) (bytes header : Bytes) : Bytes :=
  let bytes := bytes.take field.width
  header.take field.offset ++ bytes ++ header.drop (field.offset + bytes.length)

end Field

namespace Layout

def name : Field := ⟨0, 100⟩
def mode : Field := ⟨100, 8⟩
def owner : Field := ⟨108, 8⟩
def group : Field := ⟨116, 8⟩
def size : Field := ⟨124, 12⟩
def modified : Field := ⟨136, 12⟩
def checksum : Field := ⟨148, 8⟩
def tag : Field := ⟨156, 1⟩
def linkName : Field := ⟨157, 100⟩
def magic : Field := ⟨257, 8⟩
def ownerName : Field := ⟨265, 32⟩
def groupName : Field := ⟨297, 32⟩
def deviceMajor : Field := ⟨329, 8⟩
def deviceMinor : Field := ⟨337, 8⟩
def namePrefix : Field := ⟨345, 155⟩

end Layout

def magicText : String := "ustar  "

def fileTag : UInt8 := 0x30

def directoryTag : UInt8 := 0x35

end Buildbox.Archive
