/-!
Byte strings: what sources, archive images, input lines and guest buffers are made of.
-/

set_option autoImplicit false

namespace Buildbox

abbrev Bytes := List UInt8

namespace Bytes

def zeros (count : Nat) : Bytes :=
  List.replicate count 0

def beforeNul (bytes : Bytes) : Bytes :=
  bytes.takeWhile (· != 0)

def ofString (text : String) : Bytes :=
  text.toUTF8.data.toList

/-- The four bytes of a word, least significant first. -/
def ofWord (word : UInt32) : Bytes :=
  [word.toUInt8, (word >>> 8).toUInt8, (word >>> 16).toUInt8, (word >>> 24).toUInt8]

def toWord (b0 b1 b2 b3 : UInt8) : UInt32 :=
  b0.toUInt32 ||| (b1.toUInt32 <<< 8) ||| (b2.toUInt32 <<< 16) ||| (b3.toUInt32 <<< 24)

end Bytes

end Buildbox
