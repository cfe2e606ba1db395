import Buildbox.Json.Decode
import Buildbox.Json.Value
import Buildbox.Text.Blank

/-!
The toolchain's configuration: artifact names and compiler settings, read from JSON and overridden
from the environment.
-/

set_option autoImplicit false

namespace Buildbox

/-- What the toolchain needs to know up front. -/
structure Config where
  artifactDir : String := "."
  memfs : String := "memfs.wasm"
  clang : String := "clang.wasm"
  lld : String := "lld.wasm"
  sysroot : String := "sysroot.tar"
  /-- whether progress lines show elapsed times -/
  showTiming : Bool := false
  stackSize : UInt32 := 1048576
  /-- the compiler's own headers, inside the sysroot -/
  clangResourceDir : String := "/lib/clang/8.0.1/include"
  inputCapacity : UInt64 := 65536
deriving Repr, DecidableEq

namespace Config

def fields : List (Json.Decode.Field Config) := [
  ⟨"artifact_dir", fun d c => return { c with artifactDir := ← Json.Decode.text d }⟩,
  ⟨"memfs", fun d c => return { c with memfs := ← Json.Decode.text d }⟩,
  ⟨"clang", fun d c => return { c with clang := ← Json.Decode.text d }⟩,
  ⟨"lld", fun d c => return { c with lld := ← Json.Decode.text d }⟩,
  ⟨"sysroot", fun d c => return { c with sysroot := ← Json.Decode.text d }⟩,
  ⟨"show_timing", fun d c => return { c with showTiming := ← Json.Decode.bool d }⟩,
  ⟨"stack_size", fun d c =>
    return { c with stackSize := (← Json.Decode.natBelow UInt32.size d).toUInt32 }⟩,
  ⟨"clang_resource_dir", fun d c => return { c with clangResourceDir := ← Json.Decode.text d }⟩,
  ⟨"input_capacity", fun d c =>
    return { c with inputCapacity := (← Json.Decode.natBelow UInt64.size d).toUInt64 }⟩]

/-- Reads a configuration; a field that is not given keeps its default. -/
def decode : Json.Decode Config :=
  Json.Decode.record fields {}

def ofJson (text : String) : Except Json.Problem Config :=
  Json.parse decode text

def toJson (config : Config) : Json.Value :=
  .record [
    ("artifact_dir", .text config.artifactDir),
    ("memfs", .text config.memfs),
    ("clang", .text config.clang),
    ("lld", .text config.lld),
    ("sysroot", .text config.sysroot),
    ("show_timing", .bool config.showTiming),
    ("stack_size", .nat config.stackSize.toNat),
    ("clang_resource_dir", .text config.clangResourceDir),
    ("input_capacity", .nat config.inputCapacity.toNat)]

def artifactsVariable : String := "SANDCC_ARTIFACTS"

def timingVariable : String := "SANDCC_SHOW_TIMING"

def switch? (text : String) : Option Bool :=
  let word := (Text.trim text).toList.map Char.toLower
  if ["1", "true", "yes"].any (·.toList == word) then some true
  else if ["0", "false", "no"].any (·.toList == word) then some false
  else none

def override (config : Config) (lookup : String → Option String) : Config :=
  let config := match lookup artifactsVariable with
    | some dir => { config with artifactDir := dir }
    | none => config
  match (lookup timingVariable).bind switch? with
  | some on => { config with showTiming := on }
  | none => config

end Config

end Buildbox
