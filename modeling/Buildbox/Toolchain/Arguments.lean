import Buildbox.Config

/-!
The argument lists of the tools, and the files that they hand on to each other.
-/

set_option autoImplicit false

namespace Buildbox.Toolchain

/-- The source file that the compiler reads. -/
def inputFile : String := "program.cpp"

def objectFile : String := "program.o"

def executableFile : String := "program.wasm"

def libraryDirectory : String := "lib/wasm32-wasi"

def sysrootArguments (config : Config) : List String := [
  "-disable-free",
  "-isysroot", "/",
  "-internal-isystem", "/include/c++/v1",
  "-internal-isystem", "/include",
  "-internal-isystem", config.clangResourceDir]

def compileArguments (config : Config) : List String :=
  ["clang", "-cc1", "-Wall", "-emit-obj"] ++ sysrootArguments config ++
    ["-ferror-limit", "19", "-fmessage-length", "80", "-fcolor-diagnostics", "-O2",
      "-o", objectFile, "-x", "c++", inputFile]

/-- The compiler's arguments for a check of the syntax. -/
def diagnosticsArguments (config : Config) : List String :=
  ["clang", "-cc1", "-fsyntax-only", "-Wall", "-x", "c++"] ++ sysrootArguments config ++
    [inputFile]

def linkArguments (config : Config) (object : String) : List String := [
  "wasm-ld", "--no-threads", "--export-dynamic",
  "-z", s!"stack-size={config.stackSize}",
  s!"-L{libraryDirectory}",
  s!"{libraryDirectory}/libunistd_ext.o",
  s!"{libraryDirectory}/crt1.o",
  object,
  "-o", executableFile,
  "-lc", "-lc++", "-lc++abi", "-lunistd_ext"]

end Buildbox.Toolchain
