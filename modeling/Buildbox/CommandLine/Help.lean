import Buildbox.CommandLine.Invocation

/-!
What the program says of itself: its version, and the help for each level of its command line.
-/

set_option autoImplicit false

namespace Buildbox.CommandLine

def programName : String := "sandcc"

def versionText : String := s!"{programName} 0.1.0\n"

def Level.about : Level → String
  | .program =>
    "A sandboxed in-process C++ toolchain: compiler, linker and program run as WASM modules"
  | .run => "Compile, link and run a C++ source file"
  | .check => "Syntax-check a C++ source file and print its diagnostics"
  | .help => "Print this message or the help of the given subcommand(s)"

def Level.usage : Level → String
  | .program => s!"{programName} [OPTIONS] <COMMAND>"
  | .run => s!"{programName} run [OPTIONS] <FILE>"
  | .check => s!"{programName} check [OPTIONS] <FILE>"
  | .help => s!"{programName} help [COMMAND]..."

/-- What a level takes, in the lines of its help. -/
def Level.details : Level → List String
  | .program => [
    "Commands:",
    s!"  run    {Level.run.about}",
    s!"  check  {Level.check.about}",
    s!"  help   {Level.help.about}",
    "",
    "Options:",
    "      --artifacts <ARTIFACTS>  Directory holding the toolchain modules and the sysroot image",
    "      --config <CONFIG>        JSON configuration file",
    "      --timing                 Show how long each step took",
    "  -h, --help                   Print help",
    "  -V, --version                Print version"]
  | .run => [
    "Arguments:",
    "  <FILE>  ",
    "",
    "Options:",
    "      --artifacts <ARTIFACTS>        " ++
      "Directory holding the toolchain modules and the sysroot image",
    "      --frames <FRAMES>              " ++
      "Calls into the program's continuation export after it asks to continue [default: 0]",
    "      --config <CONFIG>              JSON configuration file",
    "      --frame-export <FRAME_EXPORT>  " ++
      s!"Export called for each frame [default: {defaultFrameExport}]",
    "      --timing                       Show how long each step took",
    "  -h, --help                         Print help"]
  | .check => [
    "Arguments:",
    "  <FILE>  ",
    "",
    "Options:",
    "      --artifacts <ARTIFACTS>  Directory holding the toolchain modules and the sysroot image",
    "      --json                   Print diagnostics as JSON on stdout",
    "      --config <CONFIG>        JSON configuration file",
    "      --timing                 Show how long each step took",
    "  -h, --help                   Print help"]
  | .help => [
    "Arguments:",
    "  [COMMAND]...  Print help for the subcommand(s)"]

def Level.helpText (level : Level) : String :=
  let lines := [level.about, "", s!"Usage: {level.usage}", ""] ++ level.details
  String.join (lines.map (· ++ "\n"))

/-- What is said when the arguments are refused. -/
def refusalText : String :=
  s!"error: the arguments were not understood\n\nUsage: {Level.program.usage}\n"

end Buildbox.CommandLine
