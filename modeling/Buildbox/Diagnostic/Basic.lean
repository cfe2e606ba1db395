import Buildbox.Text.Blank

/-!
Compiler diagnostics: positioned messages, their severities and their two written forms.
-/

set_option autoImplicit false

namespace Buildbox

inductive Severity
  | note
  | warning
  | error
  | fatal
  | other
deriving Repr, DecidableEq

namespace Severity

def classify (text : String) : Severity :=
  let word := Text.trim text
  if word == "note" || word == "remark" then .note
  else if word == "warning" then .warning
  else if word == "error" then .error
  else if word == "fatal error" then .fatal
  else .other

def rank : Severity → Nat
  | .note => 0
  | .warning => 1
  | .error => 2
  | .fatal => 3
  | .other => 4

def color : Severity → String
  | .note => "\x1b[96m"
  | .warning => "\x1b[95m"
  | .error | .fatal => "\x1b[91m"
  | .other => "\x1b[0m"

end Severity

/-- One positioned compiler message. Lines and columns count from 1. -/
structure Diagnostic where
  file : String
  line : UInt32
  column : UInt32
  severity : String
  message : String
deriving Repr, DecidableEq

namespace Diagnostic

def level (d : Diagnostic) : Severity :=
  .classify d.severity

def isError (d : Diagnostic) : Bool :=
  match d.level with
  | .error | .fatal => true
  | _ => false

/-- The plain line of a diagnostic, without its end. -/
def display (d : Diagnostic) : String :=
  s!"{d.file}:{d.line}:{d.column}: {d.severity}: {d.message}"

def render (d : Diagnostic) : String :=
  s!"\x1b[1m{d.file}:{d.line}:{d.column}: {d.level.color}{d.severity}:\x1b[0m {d.message}\r\n"

end Diagnostic

end Buildbox
