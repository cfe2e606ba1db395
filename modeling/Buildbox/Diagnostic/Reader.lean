import Buildbox.Diagnostic.Basic
import Buildbox.Text.Digit

/-!
Reading compiler output. A line is a diagnostic when it can be cut as file, line, column, severity
and message; of several cuts the one with the longest file counts. Every other line (source
excerpts, carets, summaries) is skipped.
-/

set_option autoImplicit false

namespace Buildbox.Diagnostic

/-- The lines of a text. A line ends at a line feed, and a carriage return before it is dropped; a
last line without a line feed is kept whole. -/
def lines (chars : List Char) : List (List Char) :=
  go [] chars
where
  /-- The lines of a text, given the start of its first line in reverse. -/
  go (line : List Char) : List Char → List (List Char)
  | [] => if line.isEmpty then [] else [line.reverse]
  | '\n' :: rest =>
    let line := match line with
      | '\r' :: line => line
      | line => line
    line.reverse :: go [] rest
  | c :: rest => go (c :: line) rest

def position? (chars : List Char) : Option (List Char × List Char) :=
  let digits := chars.takeWhile Text.isDigit
  match digits.isEmpty, chars.dropWhile Text.isDigit with
  | false, ':' :: rest => some (digits, rest)
  | _, _ => none

def afterBlank? : List Char → Option (List Char)
  | c :: rest => if Text.isBlank c then some rest else none
  | [] => none

def afterColon? : List Char → Option (List Char)
  | ':' :: rest => some rest
  | _ => none

structure Tail where
  line : List Char
  column : List Char
  severity : List Char
  message : List Char
deriving Repr, DecidableEq

/-- Reads everything after the file: `:line:column: severity: message`. -/
def tail? (chars : List Char) : Option Tail := do
  let rest ← afterColon? chars
  let (line, rest) ← position? rest
  let (column, rest) ← position? rest
  let rest ← afterBlank? rest
  let severity := rest.takeWhile (· != ':')
  let rest ← afterColon? (rest.dropWhile (· != ':'))
  let message ← afterBlank? rest
  if message.isEmpty then none
  else some { line, column, severity, message }

def longestCut : List Char → Option (List Char × Tail)
  | [] => none
  | c :: rest =>
    match longestCut rest with
    | some (file, tail) => some (c :: file, tail)
    | none => (tail? rest).map ([c], ·)

def number? (digits : List Char) : Option UInt32 := do
  let value ← Text.decimal? digits
  if value < UInt32.size then some value.toUInt32 else none

def ofLine? (line : List Char) : Option Diagnostic := do
  let (file, tail) ← longestCut line
  let row ← number? tail.line
  let column ← number? tail.column
  some {
    file := String.ofList file
    line := row
    column := column
    severity := String.ofList tail.severity
    message := String.ofList tail.message }

def parse (output : String) : List Diagnostic :=
  (lines output.toList).filterMap ofLine?

end Buildbox.Diagnostic
