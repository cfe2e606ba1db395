import Buildbox.CommandLine.Basic
import Buildbox.Wasm.Machine
import Std.Time.DateTime.Timestamp

/-!
The command line on the real console.
-/

set_option autoImplicit false

namespace Buildbox

open CommandLine

/-- Why a file was not read. -/
def FetchFault.ofError (path : String) (error : IO.Error) : FetchFault :=
  if path.any (· == '\x00') then .nulInName
  else
    match error with
    | .noFileOrDirectory .. | .noSuchThing .. => .notFound
    | .inappropriateType _ code _ =>
      if code == 21 then .isDirectory else .notDirectory
    | .invalidArgument _ 36 _ => .nameTooLong
    | error => .other (toString error)

def readFile (path : String) : IO (Except FetchFault Bytes) := do
  try
    return .ok (← IO.FS.readBinFile path).data.toList
  catch error =>
    return .error (.ofError path error)

partial def readLine (input : IO.FS.Stream) (line : ByteArray) : IO Bytes := do
  let next ← input.read 1
  let line := line ++ next
  if next.isEmpty || next.data.contains 0x0A then return line.data.toList
  readLine input line

def print (stream : CommandLine.Stream) (text : String) : IO Unit := do
  let output ← match stream with
    | .stdout => IO.getStdout
    | .stderr => IO.getStderr
  output.putStr text
  output.flush

def console : Console IO where
  print := print
  readLine := do readLine (← IO.getStdin) .empty
  readFile := readFile
  environment := fun name => IO.getEnv name
  elapsed := IO.monoNanosNow
  wallClock := do return (← Std.Time.Timestamp.now).toNanosecondsSinceUnixEpoch.val.toNat
  random := fun count => do return (← IO.getRandomBytes count.toUSize).data.toList
  crash := throw (IO.userError AccessFault.overflow.message)

end Buildbox

def main (arguments : List String) : IO UInt32 :=
  Buildbox.CommandLine.run Buildbox.Wasm.engine Buildbox.console arguments
