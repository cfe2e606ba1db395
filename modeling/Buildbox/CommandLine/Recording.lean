import Buildbox.Artifact.Folder
import Buildbox.CommandLine.Basic
import Buildbox.Host.Recording

/-!
The program on a prepared console: typed input, a folder of files, and variables. What it prints is
kept, each stream by itself.
-/

set_option autoImplicit false

namespace Buildbox.CommandLine

structure Screen where
  typed : Bytes
  stdout : String := ""
  stderr : String := ""

namespace Screen

def print (screen : Screen) (stream : Stream) (text : String) : Screen :=
  match stream with
  | .stdout => { screen with stdout := screen.stdout ++ text }
  | .stderr => { screen with stderr := screen.stderr ++ text }

def lineEnd : UInt8 := 0x0A

/-- Takes a typed line, with its end if it has one. -/
def takeLine (screen : Screen) : Bytes × Screen :=
  let (line, rest) := screen.typed.span (· != lineEnd)
  (line ++ rest.take 1, { screen with typed := rest.drop 1 })

end Screen

def Console.recorded (folder : Folder) (settings : List (String × String)) :
    Console (StateM Screen) where
  print stream text := modify (·.print stream text)
  readLine := modifyGet Screen.takeLine
  readFile path := return folder.read path
  environment name := return settings.lookup name
  elapsed := return Recording.moment
  wallClock := return Recording.moment
  random count := return List.replicate count Recording.randomByte
  crash := return ()

end Buildbox.CommandLine
