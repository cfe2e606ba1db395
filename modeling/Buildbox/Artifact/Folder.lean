import Buildbox.Artifact
import Buildbox.Bytes

/-!
A directory of the host, given by the files and directories below it. Reading it goes the way a
path names: empty parts and `.` stay, `..` goes up, and every other part goes down. A path that
leaves the directory never comes back, since nothing is known of what stands around it.
-/

set_option autoImplicit false

namespace Buildbox

/-- What stands at a path. -/
inductive Folder.Node
  | file (contents : Bytes)
  | directory
deriving Repr, DecidableEq

structure Folder where
  nodes : List (List String × Folder.Node) := []

namespace Folder

def nameLimit : Nat := 255

def pathLimit : Nat := 4095

/-- The parts of a path that lead somewhere. -/
def parts (path : String) : List String :=
  (path.splitOn "/").filter fun part => part != "" && part != "."

/-- A file, or a directory when the name ends in a slash, with the directories above it. -/
def place (name : String) (contents : Bytes) : List (List String × Node) :=
  let path := parts name
  let above := ((List.range path.length).drop 1).map fun depth => (path.take depth, Node.directory)
  above ++ [(path, if name.endsWith "/" then .directory else .file contents)]

def ofFiles (files : List (String × Bytes)) : Folder :=
  ⟨files.flatMap fun (name, contents) => place name contents⟩

def walkOutside : List String → Except FetchFault Node
  | [] => .ok .directory
  | part :: rest =>
    if part == ".." then walkOutside rest
    else if nameLimit < part.utf8ByteSize then .error .nameTooLong
    else .error .notFound

def walk (folder : Folder) (here : List String) : List String → Except FetchFault Node
  | [] => .ok .directory
  | part :: rest =>
    if part == ".." then
      match here with
      | [] => walkOutside rest
      | _ :: above => folder.walk above rest
    else if nameLimit < part.utf8ByteSize then .error .nameTooLong
    else
      match folder.nodes.lookup (part :: here).reverse with
      | none => .error .notFound
      | some .directory => folder.walk (part :: here) rest
      | some (.file contents) => if rest.isEmpty then .ok (.file contents) else .error .notDirectory

def namesDirectory (path : String) : Bool :=
  path.endsWith "/" || path.endsWith "/."

def read (folder : Folder) (path : String) : Except FetchFault Bytes := do
  if path.any (· == '\x00') then throw .nulInName
  if path.isEmpty then throw .notFound
  if pathLimit < path.utf8ByteSize then throw .nameTooLong
  let found ←
    if path.startsWith "/" then walkOutside (parts path) else folder.walk [] (parts path)
  match found with
  | .directory => throw .isDirectory
  | .file contents => if namesDirectory path then throw .notDirectory else return contents

end Folder

end Buildbox
