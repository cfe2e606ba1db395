/-!
Artifacts: the packaged binaries, fetched by plain names. A name is looked up in a table, or in a
directory of the host.
-/

set_option autoImplicit false

namespace Buildbox

inductive FetchFault
  /-- a name that a table of artifacts does not hold -/
  | unknown (name : String)
  | badName (name : String)
  | nulInName
  | notFound
  | isDirectory
  /-- a path that goes on below a file -/
  | notDirectory
  | nameTooLong
  | other (reason : String)
deriving Repr, DecidableEq

def FetchFault.message : FetchFault → String
  | .unknown name => s!"no artifact named '{name}'"
  | .badName name => s!"invalid artifact name '{name}'"
  | .nulInName => "file name contained an unexpected NUL byte"
  | .notFound => "No such file or directory (os error 2)"
  | .isDirectory => "Is a directory (os error 21)"
  | .notDirectory => "Not a directory (os error 20)"
  | .nameTooLong => "File name too long (os error 36)"
  | .other reason => reason

namespace Artifact

def checkName (name : String) : Except FetchFault Unit :=
  if name.isEmpty || name.any (fun c => c == '/' || c == '\\') || name == ".." then
    .error (.badName name)
  else if name.any (· == '\x00') then .error .nulInName
  else .ok ()

/-- The path of a named artifact in a directory. -/
def path (directory name : String) : Except FetchFault String := do
  checkName name
  if directory.isEmpty then pure name
  else if directory.endsWith "/" then pure (directory ++ name)
  else pure (directory ++ "/" ++ name)

end Artifact

end Buildbox
