import Buildbox.Session.Message

/-!
A terminal with prepared lines. It answers a request for a line from them, and holds the request
when they are used up.
-/

set_option autoImplicit false

namespace Buildbox.Session

/-- A terminal: what it shows and how it answers. -/
structure Terminal where
  shown : String := ""
  lines : List String := []
  /-- the generations whose request for a line is not answered yet -/
  held : List Generation := []

namespace Terminal

def write (terminal : Terminal) (text : String) : Terminal :=
  { terminal with shown := terminal.shown ++ text }

def requestLine (terminal : Terminal) (generation : Generation) : Option String × Terminal :=
  match terminal.lines with
  | line :: lines => (some line, { terminal with lines })
  | [] => (none, { terminal with held := terminal.held ++ [generation] })

end Terminal

end Buildbox.Session
