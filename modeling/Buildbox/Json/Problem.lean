/-!
Why a JSON text is refused, and how the place where it stops being JSON looks to those who read,
skip or name what stands there.
-/

set_option autoImplicit false

namespace Buildbox.Json

inductive Problem
  | ended
  | malformed
  /-- the text is JSON so far, but of the wrong type or range -/
  | unexpected
deriving Repr, DecidableEq

/-- A place where a text stops being JSON. Skipping a value looks less closely than reading it. -/
structure Break where
  reading : Problem
  skipping : Problem
  naming : Problem := reading
deriving Repr, DecidableEq

namespace Break

def ended : Break := { reading := .ended, skipping := .ended }

def malformed : Break := { reading := .malformed, skipping := .malformed }

def brokenWord : Break := { ended with naming := .malformed }

def brokenNumber (rest : List Char) : Break :=
  { reading := if rest.isEmpty then .ended else .malformed
    skipping := .malformed
    naming := .malformed }

end Break

end Buildbox.Json
