import Buildbox.Host.Basic

/-!
Progress lines on the terminal: what the toolchain tells about its own work.
-/

set_option autoImplicit false

namespace Buildbox.Progress

def arrow : String := "\x1b[1;93m>\x1b[0m "

def green : String := "\x1b[92m"

def normal : String := "\x1b[0m"

def gray : String := "\x1b[38;5;248m"

def hundredths (n : Nat) : String :=
  let cents := n % 100
  let fill := if cents < 10 then "0" else ""
  s!"{n / 100}.{fill}{cents}"

/-- A nonnegative double in hundredths, rounded from its exact value; a tie goes to the even
neighbour. -/
def roundHundredths (x : Float) : Nat :=
  let bits := x.toBits.toNat
  let mantissa := bits % (1 <<< 52)
  let power := (bits >>> 52) % (1 <<< 11)
  let (m, power) := if power == 0 then (mantissa, 1) else (mantissa + (1 <<< 52), power)
  let scaled := m * 100
  if 1075 ≤ power then scaled <<< (power - 1075)
  else
    let unit := 1 <<< (1075 - power)
    let floor := scaled / unit
    let twice := 2 * (scaled % unit)
    if unit < twice || (twice == unit && floor % 2 == 1) then floor + 1 else floor

def seconds (nanoseconds : Nat) : String :=
  let whole := (nanoseconds / 1000000000).toUInt64.toFloat
  let part := (nanoseconds % 1000000000).toUInt64.toFloat / 1000000000.0
  hundredths (roundHundredths (whole + part))

/-- Writes one progress line, without its end. -/
def line (message : String) : Host Unit :=
  Host.write (arrow ++ message)

def task {m : Type → Type} {α : Type} [Monad m] [MonadLiftT Host m] (timing : Bool)
    (message : String) (work : m α) : m α := do
  let start ← (Host.elapsed : Host Nat)
  (line (message ++ "...") : Host Unit)
  let value ← work
  (Host.write " done." : Host Unit)
  if timing then
    let now ← (Host.elapsed : Host Nat)
    (Host.write s!" {green}({seconds (now - start)}s){normal}\r\n" : Host Unit)
  (Host.write "\r\n" : Host Unit)
  return value

def runTiming (timing : Bool) (instantiation run : Nat) : Host Unit :=
  if timing then
    Host.write s!"{green}({seconds instantiation}s/{seconds run}s){normal}\r\n"
  else pure ()

end Buildbox.Progress
