/-!
What the arguments of the program ask for. They are cut into tokens first; then each token is
taken at its level, the program's or a command's, and the first one that asks to stop is heard.
-/

set_option autoImplicit false

namespace Buildbox.CommandLine

structure Options where
  artifacts : Option String := none
  config : Option String := none
  timing : Bool := false
deriving Repr, DecidableEq

inductive Command
  | run (file : String) (frames : UInt32) (frameExport : String)
  | check (file : String) (json : Bool)
deriving Repr, DecidableEq

def defaultFrameExport : String := "frame"

/-- The levels of the command line. -/
inductive Level
  | program
  | run
  | check
  | help
deriving Repr, DecidableEq

inductive Invocation
  | perform (options : Options) (command : Command)
  | version
  | help (level : Level)
deriving Repr, DecidableEq

inductive Token
  | word (text : String)
  | escape
  | escaped (text : String)
  | option (name : String) (value : Option String)
  | incomplete
  | letter (c : Char)
deriving Repr, DecidableEq

namespace Token

def valued : List String := ["artifacts", "config", "frames", "frame-export"]

def isWord (argument : String) : Bool :=
  argument == "-" || !argument.startsWith "-"

def cut (chars : List Char) : String × Option String :=
  let name := String.ofList (chars.takeWhile (· != '='))
  match chars.dropWhile (· != '=') with
  | _ :: value => (name, some (String.ofList value))
  | [] => (name, none)

/-- The tokens of the arguments that follow, given the option that still awaits its value. -/
def ofArguments (awaiting : Option String) : List String → List Token
  | [] => (awaiting.map fun _ => .incomplete).toList
  | argument :: rest =>
    match awaiting, argument.toList with
    | some name, _ =>
      if isWord argument then .option name (some argument) :: ofArguments none rest
      else [.incomplete]
    | none, ['-', '-'] => .escape :: rest.map .escaped
    | none, '-' :: '-' :: chars =>
      let (name, value) := cut chars
      if value.isNone && valued.contains name then ofArguments (some name) rest
      else .option name value :: ofArguments none rest
    | none, '-' :: c :: _ => .letter c :: ofArguments none rest
    | none, _ => .word argument :: ofArguments none rest

end Token

inductive Stop
  | refused
  | found (invocation : Invocation)

/-- What was read so far: the options of the levels above, and those of this one. -/
structure Reading where
  level : Level := .program
  outer : Options := {}
  options : Options := {}
  file : Option String := none
  frames : Option UInt32 := none
  frameExport : Option String := none
  json : Bool := false
  topic : Option Level := none

namespace Reading

def once {α : Type} (old : Option α) (value : α) : Except Stop (Option α) :=
  if old.isSome then throw .refused else pure (some value)

def switch (old : Bool) : Except Stop Bool :=
  if old then throw .refused else pure true

/-- A path, which is never empty. -/
def path (text : String) : Except Stop String :=
  if text.isEmpty then throw .refused else pure text

/-- A count of frames: decimal digits with an optional sign, of a value that fits a word. -/
def count (text : String) : Except Stop UInt32 :=
  let (negative, digits) := match text.toList with
    | '-' :: digits => (true, digits)
    | '+' :: digits => (false, digits)
    | digits => (false, digits)
  if digits.isEmpty || !digits.all Char.isDigit then throw .refused
  else
    let value := digits.foldl (fun total c => total * 10 + (c.toNat - '0'.toNat)) 0
    if UInt32.size ≤ value || (negative && value != 0) then throw .refused
    else pure value.toUInt32

def takeFile (r : Reading) (text : String) : Except Stop Reading := do
  return { r with file := ← once r.file (← path text) }

def takeWord (r : Reading) (text : String) : Except Stop Reading :=
  match r.level, text with
  | .program, "run" => pure { level := .run, outer := r.options }
  | .program, "check" => pure { level := .check, outer := r.options }
  | .program, "help" => pure { topic := some .program }
  | .program, _ => throw .refused
  | _, _ => r.takeFile text

/-- Takes a word after `help`: the command that help is asked for. -/
def takeTopic (r : Reading) : Token → Except Stop Reading
  | .word "run" => do return { r with topic := some (← deeper .run) }
  | .word "check" => do return { r with topic := some (← deeper .check) }
  | .word "help" => do return { r with topic := some (← deeper .help) }
  | _ => throw .refused
where
  deeper (level : Level) : Except Stop Level :=
    if r.topic == some .program then pure level else throw .refused

def takeOption (r : Reading) (name : String) (value : Option String) : Except Stop Reading := do
  match r.level, name, value with
  | _, "artifacts", some text =>
    return { r with options.artifacts := ← once r.options.artifacts (← path text) }
  | _, "config", some text =>
    return { r with options.config := ← once r.options.config (← path text) }
  | _, "timing", none => return { r with options.timing := ← switch r.options.timing }
  | _, "help", none => throw (.found (.help r.level))
  | .program, "version", none => throw (.found .version)
  | .run, "frames", some text => return { r with frames := ← once r.frames (← count text) }
  | .run, "frame-export", some text => return { r with frameExport := ← once r.frameExport text }
  | .check, "json", none => return { r with json := ← switch r.json }
  | _, _, _ => throw .refused

def take (r : Reading) (token : Token) : Except Stop Reading :=
  if r.topic.isSome then r.takeTopic token
  else
    match token with
    | .word text => r.takeWord text
    | .escape => pure r
    | .escaped text => if r.level == .program then throw .refused else r.takeFile text
    | .option name value => r.takeOption name value
    | .letter 'h' => throw (.found (.help r.level))
    | .letter 'V' => throw (if r.level == .program then .found .version else .refused)
    | .letter _ | .incomplete => throw .refused

def allOptions (r : Reading) : Options where
  artifacts := r.options.artifacts <|> r.outer.artifacts
  config := r.options.config <|> r.outer.config
  timing := r.options.timing || r.outer.timing

def command? (r : Reading) : Option Command := do
  let file ← r.file
  match r.level with
  | .program | .help => none
  | .run => some (.run file (r.frames.getD 0) (r.frameExport.getD defaultFrameExport))
  | .check => some (.check file r.json)

def invocation? (r : Reading) : Option Invocation :=
  match r.topic with
  | some level => some (.help level)
  | none => r.command?.map (.perform r.allOptions)

end Reading

def Invocation.ofArguments? (arguments : List String) : Option Invocation :=
  match (Token.ofArguments none arguments).foldlM Reading.take {} with
  | .ok reading => reading.invocation?
  | .error (.found invocation) => some invocation
  | .error .refused => none

end Buildbox.CommandLine
