/-!
JSON values as they are written: the compact form on one line, and the indented form.
-/

set_option autoImplicit false

namespace Buildbox.Json

/-- A JSON value. Numbers are counts; records keep the order of their members. -/
inductive Value
  | null
  | bool (b : Bool)
  | nat (n : Nat)
  | text (s : String)
  | list (items : List Value)
  | record (members : List (String × Value))

namespace Value

def hexDigit (n : Nat) : Char :=
  (Nat.toDigits 16 (n % 16)).headD '0'

/-- A character as it stands inside quotes. -/
def escape (c : Char) : List Char :=
  if c == '"' then ['\\', '"']
  else if c == '\\' then ['\\', '\\']
  else if c == '\x08' then ['\\', 'b']
  else if c == '\t' then ['\\', 't']
  else if c == '\n' then ['\\', 'n']
  else if c == '\x0c' then ['\\', 'f']
  else if c == '\r' then ['\\', 'r']
  else if c.toNat < 0x20 then ['\\', 'u', '0', '0', hexDigit (c.toNat / 16), hexDigit c.toNat]
  else [c]

def quote (s : String) : List Char :=
  '"' :: s.toList.flatMap escape ++ ['"']

def decimal (n : Nat) : List Char :=
  Nat.toDigits 10 n

mutual

def compactChars : Value → List Char
  | .null => ['n', 'u', 'l', 'l']
  | .bool true => ['t', 'r', 'u', 'e']
  | .bool false => ['f', 'a', 'l', 's', 'e']
  | .nat n => decimal n
  | .text s => quote s
  | .list items => '[' :: compactItems true items
  | .record members => '\x7b' :: compactMembers true members

def compactItems (first : Bool) : List Value → List Char
  | [] => [']']
  | v :: rest => (if first then [] else [',']) ++ compactChars v ++ compactItems false rest

def compactMembers (first : Bool) : List (String × Value) → List Char
  | [] => ['\x7d']
  | (key, v) :: rest =>
    (if first then [] else [',']) ++ quote key ++ ':' :: compactChars v ++ compactMembers false rest

end

def compact (v : Value) : String :=
  String.ofList v.compactChars

def indent (depth : Nat) : List Char :=
  '\n' :: List.replicate (2 * depth) ' '

mutual

/-- The indented form of a value at a depth: a line for each item, two spaces a level. -/
def prettyChars (depth : Nat) : Value → List Char
  | .list [] => ['[', ']']
  | .list (v :: rest) =>
    '[' :: indent (depth + 1) ++ prettyChars (depth + 1) v ++ prettyItems depth rest
  | .record [] => ['\x7b', '\x7d']
  | .record ((key, v) :: rest) =>
    '\x7b' :: indent (depth + 1) ++ quote key ++ ':' :: ' ' :: prettyChars (depth + 1) v ++
      prettyMembers depth rest
  | v => compactChars v

def prettyItems (depth : Nat) : List Value → List Char
  | [] => indent depth ++ [']']
  | v :: rest =>
    ',' :: indent (depth + 1) ++ prettyChars (depth + 1) v ++ prettyItems depth rest

def prettyMembers (depth : Nat) : List (String × Value) → List Char
  | [] => indent depth ++ ['\x7d']
  | (key, v) :: rest =>
    ',' :: indent (depth + 1) ++ quote key ++ ':' :: ' ' :: prettyChars (depth + 1) v ++
      prettyMembers depth rest

end

def pretty (v : Value) : String :=
  String.ofList (v.prettyChars 0)

end Value

end Buildbox.Json
