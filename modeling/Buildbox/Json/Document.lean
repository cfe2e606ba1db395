import Buildbox.Json.Number

/-!
JSON texts as they are read. A `Document` keeps what was read before the text stopped being JSON,
and where it stopped, so that a reader who walks it from left to right meets the first problem
first: a value of the wrong type before a mistake further on.
-/

set_option autoImplicit false

namespace Buildbox.Json

inductive Close
  | closed
  /-- broken off, with or without a comma since the last item -/
  | broken (b : Break) (afterComma : Bool)
deriving Repr, DecidableEq

/-- What a text holds, up to where it stops being JSON. The characters of a text are missing when
it has an unpaired surrogate. -/
inductive Document
  | null
  | bool (b : Bool)
  | number (n : Number)
  | text (chars : Option (List Char))
  | list (items : List Document) (close : Close)
  | record (members : List (Option (List Char) × Document)) (close : Close)
  /-- an empty record that was read before its type was known: it also stands for nothing -/
  | empty
  /-- a natural number that was read before its type was known: in a list of a tag and a content it
  also stands for the case at that place -/
  | count (n : Nat)
  /-- a list or a record nested too deeply to be read, and the problem of skipping it if any -/
  | deep (skipping : Option Problem)
  | broken (b : Break)

namespace Document

def isBlank (c : Char) : Bool :=
  c == ' ' || c == '\n' || c == '\t' || c == '\r'

def skipBlanks (chars : List Char) : List Char :=
  chars.dropWhile isBlank

/-- A part of a quoted text: a character, or a 16-bit unit given by its number. -/
inductive Piece
  | character (c : Char)
  | unit (n : Nat)

def hexValue? (c : Char) : Option Nat :=
  if '0' ≤ c && c ≤ '9' then some (c.toNat - '0'.toNat)
  else if 'a' ≤ c && c ≤ 'f' then some (c.toNat - 'a'.toNat + 10)
  else if 'A' ≤ c && c ≤ 'F' then some (c.toNat - 'A'.toNat + 10)
  else none

def hexUnit? (a b c d : Char) : Option Nat := do
  let a ← hexValue? a
  let b ← hexValue? b
  let c ← hexValue? c
  let d ← hexValue? d
  some (((a * 16 + b) * 16 + c) * 16 + d)

def shortEscape? : Char → Option Char
  | '"' => some '"'
  | '\\' => some '\\'
  | '/' => some '/'
  | 'b' => some '\x08'
  | 'f' => some '\x0c'
  | 'n' => some '\n'
  | 'r' => some '\r'
  | 't' => some '\t'
  | _ => none

/-- Reads a quoted text after its first quote: its parts in reverse, and what follows or why it
breaks off. -/
def pieces (read : List Piece) : List Char → List Piece × Except Problem (List Char)
  | [] => (read, .error .ended)
  | '"' :: rest => (read, .ok rest)
  | '\\' :: 'u' :: a :: b :: c :: d :: rest =>
    match hexUnit? a b c d with
    | some n => pieces (.unit n :: read) rest
    | none => (read, .error .malformed)
  | '\\' :: 'u' :: rest =>
    (read, .error (if (String.ofList rest).utf8ByteSize < 4 then .ended else .malformed))
  | '\\' :: c :: rest =>
    match shortEscape? c with
    | some c => pieces (.character c :: read) rest
    | none => (read, .error .malformed)
  | '\\' :: [] => (read, .error .ended)
  | c :: rest =>
    if c.toNat < 0x20 then (read, .error .malformed)
    else pieces (.character c :: read) rest

def isHigh (n : Nat) : Bool :=
  0xD800 ≤ n && n ≤ 0xDBFF

def isLow (n : Nat) : Bool :=
  0xDC00 ≤ n && n ≤ 0xDFFF

def pairChar (high low : Nat) : Char :=
  Char.ofNat (0x10000 + (high - 0xD800) * 0x400 + (low - 0xDC00))

/-- The characters of the parts, given the unpaired first half before them if there is one; nothing
when a half has no partner. -/
def join (half : Option Nat) : List Piece → Option (List Char)
  | [] => if half.isSome then none else some []
  | .character c :: rest => if half.isSome then none else (join none rest).map (c :: ·)
  | .unit n :: rest =>
    match half with
    | some high => if isLow n then (join none rest).map (pairChar high n :: ·) else none
    | none =>
      if isHigh n then join (some n) rest
      else if isLow n then none
      else (join none rest).map (Char.ofNat n :: ·)

/-- Whether the last part is a first half that still may find its partner. -/
def endsHigh : List Piece → Bool
  | .unit n :: _ => isHigh n
  | _ => false

def quoted (chars : List Char) : Except Break (Option (List Char) × List Char) :=
  match pieces [] chars with
  | (read, .ok rest) => .ok (join none read.reverse, rest)
  | (read, .error problem) =>
    let settled := if endsHigh read then read.drop 1 else read
    let reading := if (join none settled.reverse).isSome then problem else .malformed
    .error { reading, skipping := problem }

def word (expected : List Char) (value : Document) (chars : List Char) :
    Except Break (Document × List Char) :=
  match expected, chars with
  | [], rest => .ok (value, rest)
  | _ :: _, [] => .error .brokenWord
  | e :: expected, c :: rest => if e == c then word expected value rest else .error .malformed

def ofNumber (negative : Bool) (chars : List Char) : Except Break (Document × List Char) := do
  let (n, rest) ← Number.magnitude negative chars
  return (.number n, rest)

def scalar : List Char → Except Break (Document × List Char)
  | [] => .error .ended
  | 'n' :: rest => word ['u', 'l', 'l'] .null rest
  | 't' :: rest => word ['r', 'u', 'e'] (.bool true) rest
  | 'f' :: rest => word ['a', 'l', 's', 'e'] (.bool false) rest
  | '"' :: rest => do
    let (chars, rest) ← quoted rest
    return (.text chars, rest)
  | '-' :: rest => ofNumber true rest
  | c :: rest => if isDigit c then ofNumber false (c :: rest) else .error .malformed

def skipKey (chars : List Char) : Except Problem (List Char) :=
  match skipBlanks chars with
  | [] => .error .ended
  | '"' :: rest =>
    match pieces [] rest with
    | (_, .error problem) => .error problem
    | (_, .ok rest) =>
      match skipBlanks rest with
      | [] => .error .ended
      | ':' :: rest => .ok rest
      | _ => .error .malformed
  | _ => .error .malformed

def skipToItem (closer : Char) (chars : List Char) : Except Problem (List Char) :=
  if closer == '\x7d' then skipKey chars else .ok chars

/-- Skips to the next item of a list or a record, or past its end, and tells whether it ended. -/
def skipAhead (closer : Char) (afterItem : Bool) (chars : List Char) :
    Except Problem (Bool × List Char) :=
  match skipBlanks chars with
  | [] => .error .ended
  | c :: rest =>
    if c == closer then .ok (true, rest)
    else if !afterItem then (skipToItem closer (c :: rest)).map fun rest => (false, rest)
    else if c == ',' then (skipToItem closer rest).map fun rest => (false, rest)
    else .error .malformed

/-- Skips the rest of nested lists and records, given the brackets that close them, the innermost
first, and whether an item stands before. Every step takes a character. -/
def skipNest : (fuel : Nat) → (closers : List Char) → (afterItem : Bool) → List Char →
    Except Problem (List Char)
  | 0, _, _, _ => .error .malformed
  | _ + 1, [], _, chars => .ok chars
  | fuel + 1, closer :: outer, afterItem, chars =>
    match skipAhead closer afterItem chars with
    | .error problem => .error problem
    | .ok (true, rest) => skipNest fuel outer true rest
    | .ok (false, chars) =>
      match skipBlanks chars with
      | '[' :: rest => skipNest fuel (']' :: closer :: outer) false rest
      | '\x7b' :: rest => skipNest fuel ('\x7d' :: closer :: outer) false rest
      | chars =>
        match scalar chars with
        | .error b => .error b.skipping
        | .ok (_, rest) => skipNest fuel (closer :: outer) true rest

def maxDepth : Nat := 127

def deepValue (closer : Char) (chars : List Char) : Document × Option (List Char) :=
  match skipNest (chars.length + 1) [closer] false chars with
  | .ok rest => (.deep none, some rest)
  | .error problem => (.deep (some problem), none)

mutual

def value : (fuel depth : Nat) → List Char → Document × Option (List Char)
  | 0, _, _ => (.broken .malformed, none)
  | fuel + 1, depth, chars =>
    match skipBlanks chars with
    | '[' :: rest =>
      match depth with
      | 0 => deepValue ']' rest
      | depth + 1 =>
        match skipBlanks rest with
        | ']' :: rest => (.list [] .closed, some rest)
        | [] => (.list [] (.broken .ended false), none)
        | rest =>
          let (items, close, rest) := items fuel depth rest
          (.list items close, rest)
    | '\x7b' :: rest =>
      match depth with
      | 0 => deepValue '\x7d' rest
      | depth + 1 =>
        match skipBlanks rest with
        | '\x7d' :: rest => (.record [] .closed, some rest)
        | rest =>
          let (members, close, rest) := members fuel depth false rest
          (.record members close, rest)
    | chars =>
      match scalar chars with
      | .ok (v, rest) => (v, some rest)
      | .error b => (.broken b, none)

def items : (fuel depth : Nat) → List Char → List Document × Close × Option (List Char)
  | 0, _, _ => ([], .broken .malformed false, none)
  | fuel + 1, depth, chars =>
    match value fuel depth chars with
    | (item, none) => ([item], .closed, none)
    | (item, some rest) =>
      match skipBlanks rest with
      | [] => ([item], .broken .ended false, none)
      | ']' :: rest => ([item], .closed, some rest)
      | ',' :: rest =>
        match skipBlanks rest with
        | [] => ([item], .broken .ended true, none)
        | ']' :: _ => ([item], .broken .malformed true, none)
        | rest =>
          let (later, close, rest) := items fuel depth rest
          (item :: later, close, rest)
      | _ => ([item], .broken .malformed false, none)

def members : (fuel depth : Nat) → Bool → List Char →
    List (Option (List Char) × Document) × Close × Option (List Char)
  | 0, _, afterComma, _ => ([], .broken .malformed afterComma, none)
  | fuel + 1, depth, afterComma, chars =>
    match skipBlanks chars with
    | [] => ([], .broken .ended afterComma, none)
    | '"' :: rest =>
      match quoted rest with
      | .error b => ([], .broken b afterComma, none)
      | .ok (key, rest) =>
        match skipBlanks rest with
        | [] => ([(key, .broken .ended)], .closed, none)
        | ':' :: rest =>
          match value fuel depth rest with
          | (v, none) => ([(key, v)], .closed, none)
          | (v, some rest) =>
            match skipBlanks rest with
            | [] => ([(key, v)], .broken .ended false, none)
            | '\x7d' :: rest => ([(key, v)], .closed, some rest)
            | ',' :: rest =>
              let (later, close, rest) := members fuel depth true rest
              ((key, v) :: later, close, rest)
            | _ => ([(key, v)], .broken .malformed false, none)
        | _ => ([(key, .broken .malformed)], .closed, none)
    | _ => ([], .broken .malformed afterComma, none)

end

def ofChars (chars : List Char) : Document × Bool :=
  match value (2 * chars.length + 2) maxDepth chars with
  | (document, some rest) => (document, !(skipBlanks rest).isEmpty)
  | (document, none) => (document, false)

end Document

end Buildbox.Json
