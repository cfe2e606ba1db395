import Buildbox.Json.Document

/-!
Reading typed values off JSON documents. Every reader meets the problems of a document from left to
right, so that the first one decides how a text is refused. A record may be given as the list of
its fields in order; unknown members are skipped.
-/

set_option autoImplicit false

namespace Buildbox.Json

abbrev Decode (α : Type) := Document → Except Problem α

namespace Document

mutual

def skip : Document → Except Problem Unit
  | .null | .bool _ | .number _ | .text _ | .empty | .count _ => pure ()
  | .deep problem => problem.forM throw
  | .broken b => throw b.skipping
  | .list items close => do
    skipItems items
    skipClose close
  | .record members close => do
    skipMembers members
    skipClose close

def skipItems : List Document → Except Problem Unit
  | [] => pure ()
  | item :: rest => do
    item.skip
    skipItems rest

def skipMembers : List (Option (List Char) × Document) → Except Problem Unit
  | [] => pure ()
  | (_, item) :: rest => do
    item.skip
    skipMembers rest

def skipClose : Close → Except Problem Unit
  | .closed => pure ()
  | .broken b _ => throw b.skipping

end

def readClose : Close → Except Problem Unit
  | .closed => pure ()
  | .broken b _ => throw b.reading

def readChars : Option (List Char) → Except Problem String
  | some chars => pure (String.ofList chars)
  | none => throw .malformed

mutual

def settle : Document → Except Problem Document
  | .number .huge | .text none | .deep _ => throw .malformed
  | .broken b => throw b.reading
  | .number (.natural n) => pure (.count n)
  | .record [] .closed => pure .empty
  | .list items close => do
    let items ← settleItems items
    readClose close
    pure (.list items close)
  | .record members close => do
    let members ← settleMembers members
    readClose close
    pure (.record members close)
  | document => pure document

def settleItems : List Document → Except Problem (List Document)
  | [] => pure []
  | item :: rest => do
    let item ← item.settle
    return item :: (← settleItems rest)

def settleMembers : List (Option (List Char) × Document) →
    Except Problem (List (Option (List Char) × Document))
  | [] => pure []
  | (key, item) :: rest => do
    discard (readChars key)
    let item ← item.settle
    return (key, item) :: (← settleMembers rest)

end

/-- The problem of a value of the wrong type: a mistake inside a number, a text or a word comes
before its type, and a list or a record is refused at its bracket. -/
def refuse {α : Type} : Decode α
  | .number .huge | .text none => throw .malformed
  | .broken b => throw b.reading
  | _ => throw .unexpected

end Document

namespace Decode

open Document

def text : Decode String
  | .text (some chars) => pure (String.ofList chars)
  | document => refuse document

def bool : Decode Bool
  | .bool b => pure b
  | document => refuse document

def natBelow (bound : Nat) : Decode Nat
  | .number (.natural n) | .count n => if n < bound then pure n else throw .unexpected
  | document => refuse document

def null : Decode Unit
  | .null => pure ()
  | document => refuse document

/-- Nothing: `null`, or an empty record that was read before its type was known. -/
def nothing : Decode Unit
  | .null | .empty => pure ()
  | document => refuse document

def list {α : Type} (item : Decode α) : Decode (List α)
  | .list items close => do
    let values ← items.mapM item
    readClose close
    pure values
  | document => refuse document

/-- One field of a record that is read into a state. -/
structure Field (σ : Type) where
  name : String
  read : Document → σ → Except Problem σ

/-- Reads the members of a record into a state. A field may be given once. -/
def members {σ : Type} (fields : List (Field σ)) (seen : List String) (state : σ) :
    List (Option (List Char) × Document) → Except Problem σ
  | [] => pure state
  | (key, item) :: rest => do
    let key ← readChars key
    match fields.find? (·.name == key) with
    | none =>
      item.skip
      members fields seen state rest
    | some field =>
      if seen.contains key then throw .unexpected
      let state ← field.read item state
      members fields (key :: seen) state rest

def positional {σ : Type} : List (Field σ) → σ → List Document → Close → Except Problem σ
  | field :: fields, state, item :: items, close => do
    let state ← field.read item state
    positional fields state items close
  | _ :: _, state, [], close => do
    readClose close
    pure state
  | [], _, _ :: _, _ => throw .malformed
  | [], state, [], close =>
    match close with
    | .broken _ true => throw .malformed
    | close => do
      readClose close
      pure state

def keyed {σ : Type} (fields : List (Field σ)) (state : σ) : Decode σ
  | .record items close => do
    let state ← members fields [] state items
    readClose close
    pure state
  | .empty => pure state
  | document => refuse document

def record {σ : Type} (fields : List (Field σ)) (state : σ) : Decode σ
  | .list items close => positional fields state items close
  | document => keyed fields state document

def required {α : Type} : Option α → Except Problem α
  | some a => pure a
  | none => throw .unexpected

structure Case (α : Type) where
  tag : String
  content : Decode α
  absent : Except Problem α := throw .unexpected

def findCase {α : Type} (cases : List (Case α)) (tag : String) : Except Problem (Case α) :=
  match cases.find? (·.tag == tag) with
  | some found => pure found
  | none => throw .unexpected

/-- The name of a case in the list form: a text, or a place among the cases that was read before its
type was known. -/
def listTag {α : Type} (cases : List (Case α)) : Decode (Case α)
  | .count n => required cases[n]?
  | document => do findCase cases (← text document)

def tag {α : Type} (cases : List (Case α)) : Decode (Case α)
  | .text chars => do findCase cases (← readChars chars)
  | .record [] (.broken b _) => throw b.reading
  | .record ((key, item) :: more) close => do
    let found ← findCase cases (← readChars key)
    nothing item
    if !more.isEmpty then throw .malformed
    match close with
    | .broken _ true => throw .malformed
    | close => readClose close
    pure found
  | .broken b => throw b.naming
  | _ => throw .malformed

def keyedCase {α : Type} (cases : List (Case α)) : Decode α
  | .text chars => do
    discard (findCase cases (← readChars chars))
    throw .unexpected
  | .record [] (.broken b _) => throw b.reading
  | .record ((key, item) :: more) close => do
    let found ← findCase cases (← readChars key)
    let value ← found.content item
    if !more.isEmpty then throw .malformed
    match close with
    | .broken _ true => throw .malformed
    | close => readClose close
    pure value
  | .broken b => throw b.naming
  | _ => throw .malformed

def tagKey : String := "id"

def contentKey : String := "data"

/-- The first member with the key of a tag or of a content, the skipped ones before it checked. -/
def nextRelevant : List (Option (List Char) × Document) → Close →
    Except Problem (Option (Bool × Document × List (Option (List Char) × Document)))
  | [], close => do
    readClose close
    pure none
  | (key, item) :: rest, close => do
    let key ← readChars key
    if key == tagKey then pure (some (true, item, rest))
    else if key == contentKey then pure (some (false, item, rest))
    else
      item.skip
      nextRelevant rest close

def noFurther {α : Type} (value : α) (rest : List (Option (List Char) × Document))
    (close : Close) : Except Problem α := do
  match ← nextRelevant rest close with
  | some _ => throw .unexpected
  | none => pure value

/-- A value given by a tag and a content: as a record of both in either order, or as the list of
both. A content that comes before its tag is read whole first. -/
def tagged {α : Type} (cases : List (Case α)) : Decode α
  | .list items close =>
    match items with
    | [] => do
      readClose close
      throw .unexpected
    | [name] => do
      discard (listTag cases name)
      readClose close
      throw .unexpected
    | name :: content :: more => do
      let found ← listTag cases name
      let value ← found.content content
      positional [] value more close
  | .record items close => do
    match ← nextRelevant items close with
    | none => throw .unexpected
    | some (true, name, rest) =>
      let found ← tag cases name
      match ← nextRelevant rest close with
      | none => found.absent
      | some (true, _, _) => throw .unexpected
      | some (false, content, rest) =>
        let value ← found.content content
        noFurther value rest close
    | some (false, content, rest) =>
      let content ← content.settle
      match ← nextRelevant rest close with
      | none => throw .unexpected
      | some (false, _, _) => throw .unexpected
      | some (true, name, rest) =>
        let found ← tag cases name
        match found.content content with
        | .ok value => noFurther value rest close
        | .error _ => throw .unexpected
  | document => refuse document

end Decode

/-- Reads a whole text as one value, with nothing after it. -/
def parse {α : Type} (decode : Decode α) (text : String) : Except Problem α := do
  let (document, more) := Document.ofChars text.toList
  let value ← decode document
  if more then throw .malformed
  pure value

end Buildbox.Json
