import Buildbox.Bytes
import Buildbox.Diagnostic.Basic
import Buildbox.Json.Decode
import Buildbox.Json.Value

/-!
The messages between the interactive side and the builder, and their JSON forms.
-/

set_option autoImplicit false

namespace Buildbox

namespace Diagnostic

def toJson (d : Diagnostic) : Json.Value :=
  .record [
    ("file", .text d.file),
    ("line", .nat d.line.toNat),
    ("column", .nat d.column.toNat),
    ("severity", .text d.severity),
    ("message", .text d.message)]

/-- The fields of a diagnostic as far as they are read. -/
structure Draft where
  file : Option String := none
  line : Option Nat := none
  column : Option Nat := none
  severity : Option String := none
  message : Option String := none

def fields : List (Json.Decode.Field Draft) := [
  ⟨"file", fun d s => return { s with file := some (← Json.Decode.text d) }⟩,
  ⟨"line", fun d s => return { s with line := some (← Json.Decode.natBelow UInt32.size d) }⟩,
  ⟨"column", fun d s => return { s with column := some (← Json.Decode.natBelow UInt32.size d) }⟩,
  ⟨"severity", fun d s => return { s with severity := some (← Json.Decode.text d) }⟩,
  ⟨"message", fun d s => return { s with message := some (← Json.Decode.text d) }⟩]

def decode : Json.Decode Diagnostic := fun document => do
  let draft ← Json.Decode.record fields {} document
  return {
    file := ← Json.Decode.required draft.file
    line := (← Json.Decode.required draft.line).toUInt32
    column := (← Json.Decode.required draft.column).toUInt32
    severity := ← Json.Decode.required draft.severity
    message := ← Json.Decode.required draft.message }

end Diagnostic

namespace Session

abbrev RequestId := UInt64

abbrev Generation := Nat

/-- Work for the builder. -/
inductive Request
  | compileLinkRun (source : String)
  | runCppCheck (source : Bytes)
  | callContinuation (function : String)
deriving Repr, DecidableEq

/-- What a request led to. -/
inductive Response
  /-- the program ran; whether it may be called again -/
  | runReport (continuing : Bool)
  | diagnostics (found : List Diagnostic)
deriving Repr, DecidableEq

/-- A message to the interactive side. -/
inductive HostMessage
  | write (text : String)
  | readLine
  | runAsync (id : RequestId) (result : Option Response)
deriving Repr, DecidableEq

def taggedJson (tag : String) (content : Json.Value) : Json.Value :=
  .record [(Json.Decode.tagKey, .text tag), (Json.Decode.contentKey, content)]

def fieldCase {α β : Type} (tag field : String) (read : Json.Decode α) (make : α → β) :
    Json.Decode.Case β where
  tag
  content document := do
    let field : Json.Decode.Field (Option α) := ⟨field, fun d _ => some <$> read d⟩
    let found ← Json.Decode.keyed [field] none document
    return make (← Json.Decode.required found)

namespace Request

def toJson : Request → Json.Value
  | .compileLinkRun source => taggedJson "compileLinkRun" (.record [("source", .text source)])
  | .runCppCheck source =>
    taggedJson "runCppCheck" (.record [("source", .list (source.map fun b => .nat b.toNat))])
  | .callContinuation function =>
    taggedJson "callContinuation" (.record [("export", .text function)])

def decodeBytes : Json.Decode Bytes := fun document =>
  List.map Nat.toUInt8 <$> Json.Decode.list (Json.Decode.natBelow 256) document

def decode : Json.Decode Request :=
  Json.Decode.tagged [
    fieldCase "compileLinkRun" "source" Json.Decode.text .compileLinkRun,
    fieldCase "runCppCheck" "source" decodeBytes .runCppCheck,
    fieldCase "callContinuation" "export" Json.Decode.text .callContinuation]

end Request

namespace Response

def toJson : Response → Json.Value
  | .runReport continuing =>
    taggedJson "runReport" (.record [("continuing", .bool continuing)])
  | .diagnostics found => taggedJson "diagnostics" (.list (found.map Diagnostic.toJson))

def decode : Json.Decode Response :=
  Json.Decode.tagged [
    fieldCase "runReport" "continuing" Json.Decode.bool .runReport,
    { tag := "diagnostics"
      content := fun document =>
        .diagnostics <$> Json.Decode.list Diagnostic.decode document }]

end Response

namespace HostMessage

def resultJson : Option Response → Json.Value
  | some response => .record [("Ok", response.toJson)]
  | none => .record [("Err", .null)]

def toJson : HostMessage → Json.Value
  | .write text => taggedJson "write" (.text text)
  | .readLine => .record [(Json.Decode.tagKey, .text "readLine")]
  | .runAsync id result =>
    taggedJson "runAsync"
      (.record [("responseId", .nat id.toNat), ("data", resultJson result)])

def decodeResult : Json.Decode (Option Response) :=
  Json.Decode.keyedCase [
    { tag := "Ok", content := fun document => some <$> Response.decode document },
    { tag := "Err", content := fun document => (fun () => none) <$> Json.Decode.nothing document }]

/-- The fields of an answer as far as they are read. -/
structure AnswerDraft where
  id : Option Nat := none
  result : Option (Option Response) := none

def answerFields : List (Json.Decode.Field AnswerDraft) := [
  ⟨"responseId", fun d s => return { s with id := some (← Json.Decode.natBelow UInt64.size d) }⟩,
  ⟨"data", fun d s => return { s with result := some (← decodeResult d) }⟩]

def decode : Json.Decode HostMessage :=
  Json.Decode.tagged [
    { tag := "write", content := fun document => .write <$> Json.Decode.text document },
    { tag := "readLine"
      content := fun document => (fun () => .readLine) <$> Json.Decode.null document
      absent := .ok .readLine },
    { tag := "runAsync"
      content := fun document => do
        let draft ← Json.Decode.keyed answerFields {} document
        return .runAsync (← Json.Decode.required draft.id).toUInt64
          (← Json.Decode.required draft.result) }]

end HostMessage

end Session

end Buildbox
