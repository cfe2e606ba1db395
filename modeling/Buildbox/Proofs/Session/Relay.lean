import Buildbox.Config
import Buildbox.Session.Message
import Buildbox.Proofs.Json.Decoding

/-!
What is written for a diagnostic, a request, a response, a message to the interactive side or a
configuration is read back as the same value.
-/

set_option autoImplicit false

namespace Buildbox

open Json Json.Decode

namespace Diagnostic

theorem readable_toJson (d : Diagnostic) (depth : Nat) : d.toJson.Readable (depth + 1) := by
  have line : d.line.toNat < UInt64.size := Nat.lt_trans d.line.toNat_lt (by decide)
  have column : d.column.toNat < UInt64.size := Nat.lt_trans d.column.toNat_lt (by decide)
  refine .record ?_
  simp only [List.forall_mem_cons]
  exact ⟨.text, .nat line, .nat column, .text, .text, fun _ none => by cases none⟩

theorem decode_document (d : Diagnostic) : decode d.toJson.document = .ok d := by
  have distinct : (fields.map Field.name).Nodup := by decide
  have drafted : record fields {} d.toJson.document = .ok
      ⟨some d.file, some d.line.toNat, some d.column.toNat, some d.severity, some d.message⟩ := by
    refine (keyed_in_order fields distinct {} [.text d.file, .nat d.line.toNat, .nat d.column.toNat,
      .text d.severity, .text d.message] (Nat.le_refl 5)).trans ?_
    simp only [fields, Json.Value.documents, positional, text_document,
      natBelow_document d.line.toNat_lt, natBelow_document d.column.toNat_lt]
    rfl
  have line : d.line.toNat.toUInt32 = d.line := UInt32.ofNat_toNat
  have column : d.column.toNat.toUInt32 = d.column := UInt32.ofNat_toNat
  rw [decode, drafted]
  change Except.ok (Diagnostic.mk d.file d.line.toNat.toUInt32 d.column.toNat.toUInt32 d.severity
    d.message) = _
  rw [line, column]

end Diagnostic

namespace Config

theorem readable_toJson (config : Config) (depth : Nat) : config.toJson.Readable (depth + 1) := by
  have stack : config.stackSize.toNat < UInt64.size :=
    Nat.lt_trans config.stackSize.toNat_lt (by decide)
  have capacity : config.inputCapacity.toNat < UInt64.size := config.inputCapacity.toNat_lt
  refine .record ?_
  simp only [List.forall_mem_cons]
  exact ⟨.text, .text, .text, .text, .text, .bool, .nat stack, .text, .nat capacity,
    fun _ none => by cases none⟩

theorem decode_document (config : Config) : decode config.toJson.document = .ok config := by
  have distinct : (fields.map Field.name).Nodup := by decide
  have stack : config.stackSize.toNat.toUInt32 = config.stackSize := UInt32.ofNat_toNat
  have capacity : config.inputCapacity.toNat.toUInt64 = config.inputCapacity := UInt64.ofNat_toNat
  refine (keyed_in_order fields distinct {} [.text config.artifactDir, .text config.memfs,
    .text config.clang, .text config.lld, .text config.sysroot, .bool config.showTiming,
    .nat config.stackSize.toNat, .text config.clangResourceDir, .nat config.inputCapacity.toNat]
    (Nat.le_refl 9)).trans ?_
  simp only [fields, Json.Value.documents, positional, text_document, bool_document,
    natBelow_document config.stackSize.toNat_lt, natBelow_document config.inputCapacity.toNat_lt,
    bind, Except.bind, pure, Except.pure, stack, capacity]
  rfl

end Config

namespace Session

theorem readable_taggedJson {tag : String} {content : Json.Value} {depth : Nat}
    (readable : content.Readable depth) : (taggedJson tag content).Readable (depth + 1) := by
  refine .record ?_
  simp only [List.forall_mem_cons]
  exact ⟨.text, readable, fun _ none => by cases none⟩

theorem readable_single {key : String} {v : Json.Value} {depth : Nat}
    (readable : v.Readable depth) : (Json.Value.record [(key, v)]).Readable (depth + 1) :=
  .record fun _ among => List.mem_singleton.mp among ▸ readable

theorem fieldCase_document {α β : Type} (tag field : String) {read : Decode α} (make : α → β)
    {v : Json.Value} {a : α} (back : read v.document = .ok a) :
    (fieldCase tag field read make).content (Json.Value.record [(field, v)]).document =
      .ok (make a) := by
  have found : keyed [⟨field, fun d _ => some <$> read d⟩] none
      (Json.Value.record [(field, v)]).document = .ok (some a) := by
    refine (keyed_in_order [⟨field, fun d _ => some <$> read d⟩] (by simp) none [v]
      (Nat.le_refl 1)).trans ?_
    simp only [Json.Value.documents, positional, back]
    rfl
  simp only [fieldCase, found]
  rfl

namespace Request

theorem readable_bytes (source : Bytes) (depth : Nat) :
    (Json.Value.list (source.map fun b => .nat b.toNat)).Readable (depth + 1) := by
  refine .list fun v among => ?_
  obtain ⟨b, -, rfl⟩ := List.mem_map.mp among
  exact .nat (Nat.lt_trans b.toNat_lt (by decide))

theorem decodeBytes_document (source : Bytes) :
    decodeBytes (Json.Value.list (source.map fun b => .nat b.toNat)).document = .ok source := by
  have numbers : source.map (fun b => Json.Value.nat b.toNat) =
      (source.map UInt8.toNat).map Json.Value.nat :=
    (List.map_map).symm
  have small : ∀ n ∈ source.map UInt8.toNat, natBelow 256 (Json.Value.nat n).document = .ok n := by
    intro n among
    obtain ⟨b, -, rfl⟩ := List.mem_map.mp among
    exact natBelow_document b.toNat_lt
  have bytes : (source.map UInt8.toNat).map Nat.toUInt8 = source := by
    rw [List.map_map]
    exact (List.map_congr_left fun _ _ => UInt8.ofNat_toNat).trans (List.map_id source)
  rw [decodeBytes, numbers, list_document small]
  exact congrArg Except.ok bytes

theorem readable_toJson (request : Request) (depth : Nat) :
    request.toJson.Readable (depth + 3) := by
  cases request with
  | compileLinkRun source => exact readable_taggedJson (readable_single .text)
  | runCppCheck source => exact readable_taggedJson (readable_single (readable_bytes source depth))
  | callContinuation function => exact readable_taggedJson (readable_single .text)

theorem decode_document (request : Request) : decode request.toJson.document = .ok request := by
  cases request with
  | compileLinkRun source =>
    exact tagged_document rfl (fieldCase_document _ _ _ (text_document source))
  | runCppCheck source =>
    exact tagged_document rfl (fieldCase_document _ _ _ (decodeBytes_document source))
  | callContinuation function =>
    exact tagged_document rfl (fieldCase_document _ _ _ (text_document function))

end Request

namespace Response

theorem readable_toJson (response : Response) (depth : Nat) :
    response.toJson.Readable (depth + 3) := by
  cases response with
  | runReport continuing => exact readable_taggedJson (readable_single .bool)
  | diagnostics found =>
    refine readable_taggedJson (.list fun v among => ?_)
    obtain ⟨d, -, rfl⟩ := List.mem_map.mp among
    exact d.readable_toJson depth

theorem decode_document (response : Response) : decode response.toJson.document = .ok response := by
  cases response with
  | runReport continuing =>
    exact tagged_document rfl (fieldCase_document _ _ _ (bool_document continuing))
  | diagnostics found =>
    have all := list_document fun d (_ : d ∈ found) => d.decode_document
    exact tagged_document rfl (congrArg (Except.map Response.diagnostics) all)

end Response

namespace HostMessage

theorem readable_resultJson (result : Option Response) (depth : Nat) :
    (resultJson result).Readable (depth + 4) := by
  cases result with
  | none => exact readable_single .null
  | some response => exact readable_single (response.readable_toJson depth)

theorem readable_toJson (message : HostMessage) (depth : Nat) :
    message.toJson.Readable (depth + 6) := by
  cases message with
  | write text => exact readable_taggedJson .text
  | readLine => exact readable_single .text
  | runAsync id result =>
    have number : id.toNat < UInt64.size := id.toNat_lt
    refine readable_taggedJson (.record ?_)
    simp only [List.forall_mem_cons]
    exact ⟨.nat number, readable_resultJson result depth, fun _ none => by cases none⟩

theorem decodeResult_document (result : Option Response) :
    decodeResult (resultJson result).document = .ok result := by
  cases result with
  | none => exact keyedCase_document rfl rfl
  | some response =>
    exact keyedCase_document rfl (congrArg (Except.map some) response.decode_document)

theorem decode_document (message : HostMessage) : decode message.toJson.document = .ok message := by
  cases message with
  | write text =>
    exact tagged_document rfl (congrArg (Except.map HostMessage.write) (text_document text))
  | readLine => exact tagged_document_alone rfl rfl
  | runAsync id result =>
    have distinct : (answerFields.map Field.name).Nodup := by decide
    have number : id.toNat.toUInt64 = id := UInt64.ofNat_toNat
    have drafted : keyed answerFields {}
        (Json.Value.record [("responseId", .nat id.toNat), ("data", resultJson result)]).document =
        .ok ⟨some id.toNat, some result⟩ := by
      refine (keyed_in_order answerFields distinct {} [.nat id.toNat, resultJson result]
        (Nat.le_refl 2)).trans ?_
      simp only [answerFields, Json.Value.documents, positional, natBelow_document id.toNat_lt,
        decodeResult_document]
      rfl
    refine tagged_document rfl ?_
    simp only [drafted]
    change Except.ok (HostMessage.runAsync id.toNat.toUInt64 result) = _
    rw [number]

end HostMessage

/-- Each request, response, message, diagnostic and configuration is read back from what is written
for it, and no two of a type are written alike. -/
theorem messages_read_back :
    Relays Request.toJson Request.decode ∧ Relays Response.toJson Response.decode ∧
      Relays HostMessage.toJson HostMessage.decode ∧ Relays Diagnostic.toJson Diagnostic.decode ∧
      Relays Config.toJson Config.decode :=
  ⟨.of_document (fun request => request.readable_toJson 124) Request.decode_document,
    .of_document (fun response => response.readable_toJson 124) Response.decode_document,
    .of_document (fun message => message.readable_toJson 121) HostMessage.decode_document,
    .of_document (fun d => d.readable_toJson 126) Diagnostic.decode_document,
    .of_document (fun config => config.readable_toJson 126) Config.decode_document⟩

end Session

end Buildbox
