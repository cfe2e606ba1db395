import Buildbox.Proofs.Json.Reading

/-!
Readers of documents on what is written for a value: each kind of reader gives back the part that
was written, a record with its fields in order reads like the list of its fields, and a tagged value
is read by the case of its tag.
-/

set_option autoImplicit false

namespace Buildbox.Json

/-- What is written for a value of a type is read back as this value, and two values are never
written alike. -/
structure Relays {α : Type} (write : α → Value) (read : Decode α) : Prop where
  back : ∀ a, parse read (write a).compact = .ok a
  apart : ∀ a b, (write a).compact = (write b).compact → a = b

theorem Relays.of_document {α : Type} {write : α → Value} {read : Decode α}
    (readable : ∀ a, (write a).Readable Document.maxDepth)
    (back : ∀ a, read (write a).document = .ok a) : Relays write read := by
  have reads_back (a : α) : parse read (write a).compact = .ok a := by
    rw [parse_compact read (readable a), back]
  refine ⟨reads_back, fun a b alike => ?_⟩
  have same := reads_back a
  rw [alike, reads_back b] at same
  exact (Except.ok.inj same).symm

namespace Decode

variable {α β σ : Type}

theorem readChars_toList (s : String) : Document.readChars (some s.toList) = .ok s :=
  congrArg Except.ok String.ofList_toList

theorem text_document (s : String) : text (Value.text s).document = .ok s :=
  congrArg Except.ok String.ofList_toList

theorem bool_document (b : Bool) : bool (Value.bool b).document = .ok b :=
  rfl

theorem natBelow_document {bound n : Nat} (small : n < bound) :
    natBelow bound (Value.nat n).document = .ok n :=
  if_pos small

theorem list_document {read : Decode α} {write : α → Value} {items : List α}
    (back : ∀ a ∈ items, read (write a).document = .ok a) :
    list read (Value.list (items.map write)).document = .ok items := by
  have each : (Value.documents (items.map write)).mapM read = .ok items := by
    induction items with
    | nil => rfl
    | cons a rest ih =>
      rw [List.map_cons, Value.documents, List.mapM_cons, back a List.mem_cons_self,
        ih fun other member => back other (List.mem_cons_of_mem _ member)]
      rfl
  rw [Value.document, list, each]
  rfl

theorem find?_name {fields : List (Field σ)} (distinct : (fields.map Field.name).Nodup)
    {field : Field σ} (among : field ∈ fields) :
    fields.find? (·.name == field.name) = some field := by
  induction fields with
  | nil => cases among
  | cons first later ih =>
    obtain ⟨new, distinct⟩ := List.nodup_cons.mp distinct
    rcases List.mem_cons.mp among with rfl | among
    · exact List.find?_cons_of_pos (beq_self_eq_true _)
    · have other : first.name ≠ field.name := fun same => new (same ▸ List.mem_map_of_mem among)
      rw [List.find?_cons_of_neg (by simpa using other), ih distinct among]

private theorem members_in_order {fields : List (Field σ)}
    (distinct : (fields.map Field.name).Nodup) {later : List (Field σ)}
    (among : ∀ field ∈ later, field ∈ fields)
    (later_distinct : (later.map Field.name).Nodup) {seen : List String}
    (unseen : ∀ field ∈ later, field.name ∉ seen) (state : σ) {values : List Value}
    (enough : values.length ≤ later.length) :
    members fields seen state (Value.memberDocuments ((later.map Field.name).zip values)) =
      positional later state (Value.documents values) .closed := by
  induction later generalizing seen state values with
  | nil =>
    obtain rfl := List.length_eq_zero_iff.mp (Nat.le_zero.mp enough)
    rfl
  | cons field later ih =>
    cases values with
    | nil => rfl
    | cons v values =>
      have found := find?_name distinct (among field List.mem_cons_self)
      have fresh : seen.contains field.name = false := by
        simpa using unseen field List.mem_cons_self
      obtain ⟨new, distinct_later⟩ := List.nodup_cons.mp later_distinct
      have unseen_later : ∀ other ∈ later, other.name ∉ field.name :: seen := by
        intro other member
        rw [List.mem_cons, not_or]
        exact ⟨fun same => new (same ▸ List.mem_map_of_mem member),
          unseen other (List.mem_cons_of_mem _ member)⟩
      have onward (next : σ) := ih (fun other member => among other (List.mem_cons_of_mem _ member))
        distinct_later unseen_later next (Nat.le_of_succ_le_succ enough)
      rw [List.map_cons, List.zip_cons_cons, Value.memberDocuments, Value.documents, members,
        positional]
      simp only [Document.readChars, String.ofList_toList, pure_bind, found, fresh,
        Bool.false_eq_true, if_false, onward]

/-- A record with its fields in order, where no field is left out before another, reads like the
list of its fields. -/
theorem keyed_in_order (fields : List (Field σ)) (distinct : (fields.map Field.name).Nodup)
    (state : σ) (values : List Value) (enough : values.length ≤ fields.length) :
    keyed fields state (Value.record ((fields.map Field.name).zip values)).document =
      positional fields state (Value.documents values) .closed := by
  have read := members_in_order distinct (fun _ among => among) distinct
    (fun _ _ => List.not_mem_nil) state enough
  rw [Value.document, keyed, read]
  exact bind_pure _

variable {cases : List (Case α)} {found : Case α} {name : String}

theorem tag_document (known : findCase cases name = .ok found) :
    tag cases (Value.text name).document = .ok found := by
  rw [Value.document, tag, readChars_toList]
  exact known

private theorem nextRelevant_tag (item : Document) (rest : List (Option (List Char) × Document))
    (close : Close) :
    nextRelevant ((some tagKey.toList, item) :: rest) close = .ok (some (true, item, rest)) := by
  simp [nextRelevant, Document.readChars, tagKey]
  rfl

private theorem nextRelevant_content (item : Document) (rest : List (Option (List Char) × Document))
    (close : Close) :
    nextRelevant ((some contentKey.toList, item) :: rest) close =
      .ok (some (false, item, rest)) := by
  simp [nextRelevant, Document.readChars, tagKey, contentKey]
  rfl

theorem tagged_document (known : findCase cases name = .ok found) {v : Value} {a : α}
    (read : found.content v.document = .ok a) :
    tagged cases (Value.record [(tagKey, .text name), (contentKey, v)]).document = .ok a := by
  have named := tag_document known
  simp only [Value.document, Value.memberDocuments] at named ⊢
  rw [tagged]
  simp only [nextRelevant_tag, nextRelevant_content, named, read, bind, Except.bind]
  rfl

/-- A tag alone stands for the value that its case has without content. -/
theorem tagged_document_alone (known : findCase cases name = .ok found) {a : α}
    (absent : found.absent = .ok a) :
    tagged cases (Value.record [(tagKey, .text name)]).document = .ok a := by
  have named := tag_document known
  simp only [Value.document, Value.memberDocuments] at named ⊢
  rw [tagged]
  simp only [nextRelevant_tag, named, bind, Except.bind]
  exact absent

theorem keyedCase_document (known : findCase cases name = .ok found) {v : Value} {a : α}
    (read : found.content v.document = .ok a) :
    keyedCase cases (Value.record [(name, v)]).document = .ok a := by
  rw [Value.document, Value.memberDocuments, Value.memberDocuments, keyedCase]
  simp only [readChars_toList, known, read, bind, Except.bind]
  rfl

end Decode

end Buildbox.Json
