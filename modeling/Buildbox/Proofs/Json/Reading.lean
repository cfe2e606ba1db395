import Buildbox.Json.Decode
import Buildbox.Proofs.Json.Scalar

/-!
Reading back a written JSON value. The compact form of a value whose counts fit 64 bits, and which
is not nested too deeply, is read to its end as the document of the same shape, so a reader of
documents gives on the text what it gives on that document.
-/

set_option autoImplicit false

namespace Buildbox.Json

namespace Value

mutual

/-- What the written form of a value is read as. -/
def document : Value → Document
  | .null => .null
  | .bool b => .bool b
  | .nat n => .number (.natural n)
  | .text s => .text (some s.toList)
  | .list items => .list (documents items) .closed
  | .record members => .record (memberDocuments members) .closed

/-- What the items of a list are read as. -/
def documents : List Value → List Document
  | [] => []
  | v :: rest => v.document :: documents rest

def memberDocuments : List (String × Value) → List (Option (List Char) × Document)
  | [] => []
  | (key, v) :: rest => (some key.toList, v.document) :: memberDocuments rest

end

/-- The value is nested at most this deeply, and its counts fit 64 bits. -/
inductive Readable : Nat → Value → Prop
  | null {depth : Nat} : Readable depth .null
  | bool {depth : Nat} {b : Bool} : Readable depth (.bool b)
  | nat {depth n : Nat} (fits : n < UInt64.size) : Readable depth (.nat n)
  | text {depth : Nat} {s : String} : Readable depth (.text s)
  | list {depth : Nat} {items : List Value} (each : ∀ v ∈ items, Readable depth v) :
      Readable (depth + 1) (.list items)
  | record {depth : Nat} {members : List (String × Value)}
      (each : ∀ member ∈ members, Readable depth member.2) : Readable (depth + 1) (.record members)

end Value

namespace Document

/-- A value can begin with this character. -/
def Opens (c : Char) : Prop :=
  isBlank c = false ∧ c ≠ ']' ∧ c ≠ '\x7d'

instance (c : Char) : Decidable (Opens c) :=
  inferInstanceAs (Decidable (_ ∧ _))

/-- What can stand behind a value: nothing, a comma, or a bracket that closes. -/
def Follows (rest : List Char) : Prop :=
  ∀ c ∈ rest.head?, c = ',' ∨ c = ']' ∨ c = '\x7d'

theorem Follows.settles {rest : List Char} (follows : Follows rest) : Settles rest := by
  intro c first
  rcases follows c first with rfl | rfl | rfl <;> decide

theorem skipBlanks_cons {c : Char} (no_blank : isBlank c = false) (rest : List Char) :
    skipBlanks (c :: rest) = c :: rest := by
  rw [skipBlanks, List.dropWhile_cons, if_neg (by simp [no_blank])]

theorem opens_of_isDigit {c : Char} (digit : isDigit c = true) :
    Opens c ∧ c ≠ '[' ∧ c ≠ '\x7b' ∧ c ≠ '"' ∧ c ≠ '-' ∧ c ≠ 'n' ∧ c ≠ 't' ∧ c ≠ 'f' := by
  have ne (other : Char) (no_digit : isDigit other = false) : c ≠ other := by
    rintro rfl
    rw [no_digit] at digit
    cases digit
  have no_blank : isBlank c = false := by
    simp [isBlank, ne ' ' rfl, ne '\n' rfl, ne '\t' rfl, ne '\r' rfl]
  exact ⟨⟨no_blank, ne _ rfl, ne _ rfl⟩, ne _ rfl, ne _ rfl, ne _ rfl, ne _ rfl, ne _ rfl, ne _ rfl,
    ne _ rfl⟩

theorem exists_opening (v : Value) : ∃ c tail, v.compactChars = c :: tail ∧ Opens c := by
  cases v with
  | null => exact ⟨_, _, rfl, by decide⟩
  | bool b => cases b <;> exact ⟨_, _, rfl, by decide⟩
  | nat n =>
    obtain ⟨c, tail, digits⟩ := List.exists_cons_of_ne_nil (decimal_ne_nil n)
    have digit : isDigit c = true := isDigit_of_mem_decimal (digits ▸ List.mem_cons_self)
    exact ⟨c, tail, digits, (opens_of_isDigit digit).1⟩
  | text s => exact ⟨_, _, rfl, by decide⟩
  | list items => exact ⟨_, _, rfl, by decide⟩
  | record members => exact ⟨_, _, rfl, by decide⟩

/-- The written form of a value is read as its document, up to where it ends. Two steps of fuel for
each character are enough. -/
def Reads (depth : Nat) (v : Value) : Prop :=
  ∀ fuel rest, 2 * v.compactChars.length ≤ fuel → Follows rest →
    value fuel depth (v.compactChars ++ rest) = (v.document, some rest)

theorem value_of_scalar {c : Char} {tail rest : List Char} {document : Document}
    (opens : Opens c) (no_list : c ≠ '[') (no_record : c ≠ '\x7b')
    (read : scalar (c :: tail) = .ok (document, rest)) (fuel depth : Nat) :
    value (fuel + 1) depth (c :: tail) = (document, some rest) := by
  rw [value, skipBlanks_cons opens.1]
  simp [no_list, no_record, read]

/-- A value that is neither a list nor a record is read by its first character. -/
theorem reads_of_scalar {v : Value} {c : Char} {tail : List Char}
    (written : v.compactChars = c :: tail) (opens : Opens c) (no_list : c ≠ '[')
    (no_record : c ≠ '\x7b')
    (read : ∀ rest, Follows rest → scalar (c :: (tail ++ rest)) = .ok (v.document, rest))
    (depth : Nat) : Reads depth v := by
  intro fuel rest enough follows
  rw [written] at enough ⊢
  obtain ⟨fuel, rfl⟩ : ∃ less, fuel = less + 1 := ⟨fuel - 1, by simp at enough; omega⟩
  exact value_of_scalar opens no_list no_record (read rest follows) fuel depth

theorem reads_nat {n : Nat} (fits : n < UInt64.size) (depth : Nat) : Reads depth (.nat n) := by
  obtain ⟨c, tail, digits⟩ := List.exists_cons_of_ne_nil (decimal_ne_nil n)
  have digit : isDigit c = true := isDigit_of_mem_decimal (digits ▸ List.mem_cons_self)
  obtain ⟨opens, no_list, no_record, no_text, no_minus, no_null, no_true, no_false⟩ :=
    opens_of_isDigit digit
  refine reads_of_scalar (v := .nat n) digits opens no_list no_record (fun rest follows => ?_) depth
  have magnitude := Number.magnitude_decimal fits follows.settles
  rw [digits, List.cons_append] at magnitude
  rw [scalar]
  · rw [if_pos digit, ofNumber, magnitude]
    rfl
  all_goals assumption

theorem reads_text (s : String) (depth : Nat) : Reads depth (.text s) := by
  refine reads_of_scalar rfl (by decide) (by decide) (by decide) (fun rest _ => ?_) depth
  change scalar ('"' :: (s.toList.flatMap Value.escape ++ ['"'] ++ rest)) = _
  rw [List.append_assoc, List.singleton_append, scalar, quoted_escapes]
  rfl

theorem compactItems_cons (v : Value) (rest : List Value) :
    Value.compactItems true (v :: rest) = v.compactChars ++ Value.compactItems false rest :=
  rfl

theorem compactItems_comma (v : Value) (rest : List Value) :
    Value.compactItems false (v :: rest) = ',' :: Value.compactItems true (v :: rest) :=
  rfl

/-- The rest of a list after an item is its bracket, or a comma and the later items. -/
theorem follows_compactItems (items : List Value) (rest : List Char) :
    Follows (Value.compactItems false items ++ rest) := by
  intro c first
  cases items <;> cases first <;> simp

theorem exists_item_opening (v : Value) (later : List Value) (rest : List Char) :
    ∃ c tail, Value.compactItems true (v :: later) ++ rest = c :: tail ∧ Opens c := by
  obtain ⟨c, tail, opening, opens⟩ := exists_opening v
  refine ⟨c, tail ++ Value.compactItems false later ++ rest, ?_, opens⟩
  rw [compactItems_cons, opening]
  rfl

section Items

variable {fuel depth : Nat} {chars rest more : List Char} {item : Document} {c : Char}

theorem items_last (read : value fuel depth chars = (item, some (']' :: rest))) :
    items (fuel + 1) depth chars = ([item], .closed, some rest) := by
  rw [items, read]
  rfl

theorem items_next {later : List Document} {close : Close} {left : Option (List Char)}
    (read : value fuel depth chars = (item, some (',' :: c :: more))) (opens : Opens c)
    (others : items fuel depth (c :: more) = (later, close, left)) :
    items (fuel + 1) depth chars = (item :: later, close, left) := by
  have at_comma : skipBlanks (',' :: c :: more) = ',' :: c :: more := skipBlanks_cons rfl _
  simp only [items, read, at_comma, skipBlanks_cons opens.1]
  split
  · next same => cases same
  · next same => exact absurd (List.cons.inj same).1 opens.2.1
  · rw [others]

end Items

theorem items_compact {depth : Nat} {v : Value} {later : List Value}
    (each : ∀ item ∈ v :: later, Reads depth item) {fuel : Nat}
    (enough : 2 * (Value.compactItems true (v :: later)).length ≤ fuel) (rest : List Char) :
    items fuel depth (Value.compactItems true (v :: later) ++ rest) =
      (Value.documents (v :: later), .closed, some rest) := by
  induction later generalizing v fuel with
  | nil =>
    have written : Value.compactItems true [v] = v.compactChars ++ [']'] := rfl
    rw [written, List.length_append, List.length_singleton] at enough
    obtain ⟨fuel, rfl⟩ : ∃ less, fuel = less + 1 := ⟨fuel - 1, by omega⟩
    rw [written, List.append_assoc]
    exact items_last (each v List.mem_cons_self fuel _ (by omega) (follows_compactItems [] rest))
  | cons w later ih =>
    obtain ⟨c, tail, opening, opens⟩ := exists_item_opening w later rest
    rw [compactItems_cons, compactItems_comma, List.length_append, List.length_cons] at enough
    obtain ⟨fuel, rfl⟩ : ∃ less, fuel = less + 1 := ⟨fuel - 1, by omega⟩
    have first := each v List.mem_cons_self fuel _ (by omega)
      (follows_compactItems (w :: later) rest)
    have others := ih (v := w) (fun item member => each item (List.mem_cons_of_mem _ member))
      (show _ ≤ fuel by omega)
    rw [compactItems_comma, List.cons_append, opening] at first
    rw [opening] at others
    rw [compactItems_cons, compactItems_comma, List.append_assoc, List.cons_append, opening]
    exact items_next first opens others

theorem reads_list {depth : Nat} {items : List Value} (each : ∀ v ∈ items, Reads depth v) :
    Reads (depth + 1) (.list items) := by
  intro fuel rest enough _
  change 2 * ('[' :: Value.compactItems true items).length ≤ fuel at enough
  change value fuel (depth + 1) ('[' :: (Value.compactItems true items ++ rest)) = _
  rw [List.length_cons] at enough
  obtain ⟨fuel, rfl⟩ : ∃ less, fuel = less + 1 := ⟨fuel - 1, by omega⟩
  cases items with
  | nil => rfl
  | cons v later =>
    obtain ⟨c, tail, opening, opens⟩ := exists_item_opening v later rest
    have read := items_compact each (show _ ≤ fuel by omega) rest
    rw [opening] at read ⊢
    have at_bracket : skipBlanks ('[' :: c :: tail) = '[' :: c :: tail := skipBlanks_cons rfl _
    simp only [value, at_bracket, skipBlanks_cons opens.1]
    split
    · next same => exact absurd (List.cons.inj same).1 opens.2.1
    · next same => cases same
    · rw [read]
      rfl

theorem compactMembers_cons (key : String) (v : Value) (later : List (String × Value))
    (rest : List Char) :
    Value.compactMembers true ((key, v) :: later) ++ rest =
      '"' :: (key.toList.flatMap Value.escape ++
        '"' :: ':' :: (v.compactChars ++ (Value.compactMembers false later ++ rest))) := by
  simp [Value.compactMembers, Value.quote]

theorem length_compactMembers_cons (key : String) (v : Value) (later : List (String × Value)) :
    v.compactChars.length + (Value.compactMembers false later).length + 2 ≤
      (Value.compactMembers true ((key, v) :: later)).length := by
  simp [Value.compactMembers, Value.quote]
  omega

theorem compactMembers_comma (member : String × Value) (rest : List (String × Value)) :
    Value.compactMembers false (member :: rest) =
      ',' :: Value.compactMembers true (member :: rest) :=
  rfl

theorem follows_compactMembers (members : List (String × Value)) (rest : List Char) :
    Follows (Value.compactMembers false members ++ rest) := by
  intro c first
  cases members <;> cases first <;> simp

theorem skipBlanks_quote (chars : List Char) : skipBlanks ('"' :: chars) = '"' :: chars :=
  skipBlanks_cons rfl chars

section Members

variable {fuel depth : Nat} {afterComma : Bool} {chars key rest more : List Char} {v : Document}

theorem members_last (read : value fuel depth chars = (v, some ('\x7d' :: rest))) :
    members (fuel + 1) depth afterComma
        ('"' :: (key.flatMap Value.escape ++ '"' :: ':' :: chars)) =
      ([(some key, v)], .closed, some rest) := by
  have at_colon : skipBlanks (':' :: chars) = ':' :: chars := skipBlanks_cons rfl _
  have at_brace : skipBlanks ('\x7d' :: rest) = '\x7d' :: rest := skipBlanks_cons rfl _
  simp only [members, skipBlanks_quote, quoted_escapes, at_colon, read, at_brace]

theorem members_next {later : List (Option (List Char) × Document)} {close : Close}
    {left : Option (List Char)} (read : value fuel depth chars = (v, some (',' :: more)))
    (others : members fuel depth true more = (later, close, left)) :
    members (fuel + 1) depth afterComma
        ('"' :: (key.flatMap Value.escape ++ '"' :: ':' :: chars)) =
      ((some key, v) :: later, close, left) := by
  have at_colon : skipBlanks (':' :: chars) = ':' :: chars := skipBlanks_cons rfl _
  have at_comma : skipBlanks (',' :: more) = ',' :: more := skipBlanks_cons rfl _
  simp only [members, skipBlanks_quote, quoted_escapes, at_colon, read, at_comma, others]

end Members

theorem members_compact {depth : Nat} {member : String × Value} {later : List (String × Value)}
    (each : ∀ m ∈ member :: later, Reads depth m.2) {fuel : Nat}
    (enough : 2 * (Value.compactMembers true (member :: later)).length ≤ fuel) (afterComma : Bool)
    (rest : List Char) :
    members fuel depth afterComma (Value.compactMembers true (member :: later) ++ rest) =
      (Value.memberDocuments (member :: later), .closed, some rest) := by
  induction later generalizing member fuel afterComma with
  | nil =>
    obtain ⟨key, v⟩ := member
    have longer := length_compactMembers_cons key v []
    obtain ⟨fuel, rfl⟩ : ∃ less, fuel = less + 1 := ⟨fuel - 1, by omega⟩
    have only := each (key, v) List.mem_cons_self fuel _
      (show 2 * v.compactChars.length ≤ fuel by omega) (follows_compactMembers [] rest)
    rw [compactMembers_cons]
    exact members_last only
  | cons next later ih =>
    obtain ⟨key, v⟩ := member
    have longer := length_compactMembers_cons key v (next :: later)
    rw [compactMembers_comma, List.length_cons] at longer
    obtain ⟨fuel, rfl⟩ : ∃ less, fuel = less + 1 := ⟨fuel - 1, by omega⟩
    have first := each (key, v) List.mem_cons_self fuel _
      (show 2 * v.compactChars.length ≤ fuel by omega) (follows_compactMembers (next :: later) rest)
    have others := ih (fun m among => each m (List.mem_cons_of_mem _ among))
      (show _ ≤ fuel by omega) true
    rw [compactMembers_cons]
    exact members_next first others

theorem reads_record {depth : Nat} {members : List (String × Value)}
    (each : ∀ member ∈ members, Reads depth member.2) : Reads (depth + 1) (.record members) := by
  intro fuel rest enough _
  change 2 * ('\x7b' :: Value.compactMembers true members).length ≤ fuel at enough
  change value fuel (depth + 1) ('\x7b' :: (Value.compactMembers true members ++ rest)) = _
  rw [List.length_cons] at enough
  obtain ⟨fuel, rfl⟩ : ∃ less, fuel = less + 1 := ⟨fuel - 1, by omega⟩
  cases members with
  | nil => rfl
  | cons member later =>
    have read := members_compact each (show _ ≤ fuel by omega) false rest
    obtain ⟨key, v⟩ := member
    rw [compactMembers_cons] at read ⊢
    have at_brace (chars : List Char) : skipBlanks ('\x7b' :: chars) = '\x7b' :: chars :=
      skipBlanks_cons rfl _
    simp only [value, at_brace, skipBlanks_quote]
    split
    · next same => cases same
    · rw [read]
      rfl

theorem reads_of_readable {depth : Nat} {v : Value} (readable : v.Readable depth) :
    Reads depth v := by
  induction readable with
  | null => exact reads_of_scalar rfl (by decide) (by decide) (by decide) (fun _ _ => rfl) _
  | @bool depth b =>
    cases b
    · exact reads_of_scalar rfl (by decide) (by decide) (by decide) (fun _ _ => rfl) _
    · exact reads_of_scalar rfl (by decide) (by decide) (by decide) (fun _ _ => rfl) _
  | nat fits => exact reads_nat fits _
  | text => exact reads_text _ _
  | list _ ih => exact reads_list ih
  | record _ ih => exact reads_record ih

end Document

theorem parse_compact {α : Type} (decode : Decode α) {v : Value}
    (readable : v.Readable Document.maxDepth) : parse decode v.compact = decode v.document := by
  have read : Document.ofChars v.compactChars = (v.document, false) := by
    have whole := Document.reads_of_readable readable (2 * v.compactChars.length + 2) [] (by omega)
      fun _ none => by cases none
    rw [List.append_nil] at whole
    rw [Document.ofChars, whole]
    rfl
  rw [parse, Value.compact, String.toList_ofList, read]
  exact bind_pure (decode v.document)

end Buildbox.Json
