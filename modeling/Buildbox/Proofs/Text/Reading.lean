import Buildbox.Proofs.Text.Encoding

/-!
Lossy UTF-8 as a relation between bytes and text: a character's bytes read as that character, and a
maximal invalid part reads as one U+FFFD. `lossyChars` computes the only text that bytes read as.
-/

set_option autoImplicit false

namespace Buildbox.Utf8

/-- A maximal invalid part, and the bytes after it. No character stands at its place, and it is the
longest part there that begins a character, or a single byte where none does. -/
structure InvalidPart (part rest : Bytes) : Prop where
  nonempty : part ≠ []
  no_character : ∀ c, ¬ encoding c <+: part ++ rest
  begins : Begins part ∨ part.length = 1
  longest : ∀ other, other <+: part ++ rest → Begins other → other.length ≤ part.length

/-- The text that bytes read as. -/
inductive Reading : Bytes → List Char → Prop
  | done : Reading [] []
  | character {rest : Bytes} {text : List Char} (c : Char) :
      Reading rest text → Reading (encoding c ++ rest) (c :: text)
  | invalid {part rest : Bytes} {text : List Char} :
      InvalidPart part rest → Reading rest text → Reading (part ++ rest) (replacement :: text)

theorem InvalidPart.unique {part rest other left : Bytes} (this : InvalidPart part rest)
    (that : InvalidPart other left) (same : part ++ rest = other ++ left) :
    part = other ∧ rest = left := by
  have at_least_one {p q : Bytes} (whole : InvalidPart p q) : 1 ≤ p.length :=
    List.length_pos_iff.mpr whole.nonempty
  have no_longer {p q p' q' : Bytes} (small : InvalidPart p q) (large : InvalidPart p' q')
      (same : p ++ q = p' ++ q') : p.length ≤ p'.length := by
    rcases small.begins with begins | single
    · exact large.longest p (same ▸ List.prefix_append p q) begins
    · rw [single]
      exact at_least_one large
  have lengths : part.length = other.length :=
    Nat.le_antisymm (no_longer this that same) (no_longer that this same.symm)
  exact List.append_inj same lengths

private theorem front_of_prefix {b : UInt8} {rest : Bytes} {c : Char}
    (stands : encoding c <+: b :: rest) : ∃ left, front b rest = (.character c, left) := by
  obtain ⟨left, same⟩ := stands
  obtain ⟨first, tail, bytes, read⟩ := front_encoding c
  rw [bytes] at same
  cases same
  exact ⟨left, read left⟩

private theorem invalidPart_of_front {b : UInt8} {rest left : Bytes}
    (reading : front b rest = (.invalid, left)) :
    ∃ part, b :: rest = part ++ left ∧ InvalidPart part left := by
  obtain ⟨taken, rfl, short, stuck⟩ := front_invalid reading
  refine ⟨b :: taken, rfl, ⟨List.cons_ne_nil _ _, ?_, ?_, ?_⟩⟩
  · intro c (stands : encoding c <+: b :: (taken ++ left))
    obtain ⟨after, read⟩ := front_of_prefix stands
    rw [reading] at read
    cases read
  · rcases short with rfl | begins
    · exact .inr rfl
    · exact .inl begins
  · intro other stands begins
    apply Nat.le_of_not_lt
    intro longer
    -- a longer part contains the byte that stopped the reading, so no character begins with it
    obtain ⟨c, extra, whole⟩ := begins
    obtain ⟨more, same⟩ := stands
    obtain ⟨x, after, rfl, extended⟩ :
        ∃ x after, other = (b :: taken) ++ x :: after ∧ ∃ rest, left = x :: rest := by
      have beyond := List.prefix_of_prefix_length_le (List.prefix_append (b :: taken) left)
        ⟨more, same⟩ (Nat.le_of_lt longer)
      obtain ⟨suffix, rfl⟩ := beyond
      cases suffix with
      | nil => simp at longer
      | cons x after =>
        rw [List.append_assoc, List.append_cancel_left_eq] at same
        exact ⟨x, after, rfl, after ++ more, same.symm⟩
    obtain ⟨_, rfl⟩ := extended
    have refused := stuck x _ rfl (after ++ extra)
    have stands : encoding c <+: b :: (taken ++ x :: (after ++ extra)) := by
      rw [← whole]
      simp
    obtain ⟨_, read⟩ := front_of_prefix stands
    rw [refused] at read
    cases read

private theorem invalidPart_of_cut {b : UInt8} {rest left : Bytes}
    (reading : front b rest = (.cut, left)) : InvalidPart (b :: rest) [] := by
  obtain ⟨_, c, filler, _, bytes⟩ := front_cut reading
  refine ⟨List.cons_ne_nil _ _, ?_, .inl ⟨c, filler, bytes.symm⟩, ?_⟩
  · intro d stands
    rw [List.append_nil] at stands
    obtain ⟨after, read⟩ := front_of_prefix stands
    rw [reading] at read
    cases read
  · intro other stands _
    rw [List.append_nil] at stands
    exact stands.length_le

theorem lossyChars_of_character {b : UInt8} {rest left : Bytes} {c : Char}
    (reading : front b rest = (.character c, left)) :
    lossyChars (b :: rest) = c :: lossyChars left := by
  rw [lossyChars, reading]

theorem lossyChars_of_invalid {b : UInt8} {rest left : Bytes}
    (reading : front b rest = (.invalid, left)) :
    lossyChars (b :: rest) = replacement :: lossyChars left := by
  rw [lossyChars, reading]

theorem lossyChars_of_cut {b : UInt8} {rest left : Bytes}
    (reading : front b rest = (.cut, left)) : lossyChars (b :: rest) = [replacement] := by
  rw [lossyChars, reading]

theorem reading_lossyChars (bytes : Bytes) : Reading bytes (lossyChars bytes) := by
  induction size : bytes.length using Nat.strongRecOn generalizing bytes with
  | _ size ih =>
    cases bytes with
    | nil =>
      rw [lossyChars]
      exact .done
    | cons b rest =>
      have shorter := front_length_le b rest
      have later (left : Bytes) (small : left.length ≤ rest.length) :
          Reading left (lossyChars left) :=
        ih left.length (by simp only [List.length_cons] at size; omega) left rfl
      rcases reading : front b rest with ⟨read, left⟩
      rw [reading] at shorter
      cases read with
      | character c =>
        rw [lossyChars_of_character reading, encoding_of_front reading]
        exact .character c (later left shorter)
      | invalid =>
        obtain ⟨part, same, whole⟩ := invalidPart_of_front reading
        rw [lossyChars_of_invalid reading, same]
        exact .invalid whole (later left shorter)
      | cut =>
        rw [lossyChars_of_cut reading, ← List.append_nil (b :: rest)]
        exact .invalid (invalidPart_of_cut reading) .done

theorem Reading.eq_lossyChars {bytes : Bytes} {text : List Char} (reads : Reading bytes text) :
    text = lossyChars bytes := by
  induction reads with
  | done => rw [lossyChars]
  | @character rest text c _ ih =>
    obtain ⟨b, tail, bytes, read⟩ := front_encoding c
    rw [bytes, List.cons_append, lossyChars_of_character (read rest), ih]
  | @invalid part rest text whole later ih =>
    cases part with
    | nil => exact absurd rfl whole.nonempty
    | cons b tail =>
      rcases reading : front b (tail ++ rest) with ⟨read, left⟩
      cases read with
      | character c =>
        exact absurd ⟨left, (encoding_of_front reading).symm⟩ (whole.no_character c)
      | invalid =>
        obtain ⟨part, same, other⟩ := invalidPart_of_front reading
        obtain ⟨_, rfl⟩ := whole.unique other same
        rw [List.cons_append, lossyChars_of_invalid reading, ih]
      | cut =>
        have other := invalidPart_of_cut reading
        obtain ⟨_, rfl⟩ := whole.unique other (List.append_nil _).symm
        rw [List.cons_append, lossyChars_of_cut reading, ih, lossyChars]

theorem ofString_eq (text : String) : Bytes.ofString text = text.toList.flatMap encoding := by
  rw [Bytes.ofString, String.toUTF8, ← String.utf8Encode_toList]
  exact List.toList_data_toByteArray

theorem Reading.encoded (text : List Char) : Reading (text.flatMap encoding) text := by
  induction text with
  | nil => exact .done
  | cons c text ih => exact .character c ih

/-- A text without U+FFFD is read from its own bytes only. -/
theorem Reading.eq_encoded {bytes : Bytes} {text : List Char} (reads : Reading bytes text)
    (sound : replacement ∉ text) : bytes = text.flatMap encoding := by
  induction reads with
  | done => rfl
  | character c _ ih =>
    rw [List.flatMap_cons, ← ih fun among => sound (List.mem_cons_of_mem _ among)]
  | invalid _ _ _ => exact absurd (List.mem_cons_self ..) sound

theorem lossy_ofString (text : String) : lossy (Bytes.ofString text) = text := by
  have reads := (Reading.encoded text.toList).eq_lossyChars
  rw [lossy, ofString_eq, ← reads, String.ofList_toList]

theorem lossy_eq_iff {bytes : Bytes} {text : String} (sound : replacement ∉ text.toList) :
    lossy bytes = text ↔ bytes = Bytes.ofString text := by
  constructor
  · intro same
    have reads := reading_lossyChars bytes
    have chars : lossyChars bytes = text.toList := by
      rw [← same, lossy, String.toList_ofList]
    rw [chars] at reads
    rw [ofString_eq, reads.eq_encoded sound]
  · intro same
    rw [same, lossy_ofString]

theorem ofString_inj {text other : String} :
    Bytes.ofString text = Bytes.ofString other ↔ text = other :=
  ⟨fun same => by rw [← lossy_ofString text, same, lossy_ofString], congrArg Bytes.ofString⟩

end Buildbox.Utf8
