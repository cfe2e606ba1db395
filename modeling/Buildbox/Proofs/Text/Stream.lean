import Buildbox.Proofs.Text.Reading

/-!
A stream that arrives in chunks. However it is cut, the decoder between the chunks gives the text of
the whole stream, and what it holds back is a proper prefix of one character.
-/

set_option autoImplicit false

namespace Buildbox.Utf8

private theorem settledChars_of_character {b : UInt8} {rest left : Bytes} {c : Char}
    (reading : front b rest = (.character c, left)) :
    settledChars (b :: rest) = (c :: (settledChars left).1, (settledChars left).2) := by
  rw [settledChars, reading]

private theorem settledChars_of_invalid {b : UInt8} {rest left : Bytes}
    (reading : front b rest = (.invalid, left)) :
    settledChars (b :: rest) = (replacement :: (settledChars left).1, (settledChars left).2) := by
  rw [settledChars, reading]

private theorem settledChars_of_cut {b : UInt8} {rest left : Bytes}
    (reading : front b rest = (.cut, left)) : settledChars (b :: rest) = ([], b :: rest) := by
  rw [settledChars, reading]

/-- Bytes that a character can still be made of: nothing, or a proper prefix of its bytes. -/
def Unfinished (held : Bytes) : Prop :=
  ∃ c : Char, held <+: encoding c ∧ held ≠ encoding c

theorem Unfinished.nil : Unfinished [] :=
  ⟨'a', List.nil_prefix, (encoding_ne_nil 'a').symm⟩

theorem Unfinished.length_le {held : Bytes} (unfinished : Unfinished held) : held.length ≤ 3 := by
  obtain ⟨c, begins, partly⟩ := unfinished
  have shorter : held.length < (encoding c).length := by
    apply Nat.lt_of_le_of_ne begins.length_le
    intro same
    exact partly (begins.eq_of_length same)
  have bound := encoding_length_le c
  omega

theorem Unfinished.lossyChars {held : Bytes} (unfinished : Unfinished held)
    (some_byte : held ≠ []) : Utf8.lossyChars held = [replacement] := by
  obtain ⟨c, begins, partly⟩ := unfinished
  have whole : InvalidPart held [] := by
    refine ⟨some_byte, ?_, .inl ⟨c, begins⟩, ?_⟩
    · intro d stands
      rw [List.append_nil] at stands
      obtain ⟨more, bytes⟩ := stands.trans begins
      -- the bytes of the one character would read as the other one first
      have alone := ((Reading.character c .done).eq_lossyChars)
      have front := (Reading.character d (reading_lossyChars more)).eq_lossyChars
      rw [bytes] at front
      rw [List.append_nil, ← front] at alone
      obtain ⟨rfl, _⟩ := List.cons.inj alone
      exact partly (begins.eq_of_length (Nat.le_antisymm begins.length_le stands.length_le))
    · intro other stands _
      rw [List.append_nil] at stands
      exact stands.length_le
  have reads := (Reading.invalid whole .done).eq_lossyChars
  rw [List.append_nil] at reads
  exact reads.symm

theorem lossyChars_append (bytes more : Bytes) :
    lossyChars (bytes ++ more) =
      (settledChars bytes).1 ++ lossyChars ((settledChars bytes).2 ++ more) := by
  induction size : bytes.length using Nat.strongRecOn generalizing bytes with
  | _ size ih =>
    cases bytes with
    | nil =>
      rw [settledChars]
      rfl
    | cons b rest =>
      have shorter := front_length_le b rest
      rcases reading : front b rest with ⟨read, left⟩
      rw [reading] at shorter
      have later := ih left.length (by
        simp only [List.length_cons] at size shorter
        omega) left rfl
      cases read with
      | character c =>
        have whole := front_append reading (by simp) more
        rw [settledChars_of_character reading, List.cons_append, lossyChars_of_character whole,
          later]
        rfl
      | invalid =>
        have whole := front_append reading (by simp) more
        rw [settledChars_of_invalid reading, List.cons_append, lossyChars_of_invalid whole, later]
        rfl
      | cut =>
        rw [settledChars_of_cut reading]
        rfl

theorem unfinished_settledChars (bytes : Bytes) : Unfinished (settledChars bytes).2 := by
  induction size : bytes.length using Nat.strongRecOn generalizing bytes with
  | _ size ih =>
    cases bytes with
    | nil =>
      rw [settledChars]
      exact .nil
    | cons b rest =>
      have shorter := front_length_le b rest
      rcases reading : front b rest with ⟨read, left⟩
      rw [reading] at shorter
      have later := ih left.length (by
        simp only [List.length_cons] at size shorter
        omega) left rfl
      cases read with
      | character c =>
        rw [settledChars_of_character reading]
        exact later
      | invalid =>
        rw [settledChars_of_invalid reading]
        exact later
      | cut =>
        rw [settledChars_of_cut reading]
        obtain ⟨_, c, filler, some_left, bytes⟩ := front_cut reading
        refine ⟨c, ⟨filler, bytes.symm⟩, fun same => some_left ?_⟩
        exact List.append_right_eq_self.mp (bytes.symm.trans same.symm)

namespace Carry

/-- Feeds chunks one after another: the text they settle, and the decoder after the last one. -/
def feed (carry : Carry) : List Bytes → String × Carry
  | [] => ("", carry)
  | chunk :: chunks =>
    let settled := carry.decode chunk
    let later := settled.2.feed chunks
    (settled.1 ++ later.1, later.2)

/-- The text of a stream that arrives in chunks and ends after the last one. -/
def stream (chunks : List Bytes) : String :=
  (empty.feed chunks).1 ++ (empty.feed chunks).2.finish

theorem feed_append (carry : Carry) (early late : List Bytes) :
    carry.feed (early ++ late) =
      ((carry.feed early).1 ++ ((carry.feed early).2.feed late).1,
        ((carry.feed early).2.feed late).2) := by
  induction early generalizing carry with
  | nil => simp [feed]
  | cons chunk chunks ih => simp [feed, ih, String.append_assoc]

private theorem lossyChars_feed (carry : Carry) (chunks : List Bytes) (more : Bytes) :
    lossyChars (carry.held ++ chunks.flatten ++ more) =
      (carry.feed chunks).1.toList ++ lossyChars ((carry.feed chunks).2.held ++ more) := by
  induction chunks generalizing carry with
  | nil => simp [feed]
  | cons chunk chunks ih =>
    have later := ih (carry.decode chunk).2
    rw [List.append_assoc] at later
    rw [List.flatten_cons, ← List.append_assoc, List.append_assoc, lossyChars_append]
    simp only [feed, decode, String.toList_append, String.toList_ofList, List.append_assoc] at later ⊢
    rw [later]

private theorem unfinished_feed (carry : Carry) (unfinished : Unfinished carry.held)
    (chunks : List Bytes) : Unfinished (carry.feed chunks).2.held := by
  induction chunks generalizing carry with
  | nil => exact unfinished
  | cons chunk chunks ih => exact ih (carry.decode chunk).2 (unfinished_settledChars _)

theorem stream_eq_lossy (chunks : List Bytes) : stream chunks = lossy chunks.flatten := by
  apply String.toList_inj.mp
  have whole := lossyChars_feed empty chunks []
  rw [List.append_nil, List.append_nil] at whole
  rw [stream, String.toList_append, finish, lossy, lossy, String.toList_ofList,
    String.toList_ofList, ← whole]
  rfl

/-- A stream gives the one text that its bytes read as, however it is cut, and between two chunks at
most three bytes are held, which begin a character and do not complete it. -/
theorem stream_reads_whole (chunks : List Bytes) :
    (∀ text, Reading chunks.flatten text ↔ text = (stream chunks).toList) ∧
      stream chunks = lossy chunks.flatten ∧
      (∀ others : List Bytes, others.flatten = chunks.flatten → stream others = stream chunks) ∧
      ∀ fed later, chunks = fed ++ later →
        (empty.feed fed).2.held.length ≤ 3 ∧
          ∃ c, (empty.feed fed).2.held <+: encoding c ∧ (empty.feed fed).2.held ≠ encoding c := by
  have whole := stream_eq_lossy chunks
  refine ⟨fun text => ⟨fun reads => ?_, fun same => ?_⟩, whole, fun others same => ?_, ?_⟩
  · rw [whole, lossy, String.toList_ofList]
    exact reads.eq_lossyChars
  · rw [same, whole, lossy, String.toList_ofList]
    exact reading_lossyChars _
  · rw [whole, stream_eq_lossy, same]
  · intro fed _ _
    have unfinished := unfinished_feed empty .nil fed
    exact ⟨unfinished.length_le, unfinished⟩

end Carry

end Buildbox.Utf8
