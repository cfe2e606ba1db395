import Buildbox.Proofs.Input.Register
import Buildbox.Proofs.Text.Stream

/-!
Lines that do not fit. A region cuts a line by bytes, up to the first NUL, and its reader turns what
is left into text. The reader gets the first characters of the line as long as the cut falls between
two of them; a character that is cut reads as U+FFFD, which the line need not hold and the region
need not have room for.
-/

set_option autoImplicit false

namespace Buildbox

namespace Utf8

def width (chars : List Char) : Nat :=
  (chars.flatMap encoding).length

theorem width_cons (c : Char) (chars : List Char) :
    width (c :: chars) = (encoding c).length + width chars := by
  rw [width, List.flatMap_cons, List.length_append, width]

theorem width_append (front behind : List Char) :
    width (front ++ behind) = width front + width behind := by
  rw [width, List.flatMap_append, List.length_append, width, width]

theorem lossyChars_encoding_append (c : Char) (rest : Bytes) :
    lossyChars (encoding c ++ rest) = c :: lossyChars rest :=
  (Reading.character c (reading_lossyChars rest)).eq_lossyChars.symm

inductive Ending (room used : Nat) : List Char → List Char → Prop
  | whole : Ending room used [] []
  | nul {rest : List Char} : Ending room used ('\x00' :: rest) []
  | full {rest : List Char} (filled : used = room) : Ending room used rest []
  | broken {c : Char} {rest : List Char} (begun : used < room)
      (short : room < used + (encoding c).length) : Ending room used (c :: rest) [replacement]

theorem Ending.behind {room used : Nat} {rest mark : List Char} {count : Nat}
    (ending : Ending room used rest mark) : Ending (count + room) (count + used) rest mark := by
  cases ending with
  | whole => exact .whole
  | nul => exact .nul
  | full filled => exact .full (by omega)
  | broken begun short => exact .broken (by omega) (by omega)

/-- The characters whose bytes fit, up to the first NUL, and a mark for one that is cut. -/
structure Shown (room : Nat) (line shown mark : List Char) : Prop where
  front : shown <+: line
  no_nul : '\x00' ∉ shown
  fits : width shown ≤ room
  ending : Ending room (width shown) (line.drop shown.length) mark

theorem Shown.cons {room : Nat} {line shown mark : List Char} {c : Char} (other : c ≠ '\x00')
    (later : Shown room line shown mark) :
    Shown ((encoding c).length + room) (c :: line) (c :: shown) mark := by
  constructor
  · exact (List.prefix_cons_inj c).mpr later.front
  · intro among
    rcases List.mem_cons.mp among with same | among
    · exact other same.symm
    · exact later.no_nul among
  · rw [width_cons]
    exact Nat.add_le_add_left later.fits _
  · rw [width_cons]
    exact later.ending.behind

theorem exists_shown (line : List Char) (room : Nat) : ∃ shown mark,
    Shown room line shown mark ∧
      lossyChars (Bytes.beforeNul ((line.flatMap encoding).take room)) = shown ++ mark := by
  induction line generalizing room with
  | nil =>
    refine ⟨[], [], ⟨List.nil_prefix, List.not_mem_nil, Nat.zero_le _, .whole⟩, ?_⟩
    rw [List.flatMap_nil, List.take_nil]
    exact lossyChars.eq_1
  | cons c line ih =>
    have stopped {mark : List Char} (ending : Ending room 0 (c :: line) mark) :
        Shown room (c :: line) [] mark :=
      ⟨List.nil_prefix, List.not_mem_nil, Nat.zero_le _, ending⟩
    by_cases empty : room = 0
    · refine ⟨[], [], stopped (.full empty.symm), ?_⟩
      rw [empty, List.take_zero]
      exact lossyChars.eq_1
    by_cases nul : c = '\x00'
    · subst nul
      refine ⟨[], [], stopped .nul, ?_⟩
      obtain ⟨more, rfl⟩ := Nat.exists_eq_succ_of_ne_zero empty
      exact lossyChars.eq_1
    have nul_free := zero_not_mem_encoding nul
    rw [List.flatMap_cons]
    by_cases fits : (encoding c).length ≤ room
    · obtain ⟨more, rfl⟩ := Nat.exists_eq_add_of_le fits
      obtain ⟨shown, mark, later, text⟩ := ih more
      refine ⟨c :: shown, mark, later.cons nul, ?_⟩
      rw [List.take_length_add_append, Bytes.beforeNul_append nul_free,
        lossyChars_encoding_append, text]
      rfl
    · have part : ((encoding c).take room).length = room := List.length_take_of_le (by omega)
      have unfinished : Unfinished ((encoding c).take room) := by
        refine ⟨c, List.take_prefix _ _, fun same => ?_⟩
        rw [same] at part
        omega
      have some_byte : (encoding c).take room ≠ [] := by
        intro none_there
        rw [none_there] at part
        exact empty part.symm
      refine ⟨[], [replacement], stopped (.broken (by omega) (by omega)), ?_⟩
      rw [List.take_append_of_le_length (by omega), Bytes.beforeNul_of_nulFree
        fun among => nul_free (List.mem_of_mem_take among), unfinished.lossyChars some_byte]
      rfl

theorem Shown.prefix_iff {room : Nat} {line shown mark : List Char}
    (shows : Shown room line shown mark) :
    (shown ++ mark <+: line ∧ width (shown ++ mark) ≤ room) ↔ mark = [] := by
  constructor
  · rintro ⟨front, fits⟩
    have ending := shows.ending
    obtain ⟨behind, rfl⟩ := front
    rw [List.append_assoc, List.drop_left] at ending
    generalize split : mark ++ behind = rest at ending
    cases ending with
    | whole => rfl
    | nul => rfl
    | full _ => rfl
    | @broken c rest begun short =>
      -- the character that is cut would be the mark, of which no byte is missing then
      obtain ⟨rfl, _⟩ := List.cons.inj split
      rw [width_append, width_cons] at fits
      omega
  · rintro rfl
    rw [List.append_nil]
    exact ⟨shows.front, shows.fits⟩

end Utf8

namespace InputRegion

def after (capacity : Nat) (operations : List Operation) : InputRegion :=
  operations.foldl (fun region operation => (perform operation region).2) (new capacity)

theorem Sized.wait {capacity : Nat} {region : InputRegion} (sized : Sized capacity region)
    (isOpen : region.isClosed = false) :
    Sized capacity (perform .wait region).2 ∧ (perform .wait region).2.isClosed = false := by
  obtain ⟨flag, payload, rfl, width⟩ := sized
  by_cases ready : (ofParts flag payload).flag == readyFlag
  · have left : (perform .wait (ofParts flag payload)).2 =
        ofParts emptyFlag (Bytes.zeros payload.length) := by
      simp only [perform, take, isOpen, ready, reset_ofParts]
      rfl
    rw [left]
    exact ⟨⟨_, _, rfl, by simp [Bytes.zeros, width]⟩, rfl⟩
  · have left : (perform .wait (ofParts flag payload)).2 = ofParts flag payload := by
      simp only [perform, take, isOpen, ready]
      rfl
    rw [left]
    exact ⟨⟨_, _, rfl, width⟩, isOpen⟩

theorem perform_wait {region left : InputRegion} {bytes : Bytes}
    (taken : region.take = .line bytes left) : perform .wait region = (.line bytes, left) := by
  rw [perform, taken]

private theorem sized_foldl {capacity : Nat} {operations : List Operation}
    (not_closed : .close ∉ operations) {region : InputRegion} (sized : Sized capacity region)
    (isOpen : region.isClosed = false) :
    let left := operations.foldl (fun region operation => (perform operation region).2) region
    Sized capacity left ∧ left.isClosed = false := by
  induction operations generalizing region with
  | nil => exact ⟨sized, isOpen⟩
  | cons operation later ih =>
    obtain ⟨other, onward⟩ := not_or.mp (mt List.mem_cons.mpr not_closed)
    cases operation with
    | post line =>
      obtain ⟨-, open_still, sized_still, -⟩ := sized.post isOpen (Bytes.ofString line)
      exact ih onward sized_still open_still
    | wait =>
      obtain ⟨sized_still, open_still⟩ := sized.wait isOpen
      exact ih onward sized_still open_still
    | close => exact absurd rfl other

/-- Of a line that is posted to an open region, whatever was done to it before, the next reader gets
the characters that fit, up to the first NUL, and a U+FFFD for a character that is cut. That is the
front of the line, and no more than fits, exactly where no character is cut. -/
theorem next_line_received (capacity : Nat) {early : List Operation} (not_closed : .close ∉ early)
    (line : String) :
    let room := (new capacity).capacity
    let posted := perform (.post line) (after capacity early)
    ∃ shown mark, Utf8.Shown room line.toList shown mark ∧ posted.1 = .posted true ∧
      (perform .wait posted.2).1 = .line (Bytes.ofString (String.ofList (shown ++ mark))) ∧
      (shown ++ mark <+: line.toList ∧ Utf8.width (shown ++ mark) ≤ room ↔ mark = []) := by
  intro room posted
  obtain ⟨sized, isOpen⟩ := sized_foldl not_closed (sized_new capacity) (isClosed_new capacity)
  obtain ⟨accepted, -, -, taken⟩ := sized.post isOpen (Bytes.ofString line)
  obtain ⟨shown, mark, shows, text⟩ := Utf8.exists_shown line.toList room
  refine ⟨shown, mark, shows, congrArg Answer.posted accepted, ?_, shows.prefix_iff⟩
  have waited : perform .wait posted.2 =
      (.line (Bytes.ofString (Utf8.lossy ((new capacity).fitting (Bytes.ofString line)))),
        new capacity) := perform_wait taken
  have fitting : (new capacity).fitting (Bytes.ofString line) =
      Bytes.beforeNul ((line.toList.flatMap Utf8.encoding).take room) := by
    rw [InputRegion.fitting, Utf8.ofString_eq]
  rw [waited, fitting, Utf8.lossy, text]

/-- A line of two characters of three bytes each, in a region with room for four bytes. -/
theorem second_character_cut :
    let posted := perform (.post "\u4E2D\u4E2D") (after 5 [.post "longer", .wait])
    .close ∉ [Operation.post "longer", .wait] ∧
      (perform .wait posted.2).1 = .line (Bytes.ofString "\u4E2D\uFFFD") ∧
      ∃ shown mark, Utf8.Shown 4 "\u4E2D\u4E2D".toList shown mark ∧
        (perform .wait posted.2).1 = .line (Bytes.ofString (String.ofList (shown ++ mark))) := by
  have not_closed : .close ∉ [Operation.post "longer", .wait] := by decide
  obtain ⟨shown, mark, shows, -, received, -⟩ := next_line_received 5 not_closed "\u4E2D\u4E2D"
  exact ⟨not_closed, by decide +kernel, shown, mark, shows, received⟩

/-- A character whose second byte has no room is received as one of three bytes. -/
theorem cut_character_grows :
    (new 3).capacity = 2 ∧
      (perform .wait (perform (.post "a\u00E9") (new 3)).2).1 =
        .line (Bytes.ofString "a\uFFFD") ∧
      ¬ "a\uFFFD".toList <+: "a\u00E9".toList ∧ (Bytes.ofString "a\uFFFD").length = 4 := by
  refine ⟨by decide, ?_, by decide, by decide⟩
  decide +kernel

end InputRegion

end Buildbox
