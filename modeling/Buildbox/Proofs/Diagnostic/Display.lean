import Buildbox.Diagnostic.Reader
import Buildbox.Proofs.Text.Decimal

/-!
Reading back the plain line of a diagnostic. The cut with the longest file counts, so the line reads
as the diagnostic itself exactly when its message holds no position of its own: no end of the
message that reads as `:line:column: severity: message`.
-/

set_option autoImplicit false

namespace Buildbox.Diagnostic

theorem lines_go_cons {c : Char} (other : c ≠ '\n') (line rest : List Char) :
    lines.go line (c :: rest) = lines.go (c :: line) rest := by
  rw [lines.go]
  exact fun feed => other feed

theorem lines_go_of_no_feed {chars : List Char} (no_feed : '\n' ∉ chars) (line : List Char)
    (some_char : line ≠ [] ∨ chars ≠ []) : lines.go line chars = [line.reverse ++ chars] := by
  induction chars generalizing line with
  | nil =>
    have filled : line.isEmpty = false :=
      List.isEmpty_eq_false_iff.mpr (some_char.resolve_right fun filled => filled rfl)
    simp [lines.go, filled]
  | cons c rest ih =>
    obtain ⟨other, onward⟩ := not_or.mp (mt List.mem_cons.mpr no_feed)
    rw [lines_go_cons (Ne.symm other), ih onward _ (.inl (List.cons_ne_nil _ _)),
      List.reverse_cons, List.append_assoc, List.singleton_append]

theorem lines_of_no_feed {chars : List Char} (no_feed : '\n' ∉ chars) (some_char : chars ≠ []) :
    lines chars = [chars] :=
  lines_go_of_no_feed no_feed [] (.inr some_char)

/-- The written form of a line or column number. -/
def digits (n : UInt32) : List Char :=
  Nat.toDigits 10 n.toNat

theorem digits_ne_nil (n : UInt32) : digits n ≠ [] :=
  Nat.toDigits_ne_nil

theorem ascii_of_mem_digits {n : UInt32} {c : Char} (among : c ∈ digits n) :
    Text.isAsciiDigit c = true :=
  Text.ascii_of_mem_toDigits among

theorem number?_digits (n : UInt32) : number? (digits n) = some n := by
  have fits : n.toNat < UInt32.size := n.toNat_lt
  simp [number?, digits, Text.decimal?_toDigits, fits]

def DigitRun (run : List Char) : Prop :=
  run ≠ [] ∧ ∀ c ∈ run, Text.isDigit c = true

theorem digitRun_digits (n : UInt32) : DigitRun (digits n) :=
  ⟨digits_ne_nil n, fun _ among => Text.isDigit_of_ascii (ascii_of_mem_digits among)⟩

theorem position?_run {run : List Char} (digits : DigitRun run) (rest : List Char) :
    position? (run ++ ':' :: rest) = some (run, rest) := by
  obtain ⟨some_digit, all_digits⟩ := digits
  have colon : ¬ Text.isDigit ':' = true := by decide
  have taken : (run ++ ':' :: rest).takeWhile Text.isDigit = run := by
    rw [List.takeWhile_append_of_pos all_digits, List.takeWhile_cons_of_neg colon, List.append_nil]
  have left : (run ++ ':' :: rest).dropWhile Text.isDigit = ':' :: rest := by
    rw [List.dropWhile_append_of_pos all_digits, List.dropWhile_cons_of_neg colon]
  have filled : run.isEmpty = false := List.isEmpty_eq_false_iff.mpr some_digit
  simp only [position?, taken, left, filled]

def behindFile (d : Diagnostic) : List Char :=
  ':' :: (digits d.line ++ ':' :: (digits d.column ++ ':' :: ' ' ::
    (d.severity.toList ++ ':' :: ' ' :: d.message.toList)))

theorem toList_display (d : Diagnostic) : d.display.toList = d.file.toList ++ d.behindFile := by
  have written (n : UInt32) : (toString n).toList = digits n := by
    change (toString n.toNat).toList = digits n
    rw [Nat.toString_eq_ofList_toDigits, String.toList_ofList, digits]
  simp only [display, String.toList_append, written, List.append_assoc]
  rfl

theorem tail?_parts {line column severity message : List Char} {blank space : Char}
    (row : DigitRun line) (place : DigitRun column) (first : Text.isBlank blank = true)
    (no_colon : ':' ∉ severity) (second : Text.isBlank space = true) (some_message : message ≠ []) :
    tail? (':' :: (line ++ ':' :: (column ++ ':' :: blank ::
      (severity ++ ':' :: space :: message)))) = some ⟨line, column, severity, message⟩ := by
  have others : ∀ c ∈ severity, (c != ':') = true := fun c among =>
    bne_iff_ne.mpr fun colon => no_colon (colon ▸ among)
  have colon : ¬ (':' != ':') = true := by decide
  have filled : message.isEmpty = false := List.isEmpty_eq_false_iff.mpr some_message
  have taken (rest : List Char) : (severity ++ ':' :: rest).takeWhile (· != ':') = severity := by
    rw [List.takeWhile_append_of_pos others, List.takeWhile_cons, if_neg colon, List.append_nil]
  have onward (rest : List Char) :
      (severity ++ ':' :: rest).dropWhile (· != ':') = ':' :: rest := by
    rw [List.dropWhile_append_of_pos others, List.dropWhile_cons, if_neg colon]
  simp only [tail?, afterColon?, afterBlank?, Option.bind_eq_bind, Option.bind_some,
    position?_run row, position?_run place, first, second, taken, onward, filled, if_true,
    Bool.false_eq_true, if_false]

theorem tail?_behindFile {d : Diagnostic} (no_colon : ':' ∉ d.severity.toList)
    (some_message : d.message ≠ "") :
    tail? d.behindFile =
      some ⟨digits d.line, digits d.column, d.severity.toList, d.message.toList⟩ := by
  have blank : Text.isBlank ' ' = true := by decide
  have filled : d.message.toList ≠ [] := mt String.toList_eq_nil_iff.mp some_message
  exact tail?_parts (digitRun_digits _) (digitRun_digits _) blank no_colon blank filled

/-- No end of these characters reads as what follows a file. -/
def Plain (chars : List Char) : Prop :=
  ∀ ending, ending <:+ chars → tail? ending = none

theorem plain_cons {c : Char} {rest : List Char} :
    Plain (c :: rest) ↔ tail? (c :: rest) = none ∧ Plain rest := by
  constructor
  · intro plain
    refine ⟨plain _ List.suffix_rfl, fun ending behind => ?_⟩
    exact plain ending (behind.trans (List.suffix_cons c rest))
  · rintro ⟨whole, plain⟩ ending behind
    rcases List.suffix_cons_iff.mp behind with rfl | later
    · exact whole
    · exact plain ending later

theorem tail?_of_no_colon {c : Char} (no_colon : c ≠ ':') (rest : List Char) :
    tail? (c :: rest) = none := by
  have refused : afterColon? (c :: rest) = none := by
    rw [afterColon?]
    exact fun _ same => no_colon (List.cons.inj same).1
  rw [tail?, refused]
  rfl

theorem tail?_colon_blank (rest : List Char) : tail? (':' :: ' ' :: rest) = none :=
  rfl

theorem plain_append {front : List Char} (no_colon : ':' ∉ front) (rest : List Char) :
    Plain (front ++ rest) ↔ Plain rest := by
  induction front with
  | nil => exact Iff.rfl
  | cons c front ih =>
    obtain ⟨other, onward⟩ := not_or.mp (mt List.mem_cons.mpr no_colon)
    rw [List.cons_append, plain_cons, ih onward]
    exact and_iff_right (tail?_of_no_colon (Ne.symm other) _)

theorem plain_nil : Plain [] := by
  intro ending behind
  rw [List.suffix_nil.mp behind]
  rfl

theorem plain_behindFile {d : Diagnostic} (no_colon : ':' ∉ d.severity.toList) :
    Plain d.behindFile.tail ↔ Plain d.message.toList := by
  have digits_no_colon (n : UInt32) : ':' ∉ digits n := fun among =>
    absurd (ascii_of_mem_digits among) (by decide)
  have no_line (rest : List Char) :
      tail? (':' :: (digits d.column ++ ':' :: ' ' :: rest)) = none := by
    simp only [tail?, afterColon?, Option.bind_eq_bind, Option.bind_some,
      position?_run (digitRun_digits _)]
    rfl
  have blank (rest : List Char) : Plain (' ' :: rest) ↔ Plain rest := by
    rw [← List.singleton_append, plain_append (by decide)]
  rw [behindFile, List.tail_cons, plain_append (digits_no_colon _), plain_cons,
    plain_append (digits_no_colon _), plain_cons, blank, plain_append no_colon, plain_cons, blank]
  simp only [no_line, tail?_colon_blank, true_and]

theorem longestCut_eq_none {c : Char} {rest : List Char} :
    longestCut (c :: rest) = none ↔ Plain rest := by
  induction rest generalizing c with
  | nil => exact iff_of_true rfl plain_nil
  | cons next rest ih =>
    rw [plain_cons, ← ih (c := next), longestCut]
    split
    · next file tail found => simp [found]
    · next missing => simp [missing]

theorem file_ne_nil {chars file : List Char} {tail : Tail}
    (found : longestCut chars = some (file, tail)) : file ≠ [] := by
  cases chars with
  | nil => cases found
  | cons c rest =>
    rw [longestCut] at found
    split at found
    · cases found
      exact List.cons_ne_nil _ _
    · obtain ⟨_, _, same⟩ := Option.map_eq_some_iff.mp found
      cases same
      exact List.cons_ne_nil _ _

theorem longestCut_append {file chars : List Char} {tail : Tail}
    (found : longestCut chars = some (file, tail)) (front : List Char) :
    longestCut (front ++ chars) = some (front ++ file, tail) := by
  induction front with
  | nil => exact found
  | cons c front ih => rw [List.cons_append, longestCut, ih, List.cons_append]

theorem longestCut_behind {chars : List Char} {tail : Tail} (read : tail? chars = some tail)
    (none_inside : longestCut chars = none) {file : List Char} (some_char : file ≠ []) :
    longestCut (file ++ chars) = some (file, tail) := by
  have cut (c : Char) : longestCut (c :: chars) = some ([c], tail) := by
    rw [longestCut, none_inside, read]
    rfl
  obtain ⟨front, last, rfl⟩ : ∃ front last, file = front ++ [last] :=
    ⟨_, _, (List.dropLast_concat_getLast some_char).symm⟩
  rw [List.append_assoc, List.singleton_append, longestCut_append (cut last)]

variable {d : Diagnostic}

/-- The texts that a diagnostic needs for its line to be one: a file and a message, no colon in the
severity, and no line feed. -/
structure Printable (d : Diagnostic) : Prop where
  some_file : d.file ≠ ""
  some_message : d.message ≠ ""
  no_colon : ':' ∉ d.severity.toList
  no_feed : ∀ text ∈ [d.file, d.severity, d.message], '\n' ∉ text.toList

theorem Printable.lines_display (printable : d.Printable) :
    lines d.display.toList = [d.file.toList ++ d.behindFile] := by
  have digits_no_feed (n : UInt32) : '\n' ∉ digits n := fun among =>
    absurd (ascii_of_mem_digits among) (by decide)
  have file_no_feed := printable.no_feed d.file (by simp)
  have severity_no_feed := printable.no_feed d.severity (by simp)
  have message_no_feed := printable.no_feed d.message (by simp)
  rw [toList_display]
  apply lines_of_no_feed
  · simp [behindFile, digits_no_feed, file_no_feed, severity_no_feed, message_no_feed]
  · simp [behindFile]

theorem Printable.longestCut_behindFile (printable : d.Printable) :
    longestCut d.behindFile = none ↔ Plain d.message.toList :=
  longestCut_eq_none.trans (plain_behindFile printable.no_colon)

theorem Printable.ofLine?_iff (printable : d.Printable) :
    ofLine? (d.file.toList ++ d.behindFile) = some d ↔ Plain d.message.toList := by
  rw [← printable.longestCut_behindFile]
  constructor
  · intro same
    by_cases missing : longestCut d.behindFile = none
    · exact missing
    -- a cut inside makes the file of the line longer
    obtain ⟨⟨more, tail⟩, found⟩ := Option.ne_none_iff_exists'.mp missing
    have cut := longestCut_append found d.file.toList
    simp only [ofLine?, cut, Option.bind_eq_bind, Option.bind_some] at same
    obtain ⟨row, -, same⟩ := Option.bind_eq_some_iff.mp same
    obtain ⟨column, -, same⟩ := Option.bind_eq_some_iff.mp same
    have longer := congrArg (fun d => d.file.toList) (Option.some.inj same)
    rw [String.toList_ofList] at longer
    exact absurd (List.append_right_eq_self.mp longer) (file_ne_nil found)
  · intro none_inside
    have read := tail?_behindFile printable.no_colon printable.some_message
    have some_file := mt String.toList_eq_nil_iff.mp printable.some_file
    have cut := longestCut_behind read none_inside some_file
    simp [ofLine?, cut, number?_digits]

/-- The line of a diagnostic is read back as exactly this diagnostic if and only if no end of its
message reads as a position, a severity and a message again. -/
theorem parse_display_iff (printable : d.Printable) :
    parse d.display = [d] ↔ ∀ ending, ending <:+ d.message.toList → tail? ending = none := by
  rw [parse, printable.lines_display, List.filterMap_cons, List.filterMap_nil]
  refine Iff.trans ?_ printable.ofLine?_iff
  cases ofLine? (d.file.toList ++ d.behindFile) <;> simp

/-- A diagnostic with a colon in its message, but no position. -/
def candidateNote : Diagnostic where
  file := "a.cpp"
  line := 1
  column := 2
  severity := "note"
  message := "candidate: void f(int)"

theorem candidateNote_reads_back :
    candidateNote.Printable ∧ parse candidateNote.display = [candidateNote] ∧
      ∀ ending, ending <:+ candidateNote.message.toList → tail? ending = none := by
  have printable : candidateNote.Printable :=
    ⟨by decide, by decide, by decide, by decide⟩
  have same : parse candidateNote.display = [candidateNote] := by decide +kernel
  exact ⟨printable, same, (parse_display_iff printable).mp same⟩

/-- A diagnostic whose message quotes another position. -/
def quotingError : Diagnostic where
  file := "a.cpp"
  line := 3
  column := 5
  severity := "error"
  message := "foo:1:2: note: bar"

/-- The front of the message is read as part of the file, and the position from the message. -/
theorem quotingError_reads_otherwise :
    quotingError.Printable ∧ parse quotingError.display ≠ [quotingError] ∧
      parse quotingError.display = [⟨"a.cpp:3:5: error: foo", 1, 2, "note", "bar"⟩] :=
  ⟨⟨by decide, by decide, by decide, by decide⟩, by decide +kernel, by decide +kernel⟩

end Buildbox.Diagnostic
