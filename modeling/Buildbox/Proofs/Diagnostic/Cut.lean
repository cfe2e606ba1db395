import Mathlib.Data.List.Forall2
import Mathlib.Data.List.TakeWhile
import Buildbox.Proofs.Diagnostic.Display

/-!
What is read from compiler output, without a word about how. A line is cut into file, position,
severity and message; where several cuts are there, the one with the longest file counts, and a line
is skipped when the numbers of this cut cannot be told, whatever another cut would say. Output that
ends with a line is read apart from what follows it.
-/

set_option autoImplicit false

namespace Buildbox.Diagnostic

/-- A text and its lines. Each line is ended by a line feed, or by a carriage return and a line
feed; the last one may lack its end. -/
inductive Lines : List Char → List (List Char) → Prop
  | none : Lines [] []
  | unended {row : List Char} (some_char : row ≠ []) (no_feed : '\n' ∉ row) : Lines row [row]
  | fed {row rest : List Char} {later : List (List Char)} (no_feed : '\n' ∉ row)
      (no_return : row.getLast? ≠ some '\r') (onward : Lines rest later) :
      Lines (row ++ '\n' :: rest) (row :: later)
  | returned {row rest : List Char} {later : List (List Char)} (no_feed : '\n' ∉ row)
      (onward : Lines rest later) : Lines (row ++ '\r' :: '\n' :: rest) (row :: later)

private theorem lines_go_feed {row : List Char} (no_feed : '\n' ∉ row) (front rest : List Char) :
    lines.go front (row ++ '\n' :: rest) = lines.go (row.reverse ++ front) ('\n' :: rest) := by
  induction row generalizing front with
  | nil => rfl
  | cons c row ih =>
    obtain ⟨other, onward⟩ := not_or.mp (mt List.mem_cons.mpr no_feed)
    rw [List.cons_append, lines_go_cons (Ne.symm other), ih onward]
    simp

private theorem lines_fed {row : List Char} (no_feed : '\n' ∉ row)
    (no_return : row.getLast? ≠ some '\r') (rest : List Char) :
    lines (row ++ '\n' :: rest) = row :: lines rest := by
  rw [lines, lines_go_feed no_feed, List.append_nil, lines.go, List.reverse_reverse]
  · rfl
  · intro front same
    apply no_return
    rw [← List.head?_reverse, same]
    rfl

private theorem lines_returned {row : List Char} (no_feed : '\n' ∉ row) (rest : List Char) :
    lines (row ++ '\r' :: '\n' :: rest) = row :: lines rest := by
  have apart : '\n' ∉ row ++ ['\r'] := by simp [no_feed]
  have joined : row ++ '\r' :: '\n' :: rest = row ++ ['\r'] ++ '\n' :: rest := by simp
  rw [joined, lines, lines_go_feed apart, List.append_nil, List.reverse_concat, lines.go,
    List.reverse_reverse]
  rfl

theorem Lines.eq_lines {text : List Char} {rows : List (List Char)} (split : Lines text rows) :
    lines text = rows := by
  induction split with
  | none => rfl
  | unended some_char no_feed => exact lines_of_no_feed no_feed some_char
  | fed no_feed no_return onward ih => rw [lines_fed no_feed no_return, ih]
  | returned no_feed onward ih => rw [lines_returned no_feed, ih]

theorem lines_of (text : List Char) : Lines text (lines text) := by
  obtain ⟨rows, split⟩ : ∃ rows, Lines text rows := by
    induction length : text.length using Nat.strongRecOn generalizing text with
    | _ size ih =>
      have whole : text.takeWhile (· != '\n') ++ text.dropWhile (· != '\n') = text :=
        List.takeWhile_append_dropWhile
      have no_feed : '\n' ∉ text.takeWhile (· != '\n') := fun among => by
        simpa using List.mem_takeWhile_imp among
      rcases ended : text.dropWhile (· != '\n') with _ | ⟨c, rest⟩
      · rw [ended, List.append_nil] at whole
        rw [whole] at no_feed
        by_cases empty : text = []
        · exact ⟨[], empty ▸ .none⟩
        · exact ⟨[text], .unended empty no_feed⟩
      · have feed := List.head?_dropWhile_not (· != '\n') text
        rw [ended] at feed whole
        have same : c = '\n' := by simpa using feed
        subst same
        have shorter : rest.length < size := by
          rw [← length, ← whole, List.length_append, List.length_cons]
          omega
        obtain ⟨later, onward⟩ := ih rest.length shorter rest rfl
        generalize text.takeWhile (· != '\n') = row at whole no_feed
        rw [← whole]
        by_cases last : row.getLast? = some '\r'
        · obtain ⟨front, rfl⟩ := List.getLast?_eq_some_iff.mp last
          have onto : front ++ ['\r'] ++ '\n' :: rest = front ++ '\r' :: '\n' :: rest := by simp
          rw [onto]
          refine ⟨front :: later, .returned ?_ onward⟩
          exact fun among => no_feed (List.mem_append_left _ among)
        · exact ⟨row :: later, .fed no_feed last onward⟩
  rw [split.eq_lines]
  exact split

theorem Lines.append {front rest : List Char} {rows later : List (List Char)}
    (split : Lines front rows) (ended : front = [] ∨ front.getLast? = some '\n')
    (onward : Lines rest later) : Lines (front ++ rest) (rows ++ later) := by
  induction split with
  | none => exact onward
  | @unended row some_char no_feed =>
    have last := ended.resolve_left some_char
    exact absurd (List.mem_of_getLast? last) no_feed
  | @fed row behind others no_feed no_return _ ih =>
    have closed : behind = [] ∨ behind.getLast? = some '\n' := by
      rcases behind with _ | ⟨c, behind⟩
      · exact .inl rfl
      · simpa using ended
    rw [List.append_assoc, List.cons_append, List.cons_append]
    exact .fed no_feed no_return (ih closed)
  | @returned row behind others no_feed _ ih =>
    have closed : behind = [] ∨ behind.getLast? = some '\n' := by
      rcases behind with _ | ⟨c, behind⟩
      · exact .inl rfl
      · simpa using ended
    rw [List.append_assoc, List.cons_append, List.cons_append, List.cons_append]
    exact .returned no_feed (ih closed)

/-- ASCII digits that stand for a word. -/
structure Numeral (run : List Char) (n : UInt32) : Prop where
  some_digit : run ≠ []
  ascii : ∀ c ∈ run, Text.isAsciiDigit c = true
  value : Nat.ofDigitChars 10 run 0 = n.toNat

theorem number?_eq_some_iff {run : List Char} {n : UInt32} :
    number? run = some n ↔ Numeral run n := by
  by_cases readable : run ≠ [] ∧ ∀ c ∈ run, Text.isAsciiDigit c = true
  · obtain ⟨some_digit, ascii⟩ := readable
    have filled : run.isEmpty = false := List.isEmpty_eq_false_iff.mpr some_digit
    have digits : run.all Text.isAsciiDigit = true := List.all_eq_true.mpr ascii
    have decimal : Text.decimal? run = some (Nat.ofDigitChars 10 run 0) := by
      rw [Text.decimal?, filled, digits, Text.foldl_eq_ofDigitChars]
      rfl
    rw [number?, decimal, Option.bind_eq_bind, Option.bind_some]
    constructor
    · intro found
      split at found
      · next fits =>
        cases found
        exact ⟨some_digit, ascii, (UInt32.toNat_ofNat_of_lt' fits).symm⟩
      · cases found
    · intro numeral
      have fits : Nat.ofDigitChars 10 run 0 < UInt32.size := numeral.value ▸ n.toNat_lt
      rw [if_pos fits, numeral.value]
      exact congrArg some UInt32.ofNat_toNat
  · have unreadable : Text.decimal? run = none := by
      rw [Text.decimal?, if_pos]
      by_contra other
      apply readable
      simpa using other
    rw [number?, unreadable]
    constructor
    · intro found
      cases found
    · intro numeral
      exact absurd ⟨numeral.some_digit, numeral.ascii⟩ readable

/-- What may stand behind the file of a line: `:line:column: severity: message`, with any white
space for the two blanks. -/
inductive Follows : List Char → Tail → Prop
  | intro {line column severity message : List Char} {blank space : Char} (row : DigitRun line)
      (place : DigitRun column) (first : Text.isBlank blank = true) (no_colon : ':' ∉ severity)
      (second : Text.isBlank space = true) (some_message : message ≠ []) :
      Follows (':' :: (line ++ ':' :: (column ++ ':' :: blank ::
        (severity ++ ':' :: space :: message)))) ⟨line, column, severity, message⟩

def Cut (row file : List Char) (tail : Tail) : Prop :=
  file ≠ [] ∧ ∃ behind, row = file ++ behind ∧ Follows behind tail

def Longest (row file : List Char) (tail : Tail) : Prop :=
  Cut row file tail ∧ ∀ other rest, Cut row other rest → other.length ≤ file.length

theorem position?_eq_some_iff {chars run rest : List Char} :
    position? chars = some (run, rest) ↔ DigitRun run ∧ chars = run ++ ':' :: rest := by
  constructor
  · intro found
    have whole : chars.takeWhile Text.isDigit ++ chars.dropWhile Text.isDigit = chars :=
      List.takeWhile_append_dropWhile
    rw [position?] at found
    split at found
    · next filled behind =>
      cases found
      rw [behind] at whole
      refine ⟨⟨List.isEmpty_eq_false_iff.mp filled, ?_⟩, whole.symm⟩
      intro c among
      exact List.mem_takeWhile_imp among
    · cases found
  · rintro ⟨digits, rfl⟩
    exact position?_run digits rest

private theorem afterColon?_eq_some_iff {chars rest : List Char} :
    afterColon? chars = some rest ↔ chars = ':' :: rest := by
  rw [afterColon?.eq_def]
  split
  · simp
  · next no_colon =>
    refine iff_of_false (by simp) ?_
    rintro rfl
    exact no_colon rest rfl

private theorem afterBlank?_eq_some_iff {chars rest : List Char} :
    afterBlank? chars = some rest ↔ ∃ blank, Text.isBlank blank = true ∧ chars = blank :: rest := by
  rcases chars with _ | ⟨c, chars⟩
  · simp [afterBlank?]
  · by_cases blank : Text.isBlank c = true
    · simp [afterBlank?, blank]
    · simp [afterBlank?, blank]

theorem tail?_eq_some_iff {chars : List Char} {tail : Tail} :
    tail? chars = some tail ↔ Follows chars tail := by
  constructor
  · intro found
    simp only [tail?, Option.bind_eq_bind] at found
    obtain ⟨behindFile, colon, found⟩ := Option.bind_eq_some_iff.mp found
    obtain ⟨⟨line, behindLine⟩, row, found⟩ := Option.bind_eq_some_iff.mp found
    obtain ⟨⟨column, behindColumn⟩, place, found⟩ := Option.bind_eq_some_iff.mp found
    obtain ⟨behindBlank, blanked, found⟩ := Option.bind_eq_some_iff.mp found
    obtain ⟨behindSeverity, ended, found⟩ := Option.bind_eq_some_iff.mp found
    obtain ⟨message, spaced, found⟩ := Option.bind_eq_some_iff.mp found
    split at found
    · cases found
    next filled =>
    cases found
    have whole : behindBlank.takeWhile (· != ':') ++ behindBlank.dropWhile (· != ':') =
        behindBlank := List.takeWhile_append_dropWhile
    obtain rfl := afterColon?_eq_some_iff.mp colon
    obtain ⟨line_digits, rfl⟩ := position?_eq_some_iff.mp row
    obtain ⟨column_digits, rfl⟩ := position?_eq_some_iff.mp place
    obtain ⟨blank, first, after⟩ := afterBlank?_eq_some_iff.mp blanked
    obtain ⟨space, second, rfl⟩ := afterBlank?_eq_some_iff.mp spaced
    have no_colon : ':' ∉ behindBlank.takeWhile (· != ':') := fun among => by
      simpa using List.mem_takeWhile_imp among
    rw [afterColon?_eq_some_iff.mp ended] at whole
    generalize behindBlank.takeWhile (· != ':') = severity at whole no_colon
    dsimp only at after
    rw [after, ← whole]
    exact .intro line_digits column_digits first no_colon second (by simpa using filled)
  · rintro ⟨row, place, first, no_colon, second, some_message⟩
    exact tail?_parts row place first no_colon second some_message

private theorem cut_of_longestCut {row file : List Char} {tail : Tail}
    (found : longestCut row = some (file, tail)) : Cut row file tail := by
  induction row generalizing file with
  | nil => cases found
  | cons c row ih =>
    rw [longestCut] at found
    split at found
    · next before after inside =>
      cases found
      obtain ⟨-, behind, rfl, follows⟩ := ih inside
      exact ⟨List.cons_ne_nil _ _, behind, rfl, follows⟩
    · obtain ⟨_, read, same⟩ := Option.map_eq_some_iff.mp found
      cases same
      exact ⟨List.cons_ne_nil _ _, row, rfl, tail?_eq_some_iff.mp read⟩

private theorem longestCut_of_cut {row file : List Char} {tail : Tail} (cut : Cut row file tail) :
    ∃ longer rest, longestCut row = some (longer, rest) ∧ file.length ≤ longer.length := by
  obtain ⟨some_char, behind, rfl, follows⟩ := cut
  have read := tail?_eq_some_iff.mpr follows
  rcases inside : longestCut behind with _ | ⟨more, rest⟩
  · exact ⟨file, tail, longestCut_behind read inside some_char, Nat.le_refl _⟩
  · refine ⟨file ++ more, rest, longestCut_append inside file, ?_⟩
    rw [List.length_append]
    omega

theorem Cut.unique {row file other : List Char} {tail rest : Tail} (this : Cut row file tail)
    (that : Cut row other rest) (same : file.length = other.length) :
    file = other ∧ tail = rest := by
  obtain ⟨-, behind, rfl, follows⟩ := this
  obtain ⟨-, after, whole, succeeds⟩ := that
  obtain ⟨rfl, rfl⟩ := List.append_inj whole same
  have read := tail?_eq_some_iff.mpr follows
  rw [tail?_eq_some_iff.mpr succeeds] at read
  cases read
  exact ⟨rfl, rfl⟩

theorem longestCut_eq_some_iff {row file : List Char} {tail : Tail} :
    longestCut row = some (file, tail) ↔ Longest row file tail := by
  constructor
  · intro found
    refine ⟨cut_of_longestCut found, fun other rest cut => ?_⟩
    obtain ⟨longer, after, same, bound⟩ := longestCut_of_cut cut
    rw [found] at same
    cases same
    exact bound
  · rintro ⟨cut, longest⟩
    obtain ⟨longer, rest, found, bound⟩ := longestCut_of_cut cut
    have there := cut_of_longestCut found
    have same := longest longer rest there
    obtain ⟨rfl, rfl⟩ := cut.unique there (by omega)
    exact found

/-- What a line contributes. Without a cut that is nothing, and neither is it when a number in the
cut with the longest file is none. -/
inductive Yields (row : List Char) : Option Diagnostic → Prop
  | record {d : Diagnostic} {line column : List Char}
      (longest : Longest row d.file.toList ⟨line, column, d.severity.toList, d.message.toList⟩)
      (row_number : Numeral line d.line) (column_number : Numeral column d.column) :
      Yields row (some d)
  | uncut (no_cut : ∀ file tail, ¬ Cut row file tail) : Yields row none
  | unnumbered {file : List Char} {tail : Tail} (longest : Longest row file tail)
      (no_number : (∀ n, ¬ Numeral tail.line n) ∨ ∀ n, ¬ Numeral tail.column n) : Yields row none

private theorem no_numeral {run : List Char} (missing : number? run = none) (n : UInt32) :
    ¬ Numeral run n := by
  intro numeral
  rw [number?_eq_some_iff.mpr numeral] at missing
  cases missing

theorem yields_ofLine? (row : List Char) : Yields row (ofLine? row) := by
  rcases cut : longestCut row with _ | ⟨file, tail⟩
  · have skipped : ofLine? row = none := by
      rw [ofLine?, cut]
      rfl
    rw [skipped]
    refine .uncut fun file tail there => ?_
    obtain ⟨longer, rest, found, -⟩ := longestCut_of_cut there
    rw [cut] at found
    cases found
  · have longest := longestCut_eq_some_iff.mp cut
    rw [ofLine?, cut, Option.bind_eq_bind, Option.bind_some]
    dsimp only
    rcases line : number? tail.line with _ | n
    · exact .unnumbered longest (.inl (no_numeral line))
    rcases column : number? tail.column with _ | m
    · exact .unnumbered longest (.inr (no_numeral column))
    refine .record ?_ (number?_eq_some_iff.mp line) (number?_eq_some_iff.mp column)
    simpa using longest

theorem Yields.eq_ofLine? {row : List Char} {record : Option Diagnostic}
    (yields : Yields row record) : ofLine? row = record := by
  cases yields with
  | @record d line column longest row_number column_number =>
    have cut := longestCut_eq_some_iff.mpr longest
    have n := number?_eq_some_iff.mpr row_number
    have m := number?_eq_some_iff.mpr column_number
    simp [ofLine?, cut, n, m]
  | uncut no_cut =>
    rcases cut : longestCut row with _ | ⟨file, tail⟩
    · rw [ofLine?, cut]
      rfl
    · exact absurd (cut_of_longestCut cut) (no_cut file tail)
  | @unnumbered file tail longest no_number =>
    have cut := longestCut_eq_some_iff.mpr longest
    rw [ofLine?, cut, Option.bind_eq_bind, Option.bind_some]
    dsimp only
    rcases line : number? tail.line with _ | n
    · rfl
    rcases column : number? tail.column with _ | m
    · rfl
    rcases no_number with none_there | none_there
    · exact absurd (number?_eq_some_iff.mp line) (none_there n)
    · exact absurd (number?_eq_some_iff.mp column) (none_there m)

theorem forall₂_yields_iff {rows : List (List Char)} {records : List (Option Diagnostic)} :
    List.Forall₂ Yields rows records ↔ records = rows.map ofLine? := by
  constructor
  · intro each
    induction each with
    | nil => rfl
    | cons first _ ih => rw [List.map_cons, first.eq_ofLine?, ih]
  · rintro rfl
    induction rows with
    | nil => exact .nil
    | cons row rows ih => exact .cons (yields_ofLine? row) ih

/-- What is read from output are the records of its lines, in their order. Output behind output that
is empty or ends with a line feed is read on its own. -/
theorem parse_reads_lines (text : String) :
    (∀ found, parse text = found ↔ ∃ rows records, Lines text.toList rows ∧
      List.Forall₂ Yields rows records ∧ found = records.filterMap id) ∧
    ∀ front : String, front = "" ∨ front.toList.getLast? = some '\n' →
      parse (front ++ text) = parse front ++ parse text := by
  refine ⟨fun found => ⟨?_, ?_⟩, fun front ended => ?_⟩
  · rintro rfl
    refine ⟨_, _, lines_of _, forall₂_yields_iff.mpr rfl, ?_⟩
    rw [parse, List.filterMap_map]
    rfl
  · rintro ⟨rows, records, split, each, rfl⟩
    rw [forall₂_yields_iff.mp each, parse, split.eq_lines, List.filterMap_map]
    rfl
  · have closed : front.toList = [] ∨ front.toList.getLast? = some '\n' :=
      ended.imp_left String.toList_eq_nil_iff.mpr
    have both := (lines_of front.toList).append closed (lines_of text.toList)
    rw [parse, String.toList_append, both.eq_lines, List.filterMap_append]
    rfl

/-- A line whose longest file stands before a number that fits no word, while the cut with the short
file has numbers. -/
def overflowing : String :=
  "a.cpp:1:2: error: b.cpp:99999999999:1: note: c\r\n"

theorem overflow_skips_line :
    (overflowing = "" ∨ overflowing.toList.getLast? = some '\n') ∧
      tail? ":1:2: error: b.cpp:99999999999:1: note: c".toList =
        some ⟨['1'], ['2'], "error".toList, "b.cpp:99999999999:1: note: c".toList⟩ ∧
      parse overflowing = [] ∧
      parse (overflowing ++ "d.cpp:3:4: warning: e") = [⟨"d.cpp", 3, 4, "warning", "e"⟩] := by
  have ended : overflowing.toList.getLast? = some '\n' := by decide +kernel
  have skipped : parse overflowing = [] := by decide +kernel
  have read : parse "d.cpp:3:4: warning: e" = [⟨"d.cpp", 3, 4, "warning", "e"⟩] := by
    decide +kernel
  have joined := (parse_reads_lines "d.cpp:3:4: warning: e").2 overflowing (.inr ended)
  rw [skipped, read] at joined
  exact ⟨.inr ended, by decide +kernel, skipped, joined⟩

end Buildbox.Diagnostic
