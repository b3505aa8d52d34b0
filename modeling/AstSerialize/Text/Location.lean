import AstSerialize.Text.LineIndex

/-! The locations of the stream. `SourceText.location` computes what
`write_location` writes; `readLocation` is what a reader of the text finds. The
index already counts code points, and the conversion of its columns takes them
for bytes, so the two agree up to the first non-ASCII character of a line. -/
namespace AstSerialize
open Coding Coding.Utf8

/-- The four integers of a location: start, then the differences to the end. -/
structure Location where
  line : Int
  column : Int
  endLine : Int
  endColumn : Int
  deriving DecidableEq, Repr

/-- The largest character boundary at or before an offset, walking backwards. -/
def floorCharBoundary (s : List Char) : Nat → Nat
  | 0 => 0
  | target + 1 => if isCharBoundary s (target + 1) then target + 1 else floorCharBoundary s target

theorem floorCharBoundary_eq (s : List Char) (target : Nat) :
    floorCharBoundary s target = byteLen (takeBytes target s) := by
  induction target with
  | zero => simp [floorCharBoundary]
  | succ target ih =>
    rw [floorCharBoundary]
    split
    case isTrue boundary => exact ((isCharBoundary_iff s _).mp boundary).symm
    case isFalse inside =>
      rw [Bool.not_eq_true] at inside
      rw [ih, takeBytes_succ s target inside]

namespace SourceText

def lineColumn (src : SourceText) (offset : Nat) : LineColumn :=
  src.lineIndex.lineColumn offset src.text

def convertColumnToCodepoint (src : SourceText) (lineNumber byteColumn : Nat) : Nat :=
  let lineIdx := lineNumber - 1
  if src.linesWithNonAscii.getD lineIdx false then
    let lineStartByte := src.lineIndex.lineStart (lineIdx + 1) src.text
    let safeTarget := min (lineStartByte + byteColumn) (byteLen src.text)
    let charBoundary := floorCharBoundary src.text safeTarget
    (slice src.text lineStartByte charBoundary).length
  else byteColumn

/-- The branch of `write_location` for all-ASCII files. -/
def asciiLocation (src : SourceText) (range : TextRange) : Location :=
  let stLoc := src.lineColumn range.start
  let endLoc := src.lineColumn range.stop
  ⟨stLoc.line, (stLoc.column - 1 : Nat), endLoc.line - stLoc.line, endLoc.column - stLoc.column⟩

/-- The branch for all other files. -/
def convertedLocation (src : SourceText) (range : TextRange) : Location :=
  let stLoc := src.lineColumn range.start
  let endLoc := src.lineColumn range.stop
  let stColumn : Int := src.convertColumnToCodepoint stLoc.line stLoc.column
  let endColumn : Int := src.convertColumnToCodepoint endLoc.line endLoc.column
  ⟨stLoc.line, stColumn - 1, endLoc.line - stLoc.line, endColumn - stColumn⟩

def location (src : SourceText) (range : TextRange) : Location :=
  if src.isAllAscii then src.asciiLocation range else src.convertedLocation range

end SourceText

/-- The location a reader finds between two positions, each given by the text before it. -/
def readLocation (preStart preStop : List Char) : Location :=
  ⟨lineNumber preStart, columnNumber preStart, lineNumber preStop - lineNumber preStart,
    columnNumber preStop - columnNumber preStart⟩

/-- A position whose line is ASCII from its start through the character at the position. -/
def asciiThrough (pre post : List Char) : Bool :=
  (currentLine pre ++ post.take 1).all isAscii

/-- A position on a line without any other than ASCII characters. -/
def onAsciiLine (pre post : List Char) : Bool :=
  (currentLine pre ++ restOfLine post).all isAscii

theorem bom_not_ascii : isAscii bom = false := by decide

theorem onAsciiLine_through {pre post : List Char} (ascii : onAsciiLine pre post = true) :
    asciiThrough pre post = true := by
  rw [onAsciiLine, List.all_append, Bool.and_eq_true] at ascii
  rw [asciiThrough, List.all_append, Bool.and_eq_true]
  refine ⟨ascii.1, ?_⟩
  cases post with
  | nil => rfl
  | cons c post =>
    have rest := ascii.2
    by_cases newline : c = '\n'
    · subst c
      rfl
    · rw [restOfLine, List.takeWhile_cons, if_pos (by simpa using newline), List.all_cons,
        Bool.and_eq_true] at rest
      simp [rest.1]

section Columns

variable {src : SourceText} {pre post : List Char}

/-- The table says of a position's line whether it is ASCII. -/
theorem flag_at (text : src.text = pre ++ post) :
    src.linesWithNonAscii.getD (lineNumber pre - 1) false = !onAsciiLine pre post := by
  have current := lines_current pre post
  rw [src.perLine, src.ascii, text]
  have table : ((lines (pre ++ post)).map fun line => !line.all isAscii).getD
      (pre.count '\n') false = !onAsciiLine pre post := by
    rw [onAsciiLine, ← current, show false = !([] : List Char).all isAscii from rfl,
      List.getD_map]
  by_cases ascii : (pre ++ post).all isAscii = true
  · have onLine : onAsciiLine pre post = true := by
      rw [List.all_append, Bool.and_eq_true] at ascii
      obtain ⟨before, split⟩ := currentLine_suffix pre
      rw [onAsciiLine, List.all_append, Bool.and_eq_true]
      constructor
      · have whole := ascii.1
        rw [← split, List.all_append, Bool.and_eq_true] at whole
        exact whole.2
      · rw [List.all_eq_true]
        exact fun c hc => List.all_eq_true.mp ascii.2 c ((List.takeWhile_sublist _).subset hc)
    rw [if_pos ascii, onLine]
    rfl
  · rw [if_neg ascii]
    exact table

theorem lineColumn_of (noReturn : '\r' ∉ src.text) (text : src.text = pre ++ post) :
    src.lineColumn (byteLen pre) = ⟨lineNumber pre, columnNumber pre + 1⟩ := by
  have early : '\r' ∉ pre := by
    intro h
    exact noReturn (text ▸ List.mem_append_left post h)
  rw [SourceText.lineColumn, src.indexed, text, lineColumn_at early]

/-- What the conversion counts on a line with other than ASCII characters. -/
theorem convert_flagged (noReturn : '\r' ∉ src.text) (text : src.text = pre ++ post)
    (flagged : onAsciiLine pre post = false) (column : Nat) :
    src.convertColumnToCodepoint (lineNumber pre) column
      = (takeBytes column (currentLine pre ++ post)).length := by
  have early : '\r' ∉ pre := by
    intro h
    exact noReturn (text ▸ List.mem_append_left post h)
  have drop := @dropBytes_lineStart pre post early
  obtain ⟨before, split⟩ := currentLine_suffix pre
  have start := @lineStart_at pre post early
  have bytes : byteLen before + byteLen (currentLine pre) = byteLen pre := by
    rw [← byteLen_append, split]
  have cut : (LineIndex.fromSourceText (pre ++ post)).lineStart (lineNumber pre) (pre ++ post)
      = byteLen before := by omega
  have whole : pre ++ post = before ++ (currentLine pre ++ post) := by
    rw [← List.append_assoc, split]
  rw [SourceText.convertColumnToCodepoint]
  simp only [flag_at text, flagged, Bool.not_false, if_true]
  rw [src.indexed, text]
  have line : lineNumber pre - 1 + 1 = lineNumber pre := rfl
  rw [line, floorCharBoundary_eq, takeBytes_min, slice, drop, cut, whole, takeBytes_append, byteLen_append,
    Nat.add_sub_cancel_left]
  congr 1
  exact takeBytes_idem _ _

/-- The conversion keeps a column exactly where it has no effect. -/
theorem convert_eq_iff (noReturn : '\r' ∉ src.text) (text : src.text = pre ++ post) :
    src.convertColumnToCodepoint (lineNumber pre) (columnNumber pre + 1) = columnNumber pre + 1
      ↔ asciiThrough pre post = true := by
  cases onLine : onAsciiLine pre post with
  | true =>
    have through := onAsciiLine_through onLine
    rw [SourceText.convertColumnToCodepoint]
    simp only [flag_at text, onLine, through, Bool.not_true, Bool.false_eq_true, if_false]
  | false =>
    rw [convert_flagged noReturn text onLine, takeBytes_length_eq_iff, ← List.all_eq_true]
    by_cases marked : '\n' ∉ pre ∧ pre.head? = some bom
    · -- the mark is counted in bytes and is not ASCII
      obtain ⟨one, head⟩ := marked
      obtain ⟨rest, rfl⟩ : ∃ rest, pre = bom :: rest := List.head?_eq_some_iff.mp head
      rw [asciiThrough, currentLine_of_one_line _ one]
      simp only [List.cons_append, List.take_succ_cons, List.all_cons, bom_not_ascii,
        Bool.false_and, Bool.false_eq_true, and_false]
    · have column : columnNumber pre = (currentLine pre).length := by
        rw [columnNumber, if_neg marked]
      rw [column, List.take_append, List.take_of_length_le (Nat.le_succ _),
        Nat.add_sub_cancel_left, asciiThrough, List.length_append]
      cases post with
      | nil =>
        have long : ¬ (currentLine pre).length + 1 ≤ (currentLine pre).length + 0 := by omega
        rw [onAsciiLine, restOfLine, List.takeWhile_nil] at onLine
        simp only [List.length_nil, long, false_and, List.take_nil, onLine, Bool.false_eq_true]
      | cons c post =>
        have inside : (currentLine pre).length + 1 ≤ (currentLine pre).length
            + (c :: post).length := by
          rw [List.length_cons]
          omega
        simp only [inside, true_and]

end Columns

section Locations

variable {src : SourceText} {preA postA preB postB : List Char}

theorem asciiLocation_eq (noReturn : '\r' ∉ src.text) (start : src.text = preA ++ postA)
    (stop : src.text = preB ++ postB) :
    src.asciiLocation ⟨byteLen preA, byteLen preB⟩ = readLocation preA preB := by
  simp only [SourceText.asciiLocation, lineColumn_of noReturn start, lineColumn_of noReturn stop,
    readLocation, Location.mk.injEq, true_and, Nat.add_sub_cancel]
  omega

/-- The converted location is right exactly when both columns are kept. -/
theorem convertedLocation_eq_iff (noReturn : '\r' ∉ src.text) (start : src.text = preA ++ postA)
    (stop : src.text = preB ++ postB) :
    src.convertedLocation ⟨byteLen preA, byteLen preB⟩ = readLocation preA preB
      ↔ asciiThrough preA postA = true ∧ asciiThrough preB postB = true := by
  rw [← convert_eq_iff noReturn start, ← convert_eq_iff noReturn stop]
  simp only [SourceText.convertedLocation, lineColumn_of noReturn start,
    lineColumn_of noReturn stop, readLocation, Location.mk.injEq, true_and]
  omega

theorem asciiThrough_of_ascii (text : src.text = preA ++ postA) (ascii : src.isAllAscii = true) :
    asciiThrough preA postA = true := by
  rw [src.ascii, text, List.all_append, Bool.and_eq_true] at ascii
  obtain ⟨before, split⟩ := currentLine_suffix preA
  have line := ascii.1
  rw [← split, List.all_append, Bool.and_eq_true] at line
  rw [asciiThrough, List.all_append, line.2, Bool.true_and, List.all_eq_true]
  exact fun c hc => List.all_eq_true.mp ascii.2 c (List.mem_of_mem_take hc)

/-- The location is right exactly when both ends are ASCII through their position. -/
theorem location_eq_iff (noReturn : '\r' ∉ src.text) (start : src.text = preA ++ postA)
    (stop : src.text = preB ++ postB) :
    src.location ⟨byteLen preA, byteLen preB⟩ = readLocation preA preB
      ↔ asciiThrough preA postA = true ∧ asciiThrough preB postB = true := by
  rw [SourceText.location]
  split
  case isTrue ascii =>
    have left := asciiThrough_of_ascii start ascii
    have right := asciiThrough_of_ascii stop ascii
    simp only [asciiLocation_eq noReturn start stop, left, right, and_self]
  case isFalse => exact convertedLocation_eq_iff noReturn start stop

/-- On ASCII lines both branches compute the same location. -/
theorem fast_path_agrees (noReturn : '\r' ∉ src.text) (start : src.text = preA ++ postA)
    (stop : src.text = preB ++ postB) (startLine : onAsciiLine preA postA = true)
    (stopLine : onAsciiLine preB postB = true) :
    src.convertedLocation ⟨byteLen preA, byteLen preB⟩
      = src.asciiLocation ⟨byteLen preA, byteLen preB⟩ := by
  rw [asciiLocation_eq noReturn start stop, convertedLocation_eq_iff noReturn start stop]
  exact ⟨onAsciiLine_through startLine, onAsciiLine_through stopLine⟩

end Locations

end AstSerialize
