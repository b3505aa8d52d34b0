import AstSerialize.Serializer.File

/-! The locations that are written, and those of errors. Past the first character
of a line that is not ASCII they are not those of the text. -/
namespace AstSerialize
open Coding Coding.Utf8

section Bytes

theorem encLocation_injective : Function.Injective encLocation := by
  intro loc loc' same
  have first := reads_loc loc
  rw [same] at first
  exact first.unique (reads_loc loc')

theorem writeLocation_run (c : Config) (range : TextRange) (s : Serializer) :
    ∃ s', (writeLocation c range).run s = some ((), s') ∧
      s'.bytes = s.bytes ++ encLocation (c.location range) := by
  have written : Emits stmtPort (writeLocation c range) s.tracked _ s.tracked :=
    emits_location c range
  obtain ⟨s', run, -, out⟩ := written s rfl
  exact ⟨s', run, out⟩

end Bytes

section Correctness

variable (c : Config) (preA postA preB postB : List Char)

/-- What is written for the range between two positions of the text. -/
structure LocationCorrect (s : Serializer) : Prop where
  written : ∃ s', (writeLocation c ⟨byteLen preA, byteLen preB⟩).run s = some ((), s') ∧
    s'.bytes = s.bytes ++ encLocation (readLocation preA preB)
  nonneg : 0 ≤ (c.location ⟨byteLen preA, byteLen preB⟩).column
  fastPath : onAsciiLine preA postA = true → onAsciiLine preB postB = true →
    c.source.convertedLocation ⟨byteLen preA, byteLen preB⟩
      = c.source.asciiLocation ⟨byteLen preA, byteLen preB⟩

variable {c preA postA preB postB}

/-- The location that is written is that of the text exactly if both lines are ASCII from their
start, a byte order mark included, through the character at the position. -/
theorem writeLocation_correct_iff (noOverride : c.locationOverride = none)
    (noReturn : '\r' ∉ c.source.text) (start : c.source.text = preA ++ postA)
    (stop : c.source.text = preB ++ postB) (s : Serializer) :
    LocationCorrect c preA postA preB postB s ↔
      asciiThrough preA postA = true ∧ asciiThrough preB postB = true := by
  rw [← location_eq_iff noReturn start stop]
  have location : c.location ⟨byteLen preA, byteLen preB⟩
      = c.source.location ⟨byteLen preA, byteLen preB⟩ := by
    rw [Config.location, noOverride]
  obtain ⟨s', run, out⟩ := writeLocation_run c ⟨byteLen preA, byteLen preB⟩ s
  constructor
  · intro correct
    obtain ⟨s₁, run₁, out₁⟩ := correct.written
    rw [run] at run₁
    cases run₁
    rw [out, location] at out₁
    exact encLocation_injective (List.append_cancel_left out₁)
  · intro same
    have read : c.location ⟨byteLen preA, byteLen preB⟩ = readLocation preA preB :=
      location.trans same
    refine ⟨⟨s', run, ?_⟩, ?_, ?_⟩
    · rw [out, read]
    · rw [read]
      exact Int.natCast_nonneg _
    · exact fast_path_agrees noReturn start stop

theorem writeLocation_correct_word :
    LocationCorrect (.plain "ab\ncd".toList) "ab\n".toList "cd".toList "ab\ncd".toList []
      Serializer.initial :=
  (writeLocation_correct_iff rfl (by decide) rfl rfl Serializer.initial).mpr
    ⟨by decide, by decide⟩

/-- An accented letter at the start of a line has column `-1`. -/
theorem accented_column_negative :
    (Config.plain ['é']).location ⟨0, 2⟩ = ⟨1, -1, 0, 1⟩ ∧
    ¬ ∃ s', (writeLocation (.plain ['é']) ⟨0, 2⟩).run Serializer.initial = some ((), s') ∧
      s'.bytes = Serializer.initial.bytes ++ encLocation (readLocation [] ['é']) := by
  have location : (Config.plain ['é']).location ⟨0, 2⟩ = ⟨1, -1, 0, 1⟩ := by decide
  refine ⟨location, ?_⟩
  rintro ⟨s', run, out⟩
  obtain ⟨s₁, run₁, out₁⟩ := writeLocation_run (.plain ['é']) ⟨0, 2⟩ Serializer.initial
  rw [run] at run₁
  cases run₁
  rw [out, location] at out₁
  have columns := congrArg Location.column (encLocation_injective (List.append_cancel_left out₁))
  exact absurd columns (by decide)

end Correctness

section Errors

variable (c : Config) (pre post : List Char) (error : String) (range : TextRange) (blocker : Bool)

/-- The code point column, still 1-based, from which `add_error` subtracts one. -/
def Config.errorColumn (c : Config) (range : TextRange) : Nat :=
  c.source.convertColumnToCodepoint (c.source.lineColumn range.start).line
    (c.source.lineColumn range.start).column

/-- The error that is pushed for a range whose start has the text `pre` before it. -/
structure ErrorCorrect (s : Serializer) : Prop where
  noUnderflow : 1 ≤ c.errorColumn range
  pushed : (addError c error range blocker).run s = some ((), { s with
    extraErrors := s.extraErrors ++ [⟨lineNumber pre, columnNumber pre, error, blocker⟩] })

variable {c pre post error range blocker}

theorem addError_run (s : Serializer) :
    (addError c error range blocker).run s = some ((), { s with
      extraErrors := s.extraErrors
        ++ [⟨c.lineOf range.start, usizePred (c.errorColumn range), error, blocker⟩] }) := rfl

theorem usizePred_of_pos {n : Nat} (pos : 1 ≤ n) : usizePred n = n - 1 := by
  have nonzero : n ≠ 0 := Nat.ne_of_gt pos
  rw [usizePred, if_neg nonzero]

/-- The first character of the line, if there is one, is no wider than the column counts. -/
def lineStartFits (pre post : List Char) : Bool :=
  (currentLine pre ++ post).head?.all fun first => first.utf8Size ≤ columnNumber pre + 1

theorem takeBytes_pos_iff {n : Nat} {s : List Char} (filled : s ≠ []) :
    1 ≤ (takeBytes n s).length ↔ s.head?.all (fun first => first.utf8Size ≤ n) = true := by
  cases s with
  | nil => exact absurd rfl filled
  | cons first rest =>
    rw [List.head?_cons, Option.all_some, decide_eq_true_eq, takeBytes]
    split
    case isTrue fits => simp [fits]
    case isFalse wide => simp [wide]

theorem lineStartFits_of_ascii (through : asciiThrough pre post = true) :
    lineStartFits pre post = true := by
  rw [lineStartFits, Option.all_eq_true]
  intro first there
  rw [asciiThrough, List.all_eq_true] at through
  have kept : first ∈ currentLine pre ++ post.take 1 := by
    cases line : currentLine pre <;> cases post <;> simp_all
  have one := (isAscii_iff first).mp (through first kept)
  simp [one]

/-- Whether the subtraction of `add_error` underflows depends on the start of the line only. -/
theorem errorColumn_pos_iff (noReturn : '\r' ∉ c.source.text) (start : c.source.text = pre ++ post)
    (boundary : range.start = byteLen pre) :
    1 ≤ c.errorColumn range ↔ lineStartFits pre post = true := by
  have located : c.source.lineColumn range.start = ⟨lineNumber pre, columnNumber pre + 1⟩ := by
    rw [boundary]
    exact lineColumn_of noReturn start
  have column : c.errorColumn range
      = c.source.convertColumnToCodepoint (lineNumber pre) (columnNumber pre + 1) := by
    rw [Config.errorColumn, located]
  rw [column]
  cases onLine : onAsciiLine pre post with
  | true =>
    have through := onAsciiLine_through onLine
    have kept := (convert_eq_iff noReturn start).mpr through
    rw [kept, lineStartFits_of_ascii through]
    exact iff_of_true (Nat.succ_le_succ (Nat.zero_le _)) rfl
  | false =>
    have filled : currentLine pre ++ post ≠ [] := by
      intro empty
      rw [List.append_eq_nil_iff] at empty
      rw [onAsciiLine, empty.1, empty.2] at onLine
      cases onLine
    rw [convert_flagged noReturn start onLine, takeBytes_pos_iff filled, lineStartFits]

/-- An error is pushed with its line and column exactly if the line of its start is ASCII, a byte
order mark included, through the character there. -/
theorem addError_correct_iff {raw : List Char} (normalized : c.source.text = universalNewlines raw)
    (start : c.source.text = pre ++ post) (boundary : range.start = byteLen pre)
    (s : Serializer) : ErrorCorrect c pre error range blocker s ↔ asciiThrough pre post = true := by
  have noReturn : '\r' ∉ c.source.text := by
    rw [normalized]
    exact universalNewlines_no_return raw
  have located : c.source.lineColumn range.start = ⟨lineNumber pre, columnNumber pre + 1⟩ := by
    rw [boundary]
    exact lineColumn_of noReturn start
  have line : c.lineOf range.start = lineNumber pre := by
    rw [Config.lineOf, located]
  rw [← convert_eq_iff noReturn start]
  have column : c.errorColumn range
      = c.source.convertColumnToCodepoint (lineNumber pre) (columnNumber pre + 1) := by
    rw [Config.errorColumn, located]
  rw [← column]
  constructor
  · intro correct
    have pushed := correct.pushed
    rw [addError_run, usizePred_of_pos correct.noUnderflow] at pushed
    simp only [Option.some.injEq, Prod.mk.injEq, true_and, Serializer.mk.injEq, and_true,
      List.append_cancel_left_eq, List.cons.injEq, SyntaxError.mk.injEq] at pushed
    have positive := correct.noUnderflow
    omega
  · intro kept
    have positive : 1 ≤ c.errorColumn range := by
      rw [kept]
      exact Nat.succ_le_succ (Nat.zero_le _)
    refine ⟨positive, ?_⟩
    rw [addError_run, usizePred_of_pos positive, line, kept, Nat.add_sub_cancel]

theorem addError_correct_word :
    ErrorCorrect (.plain "ab\ncd".toList) "ab\n".toList "bad" ⟨3, 5⟩ false
      Serializer.initial := by
  have normalized : (Config.plain "ab\ncd".toList).source.text
      = universalNewlines "ab\ncd".toList := by decide
  apply (addError_correct_iff normalized rfl rfl _).mpr
  decide

/-- Before an accented letter at the start of the text the subtraction underflows, and what is left
of it is the largest `usize`. -/
theorem accented_error_underflows :
    (Config.plain ['é']).errorColumn ⟨0, 2⟩ = 0 ∧
    ¬ ErrorCorrect (.plain ['é']) [] "bad" ⟨0, 2⟩ false Serializer.initial ∧
    (addError (.plain ['é']) "bad" ⟨0, 2⟩ false).run Serializer.initial = some ((), {
      Serializer.initial with extraErrors := [⟨1, 2 ^ 64 - 1, "bad", false⟩] }) := by
  have zero : (Config.plain ['é']).errorColumn ⟨0, 2⟩ = 0 := by decide
  refine ⟨zero, ?_, ?_⟩
  · intro correct
    have positive := correct.noUnderflow
    rw [zero] at positive
    exact absurd positive (by decide)
  · rw [addError_run, zero]
    rfl

end Errors

end AstSerialize
