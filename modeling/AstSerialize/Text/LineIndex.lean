import AstSerialize.Coding.Utf8
import Mathlib.Data.List.GetD

/-! The vendored line index and the per-line tables of the serializer. Texts
are lists of code points; offsets count bytes of the UTF-8 form. -/
namespace AstSerialize
open Coding Coding.Utf8

/-- `TextRange`: byte offsets into the source text. -/
structure TextRange where
  start : Nat
  stop : Nat
  deriving DecidableEq, Repr

def bom : Char := '\uFEFF'

/-- `&text[start..stop]`. -/
def slice (text : List Char) (start stop : Nat) : List Char :=
  takeBytes (stop - start) (dropBytes start text)

/-- Line and column, both 1-based. -/
structure LineColumn where
  line : Nat
  column : Nat
  deriving DecidableEq, Repr

structure LineIndex where
  lineStarts : List Nat
  isAscii : Bool
  deriving DecidableEq, Repr

namespace LineIndex

/-- A line starts after each `\n` and after each `\r` that no `\n` follows. -/
def lineStartsFrom : Nat → List Char → List Nat
  | _, [] => []
  | offset, c :: rest =>
    if c = '\n' ∨ (c = '\r' ∧ rest.head? ≠ some '\n') then
      (offset + c.utf8Size) :: lineStartsFrom (offset + c.utf8Size) rest
    else lineStartsFrom (offset + c.utf8Size) rest

def fromSourceText (text : List Char) : LineIndex where
  lineStarts := 0 :: lineStartsFrom 0 text
  isAscii := text.all Utf8.isAscii

/-- The 1-based line of an offset; the binary search finds the last start at or before it. -/
def lineIndex (index : LineIndex) (offset : Nat) : Nat :=
  index.lineStarts.countP (· ≤ offset)

def lineStart (index : LineIndex) (line : Nat) (text : List Char) : Nat :=
  let row := line - 1
  if row = index.lineStarts.length then byteLen text else index.lineStarts.getD row 0

def charactersBetween (index : LineIndex) (start stop : Nat) (text : List Char) : Nat :=
  if index.isAscii then stop - start else (slice text start stop).length

def lineColumn (index : LineIndex) (offset : Nat) (text : List Char) : LineColumn :=
  let line := index.lineIndex offset
  let characterOffset := index.charactersBetween (index.lineStart line text) offset text + 1
  -- a column is at least 1, also after the subtraction
  let column := if line - 1 = 0 ∧ text.head? = some bom then max 1 (characterOffset - 1)
    else characterOffset
  ⟨line, column⟩

end LineIndex

/-- `str::lines`: a final line break opens no further line. -/
def lines : List Char → List (List Char)
  | [] => []
  | c :: rest =>
    if c = '\n' then [] :: lines rest
    else match lines rest with
      | [] => [[c]]
      | line :: others => (c :: line) :: others

/-- The source text with the tables `serialize_python_file` builds from it. -/
structure SourceText where
  text : List Char
  lineIndex : LineIndex
  isAllAscii : Bool
  linesWithNonAscii : List Bool
  indexed : lineIndex = LineIndex.fromSourceText text
  ascii : isAllAscii = text.all isAscii
  perLine : linesWithNonAscii =
    if isAllAscii then [] else (lines text).map fun line => !line.all isAscii

def SourceText.ofText (text : List Char) : SourceText where
  text := text
  lineIndex := .fromSourceText text
  isAllAscii := text.all isAscii
  linesWithNonAscii := if text.all isAscii then [] else
    (lines text).map fun line => !line.all isAscii
  indexed := rfl
  ascii := rfl
  perLine := rfl

/-- `\r\n` and `\r` become `\n`. -/
def universalNewlines : List Char → List Char
  | [] => []
  | '\r' :: '\n' :: rest => '\n' :: universalNewlines rest
  | c :: rest => (if c = '\r' then '\n' else c) :: universalNewlines rest

theorem universalNewlines_no_return (text : List Char) : '\r' ∉ universalNewlines text := by
  induction text using universalNewlines.induct with
  | case1 => exact List.not_mem_nil
  | case2 rest ih =>
    rw [universalNewlines]
    exact List.not_mem_cons_of_ne_of_not_mem (by decide) ih
  | case3 c rest _ ih =>
    rw [universalNewlines]
    · refine List.not_mem_cons_of_ne_of_not_mem ?_ ih
      split
      · decide
      case isFalse other => exact fun h => other h.symm
    · assumption

section Position

/-! What a position is, for a reader of the text: the text before it and the text after it. -/

/-- The part of the current line before the position. -/
def currentLine (pre : List Char) : List Char := pre.rtakeWhile (· ≠ '\n')

/-- The part of the current line after the position. -/
def restOfLine (post : List Char) : List Char := post.takeWhile (· ≠ '\n')

/-- The 1-based line. -/
def lineNumber (pre : List Char) : Nat := pre.count '\n' + 1

/-- The number of code points since the start of the line; a byte order mark is not counted. -/
def columnNumber (pre : List Char) : Nat :=
  if '\n' ∉ pre ∧ pre.head? = some bom then pre.length - 1 else (currentLine pre).length

theorem currentLine_suffix (pre : List Char) : ∃ before, before ++ currentLine pre = pre :=
  List.rtakeWhile_suffix (fun c => decide (c ≠ '\n')) pre

theorem currentLine_concat_newline (pre : List Char) : currentLine (pre ++ ['\n']) = [] :=
  List.rtakeWhile_concat_neg _ _ _ (by decide)

theorem currentLine_concat (pre : List Char) (c : Char) (other : c ≠ '\n') :
    currentLine (pre ++ [c]) = currentLine pre ++ [c] :=
  List.rtakeWhile_concat_pos _ _ _ (by simpa using other)

theorem currentLine_of_one_line (pre : List Char) (one : '\n' ∉ pre) : currentLine pre = pre := by
  rw [currentLine, List.rtakeWhile_eq_self_iff]
  intro c hc
  simp only [decide_eq_true_eq]
  rintro rfl
  exact one hc

theorem currentLine_cons_newline (pre : List Char) :
    currentLine ('\n' :: pre) = currentLine pre := by
  induction pre using List.reverseRecOn with
  | nil => exact currentLine_concat_newline []
  | append_singleton pre c ih =>
    rw [← List.cons_append]
    by_cases newline : c = '\n'
    · rw [newline, currentLine_concat_newline, currentLine_concat_newline]
    · rw [currentLine_concat _ c newline, currentLine_concat _ c newline, ih]

theorem currentLine_cons (pre : List Char) (c : Char) (more : '\n' ∈ pre) :
    currentLine (c :: pre) = currentLine pre := by
  induction pre using List.reverseRecOn with
  | nil => exact absurd more List.not_mem_nil
  | append_singleton pre d ih =>
    rw [← List.cons_append]
    by_cases newline : d = '\n'
    · rw [newline, currentLine_concat_newline, currentLine_concat_newline]
    · have earlier : '\n' ∈ pre := by
        rcases List.mem_append.mp more with h | h
        · exact h
        · exact absurd (List.mem_singleton.mp h).symm newline
      rw [currentLine_concat _ d newline, currentLine_concat _ d newline, ih earlier]

end Position

section Lines

theorem no_return_cons {c : Char} {s : List Char} (noReturn : '\r' ∉ c :: s) :
    c ≠ '\r' ∧ '\r' ∉ s := by
  rw [List.mem_cons, not_or] at noReturn
  exact ⟨fun h => noReturn.1 h.symm, noReturn.2⟩

theorem lineStartsFrom_append (offset : Nat) (pre post : List Char) (noReturn : '\r' ∉ pre) :
    LineIndex.lineStartsFrom offset (pre ++ post) = LineIndex.lineStartsFrom offset pre
      ++ LineIndex.lineStartsFrom (offset + byteLen pre) post := by
  induction pre generalizing offset with
  | nil => rfl
  | cons c pre ih =>
    obtain ⟨other, tail⟩ := no_return_cons noReturn
    have rest := ih (offset + c.utf8Size) tail
    simp only [List.cons_append, LineIndex.lineStartsFrom, other, false_and, or_false, rest,
      byteLen_cons, Nat.add_assoc]
    split <;> rfl

theorem lineStartsFrom_mem (offset x : Nat) (s : List Char)
    (hx : x ∈ LineIndex.lineStartsFrom offset s) : offset < x ∧ x ≤ offset + byteLen s := by
  induction s generalizing offset with
  | nil => exact absurd hx List.not_mem_nil
  | cons c s ih =>
    have pos := c.utf8Size_pos
    rw [byteLen_cons]
    rw [LineIndex.lineStartsFrom] at hx
    split at hx
    · rcases List.mem_cons.mp hx with rfl | hx
      · omega
      · have := ih _ hx
        omega
    · have := ih _ hx
      omega

theorem lineStartsFrom_length (offset : Nat) (s : List Char) (noReturn : '\r' ∉ s) :
    (LineIndex.lineStartsFrom offset s).length = s.count '\n' := by
  induction s generalizing offset with
  | nil => rfl
  | cons c s ih =>
    obtain ⟨other, tail⟩ := no_return_cons noReturn
    rw [LineIndex.lineStartsFrom, List.count_cons]
    simp only [other, false_and, or_false, beq_iff_eq]
    split
    · rw [List.length_cons, ih _ tail]
    · rw [ih _ tail, Nat.add_zero]

/-- The start of the current line, as an offset. -/
theorem lineStarts_current (offset : Nat) (pre : List Char) (noReturn : '\r' ∉ pre) :
    (offset :: LineIndex.lineStartsFrom offset pre).getD (pre.count '\n') 0
      + byteLen (currentLine pre) = offset + byteLen pre := by
  induction pre using List.reverseRecOn with
  | nil => rfl
  | append_singleton pre c ih =>
    have ⟨early, late⟩ : '\r' ∉ pre ∧ c ≠ '\r' := by
      rw [List.mem_append, not_or, List.mem_singleton] at noReturn
      exact ⟨noReturn.1, fun h => noReturn.2 h.symm⟩
    have count := lineStartsFrom_length offset pre early
    have tail : LineIndex.lineStartsFrom offset (pre ++ [c]) = LineIndex.lineStartsFrom offset pre
        ++ if c = '\n' then [offset + byteLen pre + c.utf8Size] else [] := by
      rw [lineStartsFrom_append offset pre [c] early]
      simp only [LineIndex.lineStartsFrom, late, false_and, or_false]
    by_cases newline : c = '\n'
    · subst c
      rw [tail, currentLine_concat_newline, List.count_append, if_pos rfl]
      rw [show List.count '\n' ['\n'] = 1 from rfl, List.getD_cons_succ, ← count,
        List.getD_append_right _ _ _ _ (Nat.le_refl _), Nat.sub_self]
      simp only [List.getD_cons_zero, byteLen_nil, byteLen_append, byteLen_cons]
      omega
    · have sameLine := ih early
      have noMore : List.count '\n' [c] = 0 := by
        rw [List.count_eq_zero, List.mem_singleton]
        exact fun h => newline h.symm
      rw [tail, currentLine_concat pre c newline, List.count_append, if_neg newline, noMore,
        List.append_nil, Nat.add_zero, byteLen_append, byteLen_append]
      omega

theorem lines_current (pre post : List Char) :
    (lines (pre ++ post)).getD (pre.count '\n') [] = currentLine pre ++ restOfLine post := by
  induction pre with
  | nil =>
    cases post with
    | nil => rfl
    | cons c post =>
      induction post generalizing c with
      | nil =>
        by_cases newline : c = '\n'
        · subst c
          rfl
        · simp [lines, restOfLine, currentLine, newline]
      | cons d post ih =>
        have next := ih d
        by_cases newline : c = '\n'
        · subst c
          rfl
        · simp only [List.nil_append, List.count_nil] at next ⊢
          rw [lines, if_neg newline]
          rw [restOfLine, List.takeWhile_cons, if_pos (by simpa using newline)]
          change _ = [] ++ c :: restOfLine (d :: post)
          rw [List.nil_append]
          change _ = [] ++ restOfLine (d :: post) at next
          rw [List.nil_append] at next
          rw [← next]
          cases lines (d :: post) <;> rfl
  | cons c pre ih =>
    by_cases newline : c = '\n'
    · subst c
      rw [List.cons_append, lines, if_pos rfl, List.count_cons_self, List.getD_cons_succ, ih,
        currentLine_cons_newline]
    · have count : (c :: pre).count '\n' = pre.count '\n' := List.count_cons_of_ne newline
      rw [List.cons_append, lines, if_neg newline, count]
      by_cases more : '\n' ∈ pre
      · rw [currentLine_cons pre c more, ← ih]
        obtain ⟨k, hk⟩ : ∃ k, pre.count '\n' = k + 1 :=
          ⟨pre.count '\n' - 1, by have := List.count_pos_iff.mpr more; omega⟩
        rw [hk]
        cases lines (pre ++ post) <;> rfl
      · have zero : pre.count '\n' = 0 := List.count_eq_zero.mpr more
        have oneLine : '\n' ∉ c :: pre := List.not_mem_cons_of_ne_of_not_mem
          (fun h => newline h.symm) more
        rw [zero, currentLine_of_one_line pre more] at ih
        rw [zero, currentLine_of_one_line _ oneLine, List.cons_append, ← ih]
        cases lines (pre ++ post) <;> rfl

end Lines

section Index

variable {pre post : List Char}

theorem lineIndex_at (noReturn : '\r' ∉ pre) :
    (LineIndex.fromSourceText (pre ++ post)).lineIndex (byteLen pre) = lineNumber pre := by
  have starts := lineStartsFrom_append 0 pre post noReturn
  have before : (LineIndex.lineStartsFrom 0 pre).countP (· ≤ byteLen pre) = pre.count '\n' := by
    rw [← lineStartsFrom_length 0 pre noReturn, List.countP_eq_length]
    intro x hx
    have := lineStartsFrom_mem 0 x pre hx
    simp only [decide_eq_true_eq]
    omega
  have after : (LineIndex.lineStartsFrom (0 + byteLen pre) post).countP (· ≤ byteLen pre) = 0 := by
    rw [List.countP_eq_zero]
    intro x hx
    have := lineStartsFrom_mem _ x post hx
    simp only [decide_eq_true_eq]
    omega
  simp only [LineIndex.lineIndex, LineIndex.fromSourceText, List.countP_cons, starts,
    List.countP_append, before, after]
  simp [lineNumber]

theorem lineStart_at (noReturn : '\r' ∉ pre) :
    (LineIndex.fromSourceText (pre ++ post)).lineStart (lineNumber pre) (pre ++ post)
      + byteLen (currentLine pre) = byteLen pre := by
  have starts := lineStartsFrom_append 0 pre post noReturn
  have count := lineStartsFrom_length 0 pre noReturn
  have row : lineNumber pre - 1 = pre.count '\n' := rfl
  have inside : pre.count '\n' < (0 :: LineIndex.lineStartsFrom 0 pre).length := by
    rw [List.length_cons, count]
    exact Nat.lt_succ_self _
  have current := lineStarts_current 0 pre noReturn
  rw [Nat.zero_add] at current
  simp only [LineIndex.lineStart, LineIndex.fromSourceText, row, starts]
  rw [if_neg, ← List.cons_append, List.getD_append _ _ _ _ inside, current]
  rw [List.length_cons, List.length_append]
  rw [List.length_cons] at inside
  omega

/-- The text at the start of the current line. -/
theorem dropBytes_lineStart (noReturn : '\r' ∉ pre) :
    dropBytes ((LineIndex.fromSourceText (pre ++ post)).lineStart (lineNumber pre) (pre ++ post))
      (pre ++ post) = currentLine pre ++ post := by
  obtain ⟨before, split⟩ := currentLine_suffix pre
  have start := @lineStart_at pre post noReturn
  have bytes : byteLen before + byteLen (currentLine pre) = byteLen pre := by
    rw [← byteLen_append, split]
  have cut : (LineIndex.fromSourceText (pre ++ post)).lineStart (lineNumber pre) (pre ++ post)
      = byteLen before := by omega
  have text : pre ++ post = before ++ (currentLine pre ++ post) := by
    rw [← List.append_assoc, split]
  rw [cut, text, dropBytes_byteLen]

theorem charactersBetween_at (noReturn : '\r' ∉ pre) :
    (LineIndex.fromSourceText (pre ++ post)).charactersBetween
      ((LineIndex.fromSourceText (pre ++ post)).lineStart (lineNumber pre) (pre ++ post))
      (byteLen pre) (pre ++ post) = (currentLine pre).length := by
  have start := @lineStart_at pre post noReturn
  rw [LineIndex.charactersBetween]
  split
  case isTrue ascii =>
    have chars : byteLen (currentLine pre) = (currentLine pre).length := by
      apply byteLen_eq_length
      intro c hc
      obtain ⟨before, split⟩ := currentLine_suffix pre
      have inside : c ∈ pre ++ post := by
        rw [← split]
        exact List.mem_append_left _ (List.mem_append_right _ hc)
      exact List.all_eq_true.mp ascii c inside
    omega
  case isFalse =>
    rw [slice, dropBytes_lineStart noReturn, ← start, Nat.add_sub_cancel_left, takeBytes_byteLen]

/-- The index finds the line and the column of every character boundary. -/
theorem lineColumn_at (noReturn : '\r' ∉ pre) :
    (LineIndex.fromSourceText (pre ++ post)).lineColumn (byteLen pre) (pre ++ post)
      = ⟨lineNumber pre, columnNumber pre + 1⟩ := by
  rw [LineIndex.lineColumn, lineIndex_at noReturn]
  simp only [charactersBetween_at noReturn]
  congr 1
  -- the mark is counted by the index on the first line only, except before it
  have firstLine : lineNumber pre - 1 = 0 ↔ '\n' ∉ pre := by
    rw [← List.count_eq_zero]
    rfl
  simp only [firstLine, columnNumber]
  by_cases one : '\n' ∉ pre
  · rw [currentLine_of_one_line pre one]
    cases pre with
    | nil => simp
    | cons c pre =>
      simp only [one, not_false_eq_true, true_and, List.cons_append, List.head?_cons,
        List.length_cons]
      split <;> omega
  · simp only [one, false_and, if_false]

end Index

end AstSerialize
