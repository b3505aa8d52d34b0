import AstSerialize.Serializer.Source

/-! The three ways in which a line may end. -/
namespace AstSerialize

inductive Newline where
  | lf
  | crlf
  | cr
  deriving DecidableEq, Repr

def Newline.chars : Newline → List Char
  | .lf => ['\n']
  | .crlf => ['\r', '\n']
  | .cr => ['\r']

/-- A line without its end. -/
structure Line where
  text : List Char
  noNewline : '\n' ∉ text
  noReturn : '\r' ∉ text

/-- The text of a file; nothing ends its last line. -/
def layout : List (Line × Newline) → Line → List Char
  | [], last => last.text
  | (line, newline) :: lines, last => line.text ++ (newline.chars ++ layout lines last)

def withLf (lines : List (Line × Newline)) : List (Line × Newline) :=
  lines.map fun line => (line.1, .lf)

/-- Right behind an end of `\r` alone there is no `\n`, which it would take along. -/
def Apart : List (Line × Newline) → Line → Prop
  | [], _ => True
  | (_, newline) :: lines, last =>
    (newline = .cr → (layout lines last).head? ≠ some '\n') ∧ Apart lines last

section Texts

theorem universalNewlines_line (line rest : List Char) (noReturn : '\r' ∉ line) :
    universalNewlines (line ++ rest) = line ++ universalNewlines rest := by
  induction line with
  | nil => rfl
  | cons c line ih =>
    obtain ⟨other, tail⟩ := no_return_cons noReturn
    rw [List.cons_append, universalNewlines, if_neg other, ih tail, List.cons_append]
    intro _ same
    exact absurd same other

theorem universalNewlines_lf (rest : List Char) :
    universalNewlines ('\n' :: rest) = '\n' :: universalNewlines rest :=
  universalNewlines_line ['\n'] rest (by decide)

theorem universalNewlines_cr {rest : List Char} (apart : rest.head? ≠ some '\n') :
    universalNewlines ('\r' :: rest) = '\n' :: universalNewlines rest := by
  rw [universalNewlines, if_pos rfl]
  intro rest' _ behind
  rw [behind] at apart
  exact apart rfl

theorem count_universalNewlines_cr (rest : List Char) :
    (universalNewlines ('\r' :: rest)).count '\n' ≤ (universalNewlines rest).count '\n' + 1 := by
  by_cases behind : rest.head? = some '\n'
  · obtain ⟨rest', rfl⟩ := List.head?_eq_some_iff.mp behind
    rw [universalNewlines, universalNewlines_lf, List.count_cons_self]
    omega
  · rw [universalNewlines_cr behind, List.count_cons_self]

theorem count_layout_le (lines : List (Line × Newline)) (last : Line) :
    (universalNewlines (layout lines last)).count '\n' ≤ lines.length := by
  induction lines with
  | nil =>
    have whole := universalNewlines_line last.text [] last.noReturn
    rw [List.append_nil] at whole
    rw [layout, whole, universalNewlines, List.append_nil, List.count_eq_zero.mpr last.noNewline]
    exact Nat.zero_le _
  | cons line lines ih =>
    obtain ⟨line, newline⟩ := line
    rw [layout, universalNewlines_line _ _ line.noReturn, List.count_append,
      List.count_eq_zero.mpr line.noNewline, Nat.zero_add, List.length_cons]
    cases newline with
    | lf =>
      rw [Newline.chars, List.singleton_append, universalNewlines_lf, List.count_cons_self]
      omega
    | crlf =>
      rw [Newline.chars, List.cons_append, List.singleton_append, universalNewlines,
        List.count_cons_self]
      omega
    | cr =>
      have bound := count_universalNewlines_cr (layout lines last)
      rw [Newline.chars, List.singleton_append]
      omega

theorem count_layout_lf (lines : List (Line × Newline)) (last : Line) :
    (layout (withLf lines) last).count '\n' = lines.length := by
  induction lines with
  | nil => exact List.count_eq_zero.mpr last.noNewline
  | cons line lines ih =>
    change (line.1.text ++ '\n' :: layout (withLf lines) last).count '\n' = _
    rw [List.count_append, List.count_eq_zero.mpr line.1.noNewline, List.count_cons_self, ih,
      List.length_cons, Nat.zero_add]

/-- How lines end does not matter exactly as long as no two ends are taken for one. -/
theorem universalNewlines_layout_iff (lines : List (Line × Newline)) (last : Line) :
    universalNewlines (layout lines last) = layout (withLf lines) last ↔ Apart lines last := by
  induction lines with
  | nil =>
    have whole := universalNewlines_line last.text [] last.noReturn
    rw [List.append_nil] at whole
    rw [layout, whole, universalNewlines, List.append_nil]
    exact ⟨fun _ => trivial, fun _ => rfl⟩
  | cons line lines ih =>
    obtain ⟨line, newline⟩ := line
    change _ = line.text ++ '\n' :: layout (withLf lines) last ↔ _
    rw [layout, universalNewlines_line _ _ line.noReturn, List.append_cancel_left_eq, Apart, ← ih]
    cases newline with
    | lf =>
      rw [Newline.chars, List.singleton_append, universalNewlines_lf, List.cons_inj_right]
      exact ⟨fun same => ⟨fun cr => absurd cr (by decide), same⟩, And.right⟩
    | crlf =>
      rw [Newline.chars, List.cons_append, List.singleton_append, universalNewlines,
        List.cons_inj_right]
      exact ⟨fun same => ⟨fun cr => absurd cr (by decide), same⟩, And.right⟩
    | cr =>
      rw [Newline.chars, List.singleton_append]
      by_cases behind : (layout lines last).head? = some '\n'
      · -- an end is lost
        have bound := count_layout_le lines last
        have lines' := count_layout_lf lines last
        obtain ⟨rest, start⟩ := List.head?_eq_some_iff.mp behind
        rw [start] at bound ⊢
        rw [universalNewlines_lf, List.count_cons_self] at bound
        rw [universalNewlines, List.cons_inj_right]
        constructor
        · intro same
          rw [same] at bound
          omega
        · intro apart
          exact absurd rfl (apart.1 rfl)
      · rw [universalNewlines_cr behind, List.cons_inj_right]
        exact ⟨fun same => ⟨fun _ => behind, same⟩, And.right⟩

end Texts

section Requests

theorem Request.text_eq (request : Request) :
    request.text = universalNewlines request.rawText := by
  rw [Request.text]
  split
  case isTrue => rfl
  case isFalse noReturn =>
    have whole := universalNewlines_line request.rawText [] noReturn
    rw [List.append_nil] at whole
    rw [whole, universalNewlines, List.append_nil]

def SerializedSource.withHash (out : SerializedSource) (hash : String) : SerializedSource :=
  { out with sourceHash := hash }

/-- But for its digest nothing is up to the raw text. -/
theorem serialize_text (v : Vendored) (path raw raw' : List Char) (skip : Bool) (options : Options)
    (same : universalNewlines raw = universalNewlines raw') :
    (⟨path, raw, skip, options⟩ : Request).serialize v
      = ((⟨path, raw', skip, options⟩ : Request).serialize v).map (·.withHash (v.digest raw)) := by
  have text : (⟨path, raw, skip, options⟩ : Request).text
      = (⟨path, raw', skip, options⟩ : Request).text := by
    rw [Request.text_eq, Request.text_eq]
    exact same
  rw [Request.serialize_eq, Request.serialize_eq, Option.map_map]
  simp only [Request.body, Request.file, Request.config, Request.skips, Request.overrides,
    Request.scan, Request.parseErrors, Request.tokens, Request.source, Request.mode,
    Request.isStubPackage, text]
  rfl

/-- A file gives the same whichever way each of its lines ends, as long as no two ends are taken for
one; only the digest is that of the file itself. -/
theorem serialize_newlines (v : Vendored) (path : List Char) (lines : List (Line × Newline))
    (last : Line) (skip : Bool) (options : Options) (apart : Apart lines last) :
    (⟨path, layout lines last, skip, options⟩ : Request).serialize v
      = ((⟨path, layout (withLf lines) last, skip, options⟩ : Request).serialize v).map
        (·.withHash (v.digest (layout lines last))) := by
  apply serialize_text
  have plain : Apart (withLf lines) last := by
    induction lines with
    | nil => trivial
    | cons line lines ih => exact ⟨fun cr => absurd cr (by decide), ih apart.2⟩
  have once := (universalNewlines_layout_iff lines last).mpr apart
  have again := (universalNewlines_layout_iff (withLf lines) last).mpr plain
  have idem : withLf (withLf lines) = withLf lines := by
    rw [withLf, withLf, List.map_map]
    rfl
  rw [once, again, idem]

def mixedLines : List (Line × Newline) :=
  [(⟨['x'], by decide, by decide⟩, .crlf), (⟨['y'], by decide, by decide⟩, .cr)]

def mixedLast : Line := ⟨['z'], by decide, by decide⟩

theorem serialize_newlines_mixed :
    Apart mixedLines mixedLast ∧
    (⟨"a.py".toList, layout mixedLines mixedLast, false, .default⟩ : Request).serialize oneVendored
      = ((⟨"a.py".toList, layout (withLf mixedLines) mixedLast, false, .default⟩ :
          Request).serialize oneVendored).map
        (·.withHash (oneVendored.digest (layout mixedLines mixedLast))) := by
  have apart : Apart mixedLines mixedLast := ⟨by decide, by decide, trivial⟩
  exact ⟨apart, serialize_newlines oneVendored "a.py".toList mixedLines mixedLast false .default apart⟩

end Requests

end AstSerialize
