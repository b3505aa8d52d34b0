import AstSerialize.Serializer.Position

/-! Ignore comments. Those on skipped lines are dropped, and a line is skipped as
a whole as soon as a span of unreachable statements touches it. -/
namespace AstSerialize
open Coding

section Lines

variable (c : Config) (skip : Bool)

/-- Some reachable simple statement that is written is on the line. -/
def LiveLine (stmts : List Stmt) (line : Nat) : Prop :=
  ∃ occ ∈ written skip (moduleOccurrences c.options stmts), ∃ stmt,
    occ.part = .simple stmt ∧ occ.position.scope.unreachable = false ∧
      c.lineOf stmt.range.start ≤ line ∧ line ≤ c.lineOf stmt.range.stop

def Occurrence.deadBlocks (occ : Occurrence) : List (List Stmt) :=
  match occ.part with
  | .block stmts => if occ.position.scope.unreachable then [stmts] else []
  | _ => []

/-- What is stripped from a module, and its unreachable blocks. -/
def deadBlocks (stmts : List Stmt) : List (List Stmt) :=
  (splitModule c.options stmts).2
    :: (written skip (moduleOccurrences c.options stmts)).flatMap (·.deadBlocks)

/-- The line lies between the first line and the last line of the block. -/
def Spans (block : List Stmt) (line : Nat) : Prop :=
  match block with
  | [] => False
  | first :: rest =>
    c.lineOf first.range.start ≤ line ∧ line ≤ c.lineOf (lastStmt first rest).range.stop

variable {c skip}

theorem mem_skippedBlock (block : List Stmt) (line : Nat) :
    line ∈ skippedBlock c true block ↔ Spans c block line := by
  cases block with
  | nil => simp [skippedBlock, Spans]
  | cons first rest =>
    simp only [skippedBlock, Spans, if_true, List.mem_range'_1]
    omega

theorem mem_occurrence_skipped (occ : Occurrence) (line : Nat) :
    line ∈ (occ.trace c).skippedLines ↔ ∃ block ∈ occ.deadBlocks, Spans c block line := by
  rcases occ with ⟨p, part⟩
  cases part with
  | simple stmt => simp [Occurrence.trace, Occurrence.deadBlocks]
  | block stmts =>
    simp only [Occurrence.trace, Occurrence.deadBlocks]
    cases p.scope.unreachable with
    | false => cases stmts <;> simp [skippedBlock]
    | true => simp [mem_skippedBlock]
  | function head =>
    simp only [Occurrence.trace, Occurrence.deadBlocks, getattrTrace]
    split <;> simp

theorem traces_skippedLines (occs : List Occurrence) :
    (traces c skip occs).skippedLines
      = (written skip occs).flatMap fun occ => (occ.trace c).skippedLines := by
  unfold traces
  induction written skip occs with
  | nil => rfl
  | cons occ occs ih =>
    rw [List.map_cons, List.sum_cons, Trace.add_skippedLines, ih, List.flatMap_cons]

/-- The skipped lines are those that a dead block spans. -/
theorem mem_skippedLines (stmts : List Stmt) (line : Nat) :
    line ∈ (moduleTrace c skip .initial stmts).skippedLines ↔
      ∃ block ∈ deadBlocks c skip stmts, Spans c block line := by
  rw [moduleTrace_eq, Trace.add_skippedLines, List.mem_append, mem_skippedBlock,
    traces_skippedLines, List.mem_flatMap, deadBlocks, List.exists_mem_cons_iff]
  apply or_congr_right
  constructor
  · rintro ⟨occ, mem, inside⟩
    obtain ⟨block, dead, spans⟩ := (mem_occurrence_skipped occ line).mp inside
    exact ⟨block, List.mem_flatMap.mpr ⟨occ, mem, dead⟩, spans⟩
  · rintro ⟨block, dead, spans⟩
    obtain ⟨occ, mem, dead⟩ := List.mem_flatMap.mp dead
    exact ⟨occ, mem, (mem_occurrence_skipped occ line).mpr ⟨block, dead, spans⟩⟩

theorem mem_retainIgnores (skippedLines : List Nat) (ignores : List IgnoreLine)
    (ignore : IgnoreLine) :
    ignore ∈ retainIgnores skippedLines ignores ↔
      ignore ∈ ignores ∧ ignore.1 ∉ skippedLines := by
  simp [retainIgnores]

end Lines

section Files

variable (c : Config) (skip : Bool) (file : ParsedFile)

/-- Every ignore comment on a line of live code is returned. -/
structure KeepsIgnores (out : SerializedFile) : Prop where
  typeIgnores : ∀ ignore ∈ file.typeIgnoreLines, LiveLine c skip file.body ignore.1 →
    ignore ∈ out.typeIgnoreLines
  mypyIgnores : ∀ ignore ∈ file.mypyIgnoreLines, LiveLine c skip file.body ignore.1 →
    ignore ∈ out.mypyIgnoreLines

/-- No dead block spans a line with an ignore comment and live code. -/
def DeadBlocksApart : Prop :=
  ∀ ignore ∈ file.typeIgnoreLines ++ file.mypyIgnoreLines, LiveLine c skip file.body ignore.1 →
    ∀ block ∈ deadBlocks c skip file.body, ¬ Spans c block ignore.1

variable {c skip file}

theorem keepsIgnores_iff {out : SerializedFile} (ran : FileRun c skip file out) :
    KeepsIgnores c skip file out ↔ DeadBlocksApart c skip file := by
  have kept (ignores : List IgnoreLine) :
      (∀ ignore ∈ ignores, LiveLine c skip file.body ignore.1 →
        ignore ∈ retainIgnores (moduleTrace c skip .initial file.body).skippedLines ignores) ↔
      ∀ ignore ∈ ignores, LiveLine c skip file.body ignore.1 →
        ∀ block ∈ deadBlocks c skip file.body, ¬ Spans c block ignore.1 := by
    apply forall₂_congr
    intro ignore mem
    apply imp_congr_right
    intro _
    rw [mem_retainIgnores, mem_skippedLines]
    simp [mem]
  have both : DeadBlocksApart c skip file ↔ _ := List.forall_mem_append
  rw [both, ← kept, ← kept, ← ran.typeIgnoreLines, ← ran.mypyIgnoreLines]
  constructor
  · rintro ⟨typeIgnores, mypyIgnores⟩
    exact ⟨typeIgnores, mypyIgnores⟩
  · rintro ⟨typeIgnores, mypyIgnores⟩
    exact ⟨typeIgnores, mypyIgnores⟩

/-- In a module that is not ignored as a whole, the ignore comments on lines of live code are kept
exactly if no dead block spans such a line. -/
theorem serializePythonFile_ignores_iff (c : Config) (skip : Bool) (file : ParsedFile) :
    match serializePythonFile c skip file with
    | some out => file.moduleIgnore c = none →
        (KeepsIgnores c skip file out ↔ DeadBlocksApart c skip file)
    | none => supportsModule c skip false file.body = false := by
  cases ignored : file.moduleIgnore c with
  | some ignore =>
    obtain ⟨out, run, -⟩ := serializePythonFile_ignored c skip ignored
    rw [run]
    intro live
    cases live
  | none =>
    have ran := serializePythonFile_run c skip ignored
    cases result : serializePythonFile c skip file with
    | none =>
      rw [result] at ran
      exact ran
    | some out =>
      rw [result] at ran
      exact fun _ => keepsIgnores_iff ran

end Files

section Counterexample

def sharedLineText : List Char := "assert PY2;x # type: ignore\n".toList

def sharedLineFile : ParsedFile where
  isStubPackage := false
  body := [.assert (.name "PY2" ⟨7, 10⟩) none ⟨0, 10⟩, .expr (.name "x" ⟨11, 12⟩) ⟨11, 12⟩]
  syntaxErrors := []
  typeIgnoreLines := [(1, [])]
  mypyIgnoreLines := []

/-- The statement after the assertion takes its line along. -/
theorem sharedLine_ignore_lost :
    sharedLineFile.moduleIgnore (.plain sharedLineText) = none ∧
    ∃ out, serializePythonFile (.plain sharedLineText) false sharedLineFile = some out ∧
      LiveLine (.plain sharedLineText) false sharedLineFile.body 1 ∧
      (1, []) ∈ sharedLineFile.typeIgnoreLines ∧ out.typeIgnoreLines = [] := by
  have live : sharedLineFile.moduleIgnore (.plain sharedLineText) = none := by decide
  have ran := serializePythonFile_run (.plain sharedLineText) false live
  refine ⟨live, ?_⟩
  cases result : serializePythonFile (.plain sharedLineText) false sharedLineFile with
  | none =>
    rw [result] at ran
    cases ran
  | some out =>
    rw [result] at ran
    refine ⟨out, rfl, ?_, List.mem_singleton.mpr rfl, ?_⟩
    · refine ⟨_, List.mem_singleton.mpr rfl, _, rfl, rfl, ?_⟩
      decide
    · rw [ran.typeIgnoreLines]
      decide

end Counterexample

end AstSerialize
