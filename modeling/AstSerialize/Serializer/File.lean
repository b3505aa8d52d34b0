import AstSerialize.Serializer.Module

/-! `serialize_python_file`, from what the parser and the scan of the comments
return. -/
namespace AstSerialize
open Coding

/-- A line and the error codes of the comment on it. -/
abbrev IgnoreLine := Nat × List String

/-- A parsed file with its `type: ignore` and `mypy: ignore` comments, in the order of the lines. -/
structure ParsedFile where
  isStubPackage : Bool
  body : List Stmt
  syntaxErrors : List SyntaxError
  typeIgnoreLines : List IgnoreLine
  mypyIgnoreLines : List IgnoreLine

structure SerializedFile where
  bytes : Bytes
  syntaxErrors : List SyntaxError
  typeIgnoreLines : List IgnoreLine
  mypyIgnoreLines : List IgnoreLine
  imports : List ImportStatement
  isPartialPackage : Bool
  usesTemplateStrings : Bool

/-- The serializer before it writes. -/
def Serializer.initial : Serializer where
  bytes := []
  imports := []
  inClass := false
  inFunction := false
  currentUnreachable := false
  currentMypyOnly := false
  topLevelGetattr := false
  isEvaluated := true
  extraErrors := []
  skippedLines := []
  usesTemplateStrings := false
  hasSurrogates := false

/-- The configuration for a text without comments and string annotations. -/
def Config.plain (text : List Char) : Config where
  source := .ofText text
  tokens := some []
  typeComments := fun _ => none
  options := .default
  locationOverride := none
  parser := ⟨fun _ => none, by intro _ _ parsed; cases parsed⟩

namespace ParsedFile

/-- On the same line the `mypy: ignore` counts. -/
def firstIgnore (file : ParsedFile) : Option IgnoreLine :=
  match file.typeIgnoreLines, file.mypyIgnoreLines with
  | [], [] => none
  | [], firstMypy :: _ => some firstMypy
  | firstType :: _, [] => some firstType
  | firstType :: _, firstMypy :: _ =>
    if firstType.1 < firstMypy.1 then some firstType else some firstMypy

def firstStatementLine (c : Config) (file : ParsedFile) : Nat :=
  match file.body with
  | [] => 0
  | stmt :: _ => c.lineOf stmt.range.start

/-- The ignore comment before the first statement, which is for the whole module. -/
def moduleIgnore (c : Config) (file : ParsedFile) : Option IgnoreLine :=
  match file.firstIgnore with
  | some ignore => if ignore.1 < file.firstStatementLine c then some ignore else none
  | none => none

end ParsedFile

def moduleIgnoreErrors : IgnoreLine → List SyntaxError
  | (_, []) => []
  | (line, codes) =>
    [⟨line, 0, "Type ignore with error code is not supported for modules; "
      ++ "use `# mypy: disable-error-code=\"" ++ ", ".intercalate codes ++ "\"`", false⟩]

/-- The lines of unreachable statements are left out. -/
def retainIgnores (skippedLines : List Nat) (ignores : List IgnoreLine) : List IgnoreLine :=
  ignores.filter fun ignore => !skippedLines.contains ignore.1

def serializePythonFile (c : Config) (skip : Bool) (file : ParsedFile) : Option SerializedFile := do
  match file.moduleIgnore c with
  | some ignore =>
    let ((), ser) ← (writeTaggedInt 0).run Serializer.initial
    some
      { bytes := ser.bytes
        syntaxErrors := file.syntaxErrors ++ moduleIgnoreErrors ignore ++ ser.extraErrors
        typeIgnoreLines := []
        mypyIgnoreLines := []
        imports := ser.imports
        isPartialPackage := file.isStubPackage && ser.topLevelGetattr
        usesTemplateStrings := ser.usesTemplateStrings }
  | none =>
    let ((), ser) ← (serializeModule c skip file.body).run Serializer.initial
    some
      { bytes := ser.bytes
        syntaxErrors := file.syntaxErrors ++ ser.extraErrors
        typeIgnoreLines := retainIgnores ser.skippedLines file.typeIgnoreLines
        mypyIgnoreLines := retainIgnores ser.skippedLines file.mypyIgnoreLines
        imports := ser.imports
        isPartialPackage := file.isStubPackage && ser.topLevelGetattr
        usesTemplateStrings := ser.usesTemplateStrings }

section Runs

variable (c : Config) (skip : Bool)

def Scope.initial : Scope := ⟨false, false, false, false, true⟩

/-- What a run over a module leaves behind. -/
structure ModuleRun (stmts : List Stmt) (s : Serializer) : Prop where
  supported : supportsModule c skip false stmts = true
  bytes : s.bytes = encModule (toWireModule c skip .initial stmts)
  tracked : s.tracked = Scope.initial.tracked (moduleTrace c skip .initial stmts)

theorem serializeModule_run (stmts : List Stmt) :
    match (serializeModule c skip stmts).run Serializer.initial with
    | some ((), s) => ModuleRun c skip stmts s
    | none => supportsModule c skip false stmts = false := by
  have records := records_module c skip .initial stmts
  change Records _ _ (supportsModule c skip false stmts) _ _ at records
  cases supported : supportsModule c skip false stmts with
  | false =>
    rw [supported] at records
    rw [records.panics 0 Serializer.initial rfl]
  | true =>
    rw [supported] at records
    obtain ⟨s, run, tracked, out⟩ := records.emits 0 Serializer.initial rfl
    rw [run]
    rw [zero_add] at tracked
    exact ⟨supported, out, tracked⟩

/-- What a run over a file that is not ignored returns. -/
structure FileRun (file : ParsedFile) (out : SerializedFile) : Prop where
  supported : supportsModule c skip false file.body = true
  bytes : out.bytes = encModule (toWireModule c skip .initial file.body)
  imports : out.imports = (moduleTrace c skip .initial file.body).imports
  isPartialPackage : out.isPartialPackage =
    (file.isStubPackage && (moduleTrace c skip .initial file.body).topLevelGetattr)
  typeIgnoreLines : out.typeIgnoreLines =
    retainIgnores (moduleTrace c skip .initial file.body).skippedLines file.typeIgnoreLines
  mypyIgnoreLines : out.mypyIgnoreLines =
    retainIgnores (moduleTrace c skip .initial file.body).skippedLines file.mypyIgnoreLines

theorem serializePythonFile_run {file : ParsedFile} (live : file.moduleIgnore c = none) :
    match serializePythonFile c skip file with
    | some out => FileRun c skip file out
    | none => supportsModule c skip false file.body = false := by
  have ran := serializeModule_run c skip file.body
  unfold serializePythonFile
  rw [live]
  cases result : (serializeModule c skip file.body).run Serializer.initial with
  | none =>
    rw [result] at ran
    exact ran
  | some result' =>
    obtain ⟨⟨⟩, s⟩ := result'
    rw [result] at ran
    have trace : s.tracked.trace = moduleTrace c skip .initial file.body := by
      rw [ran.tracked]
    simp only [Option.bind_eq_bind, Option.bind_some]
    exact
      { supported := ran.supported
        bytes := ran.bytes
        imports := congrArg Trace.imports trace
        isPartialPackage := congrArg (fun t => file.isStubPackage && t.topLevelGetattr) trace
        typeIgnoreLines := congrArg (fun t => retainIgnores t.skippedLines file.typeIgnoreLines) trace
        mypyIgnoreLines := congrArg (fun t => retainIgnores t.skippedLines file.mypyIgnoreLines) trace }

/-- An ignored module is written as an empty one. -/
theorem serializePythonFile_ignored {file : ParsedFile} {ignore : IgnoreLine}
    (ignored : file.moduleIgnore c = some ignore) :
    ∃ out, serializePythonFile c skip file = some out ∧
      out.bytes = encModule ([] : List (WStmt c.cacheVersion)) ∧ out.imports = [] ∧
      out.isPartialPackage = false := by
  have written : Emits stmtPort (writeTaggedInt 0) (Scope.initial.tracked 0)
      (encModule ([] : List (WStmt c.cacheVersion))) (Scope.initial.tracked 0) :=
    .congr (emits_taggedInt 0) (by simp [encModule, encTaggedCount, encStmts])
  obtain ⟨s, run, tracked, out⟩ := written Serializer.initial rfl
  have trace : s.tracked.trace = 0 := congrArg Tracked.trace tracked
  unfold serializePythonFile
  rw [ignored]
  simp only [run, Option.bind_eq_bind, Option.bind_some]
  refine ⟨_, rfl, out, congrArg Trace.imports trace, ?_⟩
  have getattr : s.topLevelGetattr = false := congrArg Trace.topLevelGetattr trace
  rw [getattr, Bool.and_false]

end Runs

end AstSerialize
