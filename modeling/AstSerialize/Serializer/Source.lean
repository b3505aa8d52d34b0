import AstSerialize.InlineConfig.Overrides
import AstSerialize.Serializer.ImportTable
import AstSerialize.Serializer.Unsupported
import AstSerialize.TypeComment.Report

/-! `serialize_python_file` as a whole, from the text of a file to all that is
returned for it. -/
namespace AstSerialize
open Coding
open SignatureComment (CommentParser)

structure ParseError where
  start : Nat
  message : String

/-- What the file is read with: the vendored parser with the tokens and errors of a text, the same
for the expressions of comments, the tables of characters and the digest. -/
structure Vendored extends FileParser where
  tokens : List Char → Mode → List Token
  errors : List Char → Mode → List ParseError
  comments : CommentParser
  alphanumeric : Alphanumeric
  digest : List Char → String

structure SerializedSource where
  bytes : Bytes
  syntaxErrors : List SyntaxError
  typeIgnoreLines : List IgnoreLine
  mypyIgnoreLines : List IgnoreLine
  importBytes : Bytes
  isPartialPackage : Bool
  usesTemplateStrings : Bool
  sourceHash : String
  mypyComments : List (Nat × String)

/-- What `parse` is called with, the contents of the file included. -/
structure Request where
  path : List Char
  rawText : List Char
  skipFunctionBodies : Bool
  options : Options

namespace Request

variable (v : Vendored) (request : Request)

/-- The text with the newlines of the parser. -/
def text : List Char :=
  if '\r' ∈ request.rawText then universalNewlines request.rawText else request.rawText

def source : SourceText := .ofText request.text

def mode : Mode := (PySourceType.ofPath request.path).asMode

def isStubPackage : Bool := fileName request.path = some "__init__.pyi".toList

def tokens : List Token := v.tokens request.text request.mode

def parseErrors : List SyntaxError :=
  (v.errors request.text request.mode).map fun error =>
    let location := request.source.lineColumn error.start
    ⟨location.line, location.column, error.message, true⟩

def scan : CommentScan :=
  extractTypeCommentsAndIgnores v.alphanumeric v.comments request.source request.options
    (request.tokens v)

def overrides : InlineConfigOverrides := resolveOverrides (request.scan v).mypyComments

/-- Inline configuration can make the serializer skip bodies, not keep it from doing so. -/
def skips : Bool :=
  request.skipFunctionBodies || (request.overrides v).ignoreErrors = some true

def config : Config where
  source := request.source
  tokens := some (request.tokens v)
  typeComments := (request.scan v).typeComments
  options := (request.options.extendAlwaysTrue (request.overrides v).alwaysTrue).extendAlwaysFalse
    (request.overrides v).alwaysFalse
  locationOverride := none
  parser := v.comments.parser

/-- The file as it is parsed, with the statements of the tree. -/
def file (body : List Stmt) : ParsedFile where
  isStubPackage := request.isStubPackage
  body := body
  syntaxErrors := request.parseErrors v ++ (request.scan v).syntaxErrors
  typeIgnoreLines := (request.scan v).typeIgnoreLines
  mypyIgnoreLines := (request.scan v).mypyIgnoreLines

def serialize : Option SerializedSource := do
  let out ← serializeParsed (request.config v) (request.skips v) (request.file v [])
    (v.parseUnchecked request.text request.mode)
  let importBytes ← serializeImports (request.config v) out.imports
  some
    { bytes := out.bytes
      syntaxErrors := out.syntaxErrors
      typeIgnoreLines := out.typeIgnoreLines
      mypyIgnoreLines := out.mypyIgnoreLines
      importBytes := importBytes
      isPartialPackage := out.isPartialPackage
      usesTemplateStrings := out.usesTemplateStrings
      sourceHash := v.digest request.rawText
      mypyComments := (request.scan v).mypyComments }

end Request

section Runs

variable (v : Vendored) (request : Request)

namespace Request

def body : List Stmt :=
  match v.parseUnchecked request.text request.mode with
  | .module body => body
  | .expression _ => []

theorem parsed : v.parseUnchecked request.text request.mode = .module (request.body v) := by
  obtain ⟨stmts, parsed⟩ := v.yieldsModule request.text request.mode
    (PySourceType.asMode_ne_expression _)
  rw [Request.body, parsed]

theorem serialize_eq :
    request.serialize v
      = (serializePythonFile (request.config v) (request.skips v)
          (request.file v (request.body v))).map fun out =>
        { bytes := out.bytes
          syntaxErrors := out.syntaxErrors
          typeIgnoreLines := out.typeIgnoreLines
          mypyIgnoreLines := out.mypyIgnoreLines
          importBytes := encImportTable (out.imports.map (·.toWire (request.config v)))
          isPartialPackage := out.isPartialPackage
          usesTemplateStrings := out.usesTemplateStrings
          sourceHash := v.digest request.rawText
          mypyComments := (request.scan v).mypyComments } := by
  unfold serialize
  rw [request.parsed v]
  change (serializePythonFile (request.config v) (request.skips v)
    (request.file v (request.body v)) >>= _) = _
  cases serializePythonFile (request.config v) (request.skips v)
      (request.file v (request.body v)) with
  | none => rfl
  | some out =>
    rw [Option.bind_eq_bind, Option.bind_some, serializeImports_eq]
    rfl

/-- The ignore comment for the whole module, if there is one. -/
def moduleIgnore : Option IgnoreLine :=
  (request.file v (request.body v)).moduleIgnore (request.config v)

/-- The statements that the serializer comes to. -/
def writtenBody : List Stmt := if (request.moduleIgnore v).isSome then [] else request.body v

end Request

open Request

/-- The bytes of a file hold a tree, and the bytes beside it a table of the imports in the tree: one
entry for each import, in order, with the same names, level and flags, and for a `from` import with
the same location. Levels from `2 ^ 31` on are the only exception. -/
theorem serialize_tables_agree (v : Vendored) (request : Request) :
    match request.serialize v with
    | some out => ∃ (tree : List (WStmt request.options.cacheVersion)) (table : List WImport),
        (∀ r, decModule (out.bytes ++ r) = some (tree, r)) ∧
        (∀ r, decImportTable (out.importBytes ++ r) = some (table, r)) ∧
        (List.Forall₂ WImport.Tells table ((treesStmts tree).flatMap (·.imports)) ↔
          ∀ site ∈ moduleSites (request.config v) (request.skips v) (request.writtenBody v),
            site.fits = true)
    | none =>
      supportsModule (request.config v) (request.skips v) false (request.body v) = false := by
  rw [request.serialize_eq v]
  cases ignored : request.moduleIgnore v with
  | some ignore =>
    obtain ⟨out, run, bytes, imports, -⟩ := serializePythonFile_ignored (request.config v)
      (request.skips v) ignored
    have nothing : request.writtenBody v = [] := by
      rw [writtenBody, ignored]
      rfl
    rw [run]
    refine ⟨[], [], ?_, ?_, ?_⟩
    · intro r
      simp only [bytes]
      exact (reads_module _).run_eq r
    · intro r
      simp only [imports]
      exact (reads_importTable []).run_eq r
    · rw [nothing]
      exact ⟨fun _ _ mem => absurd mem List.not_mem_nil, fun _ => .nil⟩
  | none =>
    have all : request.writtenBody v = request.body v := by
      rw [writtenBody, ignored]
      rfl
    have ran := serializePythonFile_run (request.config v) (request.skips v) ignored
    cases result : serializePythonFile (request.config v) (request.skips v)
        (request.file v (request.body v)) with
    | none =>
      rw [result] at ran
      exact ran
    | some out =>
      rw [result] at ran
      have imports : out.imports.map (·.toWire (request.config v))
          = (moduleSites (request.config v) (request.skips v) (request.body v)).map
            fun site => site.entry.toWire (request.config v) := by
        rw [ran.imports, moduleTrace_imports, List.map_map]
        rfl
      refine ⟨toWireModule (request.config v) (request.skips v) .initial (request.body v),
        out.imports.map (·.toWire (request.config v)), ?_, ?_, ?_⟩
      · intro r
        simp only [ran.bytes]
        exact (reads_module _).run_eq r
      · intro r
        exact (reads_importTable _).run_eq r
      · have here : (request.config v).locationOverride = none := by rfl
        rw [all, imports]
        exact table_tells_iff (request.skips v) here (request.body v)

end Runs

section Ignored

variable (v : Vendored) (request : Request)

namespace Request

/-- The ignore of a comment; one of both kinds counts as that for mypy. -/
def ignoreAt (token : Token) : Option IgnoreLine :=
  (ignoreOf v.alphanumeric request.source request.options TypeComment.mypyIgnoreCodes token).or
    (ignoreOf v.alphanumeric request.source request.options TypeComment.typeIgnoreCodes token)

/-- The line that the first statement starts on, or zero. -/
def firstLine : Nat :=
  match request.body v with
  | [] => 0
  | stmt :: _ => (request.source.lineColumn stmt.range.start).line

/-- The first ignore of a comment on a line above the first statement. -/
def wholeIgnore : Option IgnoreLine :=
  (commentsOf (request.tokens v)).findSome? fun token =>
    if tokenLine request.source token < request.firstLine v then request.ignoreAt v token else none

end Request

open Request

variable {v request}

theorem ignoreOf_line {alphanumeric : Alphanumeric} {src : SourceText} {options : Options}
    {codes : TypeComment → Option (List String)} {token : Token} {ignore : IgnoreLine}
    (found : ignoreOf alphanumeric src options codes token = some ignore) :
    ignore.1 = tokenLine src token := by
  obtain ⟨_, -, rfl⟩ := Option.map_eq_some_iff.mp found
  rfl

theorem ignoreAt_line {token : Token} {ignore : IgnoreLine}
    (found : request.ignoreAt v token = some ignore) :
    ignore.1 = tokenLine request.source token := by
  rcases Option.or_eq_some_iff.mp found with found | ⟨-, found⟩
  · exact ignoreOf_line found
  · exact ignoreOf_line found

theorem ignoreOf_later {comments : List Token} {token : Token}
    (first : ∀ other ∈ comments, tokenLine request.source token < tokenLine request.source other)
    {codes : TypeComment → Option (List String)} {ignore : IgnoreLine} {rest : List IgnoreLine}
    (found : comments.filterMap (ignoreOf v.alphanumeric request.source request.options codes)
      = ignore :: rest) : tokenLine request.source token < ignore.1 := by
  have mem : ignore ∈ comments.filterMap
      (ignoreOf v.alphanumeric request.source request.options codes) := by
    rw [found]
    exact List.mem_cons_self
  obtain ⟨other, inside, here⟩ := List.mem_filterMap.mp mem
  rw [ignoreOf_line here]
  exact first other inside

/-- The earlier one of the heads of the two lists is the first ignore of all. -/
theorem firstIgnore_eq {file : ParsedFile} {comments : List Token}
    (order : comments.Pairwise fun token later =>
      tokenLine request.source token < tokenLine request.source later)
    (typeIgnores : file.typeIgnoreLines = comments.filterMap
      (ignoreOf v.alphanumeric request.source request.options TypeComment.typeIgnoreCodes))
    (mypyIgnores : file.mypyIgnoreLines = comments.filterMap
      (ignoreOf v.alphanumeric request.source request.options TypeComment.mypyIgnoreCodes)) :
    file.firstIgnore = comments.findSome? (request.ignoreAt v) := by
  induction comments with
  | nil =>
    rw [ParsedFile.firstIgnore, typeIgnores, mypyIgnores]
    rfl
  | cons token comments ih =>
    obtain ⟨first, order⟩ := List.pairwise_cons.mp order
    rw [List.filterMap_cons] at typeIgnores mypyIgnores
    rw [List.findSome?_cons, Request.ignoreAt]
    cases mypy : ignoreOf v.alphanumeric request.source request.options
        TypeComment.mypyIgnoreCodes token with
    | some ignore =>
      rw [mypy] at mypyIgnores
      have kept : ∀ other rest, file.typeIgnoreLines = other :: rest → ¬ other.1 < ignore.1 := by
        intro other rest types
        rw [types] at typeIgnores
        rw [ignoreOf_line mypy]
        cases type : ignoreOf v.alphanumeric request.source request.options
            TypeComment.typeIgnoreCodes token with
        | some same =>
          rw [type] at typeIgnores
          obtain ⟨rfl, -⟩ := List.cons.inj typeIgnores
          rw [ignoreOf_line type]
          exact Nat.lt_irrefl _
        | none =>
          rw [type] at typeIgnores
          exact Nat.lt_asymm (ignoreOf_later first typeIgnores.symm)
      rw [ParsedFile.firstIgnore, mypyIgnores, Option.some_or]
      cases types : file.typeIgnoreLines with
      | nil => rfl
      | cons other rest => exact if_neg (kept other rest types)
    | none =>
      rw [mypy] at mypyIgnores
      rw [Option.none_or]
      cases type : ignoreOf v.alphanumeric request.source request.options
          TypeComment.typeIgnoreCodes token with
      | some ignore =>
        rw [type] at typeIgnores
        rw [ParsedFile.firstIgnore, typeIgnores]
        cases mypys : file.mypyIgnoreLines with
        | nil => rfl
        | cons other rest =>
          rw [mypys] at mypyIgnores
          have later := ignoreOf_later first mypyIgnores.symm
          rw [← ignoreOf_line type] at later
          exact if_pos later
      | none =>
        rw [type] at typeIgnores
        exact ih order typeIgnores mypyIgnores

/-- Once a comment is not above the line, none is. -/
theorem findSome_above {comments : List Token}
    (order : comments.Pairwise fun token later =>
      tokenLine request.source token < tokenLine request.source later) (line : Nat) :
    (comments.findSome? fun token =>
      if tokenLine request.source token < line then request.ignoreAt v token else none)
      = match comments.findSome? (request.ignoreAt v) with
        | some ignore => if ignore.1 < line then some ignore else none
        | none => none := by
  induction comments with
  | nil => rfl
  | cons token comments ih =>
    obtain ⟨first, order⟩ := List.pairwise_cons.mp order
    rw [List.findSome?_cons, List.findSome?_cons]
    cases found : request.ignoreAt v token with
    | none =>
      have skip : (if tokenLine request.source token < line then (none : Option IgnoreLine)
          else none) = none := ite_self none
      rw [skip]
      exact ih order
    | some ignore =>
      have here := ignoreAt_line found
      by_cases above : tokenLine request.source token < line
      · simp [above, here]
      · have later : ∀ other ∈ comments, ¬ tokenLine request.source other < line := by
          intro other mem
          have := first other mem
          omega
        have none : (comments.findSome? fun token =>
            if tokenLine request.source token < line then request.ignoreAt v token else none)
              = none := by
          rw [List.findSome?_eq_none_iff]
          intro other mem
          rw [if_neg (later other mem)]
        simp [above, here, none]

/-- Whether a module is ignored is up to the comments above its first statement alone. -/
theorem moduleIgnore_eq (order : CommentsInOrder request.source (request.tokens v)) :
    request.moduleIgnore v = request.wholeIgnore v := by
  have scanned : CommentsScanned v.alphanumeric v.comments request.source request.options
      (commentsOf (request.tokens v)) (request.scan v) := extract_scanned order
  have first := @firstIgnore_eq v request (request.file v (request.body v)) _ order
    scanned.typeIgnores scanned.mypyIgnores
  have line : (request.file v (request.body v)).firstStatementLine (request.config v)
      = request.firstLine v := rfl
  rw [Request.moduleIgnore, ParsedFile.moduleIgnore, first, line]
  exact (findSome_above order (request.firstLine v)).symm

variable (v request)

/-- What is returned for a module that is ignored as a whole. -/
structure ReturnsIgnored (out : SerializedSource) (ignore : IgnoreLine) : Prop where
  bytes : out.bytes = encModule ([] : List (WStmt request.options.cacheVersion))
  importBytes : out.importBytes = encImportTable []
  typeIgnoreLines : out.typeIgnoreLines = []
  mypyIgnoreLines : out.mypyIgnoreLines = []
  syntaxErrors : out.syntaxErrors
    = request.parseErrors v ++ (request.scan v).syntaxErrors ++ moduleIgnoreErrors ignore
  isPartialPackage : out.isPartialPackage = false
  usesTemplateStrings : out.usesTemplateStrings = false

/-- What is returned for any other module. -/
structure ReturnsWritten (out : SerializedSource) : Prop where
  bytes : out.bytes = encModule (toWireModule (request.config v) (request.skips v) .initial
    (request.body v))
  importBytes : out.importBytes = encImportTable
    ((moduleSites (request.config v) (request.skips v) (request.body v)).map
      fun site => site.entry.toWire (request.config v))
  typeIgnoreLines : ∃ skippedLines,
    out.typeIgnoreLines = retainIgnores skippedLines (request.scan v).typeIgnoreLines ∧
    out.mypyIgnoreLines = retainIgnores skippedLines (request.scan v).mypyIgnoreLines
  syntaxErrors : request.parseErrors v ++ (request.scan v).syntaxErrors <+: out.syntaxErrors

variable {v request}

theorem run_taggedInt (i : Int) (s : Serializer) :
    (writeTaggedInt i).run s
      = some ((), { s with bytes := s.bytes ++ encTag .literalInt ++ encodeInt i }) := rfl

theorem serializePythonFile_ignored_eq {c : Config} {skip : Bool} {file : ParsedFile}
    {ignore : IgnoreLine} (ignored : file.moduleIgnore c = some ignore) :
    serializePythonFile c skip file = some
      { bytes := encModule ([] : List (WStmt c.cacheVersion))
        syntaxErrors := file.syntaxErrors ++ moduleIgnoreErrors ignore
        typeIgnoreLines := []
        mypyIgnoreLines := []
        imports := []
        isPartialPackage := false
        usesTemplateStrings := false } := by
  have bytes : encModule ([] : List (WStmt c.cacheVersion))
      = [] ++ encTag .literalInt ++ encodeInt 0 := by
    simp [encModule, encTaggedCount, encTaggedInt, encStmts]
  unfold serializePythonFile
  rw [ignored, bytes]
  simp [run_taggedInt, Serializer.initial]

theorem serializePythonFile_errors {c : Config} {skip : Bool} {file : ParsedFile}
    {out : SerializedFile} (live : file.moduleIgnore c = none)
    (run : serializePythonFile c skip file = some out) :
    file.syntaxErrors <+: out.syntaxErrors := by
  unfold serializePythonFile at run
  rw [live, Option.bind_eq_bind, Option.bind_eq_some_iff] at run
  obtain ⟨⟨⟨⟩, s⟩, -, result⟩ := run
  obtain rfl := Option.some.inj result
  exact List.prefix_append _ _

/-- A module is ignored as a whole exactly if some comment above its first statement has an ignore,
and then for the first such comment. Otherwise everything is written. -/
theorem serialize_ignored_iff (v : Vendored) (request : Request)
    (order : CommentsInOrder request.source (request.tokens v)) :
    match request.wholeIgnore v, request.serialize v with
    | some ignore, some out => ReturnsIgnored v request out ignore
    | some _, none => False
    | none, some out => ReturnsWritten v request out
    | none, none =>
      supportsModule (request.config v) (request.skips v) false (request.body v) = false := by
  rw [← moduleIgnore_eq order, request.serialize_eq v]
  cases ignored : request.moduleIgnore v with
  | some ignore =>
    rw [serializePythonFile_ignored_eq ignored]
    constructor <;> rfl
  | none =>
    have ran := serializePythonFile_run (request.config v) (request.skips v) ignored
    cases result : serializePythonFile (request.config v) (request.skips v)
        (request.file v (request.body v)) with
    | none =>
      rw [result] at ran
      exact ran
    | some out =>
      rw [result] at ran
      constructor
      · exact ran.bytes
      · change encImportTable (out.imports.map _) = _
        rw [ran.imports, moduleTrace_imports, List.map_map]
        rfl
      · exact ⟨_, ran.typeIgnoreLines, ran.mypyIgnoreLines⟩
      · exact serializePythonFile_errors ignored result

def ignoredText : List Char := "# type: ignore\nx\n".toList

/-- A parser that knows one text. -/
def oneVendored : Vendored where
  parseUnchecked text _ :=
    .module (if text = ignoredText then [.expr (.name "x" ⟨15, 16⟩) ⟨15, 16⟩] else [])
  yieldsModule _ _ _ := ⟨_, rfl⟩
  commandMode text mode command := by
    split at command
    · cases command
    · cases command
  tokens text _ :=
    if text = ignoredText then [⟨.comment, ⟨0, 14⟩⟩, ⟨.other, ⟨15, 16⟩⟩] else []
  errors _ _ := []
  comments := SignatureComment.commaParser
  alphanumeric := .basic
  digest _ := ""

def ignoredRequest : Request := ⟨"a.py".toList, ignoredText, false, .default⟩

theorem serialize_ignored_iff_first :
    CommentsInOrder ignoredRequest.source (ignoredRequest.tokens oneVendored) ∧
    match ignoredRequest.wholeIgnore oneVendored, ignoredRequest.serialize oneVendored with
    | some ignore, some out => ReturnsIgnored oneVendored ignoredRequest out ignore
    | some _, none => False
    | none, some out => ReturnsWritten oneVendored ignoredRequest out
    | none, none =>
      supportsModule (ignoredRequest.config oneVendored) (ignoredRequest.skips oneVendored) false
        (ignoredRequest.body oneVendored) = false := by
  have order : CommentsInOrder ignoredRequest.source (ignoredRequest.tokens oneVendored) := by
    decide
  exact ⟨order, serialize_ignored_iff oneVendored ignoredRequest order⟩

end Ignored

end AstSerialize
