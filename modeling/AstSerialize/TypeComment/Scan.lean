import AstSerialize.TypeComment.Parts
import AstSerialize.TypeComment.Record
import AstSerialize.Serializer.File

/-! `extract_type_comments_and_ignores`: one pass over the comments of a file. -/
namespace AstSerialize
open SignatureComment (CommentParser recordTypeComment)

/-- What the pass collects. -/
structure CommentScan where
  typeIgnoreLines : List IgnoreLine
  mypyIgnoreLines : List IgnoreLine
  typeComments : Nat → Option ParsedTypeComment
  mypyComments : List (Nat × String)
  syntaxErrors : List SyntaxError

namespace CommentScan

def empty : CommentScan := ⟨[], [], fun _ => none, [], []⟩

def pushError (scan : CommentScan) (location : LineColumn) (message : String) : CommentScan :=
  { scan with
    syntaxErrors := scan.syntaxErrors ++ [⟨location.line, location.column, message, false⟩] }

def insertComment (scan : CommentScan) (line : Nat) (comment : ParsedTypeComment) : CommentScan :=
  { scan with typeComments := fun n => if n = line then some comment else scan.typeComments n }

end CommentScan

/-- The pass with what the directives of the current comment leave. -/
structure LineScan where
  scan : CommentScan
  seenTypeIgnore : Bool
  seenMypyIgnore : Bool

/-- One round over the directives of a comment. -/
def recordDirective (parser : CommentParser) (location : LineColumn) (state : LineScan) :
    TypeComment → LineScan
  | .invalidIgnore isMypy =>
    let message := "Invalid \"" ++ (if isMypy then "mypy" else "type") ++ ": ignore\" comment"
    { state with scan := state.scan.pushError location message }
  | .typeIgnore errorCodes =>
    if state.seenTypeIgnore then
      { state with scan := state.scan.pushError location "Multiple type ignores on the same line" }
    else
      { state with
        scan := { state.scan with
          typeIgnoreLines := state.scan.typeIgnoreLines ++ [(location.line, errorCodes)] }
        seenTypeIgnore := true }
  | .mypyIgnore errorCodes =>
    if state.seenMypyIgnore then
      { state with scan := state.scan.pushError location "Multiple mypy ignores on the same line" }
    else
      { state with
        scan := { state.scan with
          mypyIgnoreLines := state.scan.mypyIgnoreLines ++ [(location.line, errorCodes)] }
        seenMypyIgnore := true }
  | .typeAnnotationText text =>
    if (state.scan.typeComments location.line).isSome then
      { state with scan := state.scan.pushError location "Multiple type comments on the same line" }
    else
      { state with scan := state.scan.insertComment location.line (recordTypeComment parser text) }

/-- The inline configuration of a comment at the start of its line. Ignores are left out, which are
collected elsewhere. -/
def inlineConfigText (column : Nat) (commentText : List Char) : Option String :=
  if column = 1 then
    match "# mypy:".toList.isPrefixOf? commentText with
    | none => none
    | some afterMypy =>
      let trimmed := trimText afterMypy
      let isIgnore := trimmed = "ignore".toList || "ignore[".toList.isPrefixOf trimmed
        || "ignore ".toList.isPrefixOf trimmed
      if !trimmed.isEmpty && !isIgnore then some (.ofList trimmed) else none
  else none

section Scan

variable (alphanumeric : Alphanumeric) (parser : CommentParser) (src : SourceText)
  (options : Options)

def commentText (token : Token) : List Char := slice src.text token.range.start token.range.stop

/-- On a line of its own a comment counts up to its first unrecognised part. -/
def skipCommented (token : Token) : Bool :=
  let location := src.lineColumn token.range.start
  let beforeComment :=
    slice src.text (src.lineIndex.lineStart location.line src.text) token.range.start
  trimText beforeComment = [] || options.cacheVersion < cvFullTypeComments

/-- The round of the loop for one comment. -/
def scanComment (scan : CommentScan) (token : Token) : CommentScan :=
  let location := src.lineColumn token.range.start
  let comment := commentText src token
  let scan :=
    match inlineConfigText location.column comment with
    | some text => { scan with mypyComments := scan.mypyComments ++ [(location.line, text)] }
    | none => scan
  match parseTypeCommentsFull alphanumeric comment (skipCommented src options token) with
  | none => scan
  | some parts => (parts.foldl (recordDirective parser location) ⟨scan, false, false⟩).scan

def extractTypeCommentsAndIgnores (tokens : List Token) : CommentScan :=
  tokens.foldl (fun scan token =>
    if token.kind = .comment then scanComment alphanumeric parser src options scan token else scan)
    .empty

end Scan

section Configurations

variable {alphanumeric : Alphanumeric} {parser : CommentParser} {src : SourceText}
  {options : Options}

theorem recordDirective_mypyComments (location : LineColumn) (state : LineScan)
    (directive : TypeComment) :
    (recordDirective parser location state directive).scan.mypyComments
      = state.scan.mypyComments := by
  cases directive with
  | invalidIgnore isMypy => rfl
  | typeIgnore errorCodes =>
    cases seen : state.seenTypeIgnore <;> simp [recordDirective, CommentScan.pushError, seen]
  | mypyIgnore errorCodes =>
    cases seen : state.seenMypyIgnore <;> simp [recordDirective, CommentScan.pushError, seen]
  | typeAnnotationText text =>
    cases seen : (state.scan.typeComments location.line).isSome <;>
      simp [recordDirective, CommentScan.pushError, CommentScan.insertComment, seen]

theorem foldl_mypyComments (location : LineColumn) (directives : List TypeComment)
    (state : LineScan) :
    (directives.foldl (recordDirective parser location) state).scan.mypyComments
      = state.scan.mypyComments := by
  induction directives generalizing state with
  | nil => rfl
  | cons directive directives ih => rw [List.foldl_cons, ih, recordDirective_mypyComments]

/-- The line and the text that a comment adds to the inline configuration. -/
def inlineConfigOf (src : SourceText) (token : Token) : Option (Nat × String) :=
  let location := src.lineColumn token.range.start
  (inlineConfigText location.column (commentText src token)).map (location.line, ·)

theorem scanComment_mypyComments (scan : CommentScan) (token : Token) :
    (scanComment alphanumeric parser src options scan token).mypyComments
      = scan.mypyComments ++ (inlineConfigOf src token).toList := by
  cases config : inlineConfigText (src.lineColumn token.range.start).column (commentText src token)
  all_goals
    cases directives : parseTypeCommentsFull alphanumeric (commentText src token)
      (skipCommented src options token) <;>
      simp [scanComment, inlineConfigOf, config, directives, foldl_mypyComments]

/-- Over the whole file each comment adds its own configuration. -/
theorem extract_mypyComments (tokens : List Token) :
    (extractTypeCommentsAndIgnores alphanumeric parser src options tokens).mypyComments
      = (tokens.filter (·.kind = .comment)).filterMap (inlineConfigOf src) := by
  have general (scan : CommentScan) :
      (tokens.foldl (fun scan token => if token.kind = .comment then
          scanComment alphanumeric parser src options scan token else scan) scan).mypyComments
        = scan.mypyComments
          ++ (tokens.filter (·.kind = .comment)).filterMap (inlineConfigOf src) := by
    induction tokens generalizing scan with
    | nil => simp
    | cons token tokens ih =>
      rw [List.foldl_cons, ih]
      by_cases comment : token.kind = .comment
      · cases config : inlineConfigOf src token <;>
          simp [comment, scanComment_mypyComments, config]
      · simp [comment]
  exact general .empty

end Configurations

end AstSerialize
