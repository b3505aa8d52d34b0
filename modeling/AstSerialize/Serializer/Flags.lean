import AstSerialize.Serializer.Source
import AstSerialize.Serializer.TreeReports

/-! What is returned beside the tree agrees with the tree: whether a package is
partial, whether template strings are used, and whether an error blocks. -/
namespace AstSerialize
open Coding

section Getattr

variable (c : Config) (skip : Bool)

/-- Outside functions and classes. -/
def Scope.isOutermost (scope : Scope) : Bool := !scope.inClass && !scope.inFunction

variable {c skip}

theorem block_defines (scope : Scope) (fallback : TextRange) (name : Bytes)
    (trees : List (WStmt c.cacheVersion)) :
    (toWireBlock c scope fallback trees).defines name = stmtsDefine name trees := by
  cases trees <;> rfl

theorem optBlock_defines (scope : Scope) {block : List Stmt} (range : TextRange) (name : Bytes)
    {trees : List (WStmt c.cacheVersion)} (length : trees.length = block.length) :
    optBlockDefines name (toWireOptBlock c scope block range trees) = stmtsDefine name trees := by
  cases block with
  | nil =>
    obtain rfl := List.length_eq_zero_iff.mp length
    rfl
  | cons first rest => exact block_defines scope range name trees

theorem synthetic_defines (scope : Scope) (range : TextRange) (synthetic : Option BranchFlags)
    (name : Bytes) :
    optBlockDefines name (toWireSyntheticElse c scope range synthetic) = false := by
  unfold toWireSyntheticElse
  split
  · rfl
  · split <;> rfl

theorem functionDef_defines (scope : Scope) (head : FunctionHead) (comment : FuncComment)
    (body : WBlock c.cacheVersion) (name : Bytes) :
    (toWireFunctionDef c scope head comment body).defines name
      = decide (head.name.bytes = name) := by
  unfold toWireFunctionDef
  cases head.decoratorList <;> rfl

theorem getattrTrace_outermost (scope : Scope) (head : FunctionHead) :
    (getattrTrace scope head).topLevelGetattr
      = (scope.isOutermost && decide (head.name.bytes = utf8 "__getattr__")) := by
  have same : head.name.bytes = utf8 "__getattr__" ↔ head.name.id = "__getattr__" :=
    utf8_injective.eq_iff
  rw [getattrTrace, decide_eq_decide.mpr same]
  change Trace.topLevelGetattr (if (scope.isOutermost && _) = true then _ else _) = _
  split
  case isTrue holds => exact holds.symm
  case isFalse fails => exact (Bool.eq_false_iff.mpr fails).symm

@[simp] theorem blockTrace_getattr (scope : Scope) (block : List Stmt) (items : Trace) :
    (blockTrace c scope block items).topLevelGetattr = items.topLevelGetattr := rfl

@[simp] theorem optBlockTrace_getattr (scope : Scope) (block : List Stmt) :
    (optBlockTrace c scope block (stmtsTrace c skip scope block)).topLevelGetattr
      = (stmtsTrace c skip scope block).topLevelGetattr := by
  cases block <;> rfl

mutual

/-- A statement is noted for `__getattr__` if it defines one outside functions and classes. -/
theorem defines_stmt (scope : Scope) : ∀ stmt : Stmt,
    (stmtTrace c skip scope stmt).topLevelGetattr
      = (scope.isOutermost && (toWireStmt c skip scope stmt).defines (utf8 "__getattr__"))
  | .functionDef head body => by
    have inside : (stmtsTrace c skip scope.enterFunction body).topLevelGetattr = false := by
      rw [defines_stmts scope.enterFunction body, Scope.isOutermost]
      simp [Scope.enterFunction]
    rw [stmtTrace, toWireStmt, functionDef_defines, ← getattrTrace_outermost,
      Trace.add_topLevelGetattr]
    split
    · exact Bool.or_false _
    · rw [blockTrace_getattr, inside, Bool.or_false]
  | .classDef head body => by
    have inside : (stmtsTrace c skip scope.enterClass body).topLevelGetattr = false := by
      rw [defines_stmts scope.enterClass body, Scope.isOutermost]
      simp [Scope.enterClass]
    rw [stmtTrace, blockTrace_getattr, inside]
    exact (Bool.and_false _).symm
  | .if test body clauses range => by
    have missing := @synthetic_defines c scope range (ifFlags c.options test clauses).synthetic
      (utf8 "__getattr__")
    have first := defines_stmts (scope.enterBranch (ifFlags c.options test clauses).main) body
    have rest := defines_clauses scope (ifFlags c.options test clauses).clauses _ missing clauses
    simp only [stmtTrace, toWireStmt, WStmt.defines, Trace.add_topLevelGetattr,
      blockTrace_getattr, block_defines, first, rest, Bool.and_or_distrib_left]
    rfl
  | .while _ body orelse _ | .for _ _ _ body orelse _ => by
    simp only [stmtTrace, toWireStmt, WStmt.defines, WElse.defines, Trace.add_topLevelGetattr,
      blockTrace_getattr, block_defines, defines_stmts scope body, defines_stmts scope orelse,
      Bool.and_or_distrib_left]
  | .with _ _ body _ => by
    simp only [stmtTrace, toWireStmt, WStmt.defines, blockTrace_getattr, block_defines,
      defines_stmts scope body]
  | .try body handlers orelse finalbody _ _ => by
    simp only [stmtTrace, toWireStmt, WStmt.defines, Trace.add_topLevelGetattr,
      blockTrace_getattr, optBlockTrace_getattr, block_defines,
      optBlock_defines _ _ _ (toWireStmts_length ..), defines_stmts scope body,
      defines_handlers scope handlers, defines_stmts scope orelse, defines_stmts scope finalbody,
      Bool.and_or_distrib_left]
  | .match _ cases _ => defines_cases scope _ cases
  | .importFrom module names level isLazy range => by
    simp only [stmtTrace, toWireStmt, toWireImportFrom]
    split <;> exact (Bool.and_false _).symm
  | .import .. | .return .. | .delete .. | .typeAlias .. | .assign .. | .augAssign ..
  | .annAssign .. | .raise .. | .assert .. | .global .. | .nonlocal .. | .expr .. | .pass ..
  | .break .. | .continue .. | .ipyEscapeCommand .. => (Bool.and_false _).symm

theorem defines_stmts (scope : Scope) : ∀ stmts : List Stmt,
    (stmtsTrace c skip scope stmts).topLevelGetattr
      = (scope.isOutermost && stmtsDefine (utf8 "__getattr__") (toWireStmts c skip scope stmts))
  | [] => (Bool.and_false _).symm
  | stmt :: stmts => by
    simp only [stmtsTrace, toWireStmts, stmtsDefine, Trace.add_topLevelGetattr,
      defines_stmt scope stmt, defines_stmts scope stmts, Bool.and_or_distrib_left]

theorem defines_clauses (scope : Scope) (flags : List BranchFlags)
    (synthetic : Option (WBlock c.cacheVersion))
    (missing : optBlockDefines (utf8 "__getattr__") synthetic = false) :
    ∀ clauses : ElifElseClauses,
    (clausesTrace c skip scope flags clauses).topLevelGetattr
      = (scope.isOutermost
        && (elifsDefine (utf8 "__getattr__") (toWireElifs c skip scope flags clauses)
          || optBlockDefines (utf8 "__getattr__")
            (toWireOrelse c skip scope flags synthetic clauses)))
  | .nil => by
    rw [toWireOrelse, missing]
    exact (Bool.and_false _).symm
  | .elif test body range rest => by
    have first := defines_stmts (scope.enterBranch (flags.headD ⟨false, false⟩)) body
    simp only [clausesTrace, toWireElifs, toWireOrelse, elifsDefine, Trace.add_topLevelGetattr,
      blockTrace_getattr, block_defines, first,
      defines_clauses scope flags.tail synthetic missing rest, Bool.or_assoc,
      Bool.and_or_distrib_left]
    rfl
  | .else body range => by
    simp only [clausesTrace, toWireElifs, toWireOrelse, elifsDefine, optBlockDefines,
      blockTrace_getattr, block_defines, Bool.false_or]
    exact defines_stmts (scope.enterBranch (flags.headD ⟨false, false⟩)) body

theorem defines_handlers (scope : Scope) : ∀ handlers : List ExceptHandler,
    (handlersTrace c skip scope handlers).topLevelGetattr
      = (scope.isOutermost
        && handlersDefine (utf8 "__getattr__") (toWireHandlers c skip scope handlers))
  | [] => (Bool.and_false _).symm
  | .mk _ _ body _ :: handlers => by
    simp only [handlersTrace, toWireHandlers, handlersDefine, Trace.add_topLevelGetattr,
      blockTrace_getattr, block_defines, defines_stmts scope body,
      defines_handlers scope handlers, Bool.and_or_distrib_left]

theorem defines_cases (scope : Scope) (flags : List BranchFlags) : ∀ cases : List MatchCase,
    (casesTrace c skip scope flags cases).topLevelGetattr
      = (scope.isOutermost
        && casesDefine (utf8 "__getattr__") (toWireCases c skip scope flags cases))
  | [] => (Bool.and_false _).symm
  | .mk _ _ body _ :: cases => by
    have first := defines_stmts (scope.enterBranch (flags.headD ⟨false, false⟩)) body
    simp only [casesTrace, toWireCases, casesDefine, Trace.add_topLevelGetattr,
      blockTrace_getattr, block_defines, first, defines_cases scope flags.tail cases,
      Bool.and_or_distrib_left]
    rfl

end

end Getattr

section Errors

variable {alphanumeric : Alphanumeric} {parser : SignatureComment.CommentParser}
  {src : SourceText} {options : Options}

theorem pushError_blocks (scan : CommentScan) (location : LineColumn) (message : String) :
    blocks (scan.pushError location message).syntaxErrors = blocks scan.syntaxErrors := by
  rw [CommentScan.pushError, blocks_append]
  exact Bool.or_false _

theorem recordDirective_blocks (location : LineColumn) (state : LineScan)
    (directive : TypeComment) :
    blocks (recordDirective parser location state directive).scan.syntaxErrors
      = blocks state.scan.syntaxErrors := by
  cases directive with
  | invalidIgnore isMypy => exact pushError_blocks ..
  | typeIgnore errorCodes =>
    simp only [recordDirective]
    split
    · exact pushError_blocks ..
    · rfl
  | mypyIgnore errorCodes =>
    simp only [recordDirective]
    split
    · exact pushError_blocks ..
    · rfl
  | typeAnnotationText text =>
    simp only [recordDirective]
    split
    · exact pushError_blocks ..
    · rfl

theorem scanComment_blocks (scan : CommentScan) (token : Token) :
    blocks (scanComment alphanumeric parser src options scan token).syntaxErrors
      = blocks scan.syntaxErrors := by
  have rounds (location : LineColumn) (directives : List TypeComment) (state : LineScan) :
      blocks (directives.foldl (recordDirective parser location) state).scan.syntaxErrors
        = blocks state.scan.syntaxErrors := by
    induction directives generalizing state with
    | nil => rfl
    | cons directive directives ih => rw [List.foldl_cons, ih, recordDirective_blocks]
  cases config : inlineConfigText (src.lineColumn token.range.start).column (commentText src token)
  all_goals
    cases directives : parseTypeCommentsFull alphanumeric (commentText src token)
      (skipCommented src options token) <;>
      simp [scanComment, config, directives, rounds]

/-- No error of a comment blocks. -/
theorem extract_blocks (tokens : List Token) :
    blocks (extractTypeCommentsAndIgnores alphanumeric parser src options tokens).syntaxErrors
      = false := by
  have general (scan : CommentScan) :
      blocks (tokens.foldl (fun scan token => if token.kind = .comment then
          scanComment alphanumeric parser src options scan token else scan) scan).syntaxErrors
        = blocks scan.syntaxErrors := by
    induction tokens generalizing scan with
    | nil => rfl
    | cons token tokens ih =>
      rw [List.foldl_cons, ih]
      split
      · exact scanComment_blocks scan token
      · rfl
  exact general .empty

theorem moduleIgnoreErrors_blocks (ignore : IgnoreLine) :
    blocks (moduleIgnoreErrors ignore) = false := by
  obtain ⟨line, codes⟩ := ignore
  cases codes <;> rfl

end Errors

section Files

variable {c : Config} {skip : Bool} {file : ParsedFile} {out : SerializedFile}

/-- What a file that is not ignored is reported for. -/
theorem serializePythonFile_notes (live : file.moduleIgnore c = none)
    (run : serializePythonFile c skip file = some out) :
    (⟨out.usesTemplateStrings, out.syntaxErrors⟩ : Notes)
      = ⟨false, file.syntaxErrors⟩ + moduleNotes c skip false file.body := by
  unfold serializePythonFile at run
  rw [live, Option.bind_eq_bind, Option.bind_eq_some_iff] at run
  obtain ⟨⟨⟨⟩, s⟩, written, result⟩ := run
  obtain rfl := Option.some.inj result
  have notes := (reports_module false file.body Serializer.initial s rfl written).2
  have fresh : Serializer.initial.notes = 0 := rfl
  rw [fresh, zero_add] at notes
  rw [← notes]
  rfl

end Files

section Requests

variable (v : Vendored) (request : Request)

/-- The values beside the tree, from the tree. -/
structure FlagsAgree (out : SerializedSource) (tree : List (WStmt request.options.cacheVersion)) :
    Prop where
  isPartialPackage : out.isPartialPackage
    = (request.isStubPackage && stmtsDefine (utf8 "__getattr__") tree)
  usesTemplateStrings : out.usesTemplateStrings = stmtsAny WExpr.isTemplate tree
  syntaxErrors : blocks out.syntaxErrors
    = (!(request.parseErrors v).isEmpty || stmtsAny WExpr.isKeyless tree)

variable {v request}

theorem parseErrors_blocks : blocks (request.parseErrors v) = !(request.parseErrors v).isEmpty := by
  rw [Request.parseErrors]
  cases v.errors request.text request.mode <;> rfl

/-- The bytes of a file hold a tree, and the flags beside it say what is in it: a package is partial
if its stub defines `__getattr__` outside functions and classes, template strings are used if the
tree has one, and an error blocks if the parser has one or a comprehension lacks its key. -/
theorem serialize_flags_agree (v : Vendored) (request : Request) :
    match request.serialize v with
    | some out => ∃ tree : List (WStmt request.options.cacheVersion),
        (∀ r, decModule (out.bytes ++ r) = some (tree, r)) ∧ FlagsAgree v request out tree
    | none =>
      supportsModule (request.config v) (request.skips v) false (request.body v) = false := by
  have comments : blocks (request.file v (request.body v)).syntaxErrors
      = !(request.parseErrors v).isEmpty := by
    change blocks (request.parseErrors v ++ (request.scan v).syntaxErrors) = _
    rw [blocks_append, parseErrors_blocks, Request.scan, extract_blocks, Bool.or_false]
  rw [request.serialize_eq v]
  cases ignored : request.moduleIgnore v with
  | some ignore =>
    rw [serializePythonFile_ignored_eq ignored]
    refine ⟨[], (reads_module _).run_eq, ?_, rfl, ?_⟩
    · exact (Bool.and_false _).symm
    · change blocks (_ ++ moduleIgnoreErrors ignore) = _
      rw [blocks_append, comments, moduleIgnoreErrors_blocks]
      rfl
  | none =>
    have ran := serializePythonFile_run (request.config v) (request.skips v) ignored
    cases result : serializePythonFile (request.config v) (request.skips v)
        (request.file v (request.body v)) with
    | none =>
      rw [result] at ran
      exact ran
    | some out =>
      rw [result] at ran
      have notes := serializePythonFile_notes ignored result
      have tells : Tells (moduleNotes (request.config v) (request.skips v) false (request.body v))
          fun p => stmtsAny p
            (toWireModule (request.config v) (request.skips v) .initial (request.body v)) :=
        tells_module .initial (request.body v)
      refine ⟨toWireModule (request.config v) (request.skips v) .initial (request.body v), ?_, ?_,
        ?_, ?_⟩
      · intro r
        simp only [ran.bytes]
        exact (reads_module _).run_eq r
      · change out.isPartialPackage = _
        rw [ran.isPartialPackage, moduleTrace, Trace.add_topLevelGetattr, defines_stmts]
        rfl
      · have templates := congrArg Notes.templates notes
        exact templates.trans tells.templates
      · have errors := congrArg Notes.errors notes
        change out.syntaxErrors = _ at errors
        change blocks out.syntaxErrors = _
        rw [errors, Notes.add_errors, blocks_append, comments]
        exact congrArg _ tells.blocked

end Requests

end AstSerialize
