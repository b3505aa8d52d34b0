import AstSerialize.Serializer.OlderTree
import AstSerialize.Serializer.Source

/-! Serializing at an older cache version, beside serializing at a newer one. -/
namespace AstSerialize
open Coding

section Reachability

/-! What is known of conditions does not depend on the version. -/

variable (o : Options) (v : Nat)

mutual

theorem infer_older : ∀ e : Expr, inferConditionValue (o.older v) e = inferConditionValue o e
  | .unaryOp op operand _ => by
    cases op with
    | not => simp only [inferConditionValue, infer_older operand]
    | _ => rfl
  | .boolOp op values _ => by simp only [inferConditionValue, infers_older values]
  | .booleanLiteral value _ => by cases value <;> rfl
  | .name .. | .attribute .. | .binOp .. | .subscript .. | .noneLiteral .. | .numberLiteral ..
  | .list .. | .dict .. | .tuple .. | .call .. | .ellipsisLiteral .. | .starred ..
  | .stringLiteral .. | .bytesLiteral .. | .named .. | .lambda .. | .ifExp .. | .set ..
  | .listComp .. | .setComp .. | .dictComp .. | .generator .. | .await .. | .yield ..
  | .yieldFrom .. | .compare .. | .fString .. | .tString .. | .slice .. | .ipyEscapeCommand .. =>
    rfl

theorem infers_older : ∀ es : List Expr,
    inferConditionValues (o.older v) es = inferConditionValues o es
  | [] => rfl
  | e :: es => by simp only [inferConditionValues, infer_older e, infers_older es]

end

theorem conditionFlags_older (a : IfReachabilityAnalyzer) (test : Expr) :
    a.conditionFlags (o.older v) test = a.conditionFlags o test := by
  simp only [IfReachabilityAnalyzer.conditionFlags, infer_older]

theorem clauseFlags_older : ∀ (clauses : ElifElseClauses) (a : IfReachabilityAnalyzer),
    a.clauseFlags (o.older v) clauses = a.clauseFlags o clauses
  | .nil, _ | .else .., _ => rfl
  | .elif test _ _ rest, a => by
    simp only [IfReachabilityAnalyzer.clauseFlags, conditionFlags_older, clauseFlags_older rest]

theorem ifFlags_older (test : Expr) (clauses : ElifElseClauses) :
    ifFlags (o.older v) test clauses = ifFlags o test clauses := by
  simp only [ifFlags, conditionFlags_older, clauseFlags_older]

theorem guardValue_older (guard : Option Expr) :
    IfReachabilityAnalyzer.guardValue (o.older v) guard
      = IfReachabilityAnalyzer.guardValue o guard := by
  cases guard with
  | none => rfl
  | some guard => exact infer_older o v guard

theorem caseFlags_older (cases : List MatchCase) (a : IfReachabilityAnalyzer) :
    a.caseFlags (o.older v) cases = a.caseFlags o cases := by
  induction cases generalizing a with
  | nil => rfl
  | cons first cases ih =>
    cases first
    simp only [IfReachabilityAnalyzer.caseFlags, IfReachabilityAnalyzer.matchCaseFlags,
      guardValue_older, ih]

theorem splitModule_older (stmts : List Stmt) :
    splitModule (o.older v) stmts = splitModule o stmts := by
  induction stmts with
  | nil => rfl
  | cons stmt stmts ih =>
    have fails : assertWillAlwaysFail (o.older v) stmt = assertWillAlwaysFail o stmt := by
      cases stmt with
      | «assert» test msg range => simp only [assertWillAlwaysFail, infer_older]
      | _ => rfl
    simp only [splitModule, fails, ih]

end Reachability

section Definitions

variable {c : Config} {v : Nat} (le : (c.older v).cacheVersion ≤ c.cacheVersion) (scope : Scope)

theorem older_optType (isEvaluated : Bool) (type : Option Expr) :
    olderOptType le (type.map (toWireType c isEvaluated))
      = type.map (toWireType (c.older v) isEvaluated) := by
  cases type with
  | none => rfl
  | some type => exact congrArg some (older_type le isEvaluated type)

theorem older_typeParam (kind : Int) (name : Identifier) (bound : Option Expr) (values : List Expr)
    (default : Option Expr) :
    (toWireTypeParam c scope kind name bound values default).older le
      = toWireTypeParam (c.older v) scope kind name bound values default := by
  simp only [toWireTypeParam, WTypeParam.older, older_optType,
    older_types le (older_strings le) values]

theorem older_typeParams (params : List TypeParam) :
    (toWireTypeParams c scope params).map (WTypeParam.older le)
      = toWireTypeParams (c.older v) scope params := by
  induction params with
  | nil => rfl
  | cons param params ih =>
    cases param <;> simp only [toWireTypeParams, List.map_cons, older_typeParam, ih]

theorem older_optTypeParams (params : Option (List TypeParam)) :
    (params.map (toWireTypeParams c scope)).map (List.map (WTypeParam.older le))
      = params.map (toWireTypeParams (c.older v) scope) := by
  cases params with
  | none => rfl
  | some params => exact congrArg some (older_typeParams le scope params)

theorem older_returns (head : FunctionHead) (retComment : Option Expr) :
    olderOptType le (toWireReturns c scope head retComment)
      = toWireReturns (c.older v) scope head retComment := by
  unfold toWireReturns
  cases head.returns with
  | some ret => exact congrArg some (older_type le scope.isEvaluated ret)
  | none =>
    cases retComment with
    | none => rfl
    | some comment => exact congrArg some (older_type le false _)

theorem older_function (head : FunctionHead) (comment : FuncComment)
    {body : WBlock c.cacheVersion} {body' : WBlock (c.older v).cacheVersion}
    (same : body.older le = body') :
    (toWireFunction c scope head comment body).older le
      = toWireFunction (c.older v) scope head comment body' := by
  subst same
  simp only [toWireFunction, WFunction.older, older_parameters, older_optTypeParams, older_returns]
  rfl

theorem older_functionDef (head : FunctionHead) (comment : FuncComment)
    {body : WBlock c.cacheVersion} {body' : WBlock (c.older v).cacheVersion}
    (same : body.older le = body') :
    (toWireFunctionDef c scope head comment body).older le
      = toWireFunctionDef (c.older v) scope head comment body' := by
  unfold toWireFunctionDef
  cases head.decoratorList with
  | nil => exact congrArg WStmt.funcDef (older_function le scope head comment same)
  | cons first rest =>
    simp only [WStmt.older, older_exprs, older_function le scope head comment same]
    rfl

theorem older_classKeywords (keywords : List Keyword) :
    (toWireClassKeywords c scope keywords).map (fun (arg, value) => (arg, value.older le))
      = toWireClassKeywords (c.older v) scope keywords := by
  induction keywords with
  | nil => rfl
  | cons keyword keywords ih =>
    obtain ⟨arg, value⟩ := keyword
    cases arg with
    | none => exact ih
    | some arg => simp only [toWireClassKeywords, List.map_cons, older_expr, ih]

theorem older_classDef (head : ClassHead) {body : WBlock c.cacheVersion}
    {body' : WBlock (c.older v).cacheVersion} (same : body.older le = body') :
    (toWireClassDef c scope head body).older le = toWireClassDef (c.older v) scope head body' := by
  subst same
  simp only [toWireClassDef, WStmt.older, older_exprs, older_optTypeParams, older_classKeywords]
  rfl

theorem older_importFrom (module : Option Identifier) (names : List Alias) (level : UInt32)
    (isLazy : Bool) (range : TextRange) :
    (toWireImportFrom c scope module names level isLazy range).older le
      = toWireImportFrom (c.older v) scope module names level isLazy range := by
  unfold toWireImportFrom
  split <;> rfl

theorem older_assignType (range : TextRange) :
    olderOptType le (toWireAssignType c range) = toWireAssignType (c.older v) range := by
  unfold toWireAssignType
  rw [show (c.older v).assignComment range = c.assignComment range from rfl]
  cases c.assignComment range with
  | none => rfl
  | some comment =>
    cases comment with
    | regular type => exact congrArg some (older_type le false _)
    | _ => rfl

theorem older_valueOrTemp (value : Option Expr) :
    (toWireValueOrTemp c scope value).older le = toWireValueOrTemp (c.older v) scope value := by
  cases value with
  | none => rfl
  | some value => exact older_expr le scope value

theorem older_delTargets (targets : List Expr) (range : TextRange) :
    (toWireDelTargets c scope targets range).older le
      = toWireDelTargets (c.older v) scope targets range := by
  unfold toWireDelTargets
  split
  · exact older_expr le scope _
  · simp only [WExpr.older, older_exprs]
    rfl

theorem older_withItems (items : List WithItem) :
    (toWireWithItems c scope items).map (fun (context, vars) =>
        (context.older le, olderOptExpr le vars))
      = toWireWithItems (c.older v) scope items := by
  induction items with
  | nil => rfl
  | cons item items ih =>
    simp only [toWireWithItems, List.map_cons, older_expr, older_optExpr, ih]

theorem older_handlerName (name : Option Identifier) :
    (toWireHandlerName c name).map (olderHandlerName le) = toWireHandlerName (c.older v) name := by
  cases name <;> rfl

theorem older_block (fallback : TextRange) {items : List (WStmt c.cacheVersion)}
    {items' : List (WStmt (c.older v).cacheVersion)} (same : olderStmts le items = items') :
    (toWireBlock c scope fallback items).older le
      = toWireBlock (c.older v) scope fallback items' := by
  subst same
  cases items <;> rfl

theorem older_optBlock (block : List Stmt) (range : TextRange)
    {items : List (WStmt c.cacheVersion)} {items' : List (WStmt (c.older v).cacheVersion)}
    (same : olderStmts le items = items') :
    olderOptBlock le (toWireOptBlock c scope block range items)
      = toWireOptBlock (c.older v) scope block range items' := by
  unfold toWireOptBlock
  split
  · rfl
  · exact congrArg some (older_block le scope range same)

theorem older_syntheticElse (range : TextRange) (synthetic : Option BranchFlags) :
    olderOptBlock le (toWireSyntheticElse c scope range synthetic)
      = toWireSyntheticElse (c.older v) scope range synthetic := by
  cases synthetic with
  | none => rfl
  | some flags =>
    simp only [toWireSyntheticElse]
    split <;> rfl

end Definitions

section Stmts

variable {c : Config} {v : Nat} (le : (c.older v).cacheVersion ≤ c.cacheVersion) (skip : Bool)

mutual

theorem older_stmt : ∀ (stmt : Stmt) (scope : Scope),
    (toWireStmt c skip scope stmt).older le = toWireStmt (c.older v) skip scope stmt
  | .functionDef head body, scope => by
    simp only [toWireStmt, funcComment_alike (c.older_alike v)]
    apply older_functionDef
    split
    · rfl
    · exact older_block le scope head.range (older_stmts body scope.enterFunction)
  | .classDef head body, scope =>
    older_classDef le scope head
      (older_block le scope head.range (older_stmts body scope.enterClass))
  | .expr value range, scope => congrArg WStmt.expr (older_expr le scope value)
  | .assign targets value range, scope => by
    simp only [toWireStmt, WStmt.older, older_exprs, older_expr, older_assignType]
    rfl
  | .annAssign target ann value range, scope => by
    simp only [toWireStmt, WStmt.older, olderExprs, older_expr, older_valueOrTemp, olderOptType,
      older_type]
    rfl
  | .augAssign target op value range, scope => by
    simp only [toWireStmt, WStmt.older, older_expr]
    rfl
  | .importFrom module names level isLazy range, scope =>
    older_importFrom le scope module names level isLazy range
  | .return value range, scope => by
    simp only [toWireStmt, WStmt.older, older_optExpr]
    rfl
  | .raise exc cause range, scope => by
    simp only [toWireStmt, WStmt.older, older_optExpr]
    rfl
  | .assert test msg range, scope => by
    simp only [toWireStmt, WStmt.older, older_expr, older_optExpr]
    rfl
  | .if test body clauses range, scope => by
    have flags : ifFlags (c.older v).options test clauses = ifFlags c.options test clauses :=
      ifFlags_older c.options v test clauses
    simp only [toWireStmt, WStmt.older, flags, older_expr,
      older_block le _ range (older_stmts body _), older_elifs clauses scope,
      older_orelse (older_syntheticElse le scope range _) clauses scope]
    rfl
  | .while test body orelse range, scope => by
    simp only [toWireStmt, WStmt.older, WElse.older, older_expr,
      older_block le scope range (older_stmts body scope), older_stmts orelse scope]
    rfl
  | .for isAsync target iter body orelse range, scope => by
    simp only [toWireStmt, WStmt.older, WElse.older, older_expr,
      older_block le scope range (older_stmts body scope), older_stmts orelse scope]
    rfl
  | .with isAsync items body range, scope => by
    simp only [toWireStmt, WStmt.older, older_withItems,
      older_block le scope range (older_stmts body scope)]
    rfl
  | .try body handlers orelse finalbody isStar range, scope => by
    simp only [toWireStmt, WStmt.older, older_block le scope range (older_stmts body scope),
      older_handlers handlers, older_optBlock le scope orelse range (older_stmts orelse scope),
      older_optBlock le scope finalbody range (older_stmts finalbody scope)]
    rfl
  | .delete targets range, scope => by
    simp only [toWireStmt, WStmt.older, older_delTargets]
    rfl
  | .match subject cases range, scope => by
    have flags : IfReachabilityAnalyzer.new.caseFlags (c.older v).options cases
        = IfReachabilityAnalyzer.new.caseFlags c.options cases :=
      caseFlags_older c.options v cases .new
    simp only [toWireStmt, WStmt.older, flags, older_expr, older_cases cases scope]
    rfl
  | .typeAlias name typeParams value range, scope => by
    simp only [toWireStmt, WStmt.older, older_expr, older_typeParams]
    rfl
  | .import .., _ | .pass .., _ | .break .., _ | .continue .., _ | .global .., _
  | .nonlocal .., _ | .ipyEscapeCommand .., _ => rfl

theorem older_stmts : ∀ (stmts : List Stmt) (scope : Scope),
    olderStmts le (toWireStmts c skip scope stmts) = toWireStmts (c.older v) skip scope stmts
  | [], _ => rfl
  | stmt :: stmts, scope =>
    congrArg₂ List.cons (older_stmt stmt scope) (older_stmts stmts scope)

theorem older_elifs : ∀ (clauses : ElifElseClauses) (scope : Scope) (flags : List BranchFlags),
    olderElifs le (toWireElifs c skip scope flags clauses)
      = toWireElifs (c.older v) skip scope flags clauses
  | .nil, _, _ | .else .., _, _ => rfl
  | .elif test body range rest, scope, flags => by
    simp only [toWireElifs, olderElifs, older_expr,
      older_block le _ range (older_stmts body (scope.enterBranch (flags.headD ⟨false, false⟩))),
      older_elifs rest scope flags.tail]

theorem older_orelse {synthetic : Option (WBlock c.cacheVersion)}
    {synthetic' : Option (WBlock (c.older v).cacheVersion)}
    (same : olderOptBlock le synthetic = synthetic') :
    ∀ (clauses : ElifElseClauses) (scope : Scope) (flags : List BranchFlags),
      olderOptBlock le (toWireOrelse c skip scope flags synthetic clauses)
        = toWireOrelse (c.older v) skip scope flags synthetic' clauses
  | .nil, _, _ => same
  | .elif _ _ _ rest, scope, flags => older_orelse same rest scope flags.tail
  | .else body range, scope, flags =>
    congrArg some (older_block le _ range
      (older_stmts body (scope.enterBranch (flags.headD ⟨false, false⟩))))

theorem older_handlers : ∀ (handlers : List ExceptHandler) (scope : Scope),
    olderHandlers le (toWireHandlers c skip scope handlers)
      = toWireHandlers (c.older v) skip scope handlers
  | [], _ => rfl
  | .mk type name body range :: handlers, scope => by
    simp only [toWireHandlers, olderHandlers, older_optExpr, older_handlerName,
      older_block le scope range (older_stmts body scope), older_handlers handlers scope]

theorem older_cases : ∀ (cases : List MatchCase) (scope : Scope) (flags : List BranchFlags),
    olderCases le (toWireCases c skip scope flags cases)
      = toWireCases (c.older v) skip scope flags cases
  | [], _, _ => rfl
  | .mk pattern guard body range :: cases, scope, flags => by
    simp only [toWireCases, olderCases, older_pattern, older_optExpr,
      older_block le _ range (older_stmts body (scope.enterBranch (flags.headD ⟨false, false⟩))),
      older_cases cases scope flags.tail]

end

end Stmts

section Supported

/-! Neither do panics nor what is noted beside the tree. -/

variable (c : Config) (v : Nat) (skip : Bool)

theorem blockTrace_older (scope : Scope) (block : List Stmt) (items : Trace) :
    blockTrace (c.older v) scope block items = blockTrace c scope block items := by
  cases block <;> rfl

mutual

theorem stmtTrace_older : ∀ (stmt : Stmt) (scope : Scope),
    stmtTrace (c.older v) skip scope stmt = stmtTrace c skip scope stmt
  | .functionDef head body, scope => by
    simp only [stmtTrace, blockTrace_older, stmtsTrace_older body]
  | .classDef head body, scope => by simp only [stmtTrace, blockTrace_older, stmtsTrace_older body]
  | .if test body clauses _, scope => by
    have flags : ifFlags (c.older v).options test clauses = ifFlags c.options test clauses :=
      ifFlags_older c.options v test clauses
    simp only [stmtTrace, flags, blockTrace_older, stmtsTrace_older body,
      clausesTrace_older clauses]
  | .while _ body orelse _, scope | .for _ _ _ body orelse _, scope => by
    simp only [stmtTrace, blockTrace_older, stmtsTrace_older body, stmtsTrace_older orelse]
  | .with _ _ body _, scope => by simp only [stmtTrace, blockTrace_older, stmtsTrace_older body]
  | .try body handlers orelse finalbody _ _, scope => by
    simp only [stmtTrace, optBlockTrace, blockTrace_older, stmtsTrace_older body,
      handlersTrace_older handlers, stmtsTrace_older orelse, stmtsTrace_older finalbody]
  | .match _ cases _, scope => by
    have flags : IfReachabilityAnalyzer.new.caseFlags (c.older v).options cases
        = IfReachabilityAnalyzer.new.caseFlags c.options cases :=
      caseFlags_older c.options v cases .new
    simp only [stmtTrace, flags, casesTrace_older cases]
  | .import .., _ | .importFrom .., _ | .return .., _ | .delete .., _ | .typeAlias .., _
  | .assign .., _ | .augAssign .., _ | .annAssign .., _ | .raise .., _ | .assert .., _
  | .global .., _ | .nonlocal .., _ | .expr .., _ | .pass .., _ | .break .., _ | .continue .., _
  | .ipyEscapeCommand .., _ => rfl

theorem stmtsTrace_older : ∀ (stmts : List Stmt) (scope : Scope),
    stmtsTrace (c.older v) skip scope stmts = stmtsTrace c skip scope stmts
  | [], _ => rfl
  | stmt :: stmts, scope => by
    simp only [stmtsTrace, stmtTrace_older stmt, stmtsTrace_older stmts]

theorem clausesTrace_older : ∀ (clauses : ElifElseClauses) (scope : Scope)
    (flags : List BranchFlags),
    clausesTrace (c.older v) skip scope flags clauses = clausesTrace c skip scope flags clauses
  | .nil, _, _ => rfl
  | .elif _ body _ rest, scope, flags => by
    simp only [clausesTrace, blockTrace_older, stmtsTrace_older body, clausesTrace_older rest]
  | .else body _, scope, flags => by
    simp only [clausesTrace, blockTrace_older, stmtsTrace_older body]

theorem handlersTrace_older : ∀ (handlers : List ExceptHandler) (scope : Scope),
    handlersTrace (c.older v) skip scope handlers = handlersTrace c skip scope handlers
  | [], _ => rfl
  | .mk _ _ body _ :: handlers, scope => by
    simp only [handlersTrace, blockTrace_older, stmtsTrace_older body,
      handlersTrace_older handlers]

theorem casesTrace_older : ∀ (cases : List MatchCase) (scope : Scope) (flags : List BranchFlags),
    casesTrace (c.older v) skip scope flags cases = casesTrace c skip scope flags cases
  | [], _, _ => rfl
  | .mk _ _ body _ :: cases, scope, flags => by
    simp only [casesTrace, blockTrace_older, stmtsTrace_older body, casesTrace_older cases]

end

end Supported

section Modules

variable {c : Config} {v : Nat} (le : (c.older v).cacheVersion ≤ c.cacheVersion) (skip : Bool)

theorem older_module (scope : Scope) (stmts : List Stmt) :
    olderStmts le (toWireModule c skip scope stmts)
      = toWireModule (c.older v) skip scope stmts := by
  unfold toWireModule
  rw [show (c.older v).options = c.options.older v from rfl, splitModule_older]
  exact older_stmts le skip _ scope

theorem supportsModule_older (inClass : Bool) (stmts : List Stmt) :
    supportsModule (c.older v) skip inClass stmts = supportsModule c skip inClass stmts := by
  unfold supportsModule
  rw [show (c.older v).options = c.options.older v from rfl, splitModule_older]
  exact supportsStmts_alike skip (c.older_alike v) _ inClass

theorem moduleTrace_older (scope : Scope) (stmts : List Stmt) :
    moduleTrace (c.older v) skip scope stmts = moduleTrace c skip scope stmts := by
  unfold moduleTrace
  rw [show (c.older v).options = c.options.older v from rfl, splitModule_older,
    stmtsTrace_older c v skip]
  congr 1

/-- What a file is serialized to at an older version, beside what it is at a newer one. -/
structure FileOlder {cv version : Nat} (le : version ≤ cv) (out old : SerializedFile) : Prop where
  tree : ∃ tree : List (WStmt cv), out.bytes = encModule tree ∧
    old.bytes = encModule (olderStmts le tree)
  imports : old.imports = out.imports
  typeIgnoreLines : old.typeIgnoreLines = out.typeIgnoreLines
  mypyIgnoreLines : old.mypyIgnoreLines = out.mypyIgnoreLines
  isPartialPackage : old.isPartialPackage = out.isPartialPackage

theorem serializePythonFile_older (file : ParsedFile) :
    match serializePythonFile c skip file, serializePythonFile (c.older v) skip file with
    | some out, some old => FileOlder le out old
    | none, none => True
    | _, _ => False := by
  have here : file.moduleIgnore (c.older v) = file.moduleIgnore c := rfl
  cases ignored : file.moduleIgnore c with
  | some ignore =>
    rw [serializePythonFile_ignored_eq ignored, serializePythonFile_ignored_eq (here.trans ignored)]
    exact ⟨⟨[], rfl, rfl⟩, rfl, rfl, rfl, rfl⟩
  | none =>
    have ran := serializePythonFile_run c skip ignored
    have ran' := serializePythonFile_run (c.older v) skip (here.trans ignored)
    have supported := supportsModule_older (c := c) (v := v) skip false file.body
    cases result : serializePythonFile c skip file with
    | none =>
      rw [result] at ran
      cases result' : serializePythonFile (c.older v) skip file with
      | none => trivial
      | some old =>
        rw [result'] at ran'
        rw [ran'.supported, ran] at supported
        cases supported
    | some out =>
      rw [result] at ran
      cases result' : serializePythonFile (c.older v) skip file with
      | none =>
        rw [result'] at ran'
        rw [ran.supported, ran'] at supported
        cases supported
      | some old =>
        rw [result'] at ran'
        have trace := moduleTrace_older (c := c) (v := v) skip .initial file.body
        constructor
        · refine ⟨_, ran.bytes, ?_⟩
          rw [older_module]
          exact ran'.bytes
        · rw [ran.imports, ran'.imports, trace]
        · rw [ran.typeIgnoreLines, ran'.typeIgnoreLines, trace]
        · rw [ran.mypyIgnoreLines, ran'.mypyIgnoreLines, trace]
        · rw [ran.isPartialPackage, ran'.isPartialPackage, trace]

end Modules

section Requests

namespace Request

variable (v : Vendored) (request : Request) (version : Nat)

def older : Request := { request with options := request.options.older version }

variable {version}

/-- Between versions on one side of that of full type comments the comments are read alike. -/
theorem scan_older
    (side : cvFullTypeComments ≤ version ↔ cvFullTypeComments ≤ request.options.cacheVersion) :
    (request.older version).scan v = request.scan v := by
  have skips : skipCommented request.source (request.options.older version)
      = skipCommented request.source request.options := by
    have before : version < cvFullTypeComments ↔
        request.options.cacheVersion < cvFullTypeComments := by omega
    funext token
    simp only [skipCommented, Options.older, before]
  have rounds : scanComment v.alphanumeric v.comments request.source (request.options.older version)
      = scanComment v.alphanumeric v.comments request.source request.options := by
    funext scan token
    simp only [scanComment, skips]
  change extractTypeCommentsAndIgnores v.alphanumeric v.comments request.source
    (request.options.older version) (request.tokens v) = _
  simp only [Request.scan, extractTypeCommentsAndIgnores, rounds]

theorem config_older (same : (request.older version).scan v = request.scan v) :
    (request.older version).config v = (request.config v).older version := by
  simp only [Request.config, Request.overrides, same]
  rfl

theorem skips_older (same : (request.older version).scan v = request.scan v) :
    (request.older version).skips v = request.skips v := by
  simp only [Request.skips, Request.overrides, same]
  rfl

theorem file_older (same : (request.older version).scan v = request.scan v) (body : List Stmt) :
    (request.older version).file v body = request.file v body := by
  simp only [Request.file, same]
  rfl

end Request

/-- What is returned at an older version, beside what is returned at a newer one. -/
structure ReturnsOlder {cv version : Nat} (le : version ≤ cv) (out old : SerializedSource) :
    Prop where
  tree : ∃ tree : List (WStmt cv), (∀ r, decModule (out.bytes ++ r) = some (tree, r)) ∧
    ∀ r, decModule (old.bytes ++ r) = some (olderStmts le tree, r)
  importBytes : old.importBytes = out.importBytes
  typeIgnoreLines : old.typeIgnoreLines = out.typeIgnoreLines
  mypyIgnoreLines : old.mypyIgnoreLines = out.mypyIgnoreLines
  isPartialPackage : old.isPartialPackage = out.isPartialPackage
  sourceHash : old.sourceHash = out.sourceHash
  mypyComments : old.mypyComments = out.mypyComments

/-- A reader of an older cache version is given the tree of the newer one without the fields that
are newer, and the same beside it; and the serializer panics at both or at none. -/
theorem serialize_older (v : Vendored) (request : Request) {version : Nat}
    (le : version ≤ request.options.cacheVersion)
    (side : cvFullTypeComments ≤ version ↔ cvFullTypeComments ≤ request.options.cacheVersion) :
    match request.serialize v, (request.older version).serialize v with
    | some out, some old => ReturnsOlder le out old
    | none, none => True
    | _, _ => False := by
  have same := request.scan_older v side
  have config := request.config_older v same
  have body : (request.older version).body v = request.body v := rfl
  rw [request.serialize_eq v, (request.older version).serialize_eq v, config,
    request.skips_older v same, request.file_older v same, same, body]
  have files := serializePythonFile_older (c := request.config v) (v := version) le
    (request.skips v) (request.file v (request.body v))
  generalize serializePythonFile (request.config v) (request.skips v)
    (request.file v (request.body v)) = out at files ⊢
  generalize serializePythonFile ((request.config v).older version) (request.skips v)
    (request.file v (request.body v)) = old at files ⊢
  cases out with
  | none =>
    cases old with
    | none => trivial
    | some old => exact files
  | some out =>
    cases old with
    | none => exact files
    | some old =>
      obtain ⟨tree, bytes, bytes'⟩ := files.tree
      constructor
      · refine ⟨tree, ?_, ?_⟩
        · simp only [bytes]
          exact (reads_module tree).run_eq
        · simp only [bytes']
          exact (reads_module (olderStmts le tree)).run_eq
      · simp only [files.imports]
        rfl
      · exact files.typeIgnoreLines
      · exact files.mypyIgnoreLines
      · exact files.isPartialPackage
      · rfl
      · rfl

/-- A parser that takes every text for `{**x for x in y}`. -/
def keylessVendored : Vendored where
  parseUnchecked _ _ :=
    .module [.expr (.dictComp none (.name "x" ⟨3, 4⟩)
      [.mk (.name "x" ⟨9, 10⟩) (.name "y" ⟨14, 15⟩) [] false] ⟨0, 16⟩) ⟨0, 16⟩]
  yieldsModule _ _ _ := ⟨_, rfl⟩
  commandMode _ _ command := by cases command
  tokens _ _ := []
  errors _ _ := []
  comments := SignatureComment.commaParser
  alphanumeric := .basic
  digest _ := ""

def keylessRequest : Request :=
  ⟨"a.py".toList, "{**x for x in y}".toList, false, Options.default.older 6⟩

theorem serialize_older_keyless :
    ∃ le : 3 ≤ keylessRequest.options.cacheVersion,
      match keylessRequest.serialize keylessVendored,
        (keylessRequest.older 3).serialize keylessVendored with
      | some out, some old => ReturnsOlder le out old
      | none, none => True
      | _, _ => False := by
  have le : 3 ≤ keylessRequest.options.cacheVersion := by decide
  have side : cvFullTypeComments ≤ 3 ↔
      cvFullTypeComments ≤ keylessRequest.options.cacheVersion := by decide
  exact ⟨le, serialize_older keylessVendored keylessRequest le side⟩

end Requests

end AstSerialize
