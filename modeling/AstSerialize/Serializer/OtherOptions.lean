import AstSerialize.Serializer.Source
import AstSerialize.Serializer.UnflaggedTree

/-! Serializing one file with other options of the same cache version. -/
namespace AstSerialize
open Coding

section Expressions

/-! In two scopes that differ only in what they say of reachability. -/

variable {c : Config} {o : Options} {scope scope' : Scope} (agree : scope.reached = scope'.reached)

include agree

theorem expr_agree (e : Expr) :
    (toWireExpr c scope e).unflagged = (toWireExpr (c.under o) scope' e).unflagged := by
  rw [unflagged_expr c o scope e, agree]
  exact (unflagged_expr (c.under o) o scope' e).symm

theorem exprs_agree (es : List Expr) :
    unflaggedExprs (toWireExprs c scope es)
      = unflaggedExprs (toWireExprs (c.under o) scope' es) := by
  rw [unflagged_exprs c o scope es, agree]
  exact (unflagged_exprs (c.under o) o scope' es).symm

theorem optExpr_agree (e : Option Expr) :
    unflaggedOptExpr (toWireOptExpr c scope e)
      = unflaggedOptExpr (toWireOptExpr (c.under o) scope' e) := by
  rw [unflagged_optExpr c o scope e, agree]
  exact (unflagged_optExpr (c.under o) o scope' e).symm

theorem parameters_agree (argComments : List (Option Expr)) (parameters : Parameters) :
    unflaggedParameters (toWireParameters c scope argComments parameters)
      = unflaggedParameters (toWireParameters (c.under o) scope' argComments parameters) := by
  rw [unflagged_parameters c o scope argComments parameters, agree]
  exact (unflagged_parameters (c.under o) o scope' argComments parameters).symm

theorem pattern_agree (p : Pattern) :
    (toWirePattern c scope p).unflagged = (toWirePattern (c.under o) scope' p).unflagged := by
  rw [unflagged_pattern c o scope p, agree]
  exact (unflagged_pattern (c.under o) o scope' p).symm

end Expressions

section Definitions

variable {c : Config} {o : Options} {scope scope' : Scope} (agree : scope.reached = scope'.reached)

include agree

theorem isEvaluated_agree : scope'.isEvaluated = scope.isEvaluated := by
  have evaluated := congrArg Scope.isEvaluated agree
  exact evaluated.symm

theorem typeParams_agree :
    toWireTypeParams (c.under o) scope' = toWireTypeParams c scope := by
  funext params
  have param : toWireTypeParam (c.under o) scope' = toWireTypeParam c scope := by
    funext kind name bound values default
    unfold toWireTypeParam
    rw [isEvaluated_agree agree, strings_under, type_under]
    simp only [types_under]
    rfl
  induction params with
  | nil => rfl
  | cons first params ih => cases first <;> simp only [toWireTypeParams, param, ih] <;> rfl

theorem returns_agree (head : FunctionHead) (retComment : Option Expr) :
    toWireReturns (c.under o) scope' head retComment = toWireReturns c scope head retComment := by
  unfold toWireReturns
  rw [isEvaluated_agree agree, type_under, type_under]
  rfl

theorem function_agree (head : FunctionHead) (comment : FuncComment)
    {body body' : WBlock c.cacheVersion} (same : body.unflagged = body'.unflagged) :
    (toWireFunction c scope head comment body).unflagged
      = (toWireFunction (c.under o) scope' head comment body').unflagged := by
  simp only [toWireFunction, WFunction.unflagged, same, parameters_agree (o := o) agree,
    typeParams_agree agree, returns_agree agree]
  rfl

theorem functionDef_agree (head : FunctionHead) (comment : FuncComment)
    {body body' : WBlock c.cacheVersion} (same : body.unflagged = body'.unflagged) :
    (toWireFunctionDef c scope head comment body).unflagged
      = (toWireFunctionDef (c.under o) scope' head comment body').unflagged := by
  have function := function_agree (o := o) agree head comment same
  unfold toWireFunctionDef
  cases head.decoratorList with
  | nil => exact congrArg WStmt.funcDef function
  | cons first rest =>
    simp only [WStmt.unflagged, function, exprs_agree (o := o) agree]
    rfl

theorem classKeywords_agree (keywords : List Keyword) :
    (toWireClassKeywords c scope keywords).map (fun (arg, value) => (arg, value.unflagged))
      = (toWireClassKeywords (c.under o) scope' keywords).map
        fun (arg, value) => (arg, value.unflagged) := by
  induction keywords with
  | nil => rfl
  | cons keyword keywords ih =>
    obtain ⟨arg, value⟩ := keyword
    cases arg with
    | none => exact ih
    | some arg =>
      simp only [toWireClassKeywords, List.map_cons, expr_agree (o := o) agree, ih]

theorem classDef_agree (head : ClassHead) {body body' : WBlock c.cacheVersion}
    (same : body.unflagged = body'.unflagged) :
    (toWireClassDef c scope head body).unflagged
      = (toWireClassDef (c.under o) scope' head body').unflagged := by
  simp only [toWireClassDef, WStmt.unflagged, same, exprs_agree (o := o) agree,
    typeParams_agree agree, classKeywords_agree (o := o) agree]
  rfl

theorem importFlags_agree (isLazy : Bool) :
    plainBits (importFlags scope isLazy).toNat = plainBits (importFlags scope' isLazy).toNat := by
  have bits : ∀ inFunction unreachable mypyOnly unreachable' mypyOnly' isLazy : Bool,
      plainBits (makeImportFlags inFunction unreachable mypyOnly isLazy).toNat
        = plainBits (makeImportFlags inFunction unreachable' mypyOnly' isLazy).toNat := by
    decide
  have inFunction := congrArg Scope.inFunction agree
  change scope.inFunction = scope'.inFunction at inFunction
  unfold importFlags
  rw [inFunction]
  exact bits _ _ _ _ _ _

theorem importFrom_agree (module : Option Identifier) (names : List Alias) (level : UInt32)
    (isLazy : Bool) (range : TextRange) :
    (toWireImportFrom c scope module names level isLazy range).unflagged
      = (toWireImportFrom (c.under o) scope' module names level isLazy range).unflagged := by
  unfold toWireImportFrom
  split <;> simp only [WStmt.unflagged, importFlags_agree agree] <;> rfl

theorem valueOrTemp_agree (value : Option Expr) :
    (toWireValueOrTemp c scope value).unflagged
      = (toWireValueOrTemp (c.under o) scope' value).unflagged := by
  cases value with
  | none => rfl
  | some value => exact expr_agree agree value

theorem delTargets_agree (targets : List Expr) (range : TextRange) :
    (toWireDelTargets c scope targets range).unflagged
      = (toWireDelTargets (c.under o) scope' targets range).unflagged := by
  unfold toWireDelTargets
  split
  · exact expr_agree agree _
  · simp only [WExpr.unflagged, exprs_agree (o := o) agree]
    rfl

theorem withItems_agree (items : List WithItem) :
    (toWireWithItems c scope items).map (fun (context, vars) =>
        (context.unflagged, unflaggedOptExpr vars))
      = (toWireWithItems (c.under o) scope' items).map fun (context, vars) =>
        (context.unflagged, unflaggedOptExpr vars) := by
  induction items with
  | nil => rfl
  | cons item items ih =>
    simp only [toWireWithItems, List.map_cons, expr_agree (o := o) agree,
      optExpr_agree (o := o) agree, ih]
    rfl

end Definitions

section Blocks

variable {c : Config} {o : Options} (scope scope' : Scope) (range : TextRange)
  {items items' : List (WStmt c.cacheVersion)}

theorem assignType_under : toWireAssignType (c.under o) range = toWireAssignType c range := by
  unfold toWireAssignType
  rw [type_under]
  rfl

theorem block_agree (same : unflaggedStmts items = unflaggedStmts items') :
    (toWireBlock c scope range items).unflagged
      = (toWireBlock (c.under o) scope' range items').unflagged := by
  cases items with
  | nil =>
    cases items' with
    | nil => rfl
    | cons first' rest' => cases same
  | cons first rest =>
    cases items' with
    | nil => cases same
    | cons first' rest' =>
      obtain ⟨first, rest⟩ := List.cons.inj same
      exact congrArg₂ (WBlock.stmts false) first rest

theorem optBlock_agree (block : List Stmt) (same : unflaggedStmts items = unflaggedStmts items') :
    unflaggedOptBlock (toWireOptBlock c scope block range items)
      = unflaggedOptBlock (toWireOptBlock (c.under o) scope' block range items') := by
  unfold toWireOptBlock
  split
  · rfl
  · exact congrArg some (block_agree scope scope' range same)

theorem else_agree (same : unflaggedStmts items = unflaggedStmts items') :
    unflaggedOrelse (some (toWireBlock c scope range items))
      = unflaggedOrelse (some (toWireBlock (c.under o) scope' range items')) := by
  cases items with
  | nil =>
    cases items' with
    | nil => rfl
    | cons first' rest' => cases same
  | cons first rest =>
    cases items' with
    | nil => cases same
    | cons first' rest' =>
      obtain ⟨first, rest⟩ := List.cons.inj same
      exact congrArg some (congrArg₂ (WBlock.stmts false) first rest)

theorem syntheticElse_unflagged (synthetic : Option BranchFlags) :
    unflaggedOrelse (toWireSyntheticElse c scope range synthetic) = none := by
  cases synthetic with
  | none => rfl
  | some flags =>
    simp only [toWireSyntheticElse]
    split <;> rfl

end Blocks

section Stmts

variable {c : Config} {o : Options} (skip : Bool)

mutual

theorem stmt_agree : ∀ (stmt : Stmt) (scope scope' : Scope), scope.reached = scope'.reached →
    (toWireStmt c skip scope stmt).unflagged
      = (toWireStmt (c.under o) skip scope' stmt).unflagged
  | .functionDef head body, scope, scope', agree => by
    have inClass : scope.inClass = scope'.inClass := by
      have inClass := congrArg Scope.inClass agree
      exact inClass
    have comment : funcComment (c.under o) scope' head body = funcComment c scope head body := by
      rw [funcComment_alike (c.under_alike o)]
      simp only [funcComment, inClass]
    have inside : scope.enterFunction.reached = scope'.enterFunction.reached :=
      congrArg Scope.enterFunction agree
    simp only [toWireStmt, comment, inClass]
    apply functionDef_agree agree
    split
    · rfl
    · exact block_agree scope scope' head.range (stmts_agree body _ _ inside)
  | .classDef head body, scope, scope', agree => by
    have inside : scope.enterClass.reached = scope'.enterClass.reached :=
      congrArg Scope.enterClass agree
    exact classDef_agree agree head
      (block_agree scope scope' head.range (stmts_agree body _ _ inside))
  | .expr value range, _, _, agree => congrArg WStmt.expr (expr_agree agree value)
  | .assign targets value range, _, _, agree => by
    simp only [toWireStmt, WStmt.unflagged, exprs_agree (o := o) agree, expr_agree (o := o) agree,
      assignType_under]
    rfl
  | .annAssign target ann value range, _, _, agree => by
    simp only [toWireStmt, WStmt.unflagged, unflaggedExprs, expr_agree (o := o) agree,
      valueOrTemp_agree (o := o) agree, type_under, isEvaluated_agree agree]
    rfl
  | .augAssign target op value range, _, _, agree => by
    simp only [toWireStmt, WStmt.unflagged, expr_agree (o := o) agree]
    rfl
  | .import names isLazy range, _, _, agree => by
    simp only [toWireStmt, toWireImport, WStmt.unflagged, importFlags_agree agree]
    rfl
  | .importFrom module names level isLazy range, _, _, agree =>
    importFrom_agree agree module names level isLazy range
  | .return value range, _, _, agree => by
    simp only [toWireStmt, WStmt.unflagged, optExpr_agree (o := o) agree]
    rfl
  | .raise exc cause range, _, _, agree => by
    simp only [toWireStmt, WStmt.unflagged, optExpr_agree (o := o) agree]
    rfl
  | .assert test msg range, _, _, agree => by
    simp only [toWireStmt, WStmt.unflagged, expr_agree (o := o) agree,
      optExpr_agree (o := o) agree]
    rfl
  | .if test body clauses range, scope, scope', agree => by
    simp only [toWireStmt]
    generalize ifFlags c.options test clauses = flags
    generalize ifFlags (c.under o).options test clauses = flags'
    have block := block_agree (o := o) (scope.enterBranch flags.main)
      (scope'.enterBranch flags'.main) range
      (stmts_agree body (scope.enterBranch flags.main) (scope'.enterBranch flags'.main) agree)
    have elifs := elifs_agree clauses scope scope' flags.clauses flags'.clauses agree
    have synthetic : unflaggedOrelse (toWireSyntheticElse c scope range flags.synthetic)
        = unflaggedOrelse (toWireSyntheticElse (c.under o) scope' range flags'.synthetic) := by
      rw [syntheticElse_unflagged]
      exact (syntheticElse_unflagged (c := c.under o) scope' range flags'.synthetic).symm
    have orelse := orelse_agree synthetic clauses scope scope' flags.clauses flags'.clauses agree
    simp only [WStmt.unflagged, expr_agree (o := o) agree, block, elifs, orelse]
    rfl
  | .while test body orelse range, scope, scope', agree => by
    simp only [toWireStmt, WStmt.unflagged, WElse.unflagged, expr_agree (o := o) agree,
      block_agree (o := o) scope scope' range (stmts_agree body _ _ agree),
      stmts_agree orelse _ _ agree]
    rfl
  | .for isAsync target iter body orelse range, scope, scope', agree => by
    simp only [toWireStmt, WStmt.unflagged, WElse.unflagged, expr_agree (o := o) agree,
      block_agree (o := o) scope scope' range (stmts_agree body _ _ agree),
      stmts_agree orelse _ _ agree]
    rfl
  | .with isAsync items body range, scope, scope', agree => by
    simp only [toWireStmt, WStmt.unflagged, withItems_agree (o := o) agree,
      block_agree (o := o) scope scope' range (stmts_agree body _ _ agree)]
    rfl
  | .try body handlers orelse finalbody isStar range, scope, scope', agree => by
    simp only [toWireStmt, WStmt.unflagged,
      block_agree (o := o) scope scope' range (stmts_agree body _ _ agree),
      handlers_agree handlers _ _ agree,
      optBlock_agree (o := o) scope scope' range orelse (stmts_agree orelse _ _ agree),
      optBlock_agree (o := o) scope scope' range finalbody (stmts_agree finalbody _ _ agree)]
    rfl
  | .delete targets range, _, _, agree => by
    simp only [toWireStmt, WStmt.unflagged, delTargets_agree (o := o) agree]
    rfl
  | .match subject cases range, scope, scope', agree => by
    have branches := cases_agree cases scope scope'
      (IfReachabilityAnalyzer.new.caseFlags c.options cases)
      (IfReachabilityAnalyzer.new.caseFlags (c.under o).options cases) agree
    simp only [toWireStmt, WStmt.unflagged, expr_agree (o := o) agree, branches]
    rfl
  | .typeAlias name typeParams value range, _, _, agree => by
    simp only [toWireStmt, WStmt.unflagged, expr_agree (o := o) agree, typeParams_agree agree]
    rfl
  | .pass .., _, _, _ | .break .., _, _, _ | .continue .., _, _, _ | .global .., _, _, _
  | .nonlocal .., _, _, _ | .ipyEscapeCommand .., _, _, _ => rfl

theorem stmts_agree : ∀ (stmts : List Stmt) (scope scope' : Scope),
    scope.reached = scope'.reached →
    unflaggedStmts (toWireStmts c skip scope stmts)
      = unflaggedStmts (toWireStmts (c.under o) skip scope' stmts)
  | [], _, _, _ => rfl
  | stmt :: stmts, scope, scope', agree =>
    congrArg₂ List.cons (stmt_agree stmt scope scope' agree) (stmts_agree stmts scope scope' agree)

theorem elifs_agree : ∀ (clauses : ElifElseClauses) (scope scope' : Scope)
    (flags flags' : List BranchFlags), scope.reached = scope'.reached →
    unflaggedElifs (toWireElifs c skip scope flags clauses)
      = unflaggedElifs (toWireElifs (c.under o) skip scope' flags' clauses)
  | .nil, _, _, _, _, _ | .else .., _, _, _, _, _ => rfl
  | .elif test body range rest, scope, scope', flags, flags', agree => by
    have block := block_agree (o := o) (scope.enterBranch (flags.headD ⟨false, false⟩))
      (scope'.enterBranch (flags'.headD ⟨false, false⟩)) range
      (stmts_agree body (scope.enterBranch (flags.headD ⟨false, false⟩))
        (scope'.enterBranch (flags'.headD ⟨false, false⟩)) agree)
    simp only [toWireElifs, unflaggedElifs, expr_agree (o := o) agree, block,
      elifs_agree rest scope scope' flags.tail flags'.tail agree]
    rfl

theorem orelse_agree {synthetic synthetic' : Option (WBlock c.cacheVersion)}
    (same : unflaggedOrelse synthetic = unflaggedOrelse synthetic') :
    ∀ (clauses : ElifElseClauses) (scope scope' : Scope) (flags flags' : List BranchFlags),
      scope.reached = scope'.reached →
      unflaggedOrelse (toWireOrelse c skip scope flags synthetic clauses)
        = unflaggedOrelse (toWireOrelse (c.under o) skip scope' flags' synthetic' clauses)
  | .nil, _, _, _, _, _ => same
  | .elif _ _ _ rest, scope, scope', flags, flags', agree =>
    orelse_agree same rest scope scope' flags.tail flags'.tail agree
  | .else body range, scope, scope', flags, flags', agree =>
    else_agree _ _ range (stmts_agree body (scope.enterBranch (flags.headD ⟨false, false⟩))
      (scope'.enterBranch (flags'.headD ⟨false, false⟩)) agree)

theorem handlers_agree : ∀ (handlers : List ExceptHandler) (scope scope' : Scope),
    scope.reached = scope'.reached →
    unflaggedHandlers (toWireHandlers c skip scope handlers)
      = unflaggedHandlers (toWireHandlers (c.under o) skip scope' handlers)
  | [], _, _, _ => rfl
  | .mk type name body range :: handlers, scope, scope', agree => by
    simp only [toWireHandlers, unflaggedHandlers, optExpr_agree (o := o) agree,
      block_agree (o := o) scope scope' range (stmts_agree body _ _ agree),
      handlers_agree handlers scope scope' agree]
    rfl

theorem cases_agree : ∀ (cases : List MatchCase) (scope scope' : Scope)
    (flags flags' : List BranchFlags), scope.reached = scope'.reached →
    unflaggedCases (toWireCases c skip scope flags cases)
      = unflaggedCases (toWireCases (c.under o) skip scope' flags' cases)
  | [], _, _, _, _, _ => rfl
  | .mk pattern guard body range :: cases, scope, scope', flags, flags', agree => by
    have block := block_agree (o := o) (scope.enterBranch (flags.headD ⟨false, false⟩))
      (scope'.enterBranch (flags'.headD ⟨false, false⟩)) range
      (stmts_agree body (scope.enterBranch (flags.headD ⟨false, false⟩))
        (scope'.enterBranch (flags'.headD ⟨false, false⟩)) agree)
    simp only [toWireCases, unflaggedCases, pattern_agree (o := o) agree,
      optExpr_agree (o := o) agree, block,
      cases_agree cases scope scope' flags.tail flags'.tail agree]
    rfl

end

end Stmts

section Traces

/-- What is noted beside the tree, without what is said of reachability. -/
def Trace.unflagged (c : Config) (t : Trace) : List WImport × Bool :=
  (t.imports.map fun entry => (entry.toWire c).unflagged, t.topLevelGetattr)

variable {c : Config}

theorem Trace.unflagged_add {t t' u u' : Trace} (first : t.unflagged c = t'.unflagged c)
    (rest : u.unflagged c = u'.unflagged c) : (t + u).unflagged c = (t' + u').unflagged c := by
  obtain ⟨imports, getattr⟩ := Prod.mk.inj first
  obtain ⟨imports', getattr'⟩ := Prod.mk.inj rest
  simp only [Trace.unflagged, Trace.add_imports, Trace.add_topLevelGetattr, List.map_append,
    imports, imports', getattr, getattr']

variable {o : Options} {scope scope' : Scope} (agree : scope.reached = scope'.reached)

theorem blockTrace_agree (block : List Stmt) {items items' : Trace}
    (same : items.unflagged c = items'.unflagged c) :
    (blockTrace c scope block items).unflagged c
      = (blockTrace (c.under o) scope' block items').unflagged c :=
  Trace.unflagged_add rfl same

theorem optBlockTrace_agree (block : List Stmt) {items items' : Trace}
    (same : items.unflagged c = items'.unflagged c) :
    (optBlockTrace c scope block items).unflagged c
      = (optBlockTrace (c.under o) scope' block items').unflagged c := by
  unfold optBlockTrace
  split
  · rfl
  · exact blockTrace_agree block same

include agree

theorem getattrTrace_agree (head : FunctionHead) :
    getattrTrace scope head = getattrTrace scope' head := by
  have inClass := congrArg Scope.inClass agree
  have inFunction := congrArg Scope.inFunction agree
  change scope.inClass = scope'.inClass at inClass
  change scope.inFunction = scope'.inFunction at inFunction
  unfold getattrTrace
  rw [inClass, inFunction]

theorem importEntry_agree (isLazy : Bool) (name : Alias) :
    ((importEntry (importFlags scope isLazy) name).toWire c).unflagged
      = ((importEntry (importFlags scope' isLazy) name).toWire c).unflagged := by
  simp only [importEntry, ImportStatement.toWire, WImport.unflagged, importFlags_agree agree]

theorem fromEntry_agree (module : Option Identifier) (names : List Alias) (level : UInt32)
    (isLazy : Bool) (range : TextRange) :
    ((fromEntry module names level range (importFlags scope isLazy)).toWire c).unflagged
      = ((fromEntry module names level range (importFlags scope' isLazy)).toWire c).unflagged := by
  unfold fromEntry
  split <;> simp only [ImportStatement.toWire, WImport.unflagged, importFlags_agree agree]

end Traces

section StmtTraces

variable {c : Config} {o : Options} (skip : Bool)

mutual

theorem stmtTrace_agree : ∀ (stmt : Stmt) (scope scope' : Scope),
    scope.reached = scope'.reached →
    (stmtTrace c skip scope stmt).unflagged c
      = (stmtTrace (c.under o) skip scope' stmt).unflagged c
  | .functionDef head body, scope, scope', agree => by
    have inClass : scope.inClass = scope'.inClass := by
      have inClass := congrArg Scope.inClass agree
      exact inClass
    have inside : scope.enterFunction.reached = scope'.enterFunction.reached :=
      congrArg Scope.enterFunction agree
    simp only [stmtTrace, getattrTrace_agree agree, inClass]
    apply Trace.unflagged_add rfl
    split
    · rfl
    · exact blockTrace_agree body (stmtsTrace_agree body _ _ inside)
  | .classDef _ body, scope, scope', agree => by
    have inside : scope.enterClass.reached = scope'.enterClass.reached :=
      congrArg Scope.enterClass agree
    exact blockTrace_agree body (stmtsTrace_agree body _ _ inside)
  | .import names isLazy _, _, _, agree => by
    simp only [stmtTrace, Trace.unflagged, List.map_map]
    congr 2
    funext name
    exact importEntry_agree agree isLazy name
  | .importFrom module names level isLazy range, _, _, agree => by
    have entry := fromEntry_agree (c := c) agree module names level isLazy range
    exact congrArg (fun import' => ([import'], false)) entry
  | .if test body clauses _, scope, scope', agree => by
    simp only [stmtTrace]
    generalize ifFlags c.options test clauses = flags
    generalize ifFlags (c.under o).options test clauses = flags'
    have block := stmtsTrace_agree body (scope.enterBranch flags.main)
      (scope'.enterBranch flags'.main) agree
    exact Trace.unflagged_add (blockTrace_agree body block)
      (clausesTrace_agree clauses scope scope' flags.clauses flags'.clauses agree)
  | .while _ body orelse _, scope, scope', agree
  | .for _ _ _ body orelse _, scope, scope', agree =>
    Trace.unflagged_add (blockTrace_agree body (stmtsTrace_agree body scope scope' agree))
      (blockTrace_agree orelse (stmtsTrace_agree orelse scope scope' agree))
  | .with _ _ body _, scope, scope', agree =>
    blockTrace_agree body (stmtsTrace_agree body scope scope' agree)
  | .try body handlers orelse finalbody _ _, scope, scope', agree =>
    Trace.unflagged_add (blockTrace_agree body (stmtsTrace_agree body scope scope' agree)) <|
      Trace.unflagged_add (handlersTrace_agree handlers scope scope' agree) <|
      Trace.unflagged_add (optBlockTrace_agree orelse (stmtsTrace_agree orelse scope scope' agree))
        (optBlockTrace_agree finalbody (stmtsTrace_agree finalbody scope scope' agree))
  | .match _ cases _, scope, scope', agree => casesTrace_agree cases scope scope' _ _ agree
  | .return .., _, _, _ | .delete .., _, _, _ | .typeAlias .., _, _, _ | .assign .., _, _, _
  | .augAssign .., _, _, _ | .annAssign .., _, _, _ | .raise .., _, _, _ | .assert .., _, _, _
  | .global .., _, _, _ | .nonlocal .., _, _, _ | .expr .., _, _, _ | .pass .., _, _, _
  | .break .., _, _, _ | .continue .., _, _, _ | .ipyEscapeCommand .., _, _, _ => rfl

theorem stmtsTrace_agree : ∀ (stmts : List Stmt) (scope scope' : Scope),
    scope.reached = scope'.reached →
    (stmtsTrace c skip scope stmts).unflagged c
      = (stmtsTrace (c.under o) skip scope' stmts).unflagged c
  | [], _, _, _ => rfl
  | stmt :: stmts, scope, scope', agree =>
    Trace.unflagged_add (stmtTrace_agree stmt scope scope' agree)
      (stmtsTrace_agree stmts scope scope' agree)

theorem clausesTrace_agree : ∀ (clauses : ElifElseClauses) (scope scope' : Scope)
    (flags flags' : List BranchFlags), scope.reached = scope'.reached →
    (clausesTrace c skip scope flags clauses).unflagged c
      = (clausesTrace (c.under o) skip scope' flags' clauses).unflagged c
  | .nil, _, _, _, _, _ => rfl
  | .elif _ body _ rest, scope, scope', flags, flags', agree => by
    have block := stmtsTrace_agree body (scope.enterBranch (flags.headD ⟨false, false⟩))
      (scope'.enterBranch (flags'.headD ⟨false, false⟩)) agree
    exact Trace.unflagged_add (blockTrace_agree body block)
      (clausesTrace_agree rest scope scope' flags.tail flags'.tail agree)
  | .else body _, scope, scope', flags, flags', agree =>
    blockTrace_agree body <| stmtsTrace_agree body
      (scope.enterBranch (flags.headD ⟨false, false⟩))
      (scope'.enterBranch (flags'.headD ⟨false, false⟩)) agree

theorem handlersTrace_agree : ∀ (handlers : List ExceptHandler) (scope scope' : Scope),
    scope.reached = scope'.reached →
    (handlersTrace c skip scope handlers).unflagged c
      = (handlersTrace (c.under o) skip scope' handlers).unflagged c
  | [], _, _, _ => rfl
  | .mk _ _ body _ :: handlers, scope, scope', agree =>
    Trace.unflagged_add (blockTrace_agree body (stmtsTrace_agree body scope scope' agree))
      (handlersTrace_agree handlers scope scope' agree)

theorem casesTrace_agree : ∀ (cases : List MatchCase) (scope scope' : Scope)
    (flags flags' : List BranchFlags), scope.reached = scope'.reached →
    (casesTrace c skip scope flags cases).unflagged c
      = (casesTrace (c.under o) skip scope' flags' cases).unflagged c
  | [], _, _, _, _, _ => rfl
  | .mk _ _ body _ :: cases, scope, scope', flags, flags', agree => by
    have block := stmtsTrace_agree body (scope.enterBranch (flags.headD ⟨false, false⟩))
      (scope'.enterBranch (flags'.headD ⟨false, false⟩)) agree
    exact Trace.unflagged_add (blockTrace_agree body block)
      (casesTrace_agree cases scope scope' flags.tail flags'.tail agree)

end

end StmtTraces

section Modules

variable {c : Config} {o : Options} (skip : Bool)

theorem splitModule_append (o : Options) (stmts : List Stmt) :
    (splitModule o stmts).1 ++ (splitModule o stmts).2 = stmts := by
  induction stmts with
  | nil => rfl
  | cons stmt stmts ih =>
    rw [splitModule]
    split
    · rfl
    · exact congrArg (List.cons stmt) ih

/-- Of two ways to cut a module, the one that keeps no more is a prefix of the other. -/
theorem splitModule_le {o o' : Options} {stmts : List Stmt}
    (le : (splitModule o stmts).1.length ≤ (splitModule o' stmts).1.length) :
    (splitModule o stmts).1 <+: (splitModule o' stmts).1 := by
  have kept : (splitModule o stmts).1 <+: stmts := ⟨_, splitModule_append o stmts⟩
  have kept' : (splitModule o' stmts).1 <+: stmts := ⟨_, splitModule_append o' stmts⟩
  exact List.prefix_of_prefix_length_le kept kept' le

theorem toWireStmts_append (scope : Scope) (stmts more : List Stmt) :
    toWireStmts c skip scope (stmts ++ more)
      = toWireStmts c skip scope stmts ++ toWireStmts c skip scope more := by
  induction stmts with
  | nil => rfl
  | cons stmt stmts ih => simp only [List.cons_append, toWireStmts, ih]

theorem stmtsTrace_append (scope : Scope) (stmts more : List Stmt) :
    stmtsTrace c skip scope (stmts ++ more)
      = stmtsTrace c skip scope stmts + stmtsTrace c skip scope more := by
  induction stmts with
  | nil => exact (zero_add _).symm
  | cons stmt stmts ih => simp only [List.cons_append, stmtsTrace, ih, add_assoc]

theorem supportsStmts_append (inClass : Bool) (stmts more : List Stmt) :
    supportsStmts c skip inClass (stmts ++ more)
      = (supportsStmts c skip inClass stmts && supportsStmts c skip inClass more) := by
  induction stmts with
  | nil => rfl
  | cons stmt stmts ih => simp only [List.cons_append, supportsStmts, ih, Bool.and_assoc]

variable {stmts : List Stmt}

/-- The serializer of the options keeps no more of the module than that of the other options. -/
def KeepsLess (c : Config) (o : Options) (stmts : List Stmt) : Prop :=
  (splitModule c.options stmts).1.length ≤ (splitModule (c.under o).options stmts).1.length

theorem module_agree (less : KeepsLess c o stmts) :
    unflaggedStmts (toWireModule c skip .initial stmts)
      <+: unflaggedStmts (toWireModule (c.under o) skip .initial stmts) := by
  obtain ⟨more, split⟩ := splitModule_le less
  have start := stmts_agree (c := c) (o := o) skip (splitModule c.options stmts).1 .initial
    .initial rfl
  refine ⟨unflaggedStmts (toWireStmts (c.under o) skip .initial more), ?_⟩
  calc
    _ = unflaggedStmts (toWireStmts (c.under o) skip .initial (splitModule c.options stmts).1)
        ++ unflaggedStmts (toWireStmts (c.under o) skip .initial more) := congrArg (· ++ _) start
    _ = unflaggedStmts (toWireStmts (c.under o) skip .initial
        ((splitModule c.options stmts).1 ++ more)) := by
      rw [toWireStmts_append, unflaggedStmts_append]
    _ = unflaggedStmts (toWireModule (c.under o) skip .initial stmts) := by
      rw [split]
      rfl

theorem moduleTrace_agree (less : KeepsLess c o stmts) :
    ((moduleTrace c skip .initial stmts).unflagged c).1
        <+: ((moduleTrace (c.under o) skip .initial stmts).unflagged c).1 ∧
      ((moduleTrace c skip .initial stmts).topLevelGetattr = true →
        (moduleTrace (c.under o) skip .initial stmts).topLevelGetattr = true) := by
  obtain ⟨more, split⟩ := splitModule_le less
  have start := stmtsTrace_agree (c := c) (o := o) skip (splitModule c.options stmts).1 .initial
    .initial rfl
  obtain ⟨imports, getattr⟩ := Prod.mk.inj start
  unfold moduleTrace
  rw [← split, stmtsTrace_append]
  constructor
  · simp only [Trace.unflagged, Trace.add_imports, List.nil_append, List.map_append, imports]
    exact List.prefix_append _ _
  · simp only [Trace.add_topLevelGetattr, Bool.false_or, getattr]
    intro defined
    rw [defined, Bool.true_or]

theorem supportsModule_agree (less : KeepsLess c o stmts)
    (supported : supportsModule (c.under o) skip false stmts = true) :
    supportsModule c skip false stmts = true := by
  obtain ⟨more, split⟩ := splitModule_le less
  unfold supportsModule at supported ⊢
  rw [← split, supportsStmts_append, Bool.and_eq_true] at supported
  rw [← supported.1]
  exact (supportsStmts_alike skip (c.under_alike o) _ false).symm

/-- What a file is serialized to is in what it is serialized to with the other options, up to what
is said of reachability. -/
structure FileExtends (c : Config) (out out' : SerializedFile) : Prop where
  tree : ∃ tree tree' : List (WStmt c.cacheVersion), out.bytes = encModule tree ∧
    out'.bytes = encModule tree' ∧ unflaggedStmts tree <+: unflaggedStmts tree'
  imports : (out.imports.map fun entry => (entry.toWire c).unflagged)
    <+: out'.imports.map fun entry => (entry.toWire c).unflagged
  isPartialPackage : out.isPartialPackage = true → out'.isPartialPackage = true

theorem FileExtends.ignored {file : ParsedFile} {ignore : IgnoreLine}
    (ignored : file.moduleIgnore c = some ignore) :
    ∃ out, serializePythonFile c skip file = some out ∧
      serializePythonFile (c.under o) skip file = some out ∧ FileExtends c out out := by
  have ignored' : file.moduleIgnore (c.under o) = some ignore := ignored
  refine ⟨_, serializePythonFile_ignored_eq ignored, serializePythonFile_ignored_eq ignored', ?_⟩
  exact ⟨⟨[], [], rfl, rfl, List.prefix_rfl⟩, List.prefix_rfl, id⟩

theorem FileExtends.written {file : ParsedFile} {out out' : SerializedFile}
    (less : KeepsLess c o file.body) (ran : FileRun c skip file out)
    (ran' : FileRun (c.under o) skip file out') : FileExtends c out out' := by
  obtain ⟨imports, getattr⟩ := moduleTrace_agree skip less
  constructor
  · exact ⟨_, _, ran.bytes, ran'.bytes, module_agree skip less⟩
  · rw [ran.imports, ran'.imports]
    exact imports
  · rw [ran.isPartialPackage, ran'.isPartialPackage, Bool.and_eq_true, Bool.and_eq_true]
    exact And.imp_right getattr

/-- The options that keep no more of a file do not panic where the others do not. -/
theorem serializePythonFile_agree {file : ParsedFile} (less : KeepsLess c o file.body) :
    match serializePythonFile c skip file, serializePythonFile (c.under o) skip file with
    | some out, some out' => FileExtends c out out'
    | none, some _ => False
    | _, none => True := by
  cases ignored : file.moduleIgnore c with
  | some ignore =>
    obtain ⟨out, run, run', extends'⟩ := FileExtends.ignored (o := o) skip ignored
    rw [run, run']
    exact extends'
  | none =>
    have ran := serializePythonFile_run c skip ignored
    have ignored' : file.moduleIgnore (c.under o) = none := ignored
    have ran' := serializePythonFile_run (c.under o) skip ignored'
    cases result' : serializePythonFile (c.under o) skip file with
    | none =>
      cases serializePythonFile c skip file <;> trivial
    | some out' =>
      rw [result'] at ran'
      cases result : serializePythonFile c skip file with
      | none =>
        rw [result] at ran
        have supported := supportsModule_agree skip less ran'.supported
        rw [ran] at supported
        cases supported
      | some out =>
        rw [result] at ran
        exact .written skip less ran ran'

end Modules

section Requests

namespace Request

variable (v : Vendored) (request : Request) (o : Options)

/-- The request with other options of the same cache version. -/
def under : Request :=
  { request with options := { o with cacheVersion := request.options.cacheVersion } }

/-- How many statements come before an assertion that always fails, itself included. -/
def keeps : Nat := (splitModule (request.config v).options (request.body v)).1.length

theorem scan_under : (request.under o).scan v = request.scan v := by
  have skips : skipCommented request.source (request.under o).options
      = skipCommented request.source request.options := by
    funext token
    rfl
  have rounds : scanComment v.alphanumeric v.comments request.source (request.under o).options
      = scanComment v.alphanumeric v.comments request.source request.options := by
    funext scan token
    simp only [scanComment, skips]
  change extractTypeCommentsAndIgnores v.alphanumeric v.comments request.source
    (request.under o).options (request.tokens v) = _
  simp only [Request.scan, extractTypeCommentsAndIgnores, rounds]

theorem config_under :
    (request.under o).config v = (request.config v).under ((request.under o).config v).options := by
  simp only [Request.config, Request.overrides, scan_under]
  rfl

theorem keepsLess (less : request.keeps v ≤ (request.under o).keeps v) :
    KeepsLess (request.config v) ((request.under o).config v).options
      (request.file v (request.body v)).body := by
  unfold KeepsLess
  rw [← request.config_under v o]
  exact less

theorem skips_under : (request.under o).skips v = request.skips v := by
  simp only [Request.skips, Request.overrides, scan_under]
  rfl

theorem file_under (body : List Stmt) : (request.under o).file v body = request.file v body := by
  simp only [Request.file, scan_under]
  rfl

end Request

/-- All that is returned in the first place is returned in the second, up to what is said of
reachability. -/
structure ReturnsExtended (cv : Nat) (out out' : SerializedSource) : Prop where
  tree : ∃ tree tree' : List (WStmt cv), (∀ r, decModule (out.bytes ++ r) = some (tree, r)) ∧
    (∀ r, decModule (out'.bytes ++ r) = some (tree', r)) ∧
    unflaggedStmts tree <+: unflaggedStmts tree'
  table : ∃ table table' : List WImport,
    (∀ r, decImportTable (out.importBytes ++ r) = some (table, r)) ∧
    (∀ r, decImportTable (out'.importBytes ++ r) = some (table', r)) ∧
    table.map WImport.unflagged <+: table'.map WImport.unflagged
  isPartialPackage : out.isPartialPackage = true → out'.isPartialPackage = true
  sourceHash : out.sourceHash = out'.sourceHash
  mypyComments : out.mypyComments = out'.mypyComments

variable (v : Vendored) (request : Request) (o : Options)

theorem Request.serialize_agree (less : request.keeps v ≤ (request.under o).keeps v) :
    match request.serialize v, (request.under o).serialize v with
    | some out, some out' => ReturnsExtended request.options.cacheVersion out out'
    | none, some _ => False
    | _, none => True := by
  have body : (request.under o).body v = request.body v := rfl
  have config := request.config_under v o
  have files := serializePythonFile_agree (request.skips v) (request.keepsLess v o less)
  rw [← config] at files
  rw [request.serialize_eq v, (request.under o).serialize_eq v, request.skips_under v o,
    request.file_under v o, body, request.scan_under v o]
  generalize serializePythonFile (request.config v) (request.skips v)
    (request.file v (request.body v)) = out at files ⊢
  generalize serializePythonFile ((request.under o).config v) (request.skips v)
    (request.file v (request.body v)) = out' at files ⊢
  cases out' with
  | none => cases out <;> trivial
  | some out' =>
    cases out with
    | none => exact files
    | some out =>
      obtain ⟨tree, tree', bytes, bytes', start⟩ := files.tree
      constructor
      · refine ⟨tree, tree', ?_, ?_, start⟩
        · simp only [bytes]
          exact (reads_module tree).run_eq
        · simp only [bytes']
          exact (reads_module tree').run_eq
      · refine ⟨_, _, (reads_importTable _).run_eq, (reads_importTable _).run_eq, ?_⟩
        rw [List.map_map, List.map_map]
        exact files.imports
      · exact files.isPartialPackage
      · rfl
      · rfl

/-- The options that say what is reachable only say that. With other options of the same cache
version the tree and the table of imports are the same up to the flags in them, as far as both keep
the file, and whoever keeps no more of it does not panic where the other does not. -/
theorem serialize_options_annotate (v : Vendored) (request : Request) (o : Options) :
    match request.serialize v, (request.under o).serialize v with
    | some out, some out' =>
      (request.keeps v ≤ (request.under o).keeps v →
        ReturnsExtended request.options.cacheVersion out out') ∧
      ((request.under o).keeps v ≤ request.keeps v →
        ReturnsExtended request.options.cacheVersion out' out)
    | some _, none => request.keeps v < (request.under o).keeps v
    | none, some _ => (request.under o).keeps v < request.keeps v
    | none, none => True := by
  have there := request.serialize_agree v o
  have back := (request.under o).serialize_agree v request.options
  have same : (request.under o).under request.options = request := rfl
  rw [same] at back
  cases out : request.serialize v with
  | none =>
    cases out' : (request.under o).serialize v with
    | none => trivial
    | some out' =>
      rw [out, out'] at there
      exact Nat.lt_of_not_le there
  | some out =>
    cases out' : (request.under o).serialize v with
    | none =>
      rw [out, out'] at back
      exact Nat.lt_of_not_le back
    | some out' =>
      rw [out, out'] at there back
      exact ⟨there, back⟩

end Requests

end AstSerialize
