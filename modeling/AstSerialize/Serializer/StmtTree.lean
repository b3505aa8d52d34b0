import AstSerialize.Serializer.Hidden
import AstSerialize.Serializer.Stmt
import AstSerialize.Wire.Stmt

/-! The wire tree of a statement, what serializing it adds to the trace, and
whether the serializer panics in it. -/
namespace AstSerialize
open Coding

section Scopes

def Scope.enterFunction (scope : Scope) : Scope := { scope with inFunction := true }

def Scope.enterClass (scope : Scope) : Scope := { scope with inClass := true }

def Scope.enterBranch (scope : Scope) (flags : BranchFlags) : Scope :=
  { scope with
    unreachable := scope.unreachable || flags.unreachable
    mypyOnly := scope.mypyOnly || flags.mypyOnly }

end Scopes

section Blocks

variable (c : Config)

/-- The lines of a block of unreachable statements. -/
def skippedBlock (unreachable : Bool) : List Stmt → List Nat
  | [] => []
  | first :: rest =>
    if unreachable then
      List.range' (c.lineOf first.range.start)
        (c.lineOf (lastStmt first rest).range.stop + 1 - c.lineOf first.range.start)
    else []

def blockTrace (scope : Scope) (block : List Stmt) (items : Trace) : Trace :=
  ⟨[], skippedBlock c scope.unreachable block, false⟩ + items

/-- A block in a position with a fallback. -/
def toWireBlock (scope : Scope) (fallback : TextRange) :
    List (WStmt c.cacheVersion) → WBlock c.cacheVersion
  | [] => .empty scope.unreachable (c.location fallback)
  | first :: rest => .stmts scope.unreachable first rest

end Blocks

section Definitions

variable (c : Config) (scope : Scope)

def toWireTypeParam (kind : Int) (name : Identifier) (bound : Option Expr) (values : List Expr)
    (default : Option Expr) : WTypeParam c.cacheVersion where
  kind := kind
  name := name.bytes
  bound := bound.map (toWireType c scope.isEvaluated)
  values := toWireTypes c (toWireStringType c false) scope.isEvaluated values
  default := default.map (toWireType c scope.isEvaluated)

def toWireTypeParams : List TypeParam → List (WTypeParam c.cacheVersion)
  | [] => []
  | .typeVar name bound default :: params =>
    toWireTypeParam c scope typeVarKind name (typeVarBound bound).1 (typeVarBound bound).2 default
      :: toWireTypeParams params
  | .paramSpec name default :: params =>
    toWireTypeParam c scope paramSpecKind name none [] default :: toWireTypeParams params
  | .typeVarTuple name default :: params =>
    toWireTypeParam c scope typeVarTupleKind name none [] default :: toWireTypeParams params

/-- An annotation has precedence over the type comment, which is not evaluated. -/
def toWireReturns (head : FunctionHead) (retComment : Option Expr) :
    Option (WType c.cacheVersion) :=
  match head.returns with
  | some ret => some (toWireType c scope.isEvaluated ret)
  | none => retComment.map fun comment => toWireType c false (comment.relocate head.range)

def getattrTrace (head : FunctionHead) : Trace :=
  if !scope.inClass && !scope.inFunction && head.name.id = "__getattr__" then ⟨[], [], true⟩ else 0

/-- Where a definition is, decorated or not. -/
def functionLocation (head : FunctionHead) : Location :=
  match head.decoratorList with
  | [] => c.location head.range
  | _ :: _ => c.defLocation head

def toWireFunction (head : FunctionHead) (comment : FuncComment) (body : WBlock c.cacheVersion) :
    WFunction c.cacheVersion :=
  .mk head.name.bytes (toWireParameters c scope comment.argTypes head.parameters) body head.isAsync
    (head.typeParams.map (toWireTypeParams c scope)) (toWireReturns c scope head comment.retType)
    (fun _ => comment.present) (functionLocation c head)

def toWireFunctionDef (head : FunctionHead) (comment : FuncComment)
    (body : WBlock c.cacheVersion) : WStmt c.cacheVersion :=
  match head.decoratorList with
  | [] => .funcDef (toWireFunction c scope head comment body)
  | first :: _ =>
    .decorator (toWireExprs c scope (head.decoratorList.map (·.expression)))
      (c.source.lineColumn first.range.start).line (c.source.lineColumn first.range.start).column
      (toWireFunction c scope head comment body)

/-- Where the serializer panics there are no comments. -/
def funcComment (head : FunctionHead) (body : List Stmt) : FuncComment :=
  (findFuncTypeComment c scope.inClass head.parameters body).getD
    ⟨List.replicate head.parameters.len none, none, []⟩

def toWireClassKeywords : List Keyword → List (Bytes × WExpr c.cacheVersion)
  | [] => []
  | .mk (some arg) value :: keywords =>
    (arg.bytes, toWireExpr c scope value) :: toWireClassKeywords keywords
  | .mk none _ :: keywords => toWireClassKeywords keywords

def supportsKeywords : List Keyword → Bool
  | [] => true
  | .mk (some _) value :: keywords => supportsExpr c value && supportsKeywords keywords
  | .mk none _ :: keywords => supportsKeywords keywords

def classLocation (head : ClassHead) : Location :=
  match head.decoratorList.getLast? with
  | none => c.location head.range
  | some lastDecorator => c.classLocation head lastDecorator

def toWireClassDef (head : ClassHead) (body : WBlock c.cacheVersion) : WStmt c.cacheVersion :=
  .classDef head.name.bytes body (toWireExprs c scope head.bases)
    (toWireExprs c scope (head.decoratorList.map (·.expression)))
    (head.typeParams.map (toWireTypeParams c scope)) (toWireClassKeywords c scope head.namedKeywords)
    (classLocation c head)

end Definitions

section Simple

variable (c : Config) (scope : Scope)

def toWireAlias (name : Alias) : WAlias := (name.bytes, name.asBytes)

/-- The flags of an import statement in the scope. -/
def importFlags (isLazy : Bool) : UInt8 :=
  makeImportFlags scope.inFunction scope.unreachable scope.mypyOnly isLazy

def toWireImport (names : List Alias) (isLazy : Bool) (range : TextRange) : WStmt c.cacheVersion :=
  .import (names.map toWireAlias) (c.location range) fun _ => (importFlags scope isLazy).toNat

def toWireImportFrom (module : Option Identifier) (names : List Alias) (level : UInt32)
    (isLazy : Bool) (range : TextRange) : WStmt c.cacheVersion :=
  if isWildcard names then
    .importAll (utf8 (moduleName module)) level.toNat (c.location range)
      fun _ => (importFlags scope isLazy).toNat
  else
    .importFrom level.toNat (utf8 (moduleName module)) (names.map toWireAlias) (c.location range)
      fun _ => (importFlags scope isLazy).toNat

def toWireAssignType (range : TextRange) : Option (WType c.cacheVersion) :=
  match c.assignComment range with
  | some (.regular type) => some (toWireType c false (type.relocate range))
  | some (.invalid _) => some (toWireInvalid c none none none range)
  | _ => none

def toWireValueOrTemp : Option Expr → WExpr c.cacheVersion
  | some value => toWireExpr c scope value
  | none => .temp

def toWireDelTargets (targets : List Expr) (range : TextRange) : WExpr c.cacheVersion :=
  match targets with
  | [target] => toWireExpr c scope target
  | targets => .tuple (toWireExprs c scope targets) (c.location range)

def toWireWithItems :
    List WithItem → List (WExpr c.cacheVersion × Option (WExpr c.cacheVersion))
  | [] => []
  | item :: items =>
    (toWireExpr c scope item.contextExpr, toWireOptExpr c scope item.optionalVars)
      :: toWireWithItems items

def supportsWithItems : List WithItem → Bool
  | [] => true
  | item :: items =>
    supportsExpr c item.contextExpr && (supportsOptExpr c item.optionalVars
      && supportsWithItems items)

def toWireHandlerName (name : Option Identifier) : Option (WHandlerName c.cacheVersion) :=
  name.map fun name => (name.bytes, fun _ => c.location name.range)

def supportsHandlerTypes : List ExceptHandler → Bool
  | [] => true
  | .mk type _ _ _ :: handlers => supportsOptExpr c type && supportsHandlerTypes handlers

/-- An optional block, whose statements have these trees. -/
def toWireOptBlock (block : List Stmt) (range : TextRange)
    (items : List (WStmt c.cacheVersion)) : Option (WBlock c.cacheVersion) :=
  if block.isEmpty then none else some (toWireBlock c scope range items)

def optBlockTrace (block : List Stmt) (items : Trace) : Trace :=
  if block.isEmpty then 0 else blockTrace c scope block items

def toWireSyntheticElse (range : TextRange) (synthetic : Option BranchFlags) :
    Option (WBlock c.cacheVersion) :=
  match synthetic with
  | none => none
  | some flags =>
    if flags.unreachable then
      some (.empty (scope.enterBranch flags).unreachable (c.location range))
    else none

end Simple

section Stmts

variable (c : Config) (skip : Bool)

mutual

def toWireStmt (scope : Scope) : Stmt → WStmt c.cacheVersion
  | .functionDef head body =>
    toWireFunctionDef c scope head (funcComment c scope head body) <|
      if omitsBody skip scope.inClass head body then
        .empty scope.unreachable (c.location (bodyRange head body))
      else toWireBlock c scope head.range (toWireStmts scope.enterFunction body)
  | .classDef head body =>
    toWireClassDef c scope head (toWireBlock c scope head.range (toWireStmts scope.enterClass body))
  | .expr value _ => .expr (toWireExpr c scope value)
  | .assign targets value range =>
    .assign (toWireExprs c scope targets) (toWireExpr c scope value) (toWireAssignType c range) false
      (c.location range)
  | .annAssign target ann value range =>
    .assign [toWireExpr c scope target] (toWireValueOrTemp c scope value)
      (some (toWireType c scope.isEvaluated ann)) true (c.location range)
  | .augAssign target op value range =>
    .operatorAssignment (utf8 op.asStr) (toWireExpr c scope target) (toWireExpr c scope value)
      (c.location range)
  | .import names isLazy range => toWireImport c scope names isLazy range
  | .importFrom module names level isLazy range =>
    toWireImportFrom c scope module names level isLazy range
  | .return value range => .return (toWireOptExpr c scope value) (c.location range)
  | .raise exc cause range =>
    .raise (toWireOptExpr c scope exc) (toWireOptExpr c scope cause) (c.location range)
  | .assert test msg range =>
    .assert (toWireExpr c scope test) (toWireOptExpr c scope msg) (c.location range)
  | .if test body clauses range =>
    let flags := ifFlags c.options test clauses
    .if (toWireExpr c scope test)
      (toWireBlock c (scope.enterBranch flags.main) range
        (toWireStmts (scope.enterBranch flags.main) body))
      (toWireElifs scope flags.clauses clauses)
      (toWireOrelse scope flags.clauses (toWireSyntheticElse c scope range flags.synthetic) clauses)
      (c.location range)
  | .while test body orelse range =>
    .while (toWireExpr c scope test) (toWireBlock c scope range (toWireStmts scope body))
      (.mk scope.unreachable (toWireStmts scope orelse)) (c.location range)
  | .for isAsync target iter body orelse range =>
    .for (toWireExpr c scope target) (toWireExpr c scope iter)
      (toWireBlock c scope range (toWireStmts scope body))
      (.mk scope.unreachable (toWireStmts scope orelse)) isAsync (c.location range)
  | .with isAsync items body range =>
    .with (toWireWithItems c scope items) (toWireBlock c scope range (toWireStmts scope body))
      isAsync (c.location range)
  | .pass range => .pass (c.location range)
  | .break range => .break (c.location range)
  | .continue range => .continue (c.location range)
  | .try body handlers orelse finalbody isStar range =>
    .try (toWireBlock c scope range (toWireStmts scope body)) (toWireHandlers scope handlers)
      (toWireOptBlock c scope orelse range (toWireStmts scope orelse))
      (toWireOptBlock c scope finalbody range (toWireStmts scope finalbody)) isStar
      (c.location range)
  | .delete targets range => .del (toWireDelTargets c scope targets range) (c.location range)
  | .global names range => .global (names.map Identifier.bytes) (c.location range)
  | .nonlocal names range => .nonlocal (names.map Identifier.bytes) (c.location range)
  | .match subject cases range =>
    .match (toWireExpr c scope subject)
      (toWireCases scope (IfReachabilityAnalyzer.new.caseFlags c.options cases) cases)
      (c.location range)
  | .typeAlias name typeParams value range =>
    .typeAlias (toWireExpr c scope name) (toWireTypeParams c scope (typeParams.getD []))
      (toWireExpr c scope value) (c.location range)
  -- the serializer panics here
  | .ipyEscapeCommand range => .pass (c.location range)

def toWireStmts (scope : Scope) : List Stmt → List (WStmt c.cacheVersion)
  | [] => []
  | stmt :: stmts => toWireStmt scope stmt :: toWireStmts scope stmts

def toWireElifs (scope : Scope) (flags : List BranchFlags) :
    ElifElseClauses → List (WElif c.cacheVersion)
  | .elif test body range rest =>
    .mk (toWireExpr c scope test)
        (toWireBlock c (scope.enterBranch (flags.headD ⟨false, false⟩)) range
          (toWireStmts (scope.enterBranch (flags.headD ⟨false, false⟩)) body))
      :: toWireElifs scope flags.tail rest
  | .nil | .else _ _ => []

/-- The `else` block of a chain, or what stands for it. -/
def toWireOrelse (scope : Scope) (flags : List BranchFlags)
    (synthetic : Option (WBlock c.cacheVersion)) :
    ElifElseClauses → Option (WBlock c.cacheVersion)
  | .nil => synthetic
  | .elif _ _ _ rest => toWireOrelse scope flags.tail synthetic rest
  | .else body range =>
    some (toWireBlock c (scope.enterBranch (flags.headD ⟨false, false⟩)) range
      (toWireStmts (scope.enterBranch (flags.headD ⟨false, false⟩)) body))

def toWireHandlers (scope : Scope) : List ExceptHandler → List (WHandler c.cacheVersion)
  | [] => []
  | .mk type name body range :: handlers =>
    .mk (toWireOptExpr c scope type) (toWireHandlerName c name)
        (toWireBlock c scope range (toWireStmts scope body))
      :: toWireHandlers scope handlers

def toWireCases (scope : Scope) (flags : List BranchFlags) :
    List MatchCase → List (WCase c.cacheVersion)
  | [] => []
  | .mk pattern guard body range :: cases =>
    .mk (toWirePattern c scope pattern) (toWireOptExpr c scope guard)
        (toWireBlock c (scope.enterBranch (flags.headD ⟨false, false⟩)) range
          (toWireStmts (scope.enterBranch (flags.headD ⟨false, false⟩)) body))
      :: toWireCases scope flags.tail cases

end

mutual

/-- What the statement adds to the trace. -/
def stmtTrace (scope : Scope) : Stmt → Trace
  | .functionDef head body =>
    getattrTrace scope head +
      if omitsBody skip scope.inClass head body then 0
      else blockTrace c scope body (stmtsTrace scope.enterFunction body)
  | .classDef _ body => blockTrace c scope body (stmtsTrace scope.enterClass body)
  | .import names isLazy _ => ⟨names.map (importEntry (importFlags scope isLazy)), [], false⟩
  | .importFrom module names level isLazy range =>
    ⟨[fromEntry module names level range (importFlags scope isLazy)], [], false⟩
  | .if test body clauses _ =>
    let flags := ifFlags c.options test clauses
    blockTrace c (scope.enterBranch flags.main) body
        (stmtsTrace (scope.enterBranch flags.main) body)
      + clausesTrace scope flags.clauses clauses
  | .while _ body orelse _ | .for _ _ _ body orelse _ =>
    blockTrace c scope body (stmtsTrace scope body)
      + blockTrace c scope orelse (stmtsTrace scope orelse)
  | .with _ _ body _ => blockTrace c scope body (stmtsTrace scope body)
  | .try body handlers orelse finalbody _ _ =>
    blockTrace c scope body (stmtsTrace scope body) + (handlersTrace scope handlers
      + (optBlockTrace c scope orelse (stmtsTrace scope orelse)
        + optBlockTrace c scope finalbody (stmtsTrace scope finalbody)))
  | .match _ cases _ =>
    casesTrace scope (IfReachabilityAnalyzer.new.caseFlags c.options cases) cases
  | .return _ _ | .delete _ _ | .typeAlias _ _ _ _ | .assign _ _ _ | .augAssign _ _ _ _
  | .annAssign _ _ _ _ | .raise _ _ _ | .assert _ _ _ | .global _ _ | .nonlocal _ _ | .expr _ _
  | .pass _ | .break _ | .continue _ | .ipyEscapeCommand _ => 0

def stmtsTrace (scope : Scope) : List Stmt → Trace
  | [] => 0
  | stmt :: stmts => stmtTrace scope stmt + stmtsTrace scope stmts

def clausesTrace (scope : Scope) (flags : List BranchFlags) : ElifElseClauses → Trace
  | .nil => 0
  | .elif _ body _ rest =>
    blockTrace c (scope.enterBranch (flags.headD ⟨false, false⟩)) body
        (stmtsTrace (scope.enterBranch (flags.headD ⟨false, false⟩)) body)
      + clausesTrace scope flags.tail rest
  | .else body _ =>
    blockTrace c (scope.enterBranch (flags.headD ⟨false, false⟩)) body
      (stmtsTrace (scope.enterBranch (flags.headD ⟨false, false⟩)) body)

def handlersTrace (scope : Scope) : List ExceptHandler → Trace
  | [] => 0
  | .mk _ _ body _ :: handlers =>
    blockTrace c scope body (stmtsTrace scope body) + handlersTrace scope handlers

def casesTrace (scope : Scope) (flags : List BranchFlags) : List MatchCase → Trace
  | [] => 0
  | .mk _ _ body _ :: cases =>
    blockTrace c (scope.enterBranch (flags.headD ⟨false, false⟩)) body
        (stmtsTrace (scope.enterBranch (flags.headD ⟨false, false⟩)) body)
      + casesTrace scope flags.tail cases

end

mutual

/-- The serializer does not panic in the statement: not in its expressions, not in its IPython
commands, and the tokens before each function body are as the search for comments needs them. -/
def supportsStmt (inClass : Bool) : Stmt → Bool
  | .functionDef head body =>
    (findFuncTypeComment c inClass head.parameters body).isSome
      && (supportsExprs c (head.decoratorList.map (·.expression))
      && (supportsParameters c head.parameters
      && if omitsBody skip inClass head body then true else supportsStmts inClass body))
  | .classDef head body =>
    supportsStmts true body && (supportsExprs c head.bases
      && (supportsExprs c (head.decoratorList.map (·.expression))
      && supportsKeywords c head.namedKeywords))
  | .expr value _ => supportsExpr c value
  | .assign targets value _ => supportsExprs c targets && supportsExpr c value
  | .annAssign target _ value _ => supportsExpr c target && supportsOptExpr c value
  | .augAssign target _ value _ => supportsExpr c target && supportsExpr c value
  | .return value _ => supportsOptExpr c value
  | .raise exc cause _ => supportsOptExpr c exc && supportsOptExpr c cause
  | .assert test msg _ => supportsExpr c test && supportsOptExpr c msg
  | .if test body clauses _ =>
    supportsExpr c test && (supportsStmts inClass body && supportsClauses inClass clauses)
  | .while test body orelse _ =>
    supportsExpr c test && (supportsStmts inClass body && supportsStmts inClass orelse)
  | .for _ target iter body orelse _ =>
    supportsExpr c target && (supportsExpr c iter
      && (supportsStmts inClass body && supportsStmts inClass orelse))
  | .with _ items body _ => supportsWithItems c items && supportsStmts inClass body
  | .try body handlers orelse finalbody _ _ =>
    supportsStmts inClass body && (supportsHandlerTypes c handlers
      && (supportsHandlers inClass handlers
      && (supportsStmts inClass orelse && supportsStmts inClass finalbody)))
  | .delete targets _ => supportsExprs c targets
  | .match subject cases _ => supportsExpr c subject && supportsCases inClass cases
  | .typeAlias name _ value _ => supportsExpr c name && supportsExpr c value
  | .import _ _ _ | .importFrom _ _ _ _ _ | .global _ _ | .nonlocal _ _ | .pass _ | .break _
  | .continue _ => true
  | .ipyEscapeCommand _ => false

def supportsStmts (inClass : Bool) : List Stmt → Bool
  | [] => true
  | stmt :: stmts => supportsStmt inClass stmt && supportsStmts inClass stmts

def supportsClauses (inClass : Bool) : ElifElseClauses → Bool
  | .nil => true
  | .elif test body _ rest =>
    supportsExpr c test && (supportsStmts inClass body && supportsClauses inClass rest)
  | .else body _ => supportsStmts inClass body

def supportsHandlers (inClass : Bool) : List ExceptHandler → Bool
  | [] => true
  | .mk _ _ body _ :: handlers =>
    supportsStmts inClass body && supportsHandlers inClass handlers

def supportsCases (inClass : Bool) : List MatchCase → Bool
  | [] => true
  | .mk pattern guard body _ :: cases =>
    supportsPattern c pattern && (supportsOptExpr c guard
      && (supportsStmts inClass body && supportsCases inClass cases))

end

end Stmts

end AstSerialize
