import AstSerialize.Reachability.Chain
import AstSerialize.Serializer.FuncComment
import AstSerialize.Serializer.FuncEffect
import AstSerialize.Serializer.Pattern

/-! `impl Ser for ast::Stmt` and `impl Ser for ast::Mod`. -/
namespace AstSerialize
open Coding

section Scopes

def withinFunction (m : SerM Unit) : SerM Unit := do
  let wasInFunction ← (·.inFunction) <$> get
  modify fun s => { s with inFunction := true }
  m
  modify fun s => { s with inFunction := wasInFunction }

def withinClass (m : SerM Unit) : SerM Unit := do
  let wasInClass ← (·.inClass) <$> get
  modify fun s => { s with inClass := true }
  m
  modify fun s => { s with inClass := wasInClass }

def withBranchFlags (flags : BranchFlags) (m : SerM Unit) : SerM Unit := do
  let old ← (fun s => (s.currentUnreachable, s.currentMypyOnly)) <$> get
  modify fun s => { s with
    currentUnreachable := s.currentUnreachable || flags.unreachable
    currentMypyOnly := s.currentMypyOnly || flags.mypyOnly }
  m
  modify fun s => { s with currentUnreachable := old.1, currentMypyOnly := old.2 }

end Scopes

section Blocks

variable (c : Config)

/-- The last statement of a block. -/
def lastStmt (first : Stmt) (rest : List Stmt) : Stmt := rest.getLast?.getD first

/-- A block of unreachable statements is skipped. -/
def skipBlock (unreachable : Bool) : List Stmt → SerM Unit
  | [] => pure ()
  | first :: rest =>
    if unreachable then skipLines c first.range (lastStmt first rest).range else pure ()

/-- Without a fallback the reader can do without the location of an empty block. -/
def writeFallback : List Stmt → Option TextRange → SerM Unit
  | [], some range => writeLocation c range
  | _, _ => pure ()

/-- `serialize_block`; the statements are written by `items`. -/
def serializeBlock (block : List Stmt) (fallback : Option TextRange) (items : SerM Unit) :
    SerM Unit := do
  writeTag .block
  writeTag .listGen
  writeUsize block.length
  let unreachable ← (·.currentUnreachable) <$> get
  writeBool unreachable
  skipBlock c unreachable block
  writeFallback c block fallback
  items
  writeEndTag

def serializeEmptyBlock (range : TextRange) : SerM Unit := do
  writeTag .block
  writeTag .listGen
  writeInt 0
  writeBool (← (·.currentUnreachable) <$> get)
  writeLocation c range
  writeEndTag

end Blocks

section Definitions

variable (c : Config)

/-- An optional type with its flag. -/
def serializeOptType : Option Expr → SerM Unit
  | some type => do
    writeBool true
    serializeType c type
  | none => writeBool false

def typeVarKind : Int := 0
def paramSpecKind : Int := 1
def typeVarTupleKind : Int := 2

/-- The upper bound of a type variable, and its values if the bound is a tuple. -/
def typeVarBound : Option Expr → Option Expr × List Expr
  | some (.tuple elts _ _) => (none, elts)
  | bound => (bound, [])

def serializeTypeParam (kind : Int) (name : Identifier) (bound : Option Expr)
    (values : List Expr) (default : Option Expr) : SerM Unit := do
  writeTaggedInt kind
  writeBytes name.bytes
  serializeOptType c bound
  writeTag .listGen
  writeInt values.length
  serializeTypes c (serializeStringType c) values
  serializeOptType c default

def serializeTypeParams : List TypeParam → SerM Unit
  | [] => pure ()
  | .typeVar name bound default :: params => do
    serializeTypeParam c typeVarKind name (typeVarBound bound).1 (typeVarBound bound).2 default
    serializeTypeParams params
  | .paramSpec name default :: params => do
    serializeTypeParam c paramSpecKind name none [] default
    serializeTypeParams params
  | .typeVarTuple name default :: params => do
    serializeTypeParam c typeVarTupleKind name none [] default
    serializeTypeParams params

def serializeOptTypeParams : Option (List TypeParam) → SerM Unit
  | some params => do
    writeBool true
    writeInt params.length
    serializeTypeParams c params
  | none => writeBool false

def writeLocationOf (loc : Location) : SerM Unit := do
  writeTag .location
  writeInt loc.line
  writeInt loc.column
  writeInt loc.endLine
  writeInt loc.endColumn

/-- The `def` keyword of a decorated function, computed from the name as if there were single
spaces before it. -/
def Config.defLocation (c : Config) (head : FunctionHead) : Location :=
  let nameLoc := c.source.lineColumn head.name.range.start
  let endLoc := c.source.lineColumn head.range.stop
  let defOffset : Int := if head.isAsync then 10 else 4
  let defColumn : Int := (nameLoc.column - 1 : Nat) - defOffset
  ⟨nameLoc.line, defColumn, endLoc.line - nameLoc.line, (endLoc.column - 1 : Nat) - defColumn⟩

/-- A decorated class: the line of the name, the column of the last decorator. -/
def Config.classLocation (c : Config) (head : ClassHead) (lastDecorator : Decorator) : Location :=
  let decoratorLoc := c.source.lineColumn lastDecorator.range.start
  let nameLoc := c.source.lineColumn head.name.range.start
  let endLoc := c.source.lineColumn head.range.stop
  let stColumn : Int := (decoratorLoc.column - 1 : Nat)
  ⟨nameLoc.line, stColumn, endLoc.line - nameLoc.line, (endLoc.column - 1 : Nat) - stColumn⟩

def reportErrors (range : TextRange) : List String → SerM Unit
  | [] => pure ()
  | error :: errors => do
    addError c error range false
    reportErrors range errors

/-- The list of the decorators and where the first one starts, if there are any. -/
def serializeDecorators (decoratorList : List Decorator) : SerM Unit :=
  match decoratorList with
  | [] => pure ()
  | first :: _ => do
    writeTag .decorator
    writeTag .listGen
    writeUsize decoratorList.length
    serializeExprs c (decoratorList.map (·.expression))
    let startLoc := c.source.lineColumn first.range.start
    writeTaggedInt startLoc.line
    writeTaggedInt startLoc.column

def noteGetattr (head : FunctionHead) : SerM Unit := do
  let (inClass, inFunction) ← (fun s => (s.inClass, s.inFunction)) <$> get
  if !inClass && !inFunction && head.name.id = "__getattr__" then
    modify fun s => { s with topLevelGetattr := true }
  else pure ()

/-- The range of a body that is left out. -/
def bodyRange (head : FunctionHead) : List Stmt → TextRange
  | [] => head.range
  | first :: rest => ⟨first.range.start, (lastStmt first rest).range.stop⟩

/-- A body is left out if bodies are to be skipped and it has no effect. -/
def omitsBody (skip inClass : Bool) (head : FunctionHead) (body : List Stmt) : Bool :=
  skip && !hasExternallyVisibleEffect body head.parameters inClass

def serializeReturns (head : FunctionHead) (retComment : Option Expr) : SerM Unit := do
  if head.returns.isSome && retComment.isSome then
    addError c "Function has duplicate type signatures" head.range false
  match head.returns with
  | some ret => do
    writeBool true
    serializeType c ret
  | none =>
    match retComment with
    | some comment => do
      writeBool true
      unevaluated (serializeType c (comment.relocate head.range))
    | none => writeBool false

/-- Whether types of the function came from comments is written from some version on. -/
def writeTypeCommentFlag (comment : FuncComment) : SerM Unit :=
  if cvFuncTypeCommentFlag ≤ c.cacheVersion then writeBool comment.present else pure ()

/-- The end of a definition; a decorated one has an end tag more. -/
def closeFunction (head : FunctionHead) : SerM Unit :=
  match head.decoratorList with
  | [] => do
    writeLocation c head.range
    writeEndTag
  | _ :: _ => do
    writeLocationOf (c.defLocation head)
    writeEndTag
    writeEndTag

def serializeFunctionDef (skip : Bool) (head : FunctionHead) (body : List Stmt)
    (items : SerM Unit) : SerM Unit := do
  let inClass ← (·.inClass) <$> get
  match findFuncTypeComment c inClass head.parameters body with
  | none => panic
  | some comment => do
    reportErrors c head.range comment.errors
    serializeDecorators c head.decoratorList
    writeTag .funcDef
    writeBytes head.name.bytes
    serializeParameters c comment.argTypes head.parameters
    noteGetattr head
    withinFunction <|
      if omitsBody skip inClass head body then serializeEmptyBlock c (bodyRange head body)
      else serializeBlock c body (some head.range) items
    writeBool head.isAsync
    serializeOptTypeParams c head.typeParams
    serializeReturns c head comment.retType
    writeTypeCommentFlag c comment
    closeFunction c head

/-- The bases of a class, or the arguments of any other class definition. -/
def ClassHead.bases (head : ClassHead) : List Expr :=
  match head.arguments with
  | some arguments => arguments.args
  | none => []

/-- The keywords with a name. -/
def ClassHead.namedKeywords (head : ClassHead) : List Keyword :=
  match head.arguments with
  | some arguments => arguments.keywords.filter (·.arg.isSome)
  | none => []

def serializeClassKeywords : List Keyword → SerM Unit
  | [] => pure ()
  | .mk (some arg) value :: keywords => do
    writeBytes arg.bytes
    serializeExpr c value
    serializeClassKeywords keywords
  | .mk none _ :: keywords => serializeClassKeywords keywords

def writeClassLocation (head : ClassHead) : SerM Unit :=
  match head.decoratorList.getLast? with
  | none => writeLocation c head.range
  | some lastDecorator => writeLocationOf (c.classLocation head lastDecorator)

def serializeClassDef (head : ClassHead) (body : List Stmt) (items : SerM Unit) : SerM Unit := do
  writeTag .classDef
  writeBytes head.name.bytes
  withinClass (serializeBlock c body (some head.range) items)
  writeTag .listGen
  writeInt head.bases.length
  serializeExprs c head.bases
  writeTag .listGen
  writeInt head.decoratorList.length
  serializeExprs c (head.decoratorList.map (·.expression))
  serializeOptTypeParams c head.typeParams
  writeTag .dictStrGen
  writeInt head.namedKeywords.length
  serializeClassKeywords c head.namedKeywords
  writeClassLocation c head
  writeEndTag

end Definitions

section Imports

variable (c : Config)

def importFlagTopLevel : UInt8 := 1
def importFlagUnreachable : UInt8 := 2
def importFlagMypyOnly : UInt8 := 4
def importFlagLazy : UInt8 := 8

def makeImportFlags (inFunction unreachable mypyOnly isLazy : Bool) : UInt8 :=
  (if !inFunction then importFlagTopLevel else 0)
    ||| (if unreachable then importFlagUnreachable else 0)
    ||| (if mypyOnly then importFlagMypyOnly else 0)
    ||| (if isLazy then importFlagLazy else 0)

/-- `as i32`. -/
def wrapI32 (n : UInt32) : Int := if n.toNat < 2 ^ 31 then n.toNat else (n.toNat : Int) - 2 ^ 32

def pushImports (entries : List ImportStatement) : SerM Unit :=
  modify fun s => { s with imports := s.imports ++ entries }

def Alias.bytes (name : Alias) : Bytes := name.name.bytes

def Alias.asBytes (name : Alias) : Option Bytes := name.asname.map Identifier.bytes

def writeAlias (name : Alias) : SerM Unit := do
  writeBytes name.bytes
  writeOptBytes name.asBytes

def importEntry (flags : UInt8) (name : Alias) : ImportStatement :=
  .import name.name.id 0 (name.asname.map (·.id)) name.range flags

/-- The aliases of an `import` statement, each with its entry. -/
def serializeImportNames (flags : UInt8) : List Alias → SerM Unit
  | [] => pure ()
  | name :: names => do
    writeAlias name
    pushImports [importEntry flags name]
    serializeImportNames flags names

def writeAliases : List Alias → SerM Unit
  | [] => pure ()
  | name :: names => do
    writeAlias name
    writeAliases names

/-- Flags in the tree, from some version on. -/
def writeImportFlags (flags : UInt8) : SerM Unit :=
  if cvImportFlags ≤ c.cacheVersion then writeTaggedInt flags.toNat else pure ()

def currentImportFlags (isLazy : Bool) (s : Serializer) : UInt8 :=
  makeImportFlags s.inFunction s.currentUnreachable s.currentMypyOnly isLazy

def serializeImport (names : List Alias) (isLazy : Bool) (range : TextRange) : SerM Unit := do
  let flags ← currentImportFlags isLazy <$> get
  writeTag .import
  writeTaggedInt names.length
  serializeImportNames flags names
  writeLocation c range
  writeImportFlags c flags
  writeEndTag

def isWildcard : List Alias → Bool
  | [name] => name.name.id = "*"
  | _ => false

/-- The name of the module, empty for `from . import`. -/
def moduleName : Option Identifier → String
  | some module => module.id
  | none => ""

/-- The entry of a `from` import. -/
def fromEntry (module : Option Identifier) (names : List Alias) (level : UInt32)
    (range : TextRange) (flags : UInt8) : ImportStatement :=
  if isWildcard names then .importAll (moduleName module) (wrapI32 level) range flags
  else
    .importFrom (moduleName module) (wrapI32 level)
      (names.map fun name => (name.name.id, name.asname.map (·.id))) range flags

def serializeImportFrom (module : Option Identifier) (names : List Alias) (level : UInt32)
    (isLazy : Bool) (range : TextRange) : SerM Unit := do
  let flags ← currentImportFlags isLazy <$> get
  if isWildcard names then do
    writeTag .importAll
    writeBytes (utf8 (moduleName module))
    writeTaggedInt level.toNat
    writeLocation c range
    writeImportFlags c flags
    pushImports [fromEntry module names level range flags]
    writeEndTag
  else do
    writeTag .importFrom
    writeTaggedInt level.toNat
    writeBytes (utf8 (moduleName module))
    writeTaggedInt names.length
    writeAliases names
    pushImports [fromEntry module names level range flags]
    writeLocation c range
    writeImportFlags c flags
    writeEndTag

end Imports

section Simple

variable (c : Config)

/-- The type comment on the first line of an assignment, or else on its last line. -/
def Config.assignComment (c : Config) (range : TextRange) : Option ParsedTypeComment :=
  match c.typeComments (c.lineOf range.start) with
  | some comment => some comment
  | none => c.typeComments (c.lineOf range.stop)

def serializeAssignType (range : TextRange) : SerM Unit :=
  match c.assignComment range with
  | some (.regular type) => do
    writeBool true
    unevaluated (serializeType c (type.relocate range))
  | some (.invalid error) => do
    addError c error range false
    writeBool true
    serializeInvalidType c none none none
    writeLocation c range
    writeEndTag
  | _ => writeBool false

/-- The value of an annotation, or the node that stands for none. -/
def serializeValueOrTemp : Option Expr → SerM Unit
  | some value => serializeExpr c value
  | none => do
    writeTag .tempNode
    writeEndTag

/-- One target as it is, several as a tuple. -/
def serializeDelTargets (targets : List Expr) (range : TextRange) : SerM Unit :=
  match targets with
  | [target] => serializeExpr c target
  | targets => do
    writeTag .tupleExpr
    serializeVec targets.length (serializeExprs c targets)
    writeLocation c range
    writeEndTag

def serializeWithItems : List WithItem → SerM Unit
  | [] => pure ()
  | item :: items => do
    serializeExpr c item.contextExpr
    serializeOptExpr c item.optionalVars
    serializeWithItems items

def writeIdentifiers : List Identifier → SerM Unit
  | [] => pure ()
  | name :: names => do
    writeBytes name.bytes
    writeIdentifiers names

def ExceptHandler.type : ExceptHandler → Option Expr
  | .mk type _ _ _ => type

def ExceptHandler.name : ExceptHandler → Option Identifier
  | .mk _ name _ _ => name

/-- Several exception types without parentheses, before Python 3.14. -/
def needsParentheses (o : Options) (type : Option Expr) (name : Option Identifier) :
    Option TextRange :=
  match type with
  | some (.tuple _ parenthesized range) =>
    if (o.pythonVersion.1 < 3 || (o.pythonVersion.1 = 3 && o.pythonVersion.2 < 14))
        && !parenthesized && name.isNone then some range
    else none
  | _ => none

def serializeHandlerTypes : List ExceptHandler → SerM Unit
  | [] => pure ()
  | .mk type name _ _ :: handlers => do
    serializeOptExpr c type
    match needsParentheses c.options type name with
    | some range => addError c "multiple exception types must be parenthesized" range false
    | none => pure ()
    serializeHandlerTypes handlers

def serializeHandlerName : Option Identifier → SerM Unit
  | some name => do
    writeBool true
    writeBytes name.bytes
    if cvHandlerLocations ≤ c.cacheVersion then writeLocation c name.range else pure ()
  | none => writeBool false

def serializeHandlerNames : List ExceptHandler → SerM Unit
  | [] => pure ()
  | .mk _ name _ _ :: handlers => do
    serializeHandlerName c name
    serializeHandlerNames handlers

/-- A block with a flag in front, unless it is empty. -/
def serializeOptBlock (block : List Stmt) (range : TextRange) (items : SerM Unit) : SerM Unit :=
  if block.isEmpty then writeBool false
  else do
    writeBool true
    serializeBlock c block (some range) items

/-- An empty block in place of a missing `else` shows that it is unreachable. -/
def serializeSyntheticElse (range : TextRange) : Option BranchFlags → SerM Unit
  | none => pure ()
  | some flags =>
    if flags.unreachable then do
      writeBool true
      withBranchFlags flags (serializeEmptyBlock c range)
    else writeBool false

def ElifElseClauses.numElif : ElifElseClauses → Nat
  | .elif _ _ _ rest => rest.numElif + 1
  | _ => 0

def serializeTypeAlias (name : Expr) (typeParams : Option (List TypeParam)) (value : Expr)
    (range : TextRange) : SerM Unit := do
  writeTag .typeAliasStmt
  serializeExpr c name
  writeInt (typeParams.getD []).length
  serializeTypeParams c (typeParams.getD [])
  serializeExpr c value
  writeLocation c range
  writeEndTag

end Simple

section Stmts

variable (c : Config) (skip : Bool)

mutual

def serializeStmt : Stmt → SerM Unit
  | .functionDef head body => serializeFunctionDef c skip head body (serializeStmts body)
  | .classDef head body => serializeClassDef c head body (serializeStmts body)
  | .expr value _ => do
    writeTag .exprStmt
    serializeExpr c value
    writeEndTag
  | .assign targets value range => do
    writeTag .assign
    serializeVec targets.length (serializeExprs c targets)
    serializeExpr c value
    serializeAssignType c range
    writeBool false
    writeLocation c range
    writeEndTag
  | .annAssign target ann value range => do
    writeTag .assign
    writeTag .listGen
    writeInt 1
    serializeExpr c target
    serializeValueOrTemp c value
    writeBool true
    serializeType c ann
    writeBool true
    writeLocation c range
    writeEndTag
  | .augAssign target op value range => do
    writeTag .operatorAssignmentStmt
    writeBytes (utf8 op.asStr)
    serializeExpr c target
    serializeExpr c value
    writeLocation c range
    writeEndTag
  | .import names isLazy range => serializeImport c names isLazy range
  | .importFrom module names level isLazy range =>
    serializeImportFrom c module names level isLazy range
  | .return value range => do
    writeTag .return
    serializeOptExpr c value
    writeLocation c range
    writeEndTag
  | .raise exc cause range => do
    writeTag .raiseStmt
    serializeOptExpr c exc
    serializeOptExpr c cause
    writeLocation c range
    writeEndTag
  | .assert test msg range => do
    writeTag .assertStmt
    serializeExpr c test
    serializeOptExpr c msg
    writeLocation c range
    writeEndTag
  | .if test body clauses range => do
    -- the reachability of every block is known before anything is written
    let flags := ifFlags c.options test clauses
    writeTag .if
    serializeExpr c test
    withBranchFlags flags.main (serializeBlock c body (some range) (serializeStmts body))
    writeTaggedInt clauses.numElif
    serializeClauses flags.clauses clauses
    serializeSyntheticElse c range flags.synthetic
    writeLocation c range
    writeEndTag
  | .while test body orelse range => do
    writeTag .while
    serializeExpr c test
    serializeBlock c body (some range) (serializeStmts body)
    serializeBlock c orelse none (serializeStmts orelse)
    writeLocation c range
    writeEndTag
  | .for isAsync target iter body orelse range => do
    writeTag .forStmt
    serializeExpr c target
    serializeExpr c iter
    serializeBlock c body (some range) (serializeStmts body)
    serializeBlock c orelse none (serializeStmts orelse)
    writeBool isAsync
    writeLocation c range
    writeEndTag
  | .with isAsync items body range => do
    writeTag .withStmt
    writeTaggedInt items.length
    serializeWithItems c items
    serializeBlock c body (some range) (serializeStmts body)
    writeBool isAsync
    writeLocation c range
    writeEndTag
  | .pass range => do
    writeTag .passStmt
    writeLocation c range
    writeEndTag
  | .break range => do
    writeTag .breakStmt
    writeLocation c range
    writeEndTag
  | .continue range => do
    writeTag .continueStmt
    writeLocation c range
    writeEndTag
  | .try body handlers orelse finalbody isStar range => do
    writeTag .tryStmt
    serializeBlock c body (some range) (serializeStmts body)
    writeTaggedInt handlers.length
    serializeHandlerTypes c handlers
    serializeHandlerNames c handlers
    serializeHandlerBodies handlers
    serializeOptBlock c orelse range (serializeStmts orelse)
    serializeOptBlock c finalbody range (serializeStmts finalbody)
    writeBool isStar
    writeLocation c range
    writeEndTag
  | .delete targets range => do
    writeTag .delStmt
    serializeDelTargets c targets range
    writeLocation c range
    writeEndTag
  | .global names range => do
    writeTag .globalDecl
    writeTaggedInt names.length
    writeIdentifiers names
    writeLocation c range
    writeEndTag
  | .nonlocal names range => do
    writeTag .nonlocalDecl
    writeTaggedInt names.length
    writeIdentifiers names
    writeLocation c range
    writeEndTag
  | .match subject cases range => do
    let flags := IfReachabilityAnalyzer.new.caseFlags c.options cases
    writeTag .matchStmt
    serializeExpr c subject
    writeTaggedInt cases.length
    serializeCases flags cases
    writeLocation c range
    writeEndTag
  | .typeAlias name typeParams value range => serializeTypeAlias c name typeParams value range
  | .ipyEscapeCommand _ => panic

def serializeStmts : List Stmt → SerM Unit
  | [] => pure ()
  | stmt :: stmts => do
    serializeStmt stmt
    serializeStmts stmts

/-- The clauses with their flags, of which there are as many. -/
def serializeClauses (flags : List BranchFlags) : ElifElseClauses → SerM Unit
  | .nil => pure ()
  | .elif test body range rest => do
    serializeExpr c test
    withBranchFlags (flags.headD ⟨false, false⟩)
      (serializeBlock c body (some range) (serializeStmts body))
    serializeClauses flags.tail rest
  | .else body range => do
    writeBool true
    withBranchFlags (flags.headD ⟨false, false⟩)
      (serializeBlock c body (some range) (serializeStmts body))

def serializeHandlerBodies : List ExceptHandler → SerM Unit
  | [] => pure ()
  | .mk _ _ body range :: handlers => do
    serializeBlock c body (some range) (serializeStmts body)
    serializeHandlerBodies handlers

def serializeCases (flags : List BranchFlags) : List MatchCase → SerM Unit
  | [] => pure ()
  | .mk pattern guard body range :: cases => do
    serializePattern c pattern
    serializeOptExpr c guard
    withBranchFlags (flags.headD ⟨false, false⟩)
      (serializeBlock c body (some range) (serializeStmts body))
    serializeCases flags.tail cases

end

/-- The statements of a module up to a failing assertion, and those after it. -/
def splitModule (o : Options) : List Stmt → List Stmt × List Stmt
  | [] => ([], [])
  | stmt :: stmts =>
    if assertWillAlwaysFail o stmt then ([stmt], stmts)
    else
      let (body, stripped) := splitModule o stmts
      (stmt :: body, stripped)

/-- What comes after an assertion that always fails is stripped. -/
def serializeModule (stmts : List Stmt) : SerM Unit := do
  let (body, stripped) := splitModule c.options stmts
  skipBlock c true stripped
  writeTaggedInt body.length
  serializeStmts c skip body

end Stmts

end AstSerialize
