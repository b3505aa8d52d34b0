import AstSerialize.Serializer.File

/-! Where the serializer can stop. The places are listed in the order in which
it comes to them, each with the reason for which it stops there. -/
namespace AstSerialize

/-- The ways in which the serializer panics. -/
inductive Panic where
  /-- `unreachable!()` in `parse_int`, or the text of a literal that cannot be sliced. -/
  | escape
  /-- The tokens before a body, in `find_func_type_comment`. -/
  | tokens
  /-- `arg_comments[idx]` out of bounds. -/
  | argComment
  /-- `Expression unsupported`. -/
  | expression
  /-- The `unsupported` arms. -/
  | unsupported
  deriving DecidableEq, Repr

inductive Checkpoint where
  /-- A string begins, and clears the flag of surrogates. -/
  | clears
  | literal (value : String) (range : TextRange)
  | argComment (argComments : List (Option Expr)) (idx : Nat)
  | funcComment (inClass : Bool) (parameters : Parameters) (body : List Stmt)
  | unsupported

section Outcome

variable (c : Config)

/-- The flag of surrogates behind a checkpoint, or why the serializer does not get there. -/
def Checkpoint.pass (seen : Bool) : Checkpoint → Except Panic Bool
  | .clears => .ok false
  | .literal value range =>
    match surrogatesAfterLiteral c value range seen with
    | some noted => .ok noted
    | none => .error .escape
  | .argComment argComments idx =>
    if idx < argComments.length then .ok seen else .error .argComment
  | .funcComment inClass parameters body =>
    match findFuncTypeComment c inClass parameters body with
    | some _ => .ok seen
    | none => .error .tokens
  | .unsupported => .error .unsupported

/-- The step of the serializer that can stop at the checkpoint. -/
def Checkpoint.step : Checkpoint → SerM Unit
  | .clears => modify fun s => { s with hasSurrogates := false }
  | .literal value range => checkSurrogateCodepoint c value range
  | .argComment argComments idx =>
    match argComments[idx]? with
    | some _ => pure ()
    | none => panic
  | .funcComment inClass parameters body =>
    match findFuncTypeComment c inClass parameters body with
    | some _ => pure ()
    | none => panic
  | .unsupported => panic

/-- The checkpoints one after the other. -/
def outcome (points : List Checkpoint) (seen : Bool) : Except Panic Bool :=
  points.foldlM (Checkpoint.pass c) seen

end Outcome

section Exprs

/-- The comment of a parameter with a name for all further arguments. -/
def variadicCheckpoints (argComments : List (Option Expr)) (idx : Nat) :
    Option Parameter → List Checkpoint
  | none => []
  | some _ => [.argComment argComments idx]

mutual

def exprCheckpoints : Expr → List Checkpoint
  | .name _ _ | .numberLiteral _ _ | .booleanLiteral _ _ | .noneLiteral _ | .ellipsisLiteral _
  | .bytesLiteral _ _ => []
  | .attribute value _ _ | .unaryOp _ value _ | .yieldFrom value _ | .starred value _
  | .await value _ => exprCheckpoints value
  | .binOp left _ right _ | .subscript left right _ | .named left right _ =>
    exprCheckpoints left ++ exprCheckpoints right
  | .call func args keywords _ =>
    exprCheckpoints func ++ (exprsCheckpoints args ++ keywordsCheckpoints keywords)
  | .list elts _ _ | .tuple elts _ _ | .set elts _ | .boolOp _ elts _ => exprsCheckpoints elts
  | .generator elt generators _ | .listComp elt generators _ | .setComp elt generators _ =>
    exprCheckpoints elt ++ (targetsCheckpoints generators ++ (itersCheckpoints generators
      ++ condsCheckpoints generators))
  | .dictComp key value generators _ =>
    optExprCheckpoints key ++ (exprCheckpoints value ++ (targetsCheckpoints generators
      ++ (itersCheckpoints generators ++ condsCheckpoints generators)))
  | .yield value _ => optExprCheckpoints value
  | .compare left _ comparators _ => exprCheckpoints left ++ exprsCheckpoints comparators
  | .ifExp test body orelse _ =>
    exprCheckpoints body ++ (exprCheckpoints test ++ exprCheckpoints orelse)
  | .dict items _ => keysCheckpoints items ++ valuesCheckpoints items
  | .slice lower upper step _ =>
    optExprCheckpoints lower ++ (optExprCheckpoints upper ++ optExprCheckpoints step)
  | .stringLiteral value _ => .clears :: value.map fun part => .literal part.value part.range
  | .fString value _ => .clears :: partsCheckpoints value
  | .tString elements _ => .clears :: elementsCheckpoints elements
  | .lambda (some parameters) body _ =>
    parametersCheckpoints (List.replicate parameters.len none) parameters ++ exprCheckpoints body
  | .lambda none body _ => exprCheckpoints body
  | .ipyEscapeCommand _ => [.unsupported]

def exprsCheckpoints : List Expr → List Checkpoint
  | [] => []
  | e :: es => exprCheckpoints e ++ exprsCheckpoints es

def optExprCheckpoints : Option Expr → List Checkpoint
  | none => []
  | some e => exprCheckpoints e

def keywordsCheckpoints : List Keyword → List Checkpoint
  | [] => []
  | .mk _ value :: keywords => exprCheckpoints value ++ keywordsCheckpoints keywords

def targetsCheckpoints : List Comprehension → List Checkpoint
  | [] => []
  | .mk target _ _ _ :: generators => exprCheckpoints target ++ targetsCheckpoints generators

def itersCheckpoints : List Comprehension → List Checkpoint
  | [] => []
  | .mk _ iter _ _ :: generators => exprCheckpoints iter ++ itersCheckpoints generators

def condsCheckpoints : List Comprehension → List Checkpoint
  | [] => []
  | .mk _ _ ifs _ :: generators => exprsCheckpoints ifs ++ condsCheckpoints generators

def keysCheckpoints : List DictItem → List Checkpoint
  | [] => []
  | .mk key _ :: items => optExprCheckpoints key ++ keysCheckpoints items

def valuesCheckpoints : List DictItem → List Checkpoint
  | [] => []
  | .mk _ value :: items => exprCheckpoints value ++ valuesCheckpoints items

/-- `serialize_parameters`. The index is that of the parameter among all of them. -/
def parametersCheckpoints (argComments : List (Option Expr)) : Parameters → List Checkpoint
  | .mk posonlyargs args vararg kwonlyargs kwarg =>
    defaultsCheckpoints argComments 0 posonlyargs
      ++ (defaultsCheckpoints argComments posonlyargs.length args
      ++ (variadicCheckpoints argComments (posonlyargs.length + args.length) vararg
      ++ (defaultsCheckpoints argComments
          (posonlyargs.length + args.length + vararg.toList.length) kwonlyargs
      ++ variadicCheckpoints argComments
          (posonlyargs.length + args.length + vararg.toList.length + kwonlyargs.length) kwarg)))

def defaultsCheckpoints (argComments : List (Option Expr)) (idx : Nat) :
    List ParameterWithDefault → List Checkpoint
  | [] => []
  | .mk _ default _ :: parameters =>
    .argComment argComments idx :: (optExprCheckpoints default
      ++ defaultsCheckpoints argComments (idx + 1) parameters)

def partsCheckpoints : List FStringPart → List Checkpoint
  | [] => []
  | .fString elements :: parts => elementsCheckpoints elements ++ partsCheckpoints parts
  | .literal lit :: parts => .literal lit.value lit.range :: partsCheckpoints parts

def elementsCheckpoints : List InterpolatedStringElement → List Checkpoint
  | [] => []
  | .literal value range :: elements => .literal value range :: elementsCheckpoints elements
  | .interpolation expression _ _ formatSpec :: elements =>
    exprCheckpoints expression ++ (formatSpecCheckpoints formatSpec ++ elementsCheckpoints elements)

def formatSpecCheckpoints : Option FormatSpec → List Checkpoint
  | none => []
  | some (.mk elements _) => elementsCheckpoints elements

end

mutual

def patternCheckpoints : Pattern → List Checkpoint
  | .matchSingleton _ _ | .matchStar _ _ => []
  | .matchAs pattern _ _ => optPatternCheckpoints pattern
  | .matchOr patterns _ | .matchSequence patterns _ => patternsCheckpoints patterns
  | .matchValue value _ => exprCheckpoints value
  | .matchMapping items _ _ => mappingCheckpoints items
  | .matchClass cls patterns keywords _ =>
    exprCheckpoints cls ++ (patternsCheckpoints patterns ++ keywordPatternsCheckpoints keywords)

def optPatternCheckpoints : Option Pattern → List Checkpoint
  | none => []
  | some pattern => patternCheckpoints pattern

def patternsCheckpoints : List Pattern → List Checkpoint
  | [] => []
  | pattern :: patterns => patternCheckpoints pattern ++ patternsCheckpoints patterns

def mappingCheckpoints : List (Expr × Pattern) → List Checkpoint
  | [] => []
  | (key, pattern) :: items =>
    exprCheckpoints key ++ (patternCheckpoints pattern ++ mappingCheckpoints items)

def keywordPatternsCheckpoints : List (Identifier × Pattern) → List Checkpoint
  | [] => []
  | (_, pattern) :: keywords => patternCheckpoints pattern ++ keywordPatternsCheckpoints keywords

end

end Exprs

section Stmts

variable (c : Config) (skip : Bool)

/-- The comments that the parameters of a function are written with. -/
def functionArgTypes (inClass : Bool) (head : FunctionHead) (body : List Stmt) :
    List (Option Expr) :=
  match findFuncTypeComment c inClass head.parameters body with
  | some comment => comment.argTypes
  | none => List.replicate head.parameters.len none

def classKeywordsCheckpoints : List Keyword → List Checkpoint
  | [] => []
  | .mk (some _) value :: keywords => exprCheckpoints value ++ classKeywordsCheckpoints keywords
  | .mk none _ :: keywords => classKeywordsCheckpoints keywords

def withItemsCheckpoints : List WithItem → List Checkpoint
  | [] => []
  | item :: items =>
    exprCheckpoints item.contextExpr
      ++ (optExprCheckpoints item.optionalVars ++ withItemsCheckpoints items)

def handlerTypesCheckpoints : List ExceptHandler → List Checkpoint
  | [] => []
  | .mk type _ _ _ :: handlers => optExprCheckpoints type ++ handlerTypesCheckpoints handlers

mutual

def stmtCheckpoints (inClass : Bool) : Stmt → List Checkpoint
  | .functionDef head body =>
    .funcComment inClass head.parameters body
      :: (exprsCheckpoints (head.decoratorList.map (·.expression))
      ++ (parametersCheckpoints (functionArgTypes c inClass head body) head.parameters
      ++ if omitsBody skip inClass head body then [] else stmtsCheckpoints inClass body))
  | .classDef head body =>
    stmtsCheckpoints true body ++ (exprsCheckpoints head.bases
      ++ (exprsCheckpoints (head.decoratorList.map (·.expression))
      ++ classKeywordsCheckpoints head.namedKeywords))
  | .expr value _ => exprCheckpoints value
  | .assign targets value _ => exprsCheckpoints targets ++ exprCheckpoints value
  | .annAssign target _ value _ => exprCheckpoints target ++ optExprCheckpoints value
  | .augAssign target _ value _ => exprCheckpoints target ++ exprCheckpoints value
  | .return value _ => optExprCheckpoints value
  | .raise exc cause _ => optExprCheckpoints exc ++ optExprCheckpoints cause
  | .assert test msg _ => exprCheckpoints test ++ optExprCheckpoints msg
  | .if test body clauses _ =>
    exprCheckpoints test ++ (stmtsCheckpoints inClass body ++ clausesCheckpoints inClass clauses)
  | .while test body orelse _ =>
    exprCheckpoints test ++ (stmtsCheckpoints inClass body ++ stmtsCheckpoints inClass orelse)
  | .for _ target iter body orelse _ =>
    exprCheckpoints target ++ (exprCheckpoints iter
      ++ (stmtsCheckpoints inClass body ++ stmtsCheckpoints inClass orelse))
  | .with _ items body _ => withItemsCheckpoints items ++ stmtsCheckpoints inClass body
  | .try body handlers orelse finalbody _ _ =>
    stmtsCheckpoints inClass body ++ (handlerTypesCheckpoints handlers
      ++ (handlersCheckpoints inClass handlers
      ++ (stmtsCheckpoints inClass orelse ++ stmtsCheckpoints inClass finalbody)))
  | .delete targets _ => exprsCheckpoints targets
  | .match subject cases _ => exprCheckpoints subject ++ casesCheckpoints inClass cases
  | .typeAlias name _ value _ => exprCheckpoints name ++ exprCheckpoints value
  | .import _ _ _ | .importFrom _ _ _ _ _ | .global _ _ | .nonlocal _ _ | .pass _ | .break _
  | .continue _ => []
  | .ipyEscapeCommand _ => [.unsupported]

def stmtsCheckpoints (inClass : Bool) : List Stmt → List Checkpoint
  | [] => []
  | stmt :: stmts => stmtCheckpoints inClass stmt ++ stmtsCheckpoints inClass stmts

def clausesCheckpoints (inClass : Bool) : ElifElseClauses → List Checkpoint
  | .nil => []
  | .elif test body _ rest =>
    exprCheckpoints test ++ (stmtsCheckpoints inClass body ++ clausesCheckpoints inClass rest)
  | .else body _ => stmtsCheckpoints inClass body

def handlersCheckpoints (inClass : Bool) : List ExceptHandler → List Checkpoint
  | [] => []
  | .mk _ _ body _ :: handlers =>
    stmtsCheckpoints inClass body ++ handlersCheckpoints inClass handlers

def casesCheckpoints (inClass : Bool) : List MatchCase → List Checkpoint
  | [] => []
  | .mk pattern guard body _ :: cases =>
    patternCheckpoints pattern ++ (optExprCheckpoints guard
      ++ (stmtsCheckpoints inClass body ++ casesCheckpoints inClass cases))

end

def moduleCheckpoints (stmts : List Stmt) : List Checkpoint :=
  stmtsCheckpoints c skip false (splitModule c.options stmts).1

end Stmts

end AstSerialize
