import AstSerialize.Ast

/-! Which function bodies cannot be omitted: trivial ones, and those with
effects that are seen from outside. -/
namespace AstSerialize

def Stmt.isDocstring : Stmt → Bool
  | .expr (.stringLiteral _ _) _ => true
  | _ => false

/-- A body of one statement that needs no inference. -/
def Stmt.isTrivial : Stmt → Bool
  | .pass _ | .raise _ _ _ | .expr (.ellipsisLiteral _) _ => true
  | _ => false

def isTrivialBody : List Stmt → Bool
  | [] => false
  | first :: rest =>
    if first.isDocstring then
      match rest with
      | [] => true
      | [stmt] => stmt.isTrivial
      | _ => false
    else rest.isEmpty && first.isTrivial

structure EffectDetector where
  definesAttributes : Bool
  containsYield : Bool
  deriving DecidableEq, Repr

/-- Nothing is visited once both effects are found. -/
def visiting (walk : EffectDetector → EffectDetector) (d : EffectDetector) : EffectDetector :=
  if d.definesAttributes && d.containsYield then d else walk d

section Exprs

mutual

def visitExpr : Expr → EffectDetector → EffectDetector
  | .yield _ _ | .yieldFrom _ _ => visiting fun d => { d with containsYield := true }
  -- lambdas have their own scope
  | .lambda _ _ _ => id
  | .boolOp _ values _ => visiting (visitExprs values)
  | .named target value _ => visiting (visitExpr target ∘ visitExpr value)
  | .binOp left _ right _ => visiting (visitExpr right ∘ visitExpr left)
  | .unaryOp _ operand _ => visiting (visitExpr operand)
  | .ifExp test body orelse _ => visiting (visitExpr orelse ∘ visitExpr body ∘ visitExpr test)
  | .dict items _ => visiting (visitDictItems items)
  | .set elts _ | .list elts _ _ | .tuple elts _ _ => visiting (visitExprs elts)
  | .listComp elt generators _ | .setComp elt generators _ | .generator elt generators _ =>
    visiting (visitExpr elt ∘ visitComprehensions generators)
  | .dictComp key value generators _ =>
    visiting (visitExpr value ∘ visitOptExpr key ∘ visitComprehensions generators)
  | .await value _ | .attribute value _ _ | .starred value _ => visiting (visitExpr value)
  | .compare left _ comparators _ => visiting (visitExprs comparators ∘ visitExpr left)
  | .call func args keywords _ =>
    visiting (visitKeywords keywords ∘ visitExprs args ∘ visitExpr func)
  | .fString value _ => visiting (visitFStringParts value)
  | .tString elements _ => visiting (visitElements elements)
  | .subscript value slice _ => visiting (visitExpr slice ∘ visitExpr value)
  | .slice lower upper step _ =>
    visiting (visitOptExpr step ∘ visitOptExpr upper ∘ visitOptExpr lower)
  | .stringLiteral _ _ | .bytesLiteral _ _ | .numberLiteral _ _ | .booleanLiteral _ _
  | .noneLiteral _ | .ellipsisLiteral _ | .name _ _ | .ipyEscapeCommand _ => id

def visitExprs : List Expr → EffectDetector → EffectDetector
  | [] => id
  | e :: es => visitExprs es ∘ visitExpr e

def visitOptExpr : Option Expr → EffectDetector → EffectDetector
  | none => id
  | some e => visitExpr e

def visitDictItems : List DictItem → EffectDetector → EffectDetector
  | [] => id
  | .mk key value :: items => visitDictItems items ∘ visitExpr value ∘ visitOptExpr key

def visitComprehensions : List Comprehension → EffectDetector → EffectDetector
  | [] => id
  | .mk target iter ifs _ :: generators =>
    visitComprehensions generators ∘ visitExprs ifs ∘ visitExpr target ∘ visitExpr iter

def visitKeywords : List Keyword → EffectDetector → EffectDetector
  | [] => id
  | .mk _ value :: keywords => visitKeywords keywords ∘ visitExpr value

def visitFStringParts : List FStringPart → EffectDetector → EffectDetector
  | [] => id
  | .fString elements :: parts => visitFStringParts parts ∘ visitElements elements
  | .literal _ :: parts => visitFStringParts parts

def visitElements : List InterpolatedStringElement → EffectDetector → EffectDetector
  | [] => id
  | .literal _ _ :: elements => visitElements elements
  | .interpolation expression _ _ formatSpec :: elements =>
    visitElements elements ∘ visitFormatSpec formatSpec ∘ visitExpr expression

def visitFormatSpec : Option FormatSpec → EffectDetector → EffectDetector
  | none => id
  | some (.mk elements _) => visitElements elements

end

mutual

/-- A target that defines an attribute of the first parameter. -/
def containsParamAttribute (firstParamName : String) : Expr → Bool
  | .attribute (.name id _) _ _ => id = firstParamName
  | .tuple elts _ _ | .list elts _ _ => anyParamAttribute firstParamName elts
  | .starred value _ => containsParamAttribute firstParamName value
  | _ => false

def anyParamAttribute (firstParamName : String) : List Expr → Bool
  | [] => false
  | e :: es => containsParamAttribute firstParamName e || anyParamAttribute firstParamName es

end

mutual

def visitPattern : Pattern → EffectDetector → EffectDetector
  | .matchValue value _ => visitExpr value
  | .matchSingleton _ _ | .matchStar _ _ => id
  | .matchSequence patterns _ | .matchOr patterns _ => visitPatterns patterns
  | .matchMapping items _ _ => visitItemPatterns items ∘ visitItemKeys items
  | .matchClass cls patterns keywords _ =>
    visitKeywordPatterns keywords ∘ visitPatterns patterns ∘ visitExpr cls
  | .matchAs pattern _ _ => visitOptPattern pattern

def visitOptPattern : Option Pattern → EffectDetector → EffectDetector
  | none => id
  | some pattern => visitPattern pattern

def visitPatterns : List Pattern → EffectDetector → EffectDetector
  | [] => id
  | pattern :: patterns => visitPatterns patterns ∘ visitPattern pattern

def visitItemKeys : List (Expr × Pattern) → EffectDetector → EffectDetector
  | [] => id
  | (key, _) :: items => visitItemKeys items ∘ visitExpr key

def visitItemPatterns : List (Expr × Pattern) → EffectDetector → EffectDetector
  | [] => id
  | (_, pattern) :: items => visitItemPatterns items ∘ visitPattern pattern

def visitKeywordPatterns : List (Identifier × Pattern) → EffectDetector → EffectDetector
  | [] => id
  | (_, pattern) :: keywords => visitKeywordPatterns keywords ∘ visitPattern pattern

end

def visitTypeParams : List TypeParam → EffectDetector → EffectDetector
  | [] => id
  | .typeVar _ bound default :: params =>
    visitTypeParams params ∘ visitOptExpr default ∘ visitOptExpr bound
  | .paramSpec _ default :: params | .typeVarTuple _ default :: params =>
    visitTypeParams params ∘ visitOptExpr default

def visitWithItems : List WithItem → EffectDetector → EffectDetector
  | [] => id
  | item :: items =>
    visitWithItems items ∘ visitOptExpr item.optionalVars ∘ visitExpr item.contextExpr

end Exprs

section Stmts

variable (firstParamName : String)

/-- A statement that defines an attribute is not walked any further. -/
def assigning (found : Bool) (walk : EffectDetector → EffectDetector) (d : EffectDetector) :
    EffectDetector :=
  if found then { d with definesAttributes := true } else walk d

def bindsAttribute : List WithItem → Bool
  | [] => false
  | item :: items =>
    (match item.optionalVars with
      | some vars => containsParamAttribute firstParamName vars
      | none => false) || bindsAttribute items

mutual

def visitStmt : Stmt → EffectDetector → EffectDetector
  -- nested definitions have their own scope
  | .functionDef _ _ | .classDef _ _ => id
  | .assign targets value _ =>
    visiting <| assigning (anyParamAttribute firstParamName targets)
      (visitExprs targets ∘ visitExpr value)
  | .augAssign target _ value _ =>
    visiting <| assigning (containsParamAttribute firstParamName target)
      (visitExpr target ∘ visitExpr value)
  | .annAssign target ann value _ =>
    visiting <| assigning (containsParamAttribute firstParamName target)
      (visitExpr target ∘ visitExpr ann ∘ visitOptExpr value)
  | .with _ items body _ =>
    visiting <| assigning (bindsAttribute firstParamName items)
      (visitBody body ∘ visitWithItems items)
  | .for _ target iter body orelse _ =>
    visiting <| assigning (containsParamAttribute firstParamName target)
      (visitBody orelse ∘ visitBody body ∘ visitExpr target ∘ visitExpr iter)
  | .return value _ => visiting (visitOptExpr value)
  | .delete targets _ => visiting (visitExprs targets)
  | .typeAlias name typeParams value _ =>
    visiting (visitExpr name ∘ visitTypeParams (typeParams.getD []) ∘ visitExpr value)
  | .while test body orelse _ => visiting (visitBody orelse ∘ visitBody body ∘ visitExpr test)
  | .if test body clauses _ => visiting (visitClauses clauses ∘ visitBody body ∘ visitExpr test)
  | .match subject cases _ => visiting (visitCases cases ∘ visitExpr subject)
  | .raise exc cause _ => visiting (visitOptExpr cause ∘ visitOptExpr exc)
  | .try body handlers orelse finalbody _ _ =>
    visiting (visitBody finalbody ∘ visitBody orelse ∘ visitHandlers handlers ∘ visitBody body)
  | .assert test msg _ => visiting (visitOptExpr msg ∘ visitExpr test)
  | .expr value _ => visiting (visitExpr value)
  | .import _ _ _ | .importFrom _ _ _ _ _ | .global _ _ | .nonlocal _ _ | .pass _ | .break _
  | .continue _ | .ipyEscapeCommand _ => id

def visitBody : List Stmt → EffectDetector → EffectDetector
  | [] => id
  | stmt :: stmts => visitBody stmts ∘ visitStmt stmt

def visitClauses : ElifElseClauses → EffectDetector → EffectDetector
  | .nil => id
  | .elif test body _ rest => visitClauses rest ∘ visitBody body ∘ visitExpr test
  | .else body _ => visitBody body

def visitCases : List MatchCase → EffectDetector → EffectDetector
  | [] => id
  | .mk pattern guard body _ :: cases =>
    visitCases cases ∘ visitBody body ∘ visitOptExpr guard ∘ visitPattern pattern

def visitHandlers : List ExceptHandler → EffectDetector → EffectDetector
  | [] => id
  | .mk type _ body _ :: handlers => visitHandlers handlers ∘ visitBody body ∘ visitOptExpr type

end

end Stmts

/-- The name that attributes are checked for, empty when they are not. -/
def firstParamName (parameters : Parameters) (checkAttributes : Bool) : String :=
  if checkAttributes then
    match parameters.posonlyargs.head? <|> parameters.args.head? with
    | some param => param.parameter.name.id
    | none => ""
  else ""

def hasExternallyVisibleEffect (body : List Stmt) (parameters : Parameters)
    (checkAttributes : Bool) : Bool :=
  if isTrivialBody body then true
  else
    let visitor := visitBody (firstParamName parameters checkAttributes) body ⟨false, false⟩
    visitor.definesAttributes || visitor.containsYield

end AstSerialize
