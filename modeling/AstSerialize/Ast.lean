import AstSerialize.Text.LineIndex

/-! The syntax trees of the vendored parser, with the fields the serializer
reads. Boxes and thin vectors are erased; contexts are kept where they are
read. -/
namespace AstSerialize

structure Identifier where
  id : String
  range : TextRange
  deriving DecidableEq, Repr

inductive BoolOp where
  | and
  | or
  deriving DecidableEq, Repr

inductive CmpOp where
  | eq
  | notEq
  | lt
  | ltE
  | gt
  | gtE
  | is
  | isNot
  | in
  | notIn
  deriving DecidableEq, Repr

inductive Operator where
  | add
  | sub
  | mult
  | matMult
  | div
  | mod
  | pow
  | lShift
  | rShift
  | bitOr
  | bitXor
  | bitAnd
  | floorDiv
  deriving DecidableEq, Repr

inductive UnaryOp where
  | invert
  | not
  | uAdd
  | uSub
  deriving DecidableEq, Repr

inductive ExprContext where
  | load
  | store
  | del
  | invalid
  deriving DecidableEq, Repr

inductive ConversionFlag where
  | none
  | str
  | ascii
  | repr
  deriving DecidableEq, Repr

inductive Singleton where
  | none
  | true
  | false
  deriving DecidableEq, Repr

/-- The parser's integers: a word, or the literal's text when it does not fit one. -/
inductive IntLiteral where
  | small (value : UInt64)
  | big (text : String)
  deriving DecidableEq, Repr

/-- Floats are their bits. -/
inductive Number where
  | int (value : IntLiteral)
  | float (bits : UInt64)
  | complex (real imag : UInt64)
  deriving DecidableEq, Repr

def IntLiteral.asI64 : IntLiteral → Option Int64
  | .small value => if value.toNat < 2 ^ 63 then some value.toInt64 else none
  | .big _ => none

def IntLiteral.asI32 : IntLiteral → Option Int
  | .small value => if value.toNat < 2 ^ 31 then some value.toNat else none
  | .big _ => none

def IntLiteral.toText : IntLiteral → String
  | .small value => toString value.toNat
  | .big text => text

/-- One part of an implicitly concatenated string. -/
structure StringLiteral where
  value : String
  range : TextRange
  deriving DecidableEq, Repr

/-- `StringLiteralValue::to_str`. -/
def concatText : List StringLiteral → String
  | [] => ""
  | part :: parts => part.value ++ concatText parts

/-- The text around the expression of `{expr=}`. -/
structure DebugText where
  leading : String
  trailing : String
  deriving DecidableEq, Repr

mutual

inductive Expr where
  | boolOp (op : BoolOp) (values : List Expr) (range : TextRange)
  | named (target value : Expr) (range : TextRange)
  | binOp (left : Expr) (op : Operator) (right : Expr) (range : TextRange)
  | unaryOp (op : UnaryOp) (operand : Expr) (range : TextRange)
  | lambda (parameters : Option Parameters) (body : Expr) (range : TextRange)
  | ifExp (test body orelse : Expr) (range : TextRange)
  | dict (items : List DictItem) (range : TextRange)
  | set (elts : List Expr) (range : TextRange)
  | listComp (elt : Expr) (generators : List Comprehension) (range : TextRange)
  | setComp (elt : Expr) (generators : List Comprehension) (range : TextRange)
  | dictComp (key : Option Expr) (value : Expr) (generators : List Comprehension)
      (range : TextRange)
  | generator (elt : Expr) (generators : List Comprehension) (range : TextRange)
  | await (value : Expr) (range : TextRange)
  | yield (value : Option Expr) (range : TextRange)
  | yieldFrom (value : Expr) (range : TextRange)
  | compare (left : Expr) (ops : List CmpOp) (comparators : List Expr) (range : TextRange)
  | call (func : Expr) (args : List Expr) (keywords : List Keyword) (range : TextRange)
  | fString (value : List FStringPart) (range : TextRange)
  | tString (elements : List InterpolatedStringElement) (range : TextRange)
  | stringLiteral (value : List StringLiteral) (range : TextRange)
  | bytesLiteral (value : List (List UInt8)) (range : TextRange)
  | numberLiteral (value : Number) (range : TextRange)
  | booleanLiteral (value : Bool) (range : TextRange)
  | noneLiteral (range : TextRange)
  | ellipsisLiteral (range : TextRange)
  | attribute (value : Expr) (attr : Identifier) (range : TextRange)
  | subscript (value slice : Expr) (range : TextRange)
  | starred (value : Expr) (range : TextRange)
  | name (id : String) (range : TextRange)
  | list (elts : List Expr) (ctx : ExprContext) (range : TextRange)
  | tuple (elts : List Expr) (parenthesized : Bool) (range : TextRange)
  | slice (lower upper step : Option Expr) (range : TextRange)
  | ipyEscapeCommand (range : TextRange)

inductive DictItem where
  | mk (key : Option Expr) (value : Expr)

inductive Comprehension where
  | mk (target iter : Expr) (ifs : List Expr) (isAsync : Bool)

inductive Keyword where
  | mk (arg : Option Identifier) (value : Expr)

inductive Parameter where
  | mk (name : Identifier) ( annotation : Option Expr) (range : TextRange)

inductive ParameterWithDefault where
  | mk (parameter : Parameter) (default : Option Expr) (range : TextRange)

inductive Parameters where
  | mk (posonlyargs args : List ParameterWithDefault) (vararg : Option Parameter)
      (kwonlyargs : List ParameterWithDefault) (kwarg : Option Parameter)

inductive FStringPart where
  | literal (lit : StringLiteral)
  | fString (elements : List InterpolatedStringElement)

inductive InterpolatedStringElement where
  | literal (value : String) (range : TextRange)
  | interpolation (expression : Expr) (debugText : Option DebugText) (conversion : ConversionFlag)
      (formatSpec : Option FormatSpec)

/-- `InterpolatedStringFormatSpec`. -/
inductive FormatSpec where
  | mk (elements : List InterpolatedStringElement) (range : TextRange)

end

def Expr.range : Expr → TextRange
  | .boolOp _ _ r | .named _ _ r | .binOp _ _ _ r | .unaryOp _ _ r | .lambda _ _ r
  | .ifExp _ _ _ r | .dict _ r | .set _ r | .listComp _ _ r | .setComp _ _ r
  | .dictComp _ _ _ r | .generator _ _ r | .await _ r | .yield _ r | .yieldFrom _ r
  | .compare _ _ _ r | .call _ _ _ r | .fString _ r | .tString _ r | .stringLiteral _ r
  | .bytesLiteral _ r | .numberLiteral _ r | .booleanLiteral _ r | .noneLiteral r
  | .ellipsisLiteral r | .attribute _ _ r | .subscript _ _ r | .starred _ r | .name _ r
  | .list _ _ r | .tuple _ _ r | .slice _ _ _ r | .ipyEscapeCommand r => r

def Keyword.arg : Keyword → Option Identifier
  | .mk arg _ => arg

def Comprehension.isAsync : Comprehension → Bool
  | .mk _ _ _ isAsync => isAsync

def Parameter.name : Parameter → Identifier
  | .mk name _ _ => name

/-- The type the parameter is annotated with. -/
def Parameter.annotated : Parameter → Option Expr
  | .mk _ annotation _ => annotation

def Parameter.range : Parameter → TextRange
  | .mk _ _ range => range

def ParameterWithDefault.parameter : ParameterWithDefault → Parameter
  | .mk parameter _ _ => parameter

def ParameterWithDefault.range : ParameterWithDefault → TextRange
  | .mk _ _ range => range

def Parameters.posonlyargs : Parameters → List ParameterWithDefault
  | .mk posonlyargs _ _ _ _ => posonlyargs

def Parameters.args : Parameters → List ParameterWithDefault
  | .mk _ args _ _ _ => args

/-- The start offset of each parameter, in the order of `Parameters::iter`. -/
def Parameters.starts : Parameters → List Nat
  | .mk posonlyargs args vararg kwonlyargs kwarg =>
    posonlyargs.map (·.range.start) ++ args.map (·.range.start)
      ++ (vararg.map (·.range.start)).toList ++ kwonlyargs.map (·.range.start)
      ++ (kwarg.map (·.range.start)).toList

/-- `Parameters::len`. -/
def Parameters.len : Parameters → Nat
  | .mk posonlyargs args vararg kwonlyargs kwarg =>
    posonlyargs.length + args.length + vararg.toList.length + kwonlyargs.length
      + kwarg.toList.length

theorem Parameters.starts_length (ps : Parameters) : ps.starts.length = ps.len := by
  cases ps with
  | mk posonlyargs args vararg kwonlyargs kwarg =>
    simp only [starts, len, List.length_append, List.length_map]
    cases vararg <;> cases kwarg <;> rfl

inductive Pattern where
  | matchValue (value : Expr) (range : TextRange)
  | matchSingleton (value : Singleton) (range : TextRange)
  | matchSequence (patterns : List Pattern) (range : TextRange)
  /-- The parser pushes each key together with its pattern. -/
  | matchMapping (items : List (Expr × Pattern)) (rest : Option Identifier) (range : TextRange)
  | matchClass (cls : Expr) (patterns : List Pattern) (keywords : List (Identifier × Pattern))
      (range : TextRange)
  | matchStar (name : Option Identifier) (range : TextRange)
  | matchAs (pattern : Option Pattern) (name : Option Identifier) (range : TextRange)
  | matchOr (patterns : List Pattern) (range : TextRange)

structure Decorator where
  expression : Expr
  range : TextRange

structure Alias where
  name : Identifier
  asname : Option Identifier
  range : TextRange
  deriving DecidableEq, Repr

structure WithItem where
  contextExpr : Expr
  optionalVars : Option Expr

/-- The arguments of a class definition. -/
structure Arguments where
  args : List Expr
  keywords : List Keyword

inductive TypeParam where
  | typeVar (name : Identifier) (bound default : Option Expr)
  | paramSpec (name : Identifier) (default : Option Expr)
  | typeVarTuple (name : Identifier) (default : Option Expr)

/-- The part of a function definition that is not its body. -/
structure FunctionHead where
  isAsync : Bool
  decoratorList : List Decorator
  name : Identifier
  typeParams : Option (List TypeParam)
  parameters : Parameters
  returns : Option Expr
  range : TextRange

/-- The part of a class definition that is not its body. -/
structure ClassHead where
  decoratorList : List Decorator
  name : Identifier
  typeParams : Option (List TypeParam)
  arguments : Option Arguments
  range : TextRange

mutual

inductive Stmt where
  | functionDef (head : FunctionHead) (body : List Stmt)
  | classDef (head : ClassHead) (body : List Stmt)
  | return (value : Option Expr) (range : TextRange)
  | delete (targets : List Expr) (range : TextRange)
  | typeAlias (name : Expr) (typeParams : Option (List TypeParam)) (value : Expr)
      (range : TextRange)
  | assign (targets : List Expr) (value : Expr) (range : TextRange)
  | augAssign (target : Expr) (op : Operator) (value : Expr) (range : TextRange)
  | annAssign (target annotation : Expr) (value : Option Expr) (range : TextRange)
  | for (isAsync : Bool) (target iter : Expr) (body orelse : List Stmt) (range : TextRange)
  | while (test : Expr) (body orelse : List Stmt) (range : TextRange)
  | if (test : Expr) (body : List Stmt) (clauses : ElifElseClauses) (range : TextRange)
  | with (isAsync : Bool) (items : List WithItem) (body : List Stmt) (range : TextRange)
  | match (subject : Expr) (cases : List MatchCase) (range : TextRange)
  | raise (exc cause : Option Expr) (range : TextRange)
  | try (body : List Stmt) (handlers : List ExceptHandler) (orelse finalbody : List Stmt)
      (isStar : Bool) (range : TextRange)
  | assert (test : Expr) (msg : Option Expr) (range : TextRange)
  | import (names : List Alias) (isLazy : Bool) (range : TextRange)
  | importFrom (module : Option Identifier) (names : List Alias) (level : UInt32) (isLazy : Bool)
      (range : TextRange)
  | global (names : List Identifier) (range : TextRange)
  | nonlocal (names : List Identifier) (range : TextRange)
  | expr (value : Expr) (range : TextRange)
  | pass (range : TextRange)
  | break (range : TextRange)
  | continue (range : TextRange)
  | ipyEscapeCommand (range : TextRange)

/-- An `else` clause can only be the last one. -/
inductive ElifElseClauses where
  | nil
  | elif (test : Expr) (body : List Stmt) (range : TextRange) (rest : ElifElseClauses)
  | else (body : List Stmt) (range : TextRange)

inductive MatchCase where
  | mk (pattern : Pattern) (guard : Option Expr) (body : List Stmt) (range : TextRange)

inductive ExceptHandler where
  | mk (type : Option Expr) (name : Option Identifier) (body : List Stmt) (range : TextRange)

end

def Stmt.range : Stmt → TextRange
  | .functionDef head _ => head.range
  | .classDef head _ => head.range
  | .return _ r | .delete _ r | .typeAlias _ _ _ r | .assign _ _ r | .augAssign _ _ _ r
  | .annAssign _ _ _ r | .for _ _ _ _ _ r | .while _ _ _ r | .if _ _ _ r | .with _ _ _ r
  | .match _ _ r | .raise _ _ r | .try _ _ _ _ _ r | .assert _ _ r | .import _ _ r
  | .importFrom _ _ _ _ r | .global _ r | .nonlocal _ r | .expr _ r | .pass r | .break r
  | .continue r | .ipyEscapeCommand r => r

end AstSerialize
