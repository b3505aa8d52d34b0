import AstSerialize.Ast

/-! Expressions that come out of strings: moving them to the range of the
string, the strings in them that are types again, and the parser. -/
namespace AstSerialize

mutual

/-- `relocate_expr`. The ranges of names, parameters and parts of strings stay. -/
def Expr.relocate (range : TextRange) : Expr → Expr
  | .boolOp op values _ => .boolOp op (relocateExprs range values) range
  | .named target value _ => .named (target.relocate range) (value.relocate range) range
  | .binOp left op right _ => .binOp (left.relocate range) op (right.relocate range) range
  | .unaryOp op operand _ => .unaryOp op (operand.relocate range) range
  | .lambda parameters body _ =>
    .lambda (relocateParameters range parameters) (body.relocate range) range
  | .ifExp test body orelse _ =>
    .ifExp (test.relocate range) (body.relocate range) (orelse.relocate range) range
  | .dict items _ => .dict (relocateItems range items) range
  | .set elts _ => .set (relocateExprs range elts) range
  | .listComp elt generators _ =>
    .listComp (elt.relocate range) (relocateComprehensions range generators) range
  | .setComp elt generators _ =>
    .setComp (elt.relocate range) (relocateComprehensions range generators) range
  | .dictComp key value generators _ =>
    .dictComp (relocateOption range key) (value.relocate range)
      (relocateComprehensions range generators) range
  | .generator elt generators _ =>
    .generator (elt.relocate range) (relocateComprehensions range generators) range
  | .await value _ => .await (value.relocate range) range
  | .yield value _ => .yield (relocateOption range value) range
  | .yieldFrom value _ => .yieldFrom (value.relocate range) range
  | .compare left ops comparators _ =>
    .compare (left.relocate range) ops (relocateExprs range comparators) range
  | .call func args keywords _ =>
    .call (func.relocate range) (relocateExprs range args) (relocateKeywords range keywords) range
  | .fString value _ => .fString (relocateFStringParts range value) range
  | .tString elements _ => .tString (relocateElements range elements) range
  | .stringLiteral value _ => .stringLiteral value range
  | .bytesLiteral value _ => .bytesLiteral value range
  | .numberLiteral value _ => .numberLiteral value range
  | .booleanLiteral value _ => .booleanLiteral value range
  | .noneLiteral _ => .noneLiteral range
  | .ellipsisLiteral _ => .ellipsisLiteral range
  | .attribute value attr _ => .attribute (value.relocate range) attr range
  | .subscript value slice _ => .subscript (value.relocate range) (slice.relocate range) range
  | .starred value _ => .starred (value.relocate range) range
  | .name id _ => .name id range
  | .list elts ctx _ => .list (relocateExprs range elts) ctx range
  | .tuple elts parenthesized _ => .tuple (relocateExprs range elts) parenthesized range
  | .slice lower upper step _ =>
    .slice (relocateOption range lower) (relocateOption range upper) (relocateOption range step)
      range
  | .ipyEscapeCommand _ => .ipyEscapeCommand range

def relocateExprs (range : TextRange) : List Expr → List Expr
  | [] => []
  | e :: es => e.relocate range :: relocateExprs range es

def relocateOption (range : TextRange) : Option Expr → Option Expr
  | none => none
  | some e => some (e.relocate range)

def relocateItems (range : TextRange) : List DictItem → List DictItem
  | [] => []
  | .mk key value :: items =>
    .mk (relocateOption range key) (value.relocate range) :: relocateItems range items

def relocateComprehensions (range : TextRange) : List Comprehension → List Comprehension
  | [] => []
  | .mk target iter ifs isAsync :: generators =>
    .mk (target.relocate range) (iter.relocate range) (relocateExprs range ifs) isAsync
      :: relocateComprehensions range generators

def relocateKeywords (range : TextRange) : List Keyword → List Keyword
  | [] => []
  | .mk arg value :: keywords => .mk arg (value.relocate range) :: relocateKeywords range keywords

def relocateParameter (range : TextRange) : Parameter → Parameter
  | .mk name annotation own => .mk name (relocateOption range annotation) own

def relocateOptParameter (range : TextRange) : Option Parameter → Option Parameter
  | none => none
  | some parameter => some (relocateParameter range parameter)

def relocateDefaults (range : TextRange) : List ParameterWithDefault → List ParameterWithDefault
  | [] => []
  | .mk parameter default own :: parameters =>
    .mk (relocateParameter range parameter) (relocateOption range default) own
      :: relocateDefaults range parameters

def relocateParameters (range : TextRange) : Option Parameters → Option Parameters
  | none => none
  | some (.mk posonlyargs args vararg kwonlyargs kwarg) =>
    some (.mk (relocateDefaults range posonlyargs) (relocateDefaults range args)
      (relocateOptParameter range vararg) (relocateDefaults range kwonlyargs)
      (relocateOptParameter range kwarg))

def relocateFStringParts (range : TextRange) : List FStringPart → List FStringPart
  | [] => []
  | .literal lit :: parts => .literal lit :: relocateFStringParts range parts
  | .fString elements :: parts =>
    .fString (relocateElements range elements) :: relocateFStringParts range parts

def relocateElements (range : TextRange) :
    List InterpolatedStringElement → List InterpolatedStringElement
  | [] => []
  | .literal value own :: elements => .literal value own :: relocateElements range elements
  | .interpolation expression debugText conversion formatSpec :: elements =>
    .interpolation (expression.relocate range) debugText conversion
      (relocateFormatSpec range formatSpec) :: relocateElements range elements

def relocateFormatSpec (range : TextRange) : Option FormatSpec → Option FormatSpec
  | none => none
  | some (.mk elements own) => some (.mk (relocateElements range elements) own)

end

mutual

/-- The string literals of an expression that stand where a type can stand. -/
def typeStrings : Expr → List String
  | .stringLiteral value _ => [concatText value]
  | .subscript _ slice _ => typeStrings slice
  | .binOp left _ right _ => typeStrings left ++ typeStrings right
  | .list elts _ _ => typeStringsOf elts
  | .tuple elts _ _ => typeStringsOf elts
  | .dict items _ => typeStringsOfItems items
  | .starred value _ => typeStrings value
  | .call func args keywords _ =>
    typeStrings func ++ typeStringsOf args ++ typeStringsOfKeywords keywords
  | _ => []

def typeStringsOf : List Expr → List String
  | [] => []
  | e :: es => typeStrings e ++ typeStringsOf es

def typeStringsOfItems : List DictItem → List String
  | [] => []
  | .mk _ value :: items => typeStrings value ++ typeStringsOfItems items

def typeStringsOfKeywords : List Keyword → List String
  | [] => []
  | .mk _ value :: keywords => typeStrings value ++ typeStringsOfKeywords keywords

end

mutual

/-- Moving an expression keeps its strings. -/
theorem typeStrings_relocate (range : TextRange) :
    ∀ e : Expr, typeStrings (e.relocate range) = typeStrings e
  | .stringLiteral _ _ => rfl
  | .subscript _ slice _ => by
    simp only [Expr.relocate, typeStrings, typeStrings_relocate range slice]
  | .binOp left _ right _ => by
    simp only [Expr.relocate, typeStrings, typeStrings_relocate range left,
      typeStrings_relocate range right]
  | .list elts _ _ => by simp only [Expr.relocate, typeStrings, typeStringsOf_relocate range elts]
  | .tuple elts _ _ => by simp only [Expr.relocate, typeStrings, typeStringsOf_relocate range elts]
  | .dict items _ => by
    simp only [Expr.relocate, typeStrings, typeStringsOfItems_relocate range items]
  | .starred value _ => by simp only [Expr.relocate, typeStrings, typeStrings_relocate range value]
  | .call func args keywords _ => by
    simp only [Expr.relocate, typeStrings, typeStrings_relocate range func,
      typeStringsOf_relocate range args, typeStringsOfKeywords_relocate range keywords]
  | .boolOp .. | .named .. | .unaryOp .. | .lambda .. | .ifExp .. | .set .. | .listComp ..
  | .setComp .. | .dictComp .. | .generator .. | .await .. | .yield .. | .yieldFrom ..
  | .compare .. | .fString .. | .tString .. | .bytesLiteral .. | .numberLiteral ..
  | .booleanLiteral .. | .noneLiteral .. | .ellipsisLiteral .. | .attribute .. | .name ..
  | .slice .. | .ipyEscapeCommand .. => rfl

theorem typeStringsOf_relocate (range : TextRange) :
    ∀ es : List Expr, typeStringsOf (relocateExprs range es) = typeStringsOf es
  | [] => rfl
  | e :: es => by
    simp only [relocateExprs, typeStringsOf, typeStrings_relocate range e,
      typeStringsOf_relocate range es]

theorem typeStringsOfItems_relocate (range : TextRange) :
    ∀ items : List DictItem,
      typeStringsOfItems (relocateItems range items) = typeStringsOfItems items
  | [] => rfl
  | .mk _ value :: items => by
    simp only [relocateItems, typeStringsOfItems, typeStrings_relocate range value,
      typeStringsOfItems_relocate range items]

theorem typeStringsOfKeywords_relocate (range : TextRange) :
    ∀ keywords : List Keyword,
      typeStringsOfKeywords (relocateKeywords range keywords) = typeStringsOfKeywords keywords
  | [] => rfl
  | .mk _ value :: keywords => by
    simp only [relocateKeywords, typeStringsOfKeywords, typeStrings_relocate range value,
      typeStringsOfKeywords_relocate range keywords]

end

/-- The vendored parser in expression mode: nothing when there were errors. -/
structure ExprParser where
  parseUnchecked : String → Option Expr
  /-- A string literal of the source is written with its quotes, inside the parentheses. -/
  shorter : ∀ source e, parseUnchecked ("(" ++ source ++ ")") = some e →
    ∀ value ∈ typeStrings e, value.length < source.length

end AstSerialize
