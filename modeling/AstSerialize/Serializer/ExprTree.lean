import AstSerialize.Serializer.Expr
import AstSerialize.Serializer.TypeTree

/-! The wire tree of an expression, and where serializing it leaves the flag
of surrogates. -/
namespace AstSerialize

section Surrogates

/-! In the order in which the parts are written. Strings start from a cleared flag. -/

variable (c : Config)

mutual

/-- The flag of surrogates after an expression, or nothing if the serializer panics in it. -/
def surrogatesAfter : Expr → Bool → Option Bool
  | .name _ _ | .numberLiteral _ _ | .booleanLiteral _ _ | .noneLiteral _ | .ellipsisLiteral _
  | .bytesLiteral _ _ => some
  | .attribute value _ _ | .unaryOp _ value _ | .yieldFrom value _ | .starred value _
  | .await value _ => surrogatesAfter value
  | .binOp left _ right _ | .subscript left right _ | .named left right _ =>
    surrogatesAfter left >=> surrogatesAfter right
  | .call func args keywords _ =>
    surrogatesAfter func >=> surrogatesAfterCallArgs args >=> surrogatesAfterKeywords keywords
  | .list elts _ _ | .tuple elts _ _ | .set elts _ | .boolOp _ elts _ => surrogatesAfterExprs elts
  | .generator elt generators _ | .listComp elt generators _ | .setComp elt generators _ =>
    surrogatesAfter elt >=> surrogatesAfterTargets generators >=>
      surrogatesAfterIters generators >=> surrogatesAfterConds generators
  | .dictComp key value generators _ =>
    surrogatesAfterOpt key >=> surrogatesAfter value >=> surrogatesAfterTargets generators >=>
      surrogatesAfterIters generators >=> surrogatesAfterConds generators
  | .yield value _ => surrogatesAfterOpt value
  | .compare left _ comparators _ => surrogatesAfter left >=> surrogatesAfterExprs comparators
  | .ifExp test body orelse _ =>
    surrogatesAfter body >=> surrogatesAfter test >=> surrogatesAfter orelse
  | .dict items _ => surrogatesAfterKeys items >=> surrogatesAfterValues items
  | .slice lower upper step _ =>
    surrogatesAfterOpt lower >=> surrogatesAfterOpt upper >=> surrogatesAfterOpt step
  | .stringLiteral value _ => fun _ => surrogatesAfterParts c value false
  | .fString value _ => fun _ => surrogatesAfterFStringParts value false
  | .tString elements _ => fun _ => surrogatesAfterTStringElements elements false
  | .lambda (some parameters) body _ =>
    surrogatesAfterParameters parameters >=> surrogatesAfter body
  | .lambda none body _ => surrogatesAfter body
  | .ipyEscapeCommand _ => fun _ => none

def surrogatesAfterExprs : List Expr → Bool → Option Bool
  | [] => some
  | e :: es => surrogatesAfter e >=> surrogatesAfterExprs es

def surrogatesAfterOpt : Option Expr → Bool → Option Bool
  | none => some
  | some e => surrogatesAfter e

def surrogatesAfterCallArgs : List Expr → Bool → Option Bool
  | [] => some
  | .starred value _ :: args => surrogatesAfter value >=> surrogatesAfterCallArgs args
  | arg :: args => surrogatesAfter arg >=> surrogatesAfterCallArgs args

def surrogatesAfterKeywords : List Keyword → Bool → Option Bool
  | [] => some
  | .mk _ value :: keywords => surrogatesAfter value >=> surrogatesAfterKeywords keywords

def surrogatesAfterTargets : List Comprehension → Bool → Option Bool
  | [] => some
  | .mk target _ _ _ :: generators => surrogatesAfter target >=> surrogatesAfterTargets generators

def surrogatesAfterIters : List Comprehension → Bool → Option Bool
  | [] => some
  | .mk _ iter _ _ :: generators => surrogatesAfter iter >=> surrogatesAfterIters generators

def surrogatesAfterConds : List Comprehension → Bool → Option Bool
  | [] => some
  | .mk _ _ ifs _ :: generators => surrogatesAfterExprs ifs >=> surrogatesAfterConds generators

def surrogatesAfterKeys : List DictItem → Bool → Option Bool
  | [] => some
  | .mk key _ :: items => surrogatesAfterOpt key >=> surrogatesAfterKeys items

def surrogatesAfterValues : List DictItem → Bool → Option Bool
  | [] => some
  | .mk _ value :: items => surrogatesAfter value >=> surrogatesAfterValues items

def surrogatesAfterParameters : Parameters → Bool → Option Bool
  | .mk posonlyargs args _ kwonlyargs _ =>
    surrogatesAfterDefaults posonlyargs >=> surrogatesAfterDefaults args >=>
      surrogatesAfterDefaults kwonlyargs

def surrogatesAfterDefaults : List ParameterWithDefault → Bool → Option Bool
  | [] => some
  | .mk _ default _ :: parameters => surrogatesAfterOpt default >=> surrogatesAfterDefaults parameters

def surrogatesAfterFStringParts : List FStringPart → Bool → Option Bool
  | [] => some
  | .fString elements :: parts =>
    surrogatesAfterElements elements >=> surrogatesAfterFStringParts parts
  | .literal lit :: parts =>
    surrogatesAfterLiteral c lit.value lit.range >=> surrogatesAfterFStringParts parts

def surrogatesAfterElements : List InterpolatedStringElement → Bool → Option Bool
  | [] => some
  | .literal value range :: elements =>
    surrogatesAfterLiteral c value range >=> surrogatesAfterElements elements
  | .interpolation expression _ _ formatSpec :: elements =>
    surrogatesAfter expression >=> surrogatesAfterFormatSpec formatSpec >=>
      surrogatesAfterElements elements

def surrogatesAfterFormatSpec : Option FormatSpec → Bool → Option Bool
  | none => some
  | some (.mk elements _) => surrogatesAfterElements elements

def surrogatesAfterTStringElements : List InterpolatedStringElement → Bool → Option Bool
  | [] => some
  | .literal value range :: elements =>
    surrogatesAfterLiteral c value range >=> surrogatesAfterTStringElements elements
  | .interpolation expression _ _ formatSpec :: elements =>
    surrogatesAfter expression >=> surrogatesAfterFormatSpec formatSpec >=>
      surrogatesAfterTStringElements elements

end

/-- The flag that a string is written with. -/
def surrogatesOf (parts : Bool → Option Bool) : Bool := (parts false).getD false

end Surrogates

section Trees

variable (c : Config)

def toWireNumber (value : Number) (loc : Location) : WExpr c.cacheVersion :=
  match value with
  | .int n =>
    match n.asI64 with
    | some x => .int x.toInt loc
    | none => .bigInt (utf8 n.toText) loc
  | .float bits => .float bits loc
  | .complex real imag => .complex real imag loc

variable (scope : Scope)

/-- The annotation has precedence over the type comment, which is not evaluated. -/
def toWireParameterType (param : Parameter) (argComment : Option Expr) :
    Option (WType c.cacheVersion) :=
  match param.annotated with
  | some ann => some (toWireType c scope.isEvaluated ann)
  | none => argComment.map fun comment => toWireType c false (comment.relocate param.range)

def toWireArgument (param : Parameter) (argComment : Option Expr)
    (default : Option (WExpr c.cacheVersion)) (kindNoDefault kindWithDefault : Int)
    (posOnly : Bool) : WParameter c.cacheVersion :=
  .mk param.name.bytes (if default.isSome then kindWithDefault else kindNoDefault)
    (toWireParameterType c scope param argComment) default posOnly (c.location param.range)

def toWireVariadic (argComments : List (Option Expr)) (idx : Nat) (kind : Int) :
    Option Parameter → List (WParameter c.cacheVersion)
  | none => []
  | some param => [toWireArgument c scope param argComments[idx]?.join none kind kind false]

mutual

def toWireExpr : Expr → WExpr c.cacheVersion
  | .name id range => .name (utf8 id) (c.location range)
  | .attribute value attr range => .member (toWireExpr value) attr.bytes (c.location range)
  | .stringLiteral value range =>
    .str (utf8 (concatText value)) (fun _ => surrogatesOf (surrogatesAfterParts c value))
      (c.location range)
  | .call func args keywords range =>
    .call (toWireExpr func) (toWireCallArgs args ++ toWireKeywordValues keywords)
      (args.map argKind ++ keywords.map keywordKind)
      (args.map (fun _ => none) ++ keywords.map keywordName) (c.location range)
  | .binOp left op right _ => .op op.toInt (toWireExpr left) (toWireExpr right)
  | .numberLiteral value range => toWireNumber c value (c.location range)
  | .subscript value slice range =>
    .index (toWireExpr value) (toWireExpr slice) (c.location range)
  | .list elts ctx range =>
    if ctx = .store then .tuple (toWireExprs elts) (c.location range)
    else .list (toWireExprs elts) (c.location range)
  | .tuple elts _ range => .tuple (toWireExprs elts) (c.location range)
  | .set elts range => .set (toWireExprs elts) (c.location range)
  | .generator elt generators range =>
    .generator (toWireExpr elt) (toWireComprehensions generators) (c.location range)
  | .listComp elt generators range =>
    .listComp (toWireExpr elt) (toWireComprehensions generators) (c.location range)
  | .setComp elt generators range =>
    .setComp (toWireExpr elt) (toWireComprehensions generators) (c.location range)
  | .dictComp key value generators range =>
    if optional : cvDictKeyOpt ≤ c.cacheVersion then
      .dictComp optional (toWireOptExpr key) (toWireExpr value) (toWireComprehensions generators)
        (c.location range)
    else
      .dictCompKeyed (Nat.lt_of_not_le optional) (toWireKey range key) (toWireExpr value)
        (toWireComprehensions generators) (c.location range)
  | .yield value range => .yield (toWireOptExpr value) (c.location range)
  | .yieldFrom value range => .yieldFrom (toWireExpr value) (c.location range)
  | .boolOp op values range => .boolOp op.toInt (toWireExprs values) (c.location range)
  | .compare left ops comparators range =>
    .comparison (toWireExpr left) (ops.map CmpOp.toInt) (toWireExprs comparators)
      (c.location range)
  | .booleanLiteral value range =>
    .name (utf8 (if value then "True" else "False")) (c.location range)
  | .noneLiteral range => .name (utf8 "None") (c.location range)
  | .ellipsisLiteral range => .ellipsis (c.location range)
  | .ifExp test body orelse range =>
    .conditional (toWireExpr body) (toWireExpr test) (toWireExpr orelse) (c.location range)
  | .unaryOp op operand range => .unary op.toInt (toWireExpr operand) (c.location range)
  | .dict items range =>
    .dict (toWireDictKeys items) (toWireDictValues items) (c.location range)
  | .slice lower upper step range =>
    .slice (toWireOptExpr lower) (toWireOptExpr upper) (toWireOptExpr step) (c.location range)
  | .fString value range =>
    .fString (toWireFStringParts value)
      (fun _ => surrogatesOf (surrogatesAfterFStringParts c value)) (c.location range)
  | .lambda (some parameters) body range =>
    .lambda (toWireParameters (List.replicate parameters.len none) parameters) scope.unreachable
      (toWireExpr body) (c.location body.range) (c.location range)
  | .lambda none body range =>
    .lambda [] scope.unreachable (toWireExpr body) (c.location body.range) (c.location range)
  | .named target value range =>
    .assignment (toWireExpr target) (toWireExpr value) (c.location range)
  | .starred value range => .star (toWireExpr value) (c.location range)
  | .bytesLiteral value range => .bytes (serializeBytesToEscapedString value) (c.location range)
  | .await value range => .await (toWireExpr value) (c.location range)
  | .tString elements range =>
    .tString (toWireTStringElements elements)
      (fun _ => surrogatesOf (surrogatesAfterTStringElements c elements)) (c.location range)
  -- the serializer panics here
  | .ipyEscapeCommand _ => .temp

def toWireExprs : List Expr → List (WExpr c.cacheVersion)
  | [] => []
  | e :: es => toWireExpr e :: toWireExprs es

def toWireOptExpr : Option Expr → Option (WExpr c.cacheVersion)
  | none => none
  | some e => some (toWireExpr e)

def toWireKey (range : TextRange) : Option Expr → WKey c.cacheVersion
  | some key => .expr (toWireExpr key)
  | none => .recovered (c.location range)

def toWireCallArgs : List Expr → List (WExpr c.cacheVersion)
  | [] => []
  | .starred value _ :: args => toWireExpr value :: toWireCallArgs args
  | arg :: args => toWireExpr arg :: toWireCallArgs args

def toWireKeywordValues : List Keyword → List (WExpr c.cacheVersion)
  | [] => []
  | .mk _ value :: keywords => toWireExpr value :: toWireKeywordValues keywords

def toWireComprehensions : List Comprehension → List (WComprehension c.cacheVersion)
  | [] => []
  | .mk target iter ifs isAsync :: generators =>
    .mk (toWireExpr target) (toWireExpr iter) (toWireExprs ifs) isAsync
      :: toWireComprehensions generators

def toWireDictKeys : List DictItem → List (Option (WExpr c.cacheVersion))
  | [] => []
  | .mk key _ :: items => toWireOptExpr key :: toWireDictKeys items

def toWireDictValues : List DictItem → List (WExpr c.cacheVersion)
  | [] => []
  | .mk _ value :: items => toWireExpr value :: toWireDictValues items

def toWireParameters (argComments : List (Option Expr)) :
    Parameters → List (WParameter c.cacheVersion)
  | .mk posonlyargs args vararg kwonlyargs kwarg =>
    toWireDefaults argComments 0 argPos argOpt (fun _ => true) posonlyargs ++
      toWireDefaults argComments posonlyargs.length argPos argOpt
        (fun param => argumentElideName param.name.id) args ++
      toWireVariadic c scope argComments (posonlyargs.length + args.length) argStar vararg ++
      toWireDefaults argComments (posonlyargs.length + args.length + vararg.toList.length)
        argNamed argNamedOpt (fun _ => false) kwonlyargs ++
      toWireVariadic c scope argComments
        (posonlyargs.length + args.length + vararg.toList.length + kwonlyargs.length) argStar2 kwarg

def toWireDefaults (argComments : List (Option Expr)) (idx : Nat)
    (kindNoDefault kindWithDefault : Int) (posOnly : Parameter → Bool) :
    List ParameterWithDefault → List (WParameter c.cacheVersion)
  | [] => []
  | .mk parameter default _ :: parameters =>
    toWireArgument c scope parameter argComments[idx]?.join (toWireOptExpr default) kindNoDefault
        kindWithDefault (posOnly parameter)
      :: toWireDefaults argComments (idx + 1) kindNoDefault kindWithDefault posOnly parameters

def toWireFStringParts : List FStringPart → List (WFStringPart c.cacheVersion)
  | [] => []
  | .fString elements :: parts => .fString (toWireElements elements) :: toWireFStringParts parts
  | .literal lit :: parts =>
    .literal (utf8 lit.value) (c.location lit.range) :: toWireFStringParts parts

/-- The debug text of an item is a literal before it. -/
def toWireElements : List InterpolatedStringElement → List (WFStringElement c.cacheVersion)
  | [] => []
  | .literal value range :: elements =>
    .literal (utf8 value) (c.location range) :: toWireElements elements
  | .interpolation expression debugText conversion formatSpec :: elements =>
    (match debugText with
      | some text => [.literal (debugBytes c text expression.range) (c.location expression.range)]
      | none => []) ++
      .interpolation (toWireExpr expression)
          (fStringConversion (debugConversion debugText conversion formatSpec))
          (toWireFormatSpec formatSpec)
        :: toWireElements elements

def toWireFormatSpec : Option FormatSpec → Option (WFormatSpec c.cacheVersion)
  | none => none
  | some (.mk elements range) => some (.mk (toWireElements elements) (c.location range))

def toWireTStringElements : List InterpolatedStringElement → List (WTStringPart c.cacheVersion)
  | [] => []
  | .interpolation expression _ conversion formatSpec :: elements =>
    .interpolation (toWireExpr expression)
        ((c.textAt expression.range).flatMap String.utf8EncodeChar) (tStringConversion conversion)
        (toWireFormatSpec formatSpec)
      :: toWireTStringElements elements
  | .literal value range :: elements =>
    .literal (utf8 value) (c.location range) :: toWireTStringElements elements

end

end Trees

end AstSerialize
