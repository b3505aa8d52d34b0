import AstSerialize.Wire.Type

/-! Expressions in the stream: one constructor for each tag, and the bytes of a tree. -/
namespace AstSerialize
open Coding

mutual

inductive WExpr (cv : Nat) where
  | name (id : Bytes) (loc : Location)
  | member (value : WExpr cv) (attr : Bytes) (loc : Location)
  | str (value : Bytes) (surrogates : cvUnicodeSurrogate ≤ cv → Bool) (loc : Location)
  | call (func : WExpr cv) (args : List (WExpr cv)) (kinds : List Int)
      (names : List (Option Bytes)) (loc : Location)
  | op (op : Int) (left right : WExpr cv)
  | int (value : Int) (loc : Location)
  | bigInt (text : Bytes) (loc : Location)
  | float (bits : UInt64) (loc : Location)
  | complex (real imag : UInt64) (loc : Location)
  | index (value slice : WExpr cv) (loc : Location)
  | list (elts : List (WExpr cv)) (loc : Location)
  | tuple (elts : List (WExpr cv)) (loc : Location)
  | set (elts : List (WExpr cv)) (loc : Location)
  | generator (elt : WExpr cv) (generators : List (WComprehension cv)) (loc : Location)
  | listComp (elt : WExpr cv) (generators : List (WComprehension cv)) (loc : Location)
  | setComp (elt : WExpr cv) (generators : List (WComprehension cv)) (loc : Location)
  | dictComp (optional : cvDictKeyOpt ≤ cv) (key : Option (WExpr cv)) (value : WExpr cv)
      (generators : List (WComprehension cv)) (loc : Location)
  | dictCompKeyed (required : cv < cvDictKeyOpt) (key : WKey cv) (value : WExpr cv)
      (generators : List (WComprehension cv)) (loc : Location)
  | yield (value : Option (WExpr cv)) (loc : Location)
  | yieldFrom (value : WExpr cv) (loc : Location)
  | boolOp (op : Int) (values : List (WExpr cv)) (loc : Location)
  | comparison (left : WExpr cv) (ops : List Int) (comparators : List (WExpr cv))
      (loc : Location)
  | ellipsis (loc : Location)
  | conditional (body test orelse : WExpr cv) (loc : Location)
  | unary (op : Int) (operand : WExpr cv) (loc : Location)
  | dict (keys : List (Option (WExpr cv))) (values : List (WExpr cv)) (loc : Location)
  | slice (lower upper step : Option (WExpr cv)) (loc : Location)
  | fString (parts : List (WFStringPart cv)) (surrogates : cvUnicodeSurrogate ≤ cv → Bool)
      (loc : Location)
  | lambda (parameters : List (WParameter cv)) (unreachable : Bool) (body : WExpr cv)
      (bodyLoc loc : Location)
  | assignment (target value : WExpr cv) (loc : Location)
  | star (value : WExpr cv) (loc : Location)
  | bytes (text : Bytes) (loc : Location)
  | await (value : WExpr cv) (loc : Location)
  | tString (parts : List (WTStringPart cv)) (surrogates : cvUnicodeSurrogate ≤ cv → Bool)
      (loc : Location)
  /-- The value of an annotation without assignment. -/
  | temp

/-- The key of a dictionary comprehension that must have one. In place of a missing key there is
the name `None` without its end tag. -/
inductive WKey (cv : Nat) where
  | expr (key : WExpr cv)
  | recovered (loc : Location)

inductive WComprehension (cv : Nat) where
  | mk (target iter : WExpr cv) (ifs : List (WExpr cv)) (isAsync : Bool)

inductive WParameter (cv : Nat) where
  | mk (name : Bytes) (kind : Int) (type : Option (WType cv)) (default : Option (WExpr cv))
      (posOnly : Bool) (loc : Location)

inductive WFStringPart (cv : Nat) where
  | literal (value : Bytes) (loc : Location)
  | fString (elements : List (WFStringElement cv))

inductive WFStringElement (cv : Nat) where
  | literal (value : Bytes) (loc : Location)
  | interpolation (expression : WExpr cv) (conversion : Option Bytes)
      (formatSpec : Option (WFormatSpec cv))

inductive WFormatSpec (cv : Nat) where
  | mk (elements : List (WFStringElement cv)) (loc : Location)

inductive WTStringPart (cv : Nat) where
  | literal (value : Bytes) (loc : Location)
  | interpolation (expression : WExpr cv) (text : Bytes) (conversion : Option Bytes)
      (formatSpec : Option (WFormatSpec cv))

end

variable {cv : Nat}

/-- A list whose items have these bytes. -/
def encListed (n : Nat) (items : Bytes) : Bytes := [encTag .listGen, encCount n, items].flatten

def encFloat (bits : UInt64) : Bytes := [encTag .literalFloat, leBytes 8 bits.toNat].flatten

def encInts : List Int → Bytes
  | [] => []
  | i :: is => encodeInt i ++ encInts is

def encAsyncs : List (WComprehension cv) → Bytes
  | [] => []
  | .mk _ _ _ isAsync :: generators => encBool isAsync ++ encAsyncs generators

mutual

def encExpr : WExpr cv → Bytes
  | .name id loc => [encTag .nameExpr, encBytes id, encLocation loc, encTag .end].flatten
  | .member value attr loc =>
    [encTag .memberExpr, encExpr value, encBytes attr, encLocation loc, encTag .end].flatten
  | .str value surrogates loc =>
    [encTag .strExpr, encBytes value, encGated encBool surrogates, encLocation loc,
      encTag .end].flatten
  | .call func args kinds names loc =>
    [encTag .callExpr, encExpr func, encListed args.length (encExprs args), encTag .listInt,
      encCount kinds.length, encInts kinds, encTag .listGen, encCount names.length, encNames names,
      encLocation loc, encTag .end].flatten
  | .op op left right =>
    [encTag .opExpr, encTaggedInt op, encExpr left, encExpr right, encTag .end].flatten
  | .int value loc => [encTag .intExpr, encTaggedInt value, encLocation loc, encTag .end].flatten
  | .bigInt text loc => [encTag .bigIntExpr, encBytes text, encLocation loc, encTag .end].flatten
  | .float bits loc => [encTag .floatExpr, encFloat bits, encLocation loc, encTag .end].flatten
  | .complex real imag loc =>
    [encTag .complexExpr, encFloat real, encFloat imag, encLocation loc, encTag .end].flatten
  | .index value slice loc =>
    [encTag .index, encExpr value, encExpr slice, encLocation loc, encTag .end].flatten
  | .list elts loc =>
    [encTag .listExpr, encListed elts.length (encExprs elts), encLocation loc, encTag .end].flatten
  | .tuple elts loc =>
    [encTag .tupleExpr, encListed elts.length (encExprs elts), encLocation loc,
      encTag .end].flatten
  | .set elts loc =>
    [encTag .setExpr, encListed elts.length (encExprs elts), encLocation loc, encTag .end].flatten
  | .generator elt generators loc =>
    [encTag .generatorExpr, encExpr elt, encTaggedCount generators.length, encTargets generators,
      encIters generators, encConds generators, encAsyncs generators, encLocation loc,
      encTag .end].flatten
  | .listComp elt generators loc =>
    [encTag .listComprehension, encExpr elt, encTaggedCount generators.length,
      encTargets generators, encIters generators, encConds generators, encAsyncs generators,
      encLocation loc, encTag .end].flatten
  | .setComp elt generators loc =>
    [encTag .setComprehension, encExpr elt, encTaggedCount generators.length,
      encTargets generators, encIters generators, encConds generators, encAsyncs generators,
      encLocation loc, encTag .end].flatten
  | .dictComp _ key value generators loc =>
    [encTag .dictComprehension, encOptExpr key, encExpr value, encTaggedCount generators.length,
      encTargets generators, encIters generators, encConds generators, encAsyncs generators,
      encLocation loc, encTag .end].flatten
  | .dictCompKeyed _ key value generators loc =>
    [encTag .dictComprehension, encKey key, encExpr value, encTaggedCount generators.length,
      encTargets generators, encIters generators, encConds generators, encAsyncs generators,
      encLocation loc, encTag .end].flatten
  | .yield value loc => [encTag .yieldExpr, encOptExpr value, encLocation loc, encTag .end].flatten
  | .yieldFrom value loc =>
    [encTag .yieldFromExpr, encExpr value, encLocation loc, encTag .end].flatten
  | .boolOp op values loc =>
    [encTag .boolOpExpr, encTaggedInt op, encListed values.length (encExprs values),
      encLocation loc, encTag .end].flatten
  | .comparison left ops comparators loc =>
    [encTag .comparisonExpr, encExpr left, encTag .listInt, encCount ops.length, encInts ops,
      encListed comparators.length (encExprs comparators), encLocation loc, encTag .end].flatten
  | .ellipsis loc => [encTag .ellipsisExpr, encLocation loc, encTag .end].flatten
  | .conditional body test orelse loc =>
    [encTag .conditionalExpr, encExpr body, encExpr test, encExpr orelse, encLocation loc,
      encTag .end].flatten
  | .unary op operand loc =>
    [encTag .unaryExpr, encTaggedInt op, encExpr operand, encLocation loc, encTag .end].flatten
  | .dict keys values loc =>
    [encTag .dictExpr, encTag .listGen, encCount keys.length, encOptExprs keys, encTag .listGen,
      encCount values.length, encExprs values, encLocation loc, encTag .end].flatten
  | .slice lower upper step loc =>
    [encTag .sliceExpr, encOptExpr lower, encOptExpr upper, encOptExpr step, encLocation loc,
      encTag .end].flatten
  | .fString parts surrogates loc =>
    [encTag .fstringExpr, encTaggedCount parts.length, encFStringParts parts,
      encGated encBool surrogates, encLocation loc, encTag .end].flatten
  | .lambda parameters unreachable body bodyLoc loc =>
    [encTag .lambdaExpr, encListed parameters.length (encParameters parameters), encTag .block,
      encTag .listGen, encCount 1, encBool unreachable, encTag .return, encBool true, encExpr body,
      encLocation bodyLoc, encTag .end, encTag .end, encLocation loc, encTag .end].flatten
  | .assignment target value loc =>
    [encTag .assignmentExpr, encExpr target, encExpr value, encLocation loc, encTag .end].flatten
  | .star value loc => [encTag .starExpr, encExpr value, encLocation loc, encTag .end].flatten
  | .bytes text loc => [encTag .bytesExpr, encBytes text, encLocation loc, encTag .end].flatten
  | .await value loc => [encTag .awaitExpr, encExpr value, encLocation loc, encTag .end].flatten
  | .tString parts surrogates loc =>
    [encTag .tstringExpr, encTaggedCount parts.length, encTStringParts parts,
      encGated encBool surrogates, encLocation loc, encTag .end].flatten
  | .temp => [encTag .tempNode, encTag .end].flatten

def encExprs : List (WExpr cv) → Bytes
  | [] => []
  | e :: es => encExpr e ++ encExprs es

def encOptExpr : Option (WExpr cv) → Bytes
  | none => encBool false
  | some e => [encBool true, encExpr e].flatten

def encOptExprs : List (Option (WExpr cv)) → Bytes
  | [] => []
  | e :: es => encOptExpr e ++ encOptExprs es

def encKey : WKey cv → Bytes
  | .expr key => encExpr key
  | .recovered loc => [encTag .nameExpr, encBytes (utf8 "None"), encLocation loc].flatten

def encTargets : List (WComprehension cv) → Bytes
  | [] => []
  | .mk target _ _ _ :: generators => encExpr target ++ encTargets generators

def encIters : List (WComprehension cv) → Bytes
  | [] => []
  | .mk _ iter _ _ :: generators => encExpr iter ++ encIters generators

def encConds : List (WComprehension cv) → Bytes
  | [] => []
  | .mk _ _ ifs _ :: generators => encListed ifs.length (encExprs ifs) ++ encConds generators

def encParameters : List (WParameter cv) → Bytes
  | [] => []
  | .mk name kind type default posOnly loc :: parameters =>
    [encBytes name, encTaggedInt kind, encOption encType type, encOptExpr default,
      encBool posOnly, encLocation loc].flatten ++ encParameters parameters

def encFStringParts : List (WFStringPart cv) → Bytes
  | [] => []
  | .literal value loc :: parts =>
    [encBool false, encBytes value, encLocation loc].flatten ++ encFStringParts parts
  | .fString elements :: parts =>
    [encBool true, [encTaggedCount elements.length, encElements elements].flatten].flatten
      ++ encFStringParts parts

def encElements : List (WFStringElement cv) → Bytes
  | [] => []
  | .literal value loc :: elements =>
    [encBytes value, encLocation loc].flatten ++ encElements elements
  | .interpolation expression conversion formatSpec :: elements =>
    [encTag .fstringInterpolation, encExpr expression, encOption encBytes conversion,
      encFormatSpec formatSpec, encTag .end].flatten ++ encElements elements

def encFormatSpec : Option (WFormatSpec cv) → Bytes
  | none => encBool false
  | some (.mk elements loc) =>
    [encBool true, [[encTaggedCount elements.length, encElements elements].flatten,
      encLocation loc].flatten].flatten

def encTStringParts : List (WTStringPart cv) → Bytes
  | [] => []
  | .literal value loc :: parts =>
    [encBool false, encBytes value, encLocation loc].flatten ++ encTStringParts parts
  | .interpolation expression text conversion formatSpec :: parts =>
    [encBool true, encExpr expression, encBytes text, encOption encBytes conversion,
      encFormatSpec formatSpec].flatten ++ encTStringParts parts

end

end AstSerialize
