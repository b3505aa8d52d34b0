import AstSerialize.Serializer.Literals

/-! `impl Ser for ast::Expr` and what it shares with function definitions. -/
namespace AstSerialize
open Coding

/-- `impl Ser for Vec<ast::Expr>`, the items given as one action. -/
def serializeVec (len : Nat) (items : SerM Unit) : SerM Unit := do
  writeTag .listGen
  writeUsize len
  items

/-- A flag, then the string if there is one. -/
def writeOptBytes : Option Bytes → SerM Unit
  | some b => do
    writeBool true
    writeBytes b
  | none => writeBool false

def writeInts : List Int → SerM Unit
  | [] => pure ()
  | i :: is => do
    writeInt i
    writeInts is

def writeNames : List (Option Bytes) → SerM Unit
  | [] => pure ()
  | name :: names => do
    writeBytesOrNone name
    writeNames names

def writeFloat (bits : UInt64) : SerM Unit := do
  writeTag .literalFloat
  extendBytes (leBytes 8 bits.toNat)

def writeAsyncs : List Comprehension → SerM Unit
  | [] => pure ()
  | .mk _ _ _ isAsync :: generators => do
    writeBool isAsync
    writeAsyncs generators

/-- The surrogate flag is written from some version on. -/
def writeSurrogates (c : Config) : SerM Unit :=
  if cvUnicodeSurrogate ≤ c.cacheVersion then do
    writeBool (← (·.hasSurrogates) <$> get)
  else pure ()

def resetSurrogates : SerM Unit := modify fun s => { s with hasSurrogates := false }

/-- The parts of a string, each checked after it is written. -/
def serializeStringParts (c : Config) : List StringLiteral → SerM Unit
  | [] => pure ()
  | part :: parts => do
    extendBytes (utf8 part.value)
    checkSurrogateCodepoint c part.value part.range
    serializeStringParts c parts

def serializeNumber (value : Number) : SerM Unit :=
  match value with
  | .int n =>
    match n.asI64 with
    | some x => do
      writeTag .intExpr
      writeTaggedInt x.toInt
    | none => do
      writeTag .bigIntExpr
      writeBytes (utf8 n.toText)
  | .float bits => do
    writeTag .floatExpr
    writeFloat bits
  | .complex real imag => do
    writeTag .complexExpr
    writeFloat real
    writeFloat imag

/-- The element, the number of comprehensions, their columns and the location. -/
def serializeComprehension (c : Config) (elt targets iters conds : SerM Unit)
    (generators : List Comprehension) (range : TextRange) : SerM Unit := do
  elt
  writeTaggedInt generators.length
  targets
  iters
  conds
  writeAsyncs generators
  writeLocation c range

/-- `writeDefault` writes the flag of the default and the default. -/
def serializeArgument (c : Config) (param : Parameter) (argComment : Option Expr) (hasDefault : Bool)
    (writeDefault : SerM Unit) (kindNoDefault kindWithDefault : Int) (posOnly : Bool) :
    SerM Unit := do
  writeBytes param.name.bytes
  writeTaggedInt (if hasDefault then kindWithDefault else kindNoDefault)
  if param.annotated.isSome && argComment.isSome then
    addError c "Function has duplicate type signatures" param.range false
  match param.annotated with
  | some ann => do
    writeBool true
    serializeType c ann
  | none =>
    match argComment with
    | some comment => do
      writeBool true
      unevaluated (serializeType c (comment.relocate param.range))
    | none => writeBool false
  writeDefault
  writeBool posOnly
  writeLocation c param.range

/-- `*args` and `**kwargs` have no default. -/
def serializeVariadic (c : Config) (argComments : List (Option Expr)) (idx : Nat) (kind : Int) :
    Option Parameter → SerM Unit
  | none => pure ()
  | some param =>
    match argComments[idx]? with
    | some comment => serializeArgument c param comment false (writeBool false) kind kind false
    | none => panic

section Exprs

variable (c : Config)

mutual

def serializeExpr : Expr → SerM Unit
  | .name id range => do
    writeTag .nameExpr
    writeBytes (utf8 id)
    writeLocation c range
    writeEndTag
  | .attribute value attr range => do
    writeTag .memberExpr
    serializeExpr value
    writeBytes attr.bytes
    writeLocation c range
    writeEndTag
  | .stringLiteral value range => do
    writeTag .strExpr
    writeTag .literalStr
    writeUsize (concatLen value)
    resetSurrogates
    serializeStringParts c value
    writeSurrogates c
    writeLocation c range
    writeEndTag
  | .call func args keywords range => do
    let totalArgs := args.length + keywords.length
    writeTag .callExpr
    serializeExpr func
    writeTag .listGen
    writeInt totalArgs
    serializeCallArgs args
    serializeKeywordValues keywords
    writeTag .listInt
    writeInt totalArgs
    writeInts (args.map argKind)
    writeInts (keywords.map keywordKind)
    writeTag .listGen
    writeInt totalArgs
    writeNames (args.map fun _ => none)
    writeNames (keywords.map keywordName)
    writeLocation c range
    writeEndTag
  | .binOp left op right _ => do
    writeTag .opExpr
    writeTaggedInt op.toInt
    serializeExpr left
    serializeExpr right
    writeEndTag
  | .numberLiteral value range => do
    serializeNumber value
    writeLocation c range
    writeEndTag
  | .subscript value slice range => do
    writeTag .index
    serializeExpr value
    serializeExpr slice
    writeLocation c range
    writeEndTag
  | .list elts ctx range => do
    writeTag (if ctx = .store then .tupleExpr else .listExpr)
    serializeVec elts.length (serializeExprs elts)
    writeLocation c range
    writeEndTag
  | .tuple elts _ range => do
    writeTag .tupleExpr
    serializeVec elts.length (serializeExprs elts)
    writeLocation c range
    writeEndTag
  | .set elts range => do
    writeTag .setExpr
    serializeVec elts.length (serializeExprs elts)
    writeLocation c range
    writeEndTag
  | .generator elt generators range => do
    writeTag .generatorExpr
    serializeComprehension c (serializeExpr elt) (serializeTargets generators)
      (serializeIters generators) (serializeConds generators) generators range
    writeEndTag
  | .listComp elt generators range => do
    writeTag .listComprehension
    serializeComprehension c (serializeExpr elt) (serializeTargets generators)
      (serializeIters generators) (serializeConds generators) generators range
    writeEndTag
  | .setComp elt generators range => do
    writeTag .setComprehension
    serializeComprehension c (serializeExpr elt) (serializeTargets generators)
      (serializeIters generators) (serializeConds generators) generators range
    writeEndTag
  | .dictComp key value generators range => do
    writeTag .dictComprehension
    if cvDictKeyOpt ≤ c.cacheVersion then serializeOptExpr key
    else serializeKey range key
    serializeComprehension c (serializeExpr value) (serializeTargets generators)
      (serializeIters generators) (serializeConds generators) generators range
    writeEndTag
  | .yield value range => do
    writeTag .yieldExpr
    serializeOptExpr value
    writeLocation c range
    writeEndTag
  | .yieldFrom value range => do
    writeTag .yieldFromExpr
    serializeExpr value
    writeLocation c range
    writeEndTag
  | .boolOp op values range => do
    writeTag .boolOpExpr
    writeTaggedInt op.toInt
    serializeVec values.length (serializeExprs values)
    writeLocation c range
    writeEndTag
  | .compare left ops comparators range => do
    writeTag .comparisonExpr
    serializeExpr left
    writeTag .listInt
    writeUsize ops.length
    writeInts (ops.map CmpOp.toInt)
    serializeVec comparators.length (serializeExprs comparators)
    writeLocation c range
    writeEndTag
  | .booleanLiteral value range => do
    writeTag .nameExpr
    writeBytes (utf8 (if value then "True" else "False"))
    writeLocation c range
    writeEndTag
  | .noneLiteral range => do
    writeTag .nameExpr
    writeBytes (utf8 "None")
    writeLocation c range
    writeEndTag
  | .ellipsisLiteral range => do
    writeTag .ellipsisExpr
    writeLocation c range
    writeEndTag
  | .ifExp test body orelse range => do
    writeTag .conditionalExpr
    serializeExpr body
    serializeExpr test
    serializeExpr orelse
    writeLocation c range
    writeEndTag
  | .unaryOp op operand range => do
    writeTag .unaryExpr
    writeTaggedInt op.toInt
    serializeExpr operand
    writeLocation c range
    writeEndTag
  | .dict items range => do
    writeTag .dictExpr
    writeTag .listGen
    writeInt items.length
    serializeDictKeys items
    writeTag .listGen
    writeInt items.length
    serializeDictValues items
    writeLocation c range
    writeEndTag
  | .slice lower upper step range => do
    writeTag .sliceExpr
    serializeOptExpr lower
    serializeOptExpr upper
    serializeOptExpr step
    writeLocation c range
    writeEndTag
  | .fString value range => do
    writeTag .fstringExpr
    writeTaggedInt value.length
    resetSurrogates
    serializeFStringParts value
    writeSurrogates c
    writeLocation c range
    writeEndTag
  | .lambda parameters body range => do
    writeTag .lambdaExpr
    match parameters with
    | some params => serializeParameters (List.replicate params.len none) params
    | none => do
      writeTag .listGen
      writeInt 0
    writeTag .block
    writeTag .listGen
    writeInt 1
    writeBool (← (·.currentUnreachable) <$> get)
    writeTag .return
    writeBool true
    serializeExpr body
    writeLocation c body.range
    writeEndTag
    writeEndTag
    writeLocation c range
    writeEndTag
  | .named target value range => do
    writeTag .assignmentExpr
    serializeExpr target
    serializeExpr value
    writeLocation c range
    writeEndTag
  | .starred value range => do
    writeTag .starExpr
    serializeExpr value
    writeLocation c range
    writeEndTag
  | .bytesLiteral value range => do
    writeTag .bytesExpr
    writeBytes (serializeBytesToEscapedString value)
    writeLocation c range
    writeEndTag
  | .await value range => do
    writeTag .awaitExpr
    serializeExpr value
    writeLocation c range
    writeEndTag
  | .tString elements range => do
    modify fun s => { s with usesTemplateStrings := true }
    writeTag .tstringExpr
    writeTaggedInt elements.length
    resetSurrogates
    serializeTStringElements elements
    writeSurrogates c
    writeLocation c range
    writeEndTag
  | .ipyEscapeCommand _ => panic

def serializeExprs : List Expr → SerM Unit
  | [] => pure ()
  | e :: es => do
    serializeExpr e
    serializeExprs es

/-- `impl Ser for Option<Box<ast::Expr>>`. -/
def serializeOptExpr : Option Expr → SerM Unit
  | some e => do
    writeBool true
    serializeExpr e
  | none => writeBool false

/-- The key of a dictionary comprehension, before it became optional. -/
def serializeKey (range : TextRange) : Option Expr → SerM Unit
  | some key => serializeExpr key
  | none => do
    addError c "PEP 798 is not supported yet" range true
    writeTag .nameExpr
    writeBytes (utf8 "None")
    writeLocation c range

/-- Starred arguments are unwrapped. -/
def serializeCallArgs : List Expr → SerM Unit
  | [] => pure ()
  | .starred value _ :: args => do
    serializeExpr value
    serializeCallArgs args
  | arg :: args => do
    serializeExpr arg
    serializeCallArgs args

def serializeKeywordValues : List Keyword → SerM Unit
  | [] => pure ()
  | .mk _ value :: keywords => do
    serializeExpr value
    serializeKeywordValues keywords

def serializeTargets : List Comprehension → SerM Unit
  | [] => pure ()
  | .mk target _ _ _ :: generators => do
    serializeExpr target
    serializeTargets generators

def serializeIters : List Comprehension → SerM Unit
  | [] => pure ()
  | .mk _ iter _ _ :: generators => do
    serializeExpr iter
    serializeIters generators

def serializeConds : List Comprehension → SerM Unit
  | [] => pure ()
  | .mk _ _ ifs _ :: generators => do
    serializeVec ifs.length (serializeExprs ifs)
    serializeConds generators

def serializeDictKeys : List DictItem → SerM Unit
  | [] => pure ()
  | .mk key _ :: items => do
    serializeOptExpr key
    serializeDictKeys items

def serializeDictValues : List DictItem → SerM Unit
  | [] => pure ()
  | .mk _ value :: items => do
    serializeExpr value
    serializeDictValues items

def serializeParameters (argComments : List (Option Expr)) : Parameters → SerM Unit
  | .mk posonlyargs args vararg kwonlyargs kwarg => do
    writeTag .listGen
    writeInt (Parameters.mk posonlyargs args vararg kwonlyargs kwarg).len
    serializeDefaults argComments 0 argPos argOpt (fun _ => true) posonlyargs
    serializeDefaults argComments posonlyargs.length argPos argOpt
      (fun param => argumentElideName param.name.id) args
    serializeVariadic c argComments (posonlyargs.length + args.length) argStar vararg
    serializeDefaults argComments (posonlyargs.length + args.length + vararg.toList.length)
      argNamed argNamedOpt (fun _ => false) kwonlyargs
    serializeVariadic c argComments
      (posonlyargs.length + args.length + vararg.toList.length + kwonlyargs.length) argStar2 kwarg

/-- Parameters of one kind. The index is that of the first one's comment. -/
def serializeDefaults (argComments : List (Option Expr)) (idx : Nat)
    (kindNoDefault kindWithDefault : Int) (posOnly : Parameter → Bool) :
    List ParameterWithDefault → SerM Unit
  | [] => pure ()
  | .mk parameter default _ :: parameters => do
    match argComments[idx]? with
    | some comment =>
      serializeArgument c parameter comment default.isSome (serializeOptExpr default)
        kindNoDefault kindWithDefault (posOnly parameter)
    | none => panic
    serializeDefaults argComments (idx + 1) kindNoDefault kindWithDefault posOnly parameters

def serializeFStringParts : List FStringPart → SerM Unit
  | [] => pure ()
  | .fString elements :: parts => do
    writeBool true
    writeTaggedInt (elementCount elements)
    serializeFStringElements elements
    serializeFStringParts parts
  | .literal lit :: parts => do
    writeBool false
    writeBytes (utf8 lit.value)
    checkSurrogateCodepoint c lit.value lit.range
    writeLocation c lit.range
    serializeFStringParts parts

/-- The elements of `serialize_fstring_elements`, after their number. -/
def serializeFStringElements : List InterpolatedStringElement → SerM Unit
  | [] => pure ()
  | .literal value range :: elements => do
    writeBytes (utf8 value)
    checkSurrogateCodepoint c value range
    writeLocation c range
    serializeFStringElements elements
  | .interpolation expression debugText conversion formatSpec :: elements => do
    match debugText with
    | some text => do
      writeBytes (debugBytes c text expression.range)
      writeLocation c expression.range
    | none => pure ()
    writeTag .fstringInterpolation
    serializeExpr expression
    writeOptBytes (fStringConversion (debugConversion debugText conversion formatSpec))
    serializeFormatSpec formatSpec
    writeEndTag
    serializeFStringElements elements

def serializeFormatSpec : Option FormatSpec → SerM Unit
  | some (.mk elements range) => do
    writeBool true
    writeTaggedInt (elementCount elements)
    serializeFStringElements elements
    writeLocation c range
  | none => writeBool false

def serializeTStringElements : List InterpolatedStringElement → SerM Unit
  | [] => pure ()
  | .interpolation expression _ conversion formatSpec :: elements => do
    writeBool true
    serializeExpr expression
    writeBytes ((c.textAt expression.range).flatMap String.utf8EncodeChar)
    writeOptBytes (tStringConversion conversion)
    serializeFormatSpec formatSpec
    serializeTStringElements elements
  | .literal value range :: elements => do
    writeBool false
    writeBytes (utf8 value)
    checkSurrogateCodepoint c value range
    writeLocation c range
    serializeTStringElements elements

end

end Exprs

end AstSerialize
