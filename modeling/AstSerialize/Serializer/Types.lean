import AstSerialize.Serializer.State

/-! Type annotations. A string literal is parsed and serialized as a type again,
so `serializeTypeWith` is given what to do with one. -/
namespace AstSerialize
open Coding

/-- One byte of a bytes literal. -/
def escapedByte (escapeQuote : Bool) (byte : UInt8) : Bytes :=
  if byte = 13 then utf8 "\\r"
  else if byte = 10 then utf8 "\\n"
  else if byte = 9 then utf8 "\\t"
  else if byte = 92 then utf8 "\\\\"
  else if byte = 39 ∧ escapeQuote then utf8 "\\'"
  else if 32 ≤ byte ∧ byte ≤ 126 then [byte]
  else utf8 "\\x" ++ ((utf8 "0123456789abcdef")[(byte >>> 4).toNat]?).toList
    ++ ((utf8 "0123456789abcdef")[(byte &&& 0xf).toNat]?).toList

def serializeBytesToEscapedString (value : List (List UInt8)) : Bytes :=
  let squotes := value.any fun part => part.any (· = 39)
  let dquotes := value.any fun part => part.any (· = 34)
  value.flatMap fun part => part.flatMap (escapedByte (squotes && dquotes))

/-- A panic when there is an original string without its fallback. -/
def serializeInvalidType (c : Config) (note : Option Bytes)
    (originalStrExpr originalStrFallback : Option String) : SerM Unit := do
  writeTag .rawExpressionType
  match originalStrExpr with
  | some expr =>
    match originalStrFallback with
    | some fallback => do
      writeBytes (utf8 fallback)
      writeBytes (utf8 expr)
    | none => panic
  | none => do
    writeBytes (utf8 "typing.Any")
    writeTag .literalNone
    if cvRawExpressionTypeNotes ≤ c.cacheVersion then writeBytesOrNone note

def isStringOrNone : Option Expr → Bool
  | some (.stringLiteral _ _) => true
  | none => true
  | _ => false

def getQualifiedTypeName : Expr → Option Bytes
  | .name id _ => some (utf8 id)
  | .attribute value attr _ =>
    (getQualifiedTypeName value).map fun v => v ++ utf8 "." ++ utf8 attr.id
  | _ => none

def extractIntLiteralValue : Expr → Option Int64
  | .numberLiteral (.int value) _ => value.asI64
  | .unaryOp .uSub operand _ => (extractIntLiteralValue operand).map fun v => -v
  | _ => none

/-- The optional original string and its fallback. -/
def writeOriginal (originalStrExpr originalStrFallback : Option String) : SerM Unit := do
  writeBytesOrNone (originalStrExpr.map utf8)
  writeBytesOrNone (originalStrFallback.map utf8)

def serializeSimpleUnboundType (name : Bytes) (originalStrExpr originalStrFallback : Option String) :
    SerM Unit := do
  writeTag .unboundType
  writeBytes name
  writeTag .listGen
  writeInt 0
  writeBool false
  writeOriginal originalStrExpr originalStrFallback

def serializeAttributeType (c : Config) (e : Expr)
    (originalStrExpr originalStrFallback : Option String) : SerM Unit :=
  match getQualifiedTypeName e with
  | none => serializeInvalidType c none originalStrExpr originalStrFallback
  | some v => do
    writeTag .unboundType
    writeBytes v
    writeTag .listGen
    writeInt 0
    writeBool false
    writeOriginal originalStrExpr originalStrFallback

/-- `args` writes the count, the arguments and `empty_tuple_index`. -/
def serializeSubscriptType (c : Config) (value : Expr) (args : SerM Unit)
    (originalStrExpr originalStrFallback : Option String) : SerM Unit :=
  match getQualifiedTypeName value with
  | none => serializeInvalidType c none originalStrExpr originalStrFallback
  | some v => do
    writeTag .unboundType
    writeBytes v
    writeTag .listGen
    args
    writeOriginal originalStrExpr originalStrFallback

def serializeUnionType (c : Config) (left right : SerM Unit) (range : TextRange)
    (originalStrExpr originalStrFallback : Option String) : SerM Unit := do
  writeTag .unionType
  writeTag .listGen
  writeInt 2
  left
  right
  writeBool true
  writeOriginal originalStrExpr originalStrFallback
  writeBool (← (·.isEvaluated) <$> get)
  writeLocation c range
  writeEndTag

/-- An action with `is_evaluated` off, restored afterwards. -/
def unevaluated (m : SerM Unit) : SerM Unit := do
  let wasEvaluated ← (·.isEvaluated) <$> get
  modify fun s => { s with isEvaluated := false }
  m
  modify fun s => { s with isEvaluated := wasEvaluated }

/-- The note of a call that is not a type. -/
def callNote (func : Expr) (keywords : List Keyword) : Option Bytes :=
  match getQualifiedTypeName func with
  | some name =>
    if keywords.isEmpty then
      some (utf8 "Suggestion: use " ++ name ++ utf8 "[...] instead of " ++ name ++ utf8 "(...)")
    else some (utf8 "Cannot use a function call in a type annotation")
  | none => none

/-- The parts of a string, after its tag. -/
def writeParts : List StringLiteral → SerM Unit
  | [] => pure ()
  | part :: parts => do
    extendBytes (utf8 part.value)
    writeParts parts

/-- `StringLiteralValue::len`. -/
def concatLen : List StringLiteral → Nat
  | [] => 0
  | part :: parts => (utf8 part.value).length + concatLen parts

def writeConcatenated (value : List StringLiteral) : SerM Unit := do
  writeTag .literalStr
  writeUsize (concatLen value)
  writeParts value

def writeTypedDictKeys : List DictItem → SerM Unit
  | [] => pure ()
  | .mk (some (.stringLiteral value _)) _ :: items => do
    writeConcatenated value
    writeTypedDictKeys items
  | _ :: items => do
    writeTag .literalNone
    writeTypedDictKeys items

def DictItem.key : DictItem → Option Expr
  | .mk key _ => key

def isTypedDict (items : List DictItem) : Bool :=
  !items.isEmpty && items.all fun item => isStringOrNone item.key

/-- A raw integer, closed by its own location. -/
def serializeSignedInt (c : Config) (value : Int64) (range : TextRange) : SerM Unit := do
  writeTag .rawExpressionType
  writeBytes (utf8 "builtins.int")
  writeTaggedInt value.toInt
  writeLocation c range
  writeEndTag

section Types

variable (c : Config) (str : String → TextRange → SerM Unit)

mutual

def serializeTypeWith : Expr → SerM Unit
  | .name id range => do
    serializeSimpleUnboundType (utf8 id) none none
    writeLocation c range
    writeEndTag
  | .attribute value attr range => do
    serializeAttributeType c (.attribute value attr range) none none
    writeLocation c range
    writeEndTag
  | .subscript value slice range => do
    serializeSubscriptType c value
      (match slice with
      | .tuple elts _ _ => do
        writeUsize elts.length
        serializeTypes elts
        writeBool elts.isEmpty
      | slice => do
        writeInt 1
        serializeTypeWith slice
        writeBool false)
      none none
    writeLocation c range
    writeEndTag
  | .noneLiteral range => do
    serializeSimpleUnboundType (utf8 "None") none none
    writeLocation c range
    writeEndTag
  | .booleanLiteral value range => do
    writeTag .rawExpressionType
    writeBytes (utf8 "builtins.bool")
    writeBool value
    writeLocation c range
    writeEndTag
  | .numberLiteral value range => do
    match value with
    | .int n =>
      match extractIntLiteralValue (.numberLiteral (.int n) range) with
      | some v => do
        writeTag .rawExpressionType
        writeBytes (utf8 "builtins.int")
        writeTaggedInt v.toInt
      | none => serializeInvalidType c none none none
    | _ => serializeInvalidType c none none none
    writeLocation c range
    writeEndTag
  | .binOp left op right range =>
    match op with
    | .bitOr =>
      serializeUnionType c (serializeTypeWith left) (serializeTypeWith right) range none none
    | _ => do
      serializeInvalidType c none none none
      writeLocation c range
      writeEndTag
  | .list elts _ range => do
    writeTag .listType
    writeTag .listGen
    writeUsize elts.length
    serializeTypesInList elts
    writeLocation c range
    writeEndTag
  | .tuple elts _ range => do
    writeTag .tupleType
    writeTag .listGen
    writeUsize elts.length
    serializeTypes elts
    writeBool true
    writeLocation c range
    writeEndTag
  | .dict items range => do
    if isTypedDict items then do
      writeTag .typedDictType
      writeTag .listGen
      writeUsize items.length
      writeTypedDictKeys items
      writeTag .listGen
      writeUsize items.length
      serializeTypedDictValues items
    else serializeInvalidType c none none none
    writeLocation c range
    writeEndTag
  | .call func _ keywords range => do
    serializeInvalidType c (callNote func keywords) none none
    writeLocation c range
    writeEndTag
  | .ellipsisLiteral range => do
    writeTag .ellipsisType
    writeLocation c range
    writeEndTag
  | .starred value range => do
    writeTag .unpackType
    serializeTypeWith value
    writeBool true
    writeLocation c range
    writeEndTag
  | .unaryOp op operand range =>
    match op with
    | .uSub =>
      match extractIntLiteralValue (.unaryOp .uSub operand range) with
      | some v => serializeSignedInt c v range
      | none => do
        serializeInvalidType c none none none
        writeLocation c range
        writeEndTag
    | .uAdd =>
      match extractIntLiteralValue operand with
      | some v => serializeSignedInt c v range
      | none => do
        serializeInvalidType c none none none
        writeLocation c range
        writeEndTag
    | _ => do
      serializeInvalidType c none none none
      writeLocation c range
      writeEndTag
  | .stringLiteral value range => unevaluated (str (concatText value) range)
  | .bytesLiteral value range => do
    writeTag .rawExpressionType
    writeBytes (utf8 "builtins.bytes")
    writeBytes (serializeBytesToEscapedString value)
    writeLocation c range
    writeEndTag
  | e => do
    serializeInvalidType c none none none
    writeLocation c e.range
    writeEndTag

def serializeTypes : List Expr → SerM Unit
  | [] => pure ()
  | t :: ts => do
    serializeTypeWith t
    serializeTypes ts

/-- The items of a list, each by `serializeTypeInList`: a call constructs an argument. -/
def serializeTypesInList : List Expr → SerM Unit
  | [] => pure ()
  | .call func args keywords range :: ts => do
    writeTag .callType
    serializeTypeWith func
    writeTag .listGen
    writeUsize args.length
    serializeTypes args
    writeTag .listGen
    writeUsize keywords.length
    serializeTypeKeywords keywords
    writeLocation c range
    writeEndTag
    serializeTypesInList ts
  | t :: ts => do
    serializeTypeWith t
    serializeTypesInList ts

def serializeTypeKeywords : List Keyword → SerM Unit
  | [] => pure ()
  | .mk arg value :: keywords => do
    writeBytesOrNone (arg.map fun name => utf8 name.id)
    serializeTypeWith value
    serializeTypeKeywords keywords

def serializeTypedDictValues : List DictItem → SerM Unit
  | [] => pure ()
  | .mk _ value :: items => do
    serializeTypeWith value
    serializeTypedDictValues items

end

/-- The arguments of a subscript, as the slice gives them. -/
def serializeTypeArgs : Expr → SerM Unit
  | .tuple elts _ _ => do
    writeUsize elts.length
    serializeTypes c str elts
    writeBool elts.isEmpty
  | slice => do
    writeInt 1
    serializeTypeWith c str slice
    writeBool false

def serializeTypeInList : Expr → SerM Unit
  | .call func args keywords range => do
    writeTag .callType
    serializeTypeWith c str func
    writeTag .listGen
    writeUsize args.length
    serializeTypes c str args
    writeTag .listGen
    writeUsize keywords.length
    serializeTypeKeywords c str keywords
    writeLocation c range
    writeEndTag
  | t => serializeTypeWith c str t

/-- Only a tuple gives several arguments. -/
theorem serializeTypeArgs_plain (slice : Expr)
    (plain : ∀ elts ctx range, slice ≠ .tuple elts ctx range) :
    serializeTypeArgs c str slice = (do
      writeInt 1
      serializeTypeWith c str slice
      writeBool false) := by
  cases slice with
  | tuple elts ctx range => exact absurd rfl (plain elts ctx range)
  | _ => rfl

/-- Only a call is read otherwise in a list than elsewhere. -/
theorem serializeTypeInList_plain (t : Expr)
    (plain : ∀ func args keywords range, t ≠ .call func args keywords range) :
    serializeTypeInList c str t = serializeTypeWith c str t := by
  cases t with
  | call func args keywords range => exact absurd rfl (plain func args keywords range)
  | _ => rfl

theorem serializeTypesInList_cons (t : Expr) (ts : List Expr) :
    serializeTypesInList c str (t :: ts) = (do
      serializeTypeInList c str t
      serializeTypesInList c str ts) := by
  cases t <;> simp only [serializeTypesInList, serializeTypeInList, bind_assoc]

end Types

/-- `serialize_string_type` for strings shorter than the bound. -/
def serializeStringTypeWithin (c : Config) : Nat → String → TextRange → SerM Unit
  | 0, _, _ => panic
  | bound + 1, value, range =>
    let str := serializeStringTypeWithin c bound
    match c.parser.parseUnchecked ("(" ++ value ++ ")") with
    | some (.name id _) => do
      serializeSimpleUnboundType (utf8 id) (some value) (some "builtins.str")
      writeLocation c range
      writeEndTag
    | some (.attribute base attr own) => do
      serializeAttributeType c (.attribute base attr own) (some value) (some "builtins.str")
      writeLocation c range
      writeEndTag
    | some (.subscript base slice _) => do
      serializeSubscriptType c base (serializeTypeArgs c str (slice.relocate range))
        (some value) (some "builtins.str")
      writeLocation c range
      writeEndTag
    | some (.binOp left .bitOr right _) =>
      serializeUnionType c (serializeTypeWith c str (left.relocate range))
        (serializeTypeWith c str (right.relocate range)) range (some value) (some "builtins.str")
    | some (.noneLiteral _) => do
      serializeSimpleUnboundType (utf8 "None") (some value) (some "builtins.str")
      writeLocation c range
      writeEndTag
    | _ => do
      writeTag .rawExpressionType
      writeBytes (utf8 "builtins.str")
      writeBytes (utf8 value)
      writeLocation c range
      writeEndTag

/-- Parsing a type out of a string never leads to a string as long, so the bound suffices. -/
def serializeStringType (c : Config) (value : String) (range : TextRange) : SerM Unit :=
  serializeStringTypeWithin c (value.length + 1) value range

def serializeType (c : Config) (t : Expr) : SerM Unit :=
  serializeTypeWith c (serializeStringType c) t

end AstSerialize
