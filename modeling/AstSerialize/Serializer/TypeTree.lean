import AstSerialize.Serializer.Types
import AstSerialize.Serializer.Ports

/-! The wire type of a type annotation. -/
namespace AstSerialize

section Types

variable (c : Config)

/-- The tree of `serialize_invalid_type`. -/
def toWireInvalid (note : Option Bytes) (originalStrExpr originalStrFallback : Option String)
    (range : TextRange) : WType c.cacheVersion :=
  match originalStrExpr, originalStrFallback with
  | some expr, some fallback => .raw (utf8 fallback) (.str (utf8 expr)) (c.location range)
  | _, _ => .raw (utf8 "typing.Any") (.none fun _ => note) (c.location range)

def toWireUnbound (name : Bytes) (args : List (WType c.cacheVersion)) (emptyTupleIndex : Bool)
    (originalStrExpr originalStrFallback : Option String) (range : TextRange) :
    WType c.cacheVersion :=
  .unbound name args emptyTupleIndex (originalStrExpr.map utf8) (originalStrFallback.map utf8)
    (c.location range)

def toWireSubscript (value : Expr) (args : List (WType c.cacheVersion) × Bool)
    (originalStrExpr originalStrFallback : Option String) (range : TextRange) :
    WType c.cacheVersion :=
  match getQualifiedTypeName value with
  | none => toWireInvalid c none originalStrExpr originalStrFallback range
  | some name => toWireUnbound c name args.1 args.2 originalStrExpr originalStrFallback range

def toWireAttribute (e : Expr) (originalStrExpr originalStrFallback : Option String)
    (range : TextRange) : WType c.cacheVersion :=
  toWireSubscript c e ([], false) originalStrExpr originalStrFallback range

def toWireUnion (left right : WType c.cacheVersion)
    (originalStrExpr originalStrFallback : Option String) (isEvaluated : Bool)
    (range : TextRange) : WType c.cacheVersion :=
  .union left right (originalStrExpr.map utf8) (originalStrFallback.map utf8) isEvaluated
    (c.location range)

/-- An integer, unless it does not fit. -/
def toWireInt (value : Option Int64) (range : TextRange) : WType c.cacheVersion :=
  match value with
  | some v => .raw (utf8 "builtins.int") (.int v.toInt) (c.location range)
  | none => toWireInvalid c none none none range

def toWireKeys : List DictItem → List (Option Bytes)
  | [] => []
  | .mk (some (.stringLiteral value _)) _ :: items => some (utf8 (concatText value)) :: toWireKeys items
  | _ :: items => none :: toWireKeys items

variable (str : String → TextRange → WType c.cacheVersion) (isEvaluated : Bool)

mutual

/-- The tree of a type. Strings in it get the tree that `str` gives. -/
def toWireTypeWith : Expr → WType c.cacheVersion
  | .name id range => toWireUnbound c (utf8 id) [] false none none range
  | .attribute value attr range => toWireAttribute c (.attribute value attr range) none none range
  | .subscript value slice range =>
    toWireSubscript c value
      (match slice with
      | .tuple elts _ _ => (toWireTypes elts, elts.isEmpty)
      | slice => ([toWireTypeWith slice], false))
      none none range
  | .noneLiteral range => toWireUnbound c (utf8 "None") [] false none none range
  | .booleanLiteral value range => .raw (utf8 "builtins.bool") (.bool value) (c.location range)
  | .numberLiteral value range =>
    toWireInt c (extractIntLiteralValue (.numberLiteral value range)) range
  | .binOp left op right range =>
    match op with
    | .bitOr =>
      toWireUnion c (toWireTypeWith left) (toWireTypeWith right) none none isEvaluated range
    | _ => toWireInvalid c none none none range
  | .list elts _ range => .list (toWireTypesInList elts) (c.location range)
  | .tuple elts _ range => .tuple (toWireTypes elts) (c.location range)
  | .dict items range =>
    if isTypedDict items then
      .typedDict (toWireKeys items) (toWireTypedDictValues items) (c.location range)
    else toWireInvalid c none none none range
  | .call func _ keywords range => toWireInvalid c (callNote func keywords) none none range
  | .ellipsisLiteral range => .ellipsis (c.location range)
  | .starred value range => .unpack (toWireTypeWith value) (c.location range)
  | .unaryOp op operand range =>
    match op with
    | .uSub => toWireInt c (extractIntLiteralValue (.unaryOp .uSub operand range)) range
    | .uAdd => toWireInt c (extractIntLiteralValue operand) range
    | _ => toWireInvalid c none none none range
  | .stringLiteral value range => str (concatText value) range
  | .bytesLiteral value range =>
    .raw (utf8 "builtins.bytes") (.str (serializeBytesToEscapedString value)) (c.location range)
  | e => toWireInvalid c none none none e.range

def toWireTypes : List Expr → List (WType c.cacheVersion)
  | [] => []
  | t :: ts => toWireTypeWith t :: toWireTypes ts

def toWireTypesInList : List Expr → List (WType c.cacheVersion)
  | [] => []
  | .call func args keywords range :: ts =>
    .call (toWireTypeWith func) (toWireTypes args) (toWireTypeKeywords keywords) (c.location range)
      :: toWireTypesInList ts
  | t :: ts => toWireTypeWith t :: toWireTypesInList ts

def toWireTypeKeywords : List Keyword → List (Option Bytes × WType c.cacheVersion)
  | [] => []
  | .mk arg value :: keywords =>
    (arg.map fun name => utf8 name.id, toWireTypeWith value) :: toWireTypeKeywords keywords

def toWireTypedDictValues : List DictItem → List (WType c.cacheVersion)
  | [] => []
  | .mk _ value :: items => toWireTypeWith value :: toWireTypedDictValues items

end

def toWireTypeArgs : Expr → List (WType c.cacheVersion) × Bool
  | .tuple elts _ _ => (toWireTypes c str isEvaluated elts, elts.isEmpty)
  | slice => ([toWireTypeWith c str isEvaluated slice], false)

def toWireTypeInList : Expr → WType c.cacheVersion
  | .call func args keywords range =>
    .call (toWireTypeWith c str isEvaluated func) (toWireTypes c str isEvaluated args)
      (toWireTypeKeywords c str isEvaluated keywords) (c.location range)
  | t => toWireTypeWith c str isEvaluated t

/-- Only a tuple gives several arguments. -/
theorem toWireTypeArgs_plain (slice : Expr)
    (plain : ∀ elts ctx range, slice ≠ .tuple elts ctx range) :
    toWireTypeArgs c str isEvaluated slice
      = ([toWireTypeWith c str isEvaluated slice], false) := by
  cases slice with
  | tuple elts ctx range => exact absurd rfl (plain elts ctx range)
  | _ => rfl

/-- Only a call is read otherwise in a list than elsewhere. -/
theorem toWireTypeInList_plain (t : Expr)
    (plain : ∀ func args keywords range, t ≠ .call func args keywords range) :
    toWireTypeInList c str isEvaluated t = toWireTypeWith c str isEvaluated t := by
  cases t with
  | call func args keywords range => exact absurd rfl (plain func args keywords range)
  | _ => rfl

theorem toWireTypesInList_cons (t : Expr) (ts : List Expr) :
    toWireTypesInList c str isEvaluated (t :: ts)
      = toWireTypeInList c str isEvaluated t :: toWireTypesInList c str isEvaluated ts := by
  cases t <;> rfl

end Types

/-- The tree of a string in type position, for strings shorter than the bound. -/
def toWireStringTypeWithin (c : Config) : Nat → Bool → String → TextRange → WType c.cacheVersion
  | 0, _, value, range => .raw (utf8 "builtins.str") (.str (utf8 value)) (c.location range)
  | bound + 1, isEvaluated, value, range =>
    let str := toWireStringTypeWithin c bound false
    match c.parser.parseUnchecked ("(" ++ value ++ ")") with
    | some (.name id _) =>
      toWireUnbound c (utf8 id) [] false (some value) (some "builtins.str") range
    | some (.attribute base attr own) =>
      toWireAttribute c (.attribute base attr own) (some value) (some "builtins.str") range
    | some (.subscript base slice _) =>
      toWireSubscript c base (toWireTypeArgs c str isEvaluated (slice.relocate range))
        (some value) (some "builtins.str") range
    | some (.binOp left .bitOr right _) =>
      toWireUnion c (toWireTypeWith c str isEvaluated (left.relocate range))
        (toWireTypeWith c str isEvaluated (right.relocate range))
        (some value) (some "builtins.str") isEvaluated range
    | some (.noneLiteral _) =>
      toWireUnbound c (utf8 "None") [] false (some value) (some "builtins.str") range
    | _ => .raw (utf8 "builtins.str") (.str (utf8 value)) (c.location range)

def toWireStringType (c : Config) (isEvaluated : Bool) (value : String) (range : TextRange) :
    WType c.cacheVersion :=
  toWireStringTypeWithin c (value.length + 1) isEvaluated value range

/-- The tree of a type; a string in it is not evaluated. -/
def toWireType (c : Config) (isEvaluated : Bool) (t : Expr) : WType c.cacheVersion :=
  toWireTypeWith c (toWireStringType c false) isEvaluated t

end AstSerialize
