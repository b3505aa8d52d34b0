import AstSerialize.Serializer.QuotedTypes

/-! `parse_type_string`: a type on its own, beside the same type quoted in a file. -/
namespace AstSerialize
open Coding

abbrev Place := UInt32 × UInt32 × UInt32 × UInt32

/-- The serializer of `serialize_type_string`: no text, and all locations are the place. -/
def Config.forTypeString (parser : ExprParser) (options : Options) (place : Place) : Config where
  source := .ofText []
  tokens := none
  typeComments := fun _ => none
  options := options
  locationOverride := some place
  parser := parser

def serializeTypeString (parser : ExprParser) (source : String) (options : Options)
    (place : Place) : Option Bytes :=
  ((serializeStringType (.forTypeString parser options place) source ⟨0, 0⟩).run
    { Serializer.initial with isEvaluated := false }).map fun (_, ser) => ser.bytes

def parseTypeString (parser : ExprParser) (source : String) (place : Place)
    (cacheVersion : Nat) : Option Bytes :=
  serializeTypeString parser source
    { pythonVersion := (3, 10), platform := "linux", alwaysTrue := [], alwaysFalse := [],
      cacheVersion := cacheVersion } place

def Place.location : Place → Location
  | (line, column, endLine, endColumn) =>
    ⟨line.toNat, column.toNat, (endLine.toNat : Int) - line.toNat,
      (endColumn.toNat : Int) - column.toNat⟩

/-- Another serializer, with the parser and the cache version of this one. -/
def Config.sibling (c other : Config) : Config :=
  { other with
    options := { other.options with cacheVersion := c.options.cacheVersion }
    parser := c.parser }

variable {c other : Config} {range range' : TextRange}

section Nodes

variable (same : c.location range = (c.sibling other).location range')

include same

theorem sibling_invalid (note : Option Bytes) (expr fallback : Option String) :
    toWireInvalid c note expr fallback range
      = toWireInvalid (c.sibling other) note expr fallback range' := by
  cases expr <;> cases fallback <;> exact congrArg (WType.raw _ _) same

theorem sibling_int (value : Option Int64) :
    toWireInt c value range = toWireInt (c.sibling other) value range' := by
  cases value with
  | none => exact sibling_invalid same none none none
  | some v => exact congrArg (WType.raw _ _) same

theorem sibling_unbound {name : Bytes} {args args' : List (WType c.cacheVersion)}
    {empty empty' : Bool} (expr fallback : Option String) (alike : args = args' ∧ empty = empty') :
    toWireUnbound c name args empty expr fallback range
      = toWireUnbound (c.sibling other) name args' empty' expr fallback range' := by
  obtain ⟨rfl, rfl⟩ := alike
  exact congrArg (WType.unbound _ _ _ _ _) same

theorem sibling_subscript {value value' : Expr}
    {items items' : List (WType c.cacheVersion) × Bool} (expr fallback : Option String)
    (name : getQualifiedTypeName value = getQualifiedTypeName value')
    (alike : items.1 = items'.1 ∧ items.2 = items'.2) :
    toWireSubscript c value items expr fallback range
      = toWireSubscript (c.sibling other) value' items' expr fallback range' := by
  unfold toWireSubscript
  rw [name]
  cases getQualifiedTypeName value' with
  | none => exact sibling_invalid same none expr fallback
  | some name => exact sibling_unbound same expr fallback alike

theorem sibling_union {left left' right right' : WType c.cacheVersion} (isEvaluated : Bool)
    (expr fallback : Option String) (l : left = left') (r : right = right') :
    toWireUnion c left right expr fallback isEvaluated range
      = toWireUnion (c.sibling other) left' right' expr fallback isEvaluated range' := by
  subst l r
  exact congrArg (WType.union _ _ _ _ _) same

end Nodes

theorem name_moved (e : Expr) :
    getQualifiedTypeName (e.relocate range) = getQualifiedTypeName (e.relocate range') :=
  (getQualifiedTypeName_relocate range e).trans (getQualifiedTypeName_relocate range' e).symm

theorem int_moved (e : Expr) :
    extractIntLiteralValue (e.relocate range) = extractIntLiteralValue (e.relocate range') :=
  (extractIntLiteralValue_relocate range e).trans (extractIntLiteralValue_relocate range' e).symm

/-- The two places have one location, and strings have the same trees there. -/
structure SiblingsAt (c other : Config) (range range' : TextRange)
    (str : String → TextRange → WType c.cacheVersion)
    (str' : String → TextRange → WType (c.sibling other).cacheVersion) : Prop where
  location : c.location range = (c.sibling other).location range'
  strings : ∀ value, str value range = str' value range'

section Moved

variable {str : String → TextRange → WType c.cacheVersion}
  {str' : String → TextRange → WType (c.sibling other).cacheVersion} {isEvaluated : Bool}

mutual

/-- A type moved to the one place is the type moved to the other. -/
theorem sibling_typeWith (agree : SiblingsAt c other range range' str str') : ∀ e : Expr,
    toWireTypeWith c str isEvaluated (e.relocate range)
      = toWireTypeWith (c.sibling other) str' isEvaluated (e.relocate range')
  | .name .. | .noneLiteral .. => sibling_unbound agree.location none none ⟨rfl, rfl⟩
  | .attribute value attr own =>
    sibling_subscript agree.location none none (name_moved (.attribute value attr own))
      ⟨rfl, rfl⟩
  | .subscript value slice _ => by
    simp only [Expr.relocate, toWireTypeWith_subscript]
    exact sibling_subscript agree.location none none (name_moved value)
      (sibling_typeArgs agree slice (sibling_typeWith agree slice))
  | .booleanLiteral value _ => congrArg (WType.raw _ _) agree.location
  | .bytesLiteral value _ => congrArg (WType.raw _ _) agree.location
  | .ellipsisLiteral _ => congrArg WType.ellipsis agree.location
  | .numberLiteral value own => by
    have moved : extractIntLiteralValue (.numberLiteral value range)
        = extractIntLiteralValue (.numberLiteral value range') :=
      int_moved (.numberLiteral value own)
    simp only [Expr.relocate]
    simp only [toWireTypeWith, moved]
    exact sibling_int agree.location _
  | .binOp left op right _ => by
    cases op with
    | bitOr =>
      exact sibling_union agree.location isEvaluated none none (sibling_typeWith agree left)
        (sibling_typeWith agree right)
    | _ => exact sibling_invalid agree.location none none none
  | .list elts _ _ => congrArg₂ WType.list (sibling_typesInList agree elts) agree.location
  | .tuple elts _ _ => congrArg₂ WType.tuple (sibling_types agree elts) agree.location
  | .dict items _ => by
    simp only [Expr.relocate, toWireTypeWith, isTypedDict_relocate, toWireKeys_relocate]
    split
    · exact congrArg₂ (WType.typedDict _) (sibling_typedDictValues agree items) agree.location
    · exact sibling_invalid agree.location none none none
  | .call func _ keywords _ => by
    simp only [Expr.relocate, toWireTypeWith, callNote_relocate]
    exact sibling_invalid agree.location _ none none
  | .starred value _ => congrArg₂ WType.unpack (sibling_typeWith agree value) agree.location
  | .unaryOp op operand own => by
    cases op with
    | uSub =>
      have moved : extractIntLiteralValue (.unaryOp .uSub (operand.relocate range) range)
          = extractIntLiteralValue (.unaryOp .uSub (operand.relocate range') range') :=
        int_moved (.unaryOp .uSub operand own)
      simp only [Expr.relocate]
      simp only [toWireTypeWith, moved]
      exact sibling_int agree.location _
    | uAdd =>
      simp only [Expr.relocate, toWireTypeWith, extractIntLiteralValue_relocate]
      exact sibling_int agree.location _
    | _ => exact sibling_invalid agree.location none none none
  | .stringLiteral value _ => agree.strings (concatText value)
  | .boolOp .. | .named .. | .lambda .. | .ifExp .. | .set .. | .listComp .. | .setComp ..
  | .dictComp .. | .generator .. | .await .. | .yield .. | .yieldFrom .. | .compare ..
  | .fString .. | .tString .. | .slice .. | .ipyEscapeCommand .. =>
    sibling_invalid agree.location none none none

theorem sibling_typeArgs (agree : SiblingsAt c other range range' str str') (slice : Expr)
    (one : toWireTypeWith c str isEvaluated (slice.relocate range)
      = toWireTypeWith (c.sibling other) str' isEvaluated (slice.relocate range')) :
    (toWireTypeArgs c str isEvaluated (slice.relocate range)).1
      = (toWireTypeArgs (c.sibling other) str' isEvaluated (slice.relocate range')).1 ∧
    (toWireTypeArgs c str isEvaluated (slice.relocate range)).2
      = (toWireTypeArgs (c.sibling other) str' isEvaluated (slice.relocate range')).2 := by
  cases slice with
  | tuple elts _ _ =>
    refine ⟨sibling_types agree elts, ?_⟩
    exact (relocateExprs_isEmpty range elts).trans (relocateExprs_isEmpty range' elts).symm
  | _ =>
    rw [toWireTypeArgs_plain, toWireTypeArgs_plain]
    · exact ⟨congrArg (fun tree => [tree]) one, rfl⟩
    all_goals nofun

theorem sibling_types (agree : SiblingsAt c other range range' str str') : ∀ ts : List Expr,
    toWireTypes c str isEvaluated (relocateExprs range ts)
      = toWireTypes (c.sibling other) str' isEvaluated (relocateExprs range' ts)
  | [] => rfl
  | t :: ts => congrArg₂ List.cons (sibling_typeWith agree t) (sibling_types agree ts)

theorem sibling_typesInList (agree : SiblingsAt c other range range' str str') : ∀ ts : List Expr,
    toWireTypesInList c str isEvaluated (relocateExprs range ts)
      = toWireTypesInList (c.sibling other) str' isEvaluated (relocateExprs range' ts)
  | [] => rfl
  | t :: ts => by
    simp only [relocateExprs, toWireTypesInList_cons]
    exact congrArg₂ List.cons (sibling_typeInList agree t (sibling_typeWith agree t))
      (sibling_typesInList agree ts)

theorem sibling_typeInList (agree : SiblingsAt c other range range' str str') (t : Expr)
    (one : toWireTypeWith c str isEvaluated (t.relocate range)
      = toWireTypeWith (c.sibling other) str' isEvaluated (t.relocate range')) :
    toWireTypeInList c str isEvaluated (t.relocate range)
      = toWireTypeInList (c.sibling other) str' isEvaluated (t.relocate range') := by
  cases t with
  | call func args keywords _ =>
    simp only [Expr.relocate, toWireTypeInList]
    rw [sibling_typeWith agree func, sibling_types agree args,
      sibling_typeKeywords agree keywords, agree.location]
    rfl
  | _ =>
    rw [toWireTypeInList_plain, toWireTypeInList_plain]
    · exact one
    all_goals nofun

theorem sibling_typeKeywords (agree : SiblingsAt c other range range' str str') :
    ∀ keywords : List Keyword,
    toWireTypeKeywords c str isEvaluated (relocateKeywords range keywords)
      = toWireTypeKeywords (c.sibling other) str' isEvaluated (relocateKeywords range' keywords)
  | [] => rfl
  | .mk _ value :: keywords =>
    congrArg₂ (fun tree trees => (_, tree) :: trees) (sibling_typeWith agree value)
      (sibling_typeKeywords agree keywords)

theorem sibling_typedDictValues (agree : SiblingsAt c other range range' str str') :
    ∀ items : List DictItem,
    toWireTypedDictValues c str isEvaluated (relocateItems range items)
      = toWireTypedDictValues (c.sibling other) str' isEvaluated (relocateItems range' items)
  | [] => rfl
  | .mk _ value :: items =>
    congrArg₂ List.cons (sibling_typeWith agree value) (sibling_typedDictValues agree items)

end

end Moved

theorem sibling_stringTypeWithin (same : c.location range = (c.sibling other).location range')
    (bound : Nat) (isEvaluated : Bool) (value : String) :
    toWireStringTypeWithin c bound isEvaluated value range
      = toWireStringTypeWithin (c.sibling other) bound isEvaluated value range' := by
  induction bound generalizing isEvaluated value with
  | zero => exact congrArg (WType.raw _ _) same
  | succ bound ih =>
    have agree : SiblingsAt c other range range' (toWireStringTypeWithin c bound false)
        (toWireStringTypeWithin (c.sibling other) bound false) := ⟨same, ih false⟩
    unfold toWireStringTypeWithin
    rw [show (c.sibling other).parser = c.parser from rfl]
    cases c.parser.parseUnchecked ("(" ++ value ++ ")") with
    | none => exact congrArg (WType.raw _ _) same
    | some e =>
      cases e with
      | name id own => exact sibling_unbound same _ _ ⟨rfl, rfl⟩
      | noneLiteral own => exact sibling_unbound same _ _ ⟨rfl, rfl⟩
      | «attribute» base attr own => exact sibling_subscript same _ _ rfl ⟨rfl, rfl⟩
      | subscript base slice own =>
        exact sibling_subscript same _ _ rfl
          (sibling_typeArgs agree slice (sibling_typeWith agree slice))
      | binOp left op right own =>
        cases op with
        | bitOr =>
          exact sibling_union same isEvaluated _ _ (sibling_typeWith agree left)
            (sibling_typeWith agree right)
        | _ => exact congrArg (WType.raw _ _) same
      | _ => exact congrArg (WType.raw _ _) same

theorem serializeTypeString_eq (parser : ExprParser) (source : String) (options : Options)
    (place : Place) :
    serializeTypeString parser source options place
      = some (encType
        (toWireStringType (.forTypeString parser options place) false source ⟨0, 0⟩)) := by
  obtain ⟨s, run, out, -⟩ := serializeStringType_writes (.forTypeString parser options place)
    { Serializer.initial with isEvaluated := false } source ⟨0, 0⟩
  rw [serializeTypeString, run, Option.map_some]
  exact congrArg some out

/-- A type on its own is written as it would be in quotes at its place, whatever the options are
beside the cache version: with the same bytes, nowhere else and not evaluated. -/
theorem parseTypeString_quoted (c : Config) (s : Serializer) (value : List StringLiteral)
    (own : TextRange) (place : Place) (located : c.location own = place.location) :
    ∃ tree : WType c.cacheVersion,
      WritesType s (serializeType c (.stringLiteral value own)) tree ∧
      parseTypeString c.parser (concatText value) place c.cacheVersion = some (encType tree) ∧
      (∀ options : Options, options.cacheVersion = c.cacheVersion →
        serializeTypeString c.parser (concatText value) options place = some (encType tree)) ∧
      (∀ loc ∈ tree.locations, loc = place.location) ∧ Marked false (unionFlags tree) := by
  have alone : ∀ options : Options, options.cacheVersion = c.cacheVersion →
      serializeTypeString c.parser (concatText value) options place
        = some (encType (toWireStringType c false (concatText value) own)) := by
    intro options version
    obtain ⟨pythonVersion, platform, alwaysTrue, alwaysFalse, cacheVersion⟩ := options
    subst version
    let other : Config := .forTypeString c.parser
      ⟨pythonVersion, platform, alwaysTrue, alwaysFalse, c.cacheVersion⟩ place
    have there : c.location own = (c.sibling other).location ⟨0, 0⟩ := located
    have moved := sibling_stringTypeWithin there ((concatText value).length + 1) false
      (concatText value)
    rw [serializeTypeString_eq]
    exact congrArg (fun tree => some (encType tree)) moved.symm
  refine ⟨toWireStringType c false (concatText value) own, ?_, alone _ rfl, alone, ?_, ?_⟩
  · exact writesType_of_emits
      (emits_type s.tracked s.hasSurrogates (.stringLiteral value own))
  · rw [← located]
    exact allAt_stringTypeWithin _ false _
  · exact marked_stringType _ own

/-- The place of the annotation of `x: "list['int']"`. -/
theorem parseTypeString_quoted_list :
    ∃ tree : WType listConfig.cacheVersion,
      WritesType .initial (serializeType listConfig
        (.stringLiteral [⟨"list['int']", ⟨3, 16⟩⟩] ⟨3, 16⟩)) tree ∧
      parseTypeString listParser (concatText [⟨"list['int']", ⟨3, 16⟩⟩]) (1, 3, 1, 16) 7
        = some (encType tree) ∧
      (∀ options : Options, options.cacheVersion = listConfig.cacheVersion →
        serializeTypeString listParser (concatText [⟨"list['int']", ⟨3, 16⟩⟩]) options
          (1, 3, 1, 16) = some (encType tree)) ∧
      (∀ loc ∈ tree.locations, loc = Place.location (1, 3, 1, 16)) ∧
      Marked false (unionFlags tree) :=
  parseTypeString_quoted listConfig .initial [⟨"list['int']", ⟨3, 16⟩⟩] ⟨3, 16⟩ (1, 3, 1, 16)
    (by decide +kernel)

end AstSerialize
