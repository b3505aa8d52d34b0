import AstSerialize.Serializer.Alike
import AstSerialize.Wire.Older

/-! The trees of types, expressions and patterns at an older cache version. -/
namespace AstSerialize
open Coding

def Options.older (o : Options) (v : Nat) : Options := { o with cacheVersion := v }

def Config.older (c : Config) (v : Nat) : Config := { c with options := c.options.older v }

theorem Config.older_alike (c : Config) (v : Nat) : c.Alike (c.older v) := ⟨_, rfl⟩

section Types

variable {c : Config} {v : Nat} {isEvaluated : Bool}
  {str : String → TextRange → WType c.cacheVersion}
  {str' : String → TextRange → WType (c.older v).cacheVersion}
  (le : (c.older v).cacheVersion ≤ c.cacheVersion)

theorem older_invalid (note : Option Bytes) (expr fallback : Option String) (range : TextRange) :
    (toWireInvalid c note expr fallback range).older le
      = toWireInvalid (c.older v) note expr fallback range := by
  cases expr <;> cases fallback <;> rfl

theorem older_int (value : Option Int64) (range : TextRange) :
    (toWireInt c value range).older le = toWireInt (c.older v) value range := by
  cases value <;> rfl

theorem older_unbound {name : Bytes} {args : List (WType c.cacheVersion)}
    {args' : List (WType (c.older v).cacheVersion)} {empty : Bool} {expr fallback : Option String}
    {range : TextRange}
    (same : olderTypes le args = args') :
    (toWireUnbound c name args empty expr fallback range).older le
      = toWireUnbound (c.older v) name args' empty expr fallback range := by
  subst same
  rfl

theorem older_subscript {value : Expr} {items : List (WType c.cacheVersion) × Bool}
    {items' : List (WType (c.older v).cacheVersion) × Bool} {expr fallback : Option String}
    {range : TextRange}
    (same : olderTypes le items.1 = items'.1 ∧ items.2 = items'.2) :
    (toWireSubscript c value items expr fallback range).older le
      = toWireSubscript (c.older v) value items' expr fallback range := by
  unfold toWireSubscript
  cases getQualifiedTypeName value with
  | none => exact older_invalid le none expr fallback range
  | some name =>
    rw [← same.2]
    exact older_unbound le same.1

theorem older_union {left right : WType c.cacheVersion}
    {left' right' : WType (c.older v).cacheVersion}
    {expr fallback : Option String} {range : TextRange} (l : left.older le = left')
    (r : right.older le = right') :
    (toWireUnion c left right expr fallback isEvaluated range).older le
      = toWireUnion (c.older v) left' right' expr fallback isEvaluated range := by
  subst l r
  rfl

/-- The strings of the older version are those of the newer one. -/
def StringsOlder (le : (c.older v).cacheVersion ≤ c.cacheVersion)
    (str : String → TextRange → WType c.cacheVersion)
    (str' : String → TextRange → WType (c.older v).cacheVersion) : Prop :=
  ∀ value range, (str value range).older le = str' value range

mutual

theorem older_typeWith (strings : StringsOlder le str str') : ∀ e : Expr,
    (toWireTypeWith c str isEvaluated e).older le
      = toWireTypeWith (c.older v) str' isEvaluated e
  | .name .. | .noneLiteral .. | .booleanLiteral .. | .ellipsisLiteral .. | .bytesLiteral .. => rfl
  | .attribute .. => older_subscript le ⟨rfl, rfl⟩
  | .subscript value slice range => by
    simp only [toWireTypeWith_subscript]
    exact older_subscript le (older_typeArgs strings slice (older_typeWith strings slice))
  | .numberLiteral .. => older_int le _ _
  | .binOp left op right range => by
    cases op with
    | bitOr => exact older_union le (older_typeWith strings left) (older_typeWith strings right)
    | _ => exact older_invalid le none none none range
  | .list elts _ _ => by
    simp only [toWireTypeWith, WType.older, older_typesInList strings elts]
    rfl
  | .tuple elts _ _ => by
    simp only [toWireTypeWith, WType.older, older_types strings elts]
    rfl
  | .dict items range => by
    simp only [toWireTypeWith]
    split
    · simp only [WType.older, older_typedDictValues strings items]
      rfl
    · exact older_invalid le none none none range
  | .call func _ keywords range => older_invalid le (callNote func keywords) none none range
  | .starred value _ => by
    simp only [toWireTypeWith, WType.older, older_typeWith strings value]
    rfl
  | .unaryOp op _ range => by
    cases op with
    | uSub => exact older_int le _ _
    | uAdd => exact older_int le _ _
    | _ => exact older_invalid le none none none range
  | .stringLiteral value range => strings (concatText value) range
  | .boolOp .. | .named .. | .lambda .. | .ifExp .. | .set .. | .listComp .. | .setComp ..
  | .dictComp .. | .generator .. | .await .. | .yield .. | .yieldFrom .. | .compare ..
  | .fString .. | .tString .. | .slice .. | .ipyEscapeCommand .. =>
    older_invalid le none none none _

theorem older_typeArgs (strings : StringsOlder le str str') (slice : Expr)
    (one : (toWireTypeWith c str isEvaluated slice).older le
      = toWireTypeWith (c.older v) str' isEvaluated slice) :
    olderTypes le (toWireTypeArgs c str isEvaluated slice).1
      = (toWireTypeArgs (c.older v) str' isEvaluated slice).1 ∧
    (toWireTypeArgs c str isEvaluated slice).2
      = (toWireTypeArgs (c.older v) str' isEvaluated slice).2 := by
  cases slice with
  | tuple elts _ _ => exact ⟨older_types strings elts, rfl⟩
  | _ =>
    rw [toWireTypeArgs_plain, toWireTypeArgs_plain]
    · exact ⟨congrArg (fun tree => [tree]) one, rfl⟩
    all_goals nofun

theorem older_types (strings : StringsOlder le str str') : ∀ ts : List Expr,
    olderTypes le (toWireTypes c str isEvaluated ts)
      = toWireTypes (c.older v) str' isEvaluated ts
  | [] => rfl
  | t :: ts => congrArg₂ List.cons (older_typeWith strings t) (older_types strings ts)

theorem older_typesInList (strings : StringsOlder le str str') : ∀ ts : List Expr,
    olderTypes le (toWireTypesInList c str isEvaluated ts)
      = toWireTypesInList (c.older v) str' isEvaluated ts
  | [] => rfl
  | t :: ts => by
    simp only [toWireTypesInList_cons]
    exact congrArg₂ List.cons (older_typeInList strings t (older_typeWith strings t))
      (older_typesInList strings ts)

theorem older_typeInList (strings : StringsOlder le str str') (t : Expr)
    (one : (toWireTypeWith c str isEvaluated t).older le
      = toWireTypeWith (c.older v) str' isEvaluated t) :
    (toWireTypeInList c str isEvaluated t).older le
      = toWireTypeInList (c.older v) str' isEvaluated t := by
  cases t with
  | call func args keywords _ =>
    simp only [toWireTypeInList, WType.older, older_typeWith strings func,
      older_types strings args, older_typeKeywords strings keywords]
    rfl
  | _ =>
    rw [toWireTypeInList_plain, toWireTypeInList_plain]
    · exact one
    all_goals nofun

theorem older_typeKeywords (strings : StringsOlder le str str') : ∀ keywords : List Keyword,
    olderKeywordTypes le (toWireTypeKeywords c str isEvaluated keywords)
      = toWireTypeKeywords (c.older v) str' isEvaluated keywords
  | [] => rfl
  | .mk _ value :: keywords =>
    congrArg₂ (fun tree trees => (_, tree) :: trees) (older_typeWith strings value)
      (older_typeKeywords strings keywords)

theorem older_typedDictValues (strings : StringsOlder le str str') : ∀ items : List DictItem,
    olderTypes le (toWireTypedDictValues c str isEvaluated items)
      = toWireTypedDictValues (c.older v) str' isEvaluated items
  | [] => rfl
  | .mk _ value :: items =>
    congrArg₂ List.cons (older_typeWith strings value) (older_typedDictValues strings items)

end

theorem older_stringTypeWithin (bound : Nat) (isEvaluated : Bool) (value : String)
    (range : TextRange) :
    (toWireStringTypeWithin c bound isEvaluated value range).older le
      = toWireStringTypeWithin (c.older v) bound isEvaluated value range := by
  induction bound generalizing isEvaluated value range with
  | zero => rfl
  | succ bound ih =>
    have strings : StringsOlder le (toWireStringTypeWithin c bound false)
        (toWireStringTypeWithin (c.older v) bound false) := ih false
    unfold toWireStringTypeWithin
    rw [show (c.older v).parser = c.parser from rfl]
    cases c.parser.parseUnchecked ("(" ++ value ++ ")") with
    | none => rfl
    | some e =>
      cases e with
      | «attribute» base attr own => exact older_subscript le ⟨rfl, rfl⟩
      | subscript base slice own =>
        exact older_subscript le
          (older_typeArgs le strings _ (older_typeWith le strings (slice.relocate range)))
      | binOp left op right own =>
        cases op with
        | bitOr =>
          exact older_union le (older_typeWith le strings (left.relocate range))
            (older_typeWith le strings (right.relocate range))
        | _ => rfl
      | _ => rfl

theorem older_strings :
    StringsOlder le (toWireStringType c false) (toWireStringType (c.older v) false) :=
  fun value range => older_stringTypeWithin le _ false value range

theorem older_type (isEvaluated : Bool) (t : Expr) :
    (toWireType c isEvaluated t).older le = toWireType (c.older v) isEvaluated t :=
  older_typeWith le (older_strings le) t

end Types

section Exprs

variable {c : Config} {v : Nat} (le : (c.older v).cacheVersion ≤ c.cacheVersion) (scope : Scope)

theorem older_number (value : Number) (loc : Location) :
    (toWireNumber c value loc).older le = toWireNumber (c.older v) value loc := by
  cases value with
  | int n =>
    simp only [toWireNumber]
    cases n.asI64 <;> rfl
  | _ => rfl

theorem older_parameterType (param : Parameter) (argComment : Option Expr) :
    olderOptType le (toWireParameterType c scope param argComment)
      = toWireParameterType (c.older v) scope param argComment := by
  unfold toWireParameterType
  cases param.annotated with
  | some ann => exact congrArg some (older_type le scope.isEvaluated ann)
  | none =>
    cases argComment with
    | none => rfl
    | some comment => exact congrArg some (older_type le false _)

theorem older_variadic (argComments : List (Option Expr)) (idx : Nat) (kind : Int) :
    ∀ param : Option Parameter,
      olderParameters le (toWireVariadic c scope argComments idx kind param)
        = toWireVariadic (c.older v) scope argComments idx kind param
  | none => rfl
  | some param => by
    simp only [toWireVariadic, toWireArgument, olderParameters, older_parameterType]
    rfl

theorem olderParameters_append (parameters more : List (WParameter c.cacheVersion)) :
    olderParameters le (parameters ++ more)
      = olderParameters le parameters ++ olderParameters le more := by
  induction parameters with
  | nil => rfl
  | cons parameter parameters ih =>
    cases parameter
    simp only [List.cons_append, olderParameters, ih]

theorem olderExprs_append (es more : List (WExpr c.cacheVersion)) :
    olderExprs le (es ++ more) = olderExprs le es ++ olderExprs le more := by
  induction es with
  | nil => rfl
  | cons e es ih => simp only [List.cons_append, olderExprs, ih]

theorem olderElements_append (elements more : List (WFStringElement c.cacheVersion)) :
    olderElements le (elements ++ more) = olderElements le elements ++ olderElements le more := by
  induction elements with
  | nil => rfl
  | cons element elements ih => cases element <;> simp only [List.cons_append, olderElements, ih]

mutual

theorem older_expr : ∀ e : Expr,
    (toWireExpr c scope e).older le = toWireExpr (c.older v) scope e
  | .name .. | .booleanLiteral .. | .noneLiteral .. | .ellipsisLiteral .. | .bytesLiteral ..
  | .ipyEscapeCommand _ => rfl
  | .numberLiteral value range => older_number le value _
  | .stringLiteral value range => by
    simp only [toWireExpr, WExpr.older, flag_parts (c.older_alike v)]
    rfl
  | .attribute value attr range => by
    simp only [toWireExpr, WExpr.older, older_expr value]
    rfl
  | .call func args keywords range => by
    simp only [toWireExpr, WExpr.older, olderExprs_append, older_expr func, older_callArgs args,
      older_keywordValues keywords]
    rfl
  | .binOp left op right range => by
    simp only [toWireExpr, WExpr.older, older_expr left, older_expr right]
  | .subscript value slice range => by
    simp only [toWireExpr, WExpr.older, older_expr value, older_expr slice]
    rfl
  | .list elts ctx range => by
    simp only [toWireExpr]
    split
    · simp only [WExpr.older, older_exprs elts]
      rfl
    · simp only [WExpr.older, older_exprs elts]
      rfl
  | .tuple elts ctx range => by
    simp only [toWireExpr, WExpr.older, older_exprs elts]
    rfl
  | .set elts range => by
    simp only [toWireExpr, WExpr.older, older_exprs elts]
    rfl
  | .generator elt generators range => by
    simp only [toWireExpr, WExpr.older, older_expr elt, older_comprehensions generators]
    rfl
  | .listComp elt generators range => by
    simp only [toWireExpr, WExpr.older, older_expr elt, older_comprehensions generators]
    rfl
  | .setComp elt generators range => by
    simp only [toWireExpr, WExpr.older, older_expr elt, older_comprehensions generators]
    rfl
  | .dictComp key value generators range => by
    simp only [toWireExpr]
    by_cases newer : cvDictKeyOpt ≤ c.cacheVersion
    · rw [dif_pos newer]
      by_cases given : cvDictKeyOpt ≤ (c.older v).cacheVersion
      · rw [dif_pos given, WExpr.older_dictComp_kept le given, older_optExpr key,
          older_expr value, older_comprehensions generators]
        rfl
      · rw [dif_neg given, WExpr.older_dictComp_keyed le given, older_missingKey range key,
          older_expr value, older_comprehensions generators]
        rfl
    · have missing : ¬ cvDictKeyOpt ≤ (c.older v).cacheVersion := fun given =>
        newer (given.trans le)
      rw [dif_neg newer, dif_neg missing, WExpr.older_dictCompKeyed, older_key range key,
        older_expr value, older_comprehensions generators]
      rfl
  | .yield value range => by
    simp only [toWireExpr, WExpr.older, older_optExpr value]
    rfl
  | .yieldFrom value range => by
    simp only [toWireExpr, WExpr.older, older_expr value]
    rfl
  | .boolOp op values range => by
    simp only [toWireExpr, WExpr.older, older_exprs values]
    rfl
  | .compare left ops comparators range => by
    simp only [toWireExpr, WExpr.older, older_expr left, older_exprs comparators]
    rfl
  | .ifExp test body orelse range => by
    simp only [toWireExpr, WExpr.older, older_expr test, older_expr body, older_expr orelse]
    rfl
  | .unaryOp op operand range => by
    simp only [toWireExpr, WExpr.older, older_expr operand]
    rfl
  | .dict items range => by
    simp only [toWireExpr, WExpr.older, older_dictKeys items, older_dictValues items]
    rfl
  | .slice lower upper step range => by
    simp only [toWireExpr, WExpr.older, older_optExpr lower, older_optExpr upper,
      older_optExpr step]
    rfl
  | .fString value range => by
    simp only [toWireExpr, WExpr.older, older_fStringParts value,
      flag_fStringParts (c.older_alike v)]
    rfl
  | .lambda (some parameters) body range => by
    simp only [toWireExpr, WExpr.older, older_parameters _ parameters, older_expr body]
    rfl
  | .lambda none body range => by
    simp only [toWireExpr, WExpr.older, olderParameters, older_expr body]
    rfl
  | .named target value range => by
    simp only [toWireExpr, WExpr.older, older_expr target, older_expr value]
    rfl
  | .starred value range => by
    simp only [toWireExpr, WExpr.older, older_expr value]
    rfl
  | .await value range => by
    simp only [toWireExpr, WExpr.older, older_expr value]
    rfl
  | .tString elements range => by
    simp only [toWireExpr, WExpr.older, older_tStringElements elements,
      flag_tStringElements (c.older_alike v)]
    rfl

theorem older_exprs : ∀ es : List Expr,
    olderExprs le (toWireExprs c scope es) = toWireExprs (c.older v) scope es
  | [] => rfl
  | e :: es => congrArg₂ List.cons (older_expr e) (older_exprs es)

theorem older_optExpr : ∀ e : Option Expr,
    olderOptExpr le (toWireOptExpr c scope e) = toWireOptExpr (c.older v) scope e
  | none => rfl
  | some e => congrArg some (older_expr e)

theorem older_missingKey (range : TextRange) : ∀ key : Option Expr,
    olderDictKey le (c.location range) (toWireOptExpr c scope key)
      = toWireKey (c.older v) scope range key
  | none => rfl
  | some key => congrArg WKey.expr (older_expr key)

theorem older_key (range : TextRange) : ∀ key : Option Expr,
    (toWireKey c scope range key).older le = toWireKey (c.older v) scope range key
  | none => rfl
  | some key => congrArg WKey.expr (older_expr key)

theorem older_callArgs : ∀ args : List Expr,
    olderExprs le (toWireCallArgs c scope args) = toWireCallArgs (c.older v) scope args
  | [] => rfl
  | arg :: args => by
    have first := older_expr arg
    have rest := older_callArgs args
    cases arg with
    | starred value range => exact congrArg₂ List.cons (WExpr.star.inj first).1 rest
    | _ => exact congrArg₂ List.cons first rest

theorem older_keywordValues : ∀ keywords : List Keyword,
    olderExprs le (toWireKeywordValues c scope keywords)
      = toWireKeywordValues (c.older v) scope keywords
  | [] => rfl
  | .mk _ value :: keywords =>
    congrArg₂ List.cons (older_expr value) (older_keywordValues keywords)

theorem older_comprehensions : ∀ generators : List Comprehension,
    olderComprehensions le (toWireComprehensions c scope generators)
      = toWireComprehensions (c.older v) scope generators
  | [] => rfl
  | .mk target iter ifs isAsync :: generators => by
    simp only [toWireComprehensions, olderComprehensions, older_expr target, older_expr iter,
      older_exprs ifs, older_comprehensions generators]

theorem older_dictKeys : ∀ items : List DictItem,
    olderKeys le (toWireDictKeys c scope items) = toWireDictKeys (c.older v) scope items
  | [] => rfl
  | .mk key _ :: items => congrArg₂ List.cons (older_optExpr key) (older_dictKeys items)

theorem older_dictValues : ∀ items : List DictItem,
    olderExprs le (toWireDictValues c scope items) = toWireDictValues (c.older v) scope items
  | [] => rfl
  | .mk _ value :: items => congrArg₂ List.cons (older_expr value) (older_dictValues items)

theorem older_parameters (argComments : List (Option Expr)) : ∀ parameters : Parameters,
    olderParameters le (toWireParameters c scope argComments parameters)
      = toWireParameters (c.older v) scope argComments parameters
  | .mk posonlyargs args vararg kwonlyargs kwarg => by
    simp only [toWireParameters, olderParameters_append, older_variadic,
      older_defaults argComments _ _ _ _ posonlyargs, older_defaults argComments _ _ _ _ args,
      older_defaults argComments _ _ _ _ kwonlyargs]

theorem older_defaults (argComments : List (Option Expr)) (idx : Nat)
    (kindNoDefault kindWithDefault : Int) (posOnly : Parameter → Bool) :
    ∀ parameters : List ParameterWithDefault,
      olderParameters le (toWireDefaults c scope argComments idx kindNoDefault kindWithDefault
          posOnly parameters)
        = toWireDefaults (c.older v) scope argComments idx kindNoDefault kindWithDefault posOnly
          parameters
  | [] => rfl
  | .mk parameter default _ :: parameters => by
    simp only [toWireDefaults, toWireArgument, olderParameters, older_parameterType,
      older_optExpr default, older_defaults argComments _ _ _ _ parameters]
    cases default <;> rfl

theorem older_fStringParts : ∀ parts : List FStringPart,
    olderFStringParts le (toWireFStringParts c scope parts)
      = toWireFStringParts (c.older v) scope parts
  | [] => rfl
  | .fString elements :: parts => by
    simp only [toWireFStringParts, olderFStringParts, older_elements elements,
      older_fStringParts parts]
  | .literal lit :: parts => by
    simp only [toWireFStringParts, olderFStringParts, older_fStringParts parts]
    rfl

theorem older_elements : ∀ elements : List InterpolatedStringElement,
    olderElements le (toWireElements c scope elements) = toWireElements (c.older v) scope elements
  | [] => rfl
  | .literal value range :: elements => by
    simp only [toWireElements, olderElements, older_elements elements]
    rfl
  | .interpolation expression debugText conversion formatSpec :: elements => by
    simp only [toWireElements, olderElements_append, olderElements, older_expr expression,
      older_formatSpec formatSpec, older_elements elements]
    cases debugText <;> rfl

theorem older_formatSpec : ∀ formatSpec : Option FormatSpec,
    olderFormatSpec le (toWireFormatSpec c scope formatSpec)
      = toWireFormatSpec (c.older v) scope formatSpec
  | none => rfl
  | some (.mk elements range) => by
    simp only [toWireFormatSpec, olderFormatSpec, older_elements elements]
    rfl

theorem older_tStringElements : ∀ elements : List InterpolatedStringElement,
    olderTStringParts le (toWireTStringElements c scope elements)
      = toWireTStringElements (c.older v) scope elements
  | [] => rfl
  | .interpolation expression _ conversion formatSpec :: elements => by
    simp only [toWireTStringElements, olderTStringParts, older_expr expression,
      older_formatSpec formatSpec, older_tStringElements elements]
    rfl
  | .literal value range :: elements => by
    simp only [toWireTStringElements, olderTStringParts, older_tStringElements elements]
    rfl

end

end Exprs

section Patterns

variable {c : Config} {v : Nat} (le : (c.older v).cacheVersion ≤ c.cacheVersion) (scope : Scope)

mutual

theorem older_pattern : ∀ p : Pattern,
    (toWirePattern c scope p).older le = toWirePattern (c.older v) scope p
  | .matchAs pattern name range => by
    simp only [toWirePattern, WPattern.older, older_optPattern pattern]
    rfl
  | .matchOr patterns range => by
    simp only [toWirePattern, WPattern.older, older_patterns patterns]
    rfl
  | .matchValue value range => by
    simp only [toWirePattern, WPattern.older, older_expr le scope value]
    rfl
  | .matchSingleton .. | .matchStar .. => rfl
  | .matchSequence patterns range => by
    simp only [toWirePattern, WPattern.older, older_patterns patterns]
    rfl
  | .matchMapping items rest range => by
    simp only [toWirePattern, WPattern.older, older_items items]
    rfl
  | .matchClass cls patterns keywords range => by
    simp only [toWirePattern, WPattern.older, older_expr le scope cls, older_patterns patterns,
      older_keywordPatterns keywords]
    rfl

theorem older_optPattern : ∀ p : Option Pattern,
    olderOptPattern le (toWireOptPattern c scope p) = toWireOptPattern (c.older v) scope p
  | none => rfl
  | some pattern => congrArg some (older_pattern pattern)

theorem older_patterns : ∀ patterns : List Pattern,
    olderPatterns le (toWirePatterns c scope patterns) = toWirePatterns (c.older v) scope patterns
  | [] => rfl
  | pattern :: patterns => congrArg₂ List.cons (older_pattern pattern) (older_patterns patterns)

theorem older_items : ∀ items : List (Expr × Pattern),
    olderItems le (toWireMappingItems c scope items)
      = toWireMappingItems (c.older v) scope items
  | [] => rfl
  | (key, pattern) :: items => by
    simp only [toWireMappingItems, olderItems, older_expr le scope key, older_pattern pattern,
      older_items items]

theorem older_keywordPatterns : ∀ keywords : List (Identifier × Pattern),
    olderKeywordPatterns le (toWireKeywordPatterns c scope keywords)
      = toWireKeywordPatterns (c.older v) scope keywords
  | [] => rfl
  | (_, pattern) :: keywords => by
    simp only [toWireKeywordPatterns, olderKeywordPatterns, older_pattern pattern,
      older_keywordPatterns keywords]

end

end Patterns

end AstSerialize
