import AstSerialize.Serializer.Alike
import AstSerialize.Wire.Unflagged

/-! Types, expressions and patterns do not depend on the options beside the
cache version, up to the flags in them. -/
namespace AstSerialize

/-- The serializer with other options of the same cache version. -/
def Config.under (c : Config) (o : Options) : Config :=
  { c with options := { o with cacheVersion := c.options.cacheVersion } }

theorem Config.under_alike (c : Config) (o : Options) : c.Alike (c.under o) := ⟨_, rfl⟩

/-- The scope as if all the code around were reachable. -/
def Scope.reached (scope : Scope) : Scope :=
  { scope with unreachable := false, mypyOnly := false }

section Types

variable (c : Config) (o : Options)

section Strings

variable (str : String → TextRange → WType c.cacheVersion) (isEvaluated : Bool)

theorem typeWith_under (t : Expr) :
    toWireTypeWith (c.under o) str isEvaluated t = toWireTypeWith c str isEvaluated t := by
  delta toWireTypeWith
  rfl

theorem types_under (ts : List Expr) :
    toWireTypes (c.under o) str isEvaluated ts = toWireTypes c str isEvaluated ts := by
  delta toWireTypes
  rfl

theorem typeArgs_under (slice : Expr) :
    toWireTypeArgs (c.under o) str isEvaluated slice = toWireTypeArgs c str isEvaluated slice := by
  have one := typeWith_under c o str isEvaluated slice
  cases slice with
  | tuple elts ctx range =>
    exact congrArg (fun trees => (trees, elts.isEmpty)) (types_under c o str isEvaluated elts)
  | _ => exact congrArg (fun tree => ([tree], false)) one

end Strings

theorem stringTypeWithin_under (bound : Nat) (isEvaluated : Bool) (value : String)
    (range : TextRange) :
    toWireStringTypeWithin (c.under o) bound isEvaluated value range
      = toWireStringTypeWithin c bound isEvaluated value range := by
  induction bound generalizing isEvaluated value range with
  | zero => rfl
  | succ bound ih =>
    have strings : toWireStringTypeWithin (c.under o) bound false
        = toWireStringTypeWithin c bound false := by
      funext value range
      exact ih false value range
    unfold toWireStringTypeWithin
    rw [strings]
    simp only [typeWith_under, typeArgs_under]
    rfl

theorem strings_under (isEvaluated : Bool) :
    toWireStringType (c.under o) isEvaluated = toWireStringType c isEvaluated := by
  funext value range
  exact stringTypeWithin_under c o _ isEvaluated value range

theorem type_under (isEvaluated : Bool) :
    toWireType (c.under o) isEvaluated = toWireType c isEvaluated := by
  funext t
  unfold toWireType
  rw [strings_under]
  exact typeWith_under c o _ isEvaluated t

end Types

section Exprs

variable (c : Config) (o : Options) (scope : Scope)

theorem unflagged_number (value : Number) (loc : Location) :
    (toWireNumber c value loc).unflagged = toWireNumber (c.under o) value loc := by
  cases value with
  | int n =>
    simp only [toWireNumber]
    cases n.asI64 <;> rfl
  | _ => rfl

theorem parameterType_under (param : Parameter) (argComment : Option Expr) :
    toWireParameterType (c.under o) scope.reached param argComment
      = toWireParameterType c scope param argComment := by
  unfold toWireParameterType
  cases param.annotated with
  | some ann => exact congrArg some (congrFun (type_under c o scope.isEvaluated) ann)
  | none =>
    cases argComment with
    | none => rfl
    | some comment => exact congrArg some (congrFun (type_under c o false) _)

theorem unflagged_variadic (argComments : List (Option Expr)) (idx : Nat) (kind : Int) :
    ∀ param : Option Parameter,
      unflaggedParameters (toWireVariadic c scope argComments idx kind param)
        = toWireVariadic (c.under o) scope.reached argComments idx kind param
  | none => rfl
  | some param => by
    simp only [toWireVariadic, toWireArgument, unflaggedParameters, parameterType_under c o scope]
    rfl

mutual

theorem unflagged_expr : ∀ e : Expr,
    (toWireExpr c scope e).unflagged = toWireExpr (c.under o) scope.reached e
  | .name .. | .booleanLiteral .. | .noneLiteral .. | .ellipsisLiteral .. | .bytesLiteral ..
  | .ipyEscapeCommand _ => rfl
  | .numberLiteral value range => unflagged_number c o value _
  | .stringLiteral value range => by
    simp only [toWireExpr, WExpr.unflagged, flag_parts (c.under_alike o)]
    rfl
  | .attribute value attr range => by
    simp only [toWireExpr, WExpr.unflagged, unflagged_expr value]
    rfl
  | .call func args keywords range => by
    simp only [toWireExpr, WExpr.unflagged, unflaggedExprs_append, unflagged_expr func,
      unflagged_callArgs args, unflagged_keywordValues keywords]
    rfl
  | .binOp left op right range => by
    simp only [toWireExpr, WExpr.unflagged, unflagged_expr left, unflagged_expr right]
    rfl
  | .subscript value slice range => by
    simp only [toWireExpr, WExpr.unflagged, unflagged_expr value, unflagged_expr slice]
    rfl
  | .list elts ctx range => by
    simp only [toWireExpr]
    split
    · simp only [WExpr.unflagged, unflagged_exprs elts]
      rfl
    · simp only [WExpr.unflagged, unflagged_exprs elts]
      rfl
  | .tuple elts ctx range => by
    simp only [toWireExpr, WExpr.unflagged, unflagged_exprs elts]
    rfl
  | .set elts range => by
    simp only [toWireExpr, WExpr.unflagged, unflagged_exprs elts]
    rfl
  | .generator elt generators range => by
    simp only [toWireExpr, WExpr.unflagged, unflagged_expr elt, unflagged_comprehensions generators]
    rfl
  | .listComp elt generators range => by
    simp only [toWireExpr, WExpr.unflagged, unflagged_expr elt, unflagged_comprehensions generators]
    rfl
  | .setComp elt generators range => by
    simp only [toWireExpr, WExpr.unflagged, unflagged_expr elt, unflagged_comprehensions generators]
    rfl
  | .dictComp key value generators range => by
    simp only [toWireExpr]
    by_cases optional : cvDictKeyOpt ≤ c.cacheVersion
    · have optional' : cvDictKeyOpt ≤ (c.under o).cacheVersion := optional
      rw [dif_pos optional, dif_pos optional']
      simp only [WExpr.unflagged, unflagged_optExpr key, unflagged_expr value,
        unflagged_comprehensions generators]
      rfl
    · have required : ¬ cvDictKeyOpt ≤ (c.under o).cacheVersion := optional
      rw [dif_neg optional, dif_neg required]
      simp only [WExpr.unflagged, unflagged_key range key, unflagged_expr value,
        unflagged_comprehensions generators]
      rfl
  | .yield value range => by
    simp only [toWireExpr, WExpr.unflagged, unflagged_optExpr value]
    rfl
  | .yieldFrom value range => by
    simp only [toWireExpr, WExpr.unflagged, unflagged_expr value]
    rfl
  | .boolOp op values range => by
    simp only [toWireExpr, WExpr.unflagged, unflagged_exprs values]
    rfl
  | .compare left ops comparators range => by
    simp only [toWireExpr, WExpr.unflagged, unflagged_expr left, unflagged_exprs comparators]
    rfl
  | .ifExp test body orelse range => by
    simp only [toWireExpr, WExpr.unflagged, unflagged_expr test, unflagged_expr body,
      unflagged_expr orelse]
    rfl
  | .unaryOp op operand range => by
    simp only [toWireExpr, WExpr.unflagged, unflagged_expr operand]
    rfl
  | .dict items range => by
    simp only [toWireExpr, WExpr.unflagged, unflagged_dictKeys items, unflagged_dictValues items]
    rfl
  | .slice lower upper step range => by
    simp only [toWireExpr, WExpr.unflagged, unflagged_optExpr lower, unflagged_optExpr upper,
      unflagged_optExpr step]
    rfl
  | .fString value range => by
    simp only [toWireExpr, WExpr.unflagged, unflagged_fStringParts value,
      flag_fStringParts (c.under_alike o)]
    rfl
  | .lambda (some parameters) body range => by
    simp only [toWireExpr, WExpr.unflagged, unflagged_parameters _ parameters, unflagged_expr body]
    rfl
  | .lambda none body range => by
    simp only [toWireExpr, WExpr.unflagged, unflaggedParameters, unflagged_expr body]
    rfl
  | .named target value range => by
    simp only [toWireExpr, WExpr.unflagged, unflagged_expr target, unflagged_expr value]
    rfl
  | .starred value range => by
    simp only [toWireExpr, WExpr.unflagged, unflagged_expr value]
    rfl
  | .await value range => by
    simp only [toWireExpr, WExpr.unflagged, unflagged_expr value]
    rfl
  | .tString elements range => by
    simp only [toWireExpr, WExpr.unflagged, unflagged_tStringElements elements,
      flag_tStringElements (c.under_alike o)]
    rfl

theorem unflagged_exprs : ∀ es : List Expr,
    unflaggedExprs (toWireExprs c scope es) = toWireExprs (c.under o) scope.reached es
  | [] => rfl
  | e :: es => congrArg₂ List.cons (unflagged_expr e) (unflagged_exprs es)

theorem unflagged_optExpr : ∀ e : Option Expr,
    unflaggedOptExpr (toWireOptExpr c scope e) = toWireOptExpr (c.under o) scope.reached e
  | none => rfl
  | some e => congrArg some (unflagged_expr e)

theorem unflagged_key (range : TextRange) : ∀ key : Option Expr,
    (toWireKey c scope range key).unflagged = toWireKey (c.under o) scope.reached range key
  | none => rfl
  | some key => congrArg WKey.expr (unflagged_expr key)

theorem unflagged_callArgs : ∀ args : List Expr,
    unflaggedExprs (toWireCallArgs c scope args) = toWireCallArgs (c.under o) scope.reached args
  | [] => rfl
  | arg :: args => by
    have first := unflagged_expr arg
    have rest := unflagged_callArgs args
    cases arg with
    | starred value range => exact congrArg₂ List.cons (WExpr.star.inj first).1 rest
    | _ => exact congrArg₂ List.cons first rest

theorem unflagged_keywordValues : ∀ keywords : List Keyword,
    unflaggedExprs (toWireKeywordValues c scope keywords)
      = toWireKeywordValues (c.under o) scope.reached keywords
  | [] => rfl
  | .mk _ value :: keywords =>
    congrArg₂ List.cons (unflagged_expr value) (unflagged_keywordValues keywords)

theorem unflagged_comprehensions : ∀ generators : List Comprehension,
    unflaggedComprehensions (toWireComprehensions c scope generators)
      = toWireComprehensions (c.under o) scope.reached generators
  | [] => rfl
  | .mk target iter ifs isAsync :: generators => by
    simp only [toWireComprehensions, unflaggedComprehensions, unflagged_expr target,
      unflagged_expr iter, unflagged_exprs ifs, unflagged_comprehensions generators]
    rfl

theorem unflagged_dictKeys : ∀ items : List DictItem,
    unflaggedKeys (toWireDictKeys c scope items) = toWireDictKeys (c.under o) scope.reached items
  | [] => rfl
  | .mk key _ :: items => congrArg₂ List.cons (unflagged_optExpr key) (unflagged_dictKeys items)

theorem unflagged_dictValues : ∀ items : List DictItem,
    unflaggedExprs (toWireDictValues c scope items)
      = toWireDictValues (c.under o) scope.reached items
  | [] => rfl
  | .mk _ value :: items => congrArg₂ List.cons (unflagged_expr value) (unflagged_dictValues items)

theorem unflagged_parameters (argComments : List (Option Expr)) : ∀ parameters : Parameters,
    unflaggedParameters (toWireParameters c scope argComments parameters)
      = toWireParameters (c.under o) scope.reached argComments parameters
  | .mk posonlyargs args vararg kwonlyargs kwarg => by
    simp only [toWireParameters, unflaggedParameters_append, unflagged_variadic c o scope,
      unflagged_defaults argComments _ _ _ _ posonlyargs,
      unflagged_defaults argComments _ _ _ _ args,
      unflagged_defaults argComments _ _ _ _ kwonlyargs]
    rfl

theorem unflagged_defaults (argComments : List (Option Expr)) (idx : Nat)
    (kindNoDefault kindWithDefault : Int) (posOnly : Parameter → Bool) :
    ∀ parameters : List ParameterWithDefault,
      unflaggedParameters (toWireDefaults c scope argComments idx kindNoDefault kindWithDefault
          posOnly parameters)
        = toWireDefaults (c.under o) scope.reached argComments idx kindNoDefault kindWithDefault
          posOnly parameters
  | [] => rfl
  | .mk parameter default _ :: parameters => by
    simp only [toWireDefaults, toWireArgument, unflaggedParameters, parameterType_under c o scope,
      unflagged_optExpr default, unflagged_defaults argComments _ _ _ _ parameters]
    cases default <;> rfl

theorem unflagged_fStringParts : ∀ parts : List FStringPart,
    unflaggedFStringParts (toWireFStringParts c scope parts)
      = toWireFStringParts (c.under o) scope.reached parts
  | [] => rfl
  | .fString elements :: parts => by
    simp only [toWireFStringParts, unflaggedFStringParts, unflagged_elements elements,
      unflagged_fStringParts parts]
    rfl
  | .literal lit :: parts => by
    simp only [toWireFStringParts, unflaggedFStringParts, unflagged_fStringParts parts]
    rfl

theorem unflagged_elements : ∀ elements : List InterpolatedStringElement,
    unflaggedElements (toWireElements c scope elements)
      = toWireElements (c.under o) scope.reached elements
  | [] => rfl
  | .literal value range :: elements => by
    simp only [toWireElements, unflaggedElements, unflagged_elements elements]
    rfl
  | .interpolation expression debugText conversion formatSpec :: elements => by
    simp only [toWireElements, unflaggedElements_append, unflaggedElements,
      unflagged_expr expression, unflagged_formatSpec formatSpec, unflagged_elements elements]
    cases debugText <;> rfl

theorem unflagged_formatSpec : ∀ formatSpec : Option FormatSpec,
    unflaggedFormatSpec (toWireFormatSpec c scope formatSpec)
      = toWireFormatSpec (c.under o) scope.reached formatSpec
  | none => rfl
  | some (.mk elements range) => by
    simp only [toWireFormatSpec, unflaggedFormatSpec, unflagged_elements elements]
    rfl

theorem unflagged_tStringElements : ∀ elements : List InterpolatedStringElement,
    unflaggedTStringParts (toWireTStringElements c scope elements)
      = toWireTStringElements (c.under o) scope.reached elements
  | [] => rfl
  | .interpolation expression _ conversion formatSpec :: elements => by
    simp only [toWireTStringElements, unflaggedTStringParts, unflagged_expr expression,
      unflagged_formatSpec formatSpec, unflagged_tStringElements elements]
    rfl
  | .literal value range :: elements => by
    simp only [toWireTStringElements, unflaggedTStringParts, unflagged_tStringElements elements]
    rfl

end

end Exprs

section Patterns

variable (c : Config) (o : Options) (scope : Scope)

mutual

theorem unflagged_pattern : ∀ p : Pattern,
    (toWirePattern c scope p).unflagged = toWirePattern (c.under o) scope.reached p
  | .matchAs pattern name range => by
    simp only [toWirePattern, WPattern.unflagged, unflagged_optPattern pattern]
    rfl
  | .matchOr patterns range => by
    simp only [toWirePattern, WPattern.unflagged, unflagged_patterns patterns]
    rfl
  | .matchValue value range => by
    simp only [toWirePattern, WPattern.unflagged, unflagged_expr c o scope value]
    rfl
  | .matchSingleton .. | .matchStar .. => rfl
  | .matchSequence patterns range => by
    simp only [toWirePattern, WPattern.unflagged, unflagged_patterns patterns]
    rfl
  | .matchMapping items rest range => by
    simp only [toWirePattern, WPattern.unflagged, unflagged_items items]
    rfl
  | .matchClass cls patterns keywords range => by
    simp only [toWirePattern, WPattern.unflagged, unflagged_expr c o scope cls,
      unflagged_patterns patterns, unflagged_keywordPatterns keywords]
    rfl

theorem unflagged_optPattern : ∀ p : Option Pattern,
    unflaggedOptPattern (toWireOptPattern c scope p) = toWireOptPattern (c.under o) scope.reached p
  | none => rfl
  | some pattern => congrArg some (unflagged_pattern pattern)

theorem unflagged_patterns : ∀ patterns : List Pattern,
    unflaggedPatterns (toWirePatterns c scope patterns)
      = toWirePatterns (c.under o) scope.reached patterns
  | [] => rfl
  | pattern :: patterns =>
    congrArg₂ List.cons (unflagged_pattern pattern) (unflagged_patterns patterns)

theorem unflagged_items : ∀ items : List (Expr × Pattern),
    unflaggedItems (toWireMappingItems c scope items)
      = toWireMappingItems (c.under o) scope.reached items
  | [] => rfl
  | (key, pattern) :: items => by
    simp only [toWireMappingItems, unflaggedItems, unflagged_expr c o scope key,
      unflagged_pattern pattern, unflagged_items items]
    rfl

theorem unflagged_keywordPatterns : ∀ keywords : List (Identifier × Pattern),
    unflaggedKeywordPatterns (toWireKeywordPatterns c scope keywords)
      = toWireKeywordPatterns (c.under o) scope.reached keywords
  | [] => rfl
  | (_, pattern) :: keywords => by
    simp only [toWireKeywordPatterns, unflaggedKeywordPatterns, unflagged_pattern pattern,
      unflagged_keywordPatterns keywords]
    rfl

end

end Patterns

end AstSerialize
