import AstSerialize.Serializer.ExprCode

/-! Expressions seen from statements, which do not see the flag of surrogates.
Every string clears the flag first, so whether the serializer panics in an
expression does not depend on it. -/
namespace AstSerialize
open Coding

/-- Whether the flag has a value afterwards does not depend on its value before. -/
def Uniform (f : Bool → Option Bool) : Prop := ∀ b b', (f b).isSome = (f b').isSome

theorem Uniform.some : Uniform some := fun _ _ => rfl

theorem Uniform.const (o : Option Bool) : Uniform fun _ => o := fun _ _ => rfl

theorem Uniform.kleisli {f g : Bool → Option Bool} (hf : Uniform f) (hg : Uniform g) :
    Uniform (f >=> g) := by
  intro b b'
  have first := hf b b'
  simp only [Bind.kleisliRight]
  cases hb : f b with
  | none =>
    rw [hb] at first
    cases hb' : f b' with
    | none => rfl
    | some x => rw [hb'] at first; cases first
  | some x =>
    rw [hb] at first
    cases hb' : f b' with
    | none => rw [hb'] at first; cases first
    | some x' => exact hg x x'

section Uniformity

variable (c : Config)

mutual

theorem uniform_expr : ∀ e : Expr, Uniform (surrogatesAfter c e)
  | .name _ _ | .numberLiteral _ _ | .booleanLiteral _ _ | .noneLiteral _ | .ellipsisLiteral _
  | .bytesLiteral _ _ => .some
  | .attribute value _ _ | .unaryOp _ value _ | .yieldFrom value _ | .starred value _
  | .await value _ => uniform_expr value
  | .binOp left _ right _ | .subscript left right _ | .named left right _ =>
    .kleisli (uniform_expr left) (uniform_expr right)
  | .call func args keywords _ =>
    .kleisli (uniform_expr func) (.kleisli (uniform_callArgs args) (uniform_keywords keywords))
  | .list elts _ _ | .tuple elts _ _ | .set elts _ | .boolOp _ elts _ => uniform_exprs elts
  | .generator elt generators _ | .listComp elt generators _ | .setComp elt generators _ =>
    .kleisli (uniform_expr elt) <| .kleisli (uniform_targets generators) <|
      .kleisli (uniform_iters generators) (uniform_conds generators)
  | .dictComp key value generators _ =>
    .kleisli (uniform_optExpr key) <| .kleisli (uniform_expr value) <|
      .kleisli (uniform_targets generators) <| .kleisli (uniform_iters generators)
        (uniform_conds generators)
  | .yield value _ => uniform_optExpr value
  | .compare left _ comparators _ => .kleisli (uniform_expr left) (uniform_exprs comparators)
  | .ifExp test body orelse _ =>
    .kleisli (uniform_expr body) (.kleisli (uniform_expr test) (uniform_expr orelse))
  | .dict items _ => .kleisli (uniform_keys items) (uniform_values items)
  | .slice lower upper step _ =>
    .kleisli (uniform_optExpr lower) (.kleisli (uniform_optExpr upper) (uniform_optExpr step))
  | .stringLiteral _ _ | .fString _ _ | .tString _ _ | .ipyEscapeCommand _ => .const _
  | .lambda (some (.mk posonlyargs args _ kwonlyargs _)) body _ =>
    .kleisli (.kleisli (uniform_defaults posonlyargs) <|
      .kleisli (uniform_defaults args) (uniform_defaults kwonlyargs)) (uniform_expr body)
  | .lambda none body _ => uniform_expr body

theorem uniform_exprs : ∀ es : List Expr, Uniform (surrogatesAfterExprs c es)
  | [] => .some
  | e :: es => .kleisli (uniform_expr e) (uniform_exprs es)

theorem uniform_optExpr : ∀ e : Option Expr, Uniform (surrogatesAfterOpt c e)
  | none => .some
  | some e => uniform_expr e

theorem uniform_callArgs : ∀ args : List Expr, Uniform (surrogatesAfterCallArgs c args)
  | [] => .some
  | arg :: args => by
    rw [surrogatesAfterCallArgs_cons, surrogatesAfter_unstarred]
    exact .kleisli (uniform_expr arg) (uniform_callArgs args)

theorem uniform_keywords : ∀ keywords : List Keyword,
    Uniform (surrogatesAfterKeywords c keywords)
  | [] => .some
  | .mk _ value :: keywords => .kleisli (uniform_expr value) (uniform_keywords keywords)

theorem uniform_targets : ∀ generators : List Comprehension,
    Uniform (surrogatesAfterTargets c generators)
  | [] => .some
  | .mk target _ _ _ :: generators => .kleisli (uniform_expr target) (uniform_targets generators)

theorem uniform_iters : ∀ generators : List Comprehension,
    Uniform (surrogatesAfterIters c generators)
  | [] => .some
  | .mk _ iter _ _ :: generators => .kleisli (uniform_expr iter) (uniform_iters generators)

theorem uniform_conds : ∀ generators : List Comprehension,
    Uniform (surrogatesAfterConds c generators)
  | [] => .some
  | .mk _ _ ifs _ :: generators => .kleisli (uniform_exprs ifs) (uniform_conds generators)

theorem uniform_keys : ∀ items : List DictItem, Uniform (surrogatesAfterKeys c items)
  | [] => .some
  | .mk key _ :: items => .kleisli (uniform_optExpr key) (uniform_keys items)

theorem uniform_values : ∀ items : List DictItem, Uniform (surrogatesAfterValues c items)
  | [] => .some
  | .mk _ value :: items => .kleisli (uniform_expr value) (uniform_values items)

theorem uniform_defaults : ∀ parameters : List ParameterWithDefault,
    Uniform (surrogatesAfterDefaults c parameters)
  | [] => .some
  | .mk _ default _ :: parameters =>
    .kleisli (uniform_optExpr default) (uniform_defaults parameters)

end

theorem uniform_parameters : ∀ parameters : Parameters,
    Uniform (surrogatesAfterParameters c parameters)
  | .mk posonlyargs args _ kwonlyargs _ =>
    .kleisli (uniform_defaults c posonlyargs) <|
      .kleisli (uniform_defaults c args) (uniform_defaults c kwonlyargs)

mutual

theorem uniform_pattern : ∀ p : Pattern, Uniform (surrogatesAfterPattern c p)
  | .matchSingleton _ _ | .matchStar _ _ => .some
  | .matchAs pattern _ _ => uniform_optPattern pattern
  | .matchOr patterns _ | .matchSequence patterns _ => uniform_patterns patterns
  | .matchValue value _ => uniform_expr c value
  | .matchMapping items _ _ => uniform_items items
  | .matchClass cls patterns keywords _ =>
    .kleisli (uniform_expr c cls)
      (.kleisli (uniform_patterns patterns) (uniform_keywordPatterns keywords))

theorem uniform_optPattern : ∀ p : Option Pattern, Uniform (surrogatesAfterOptPattern c p)
  | none => .some
  | some pattern => uniform_pattern pattern

theorem uniform_patterns : ∀ patterns : List Pattern,
    Uniform (surrogatesAfterPatterns c patterns)
  | [] => .some
  | pattern :: patterns => .kleisli (uniform_pattern pattern) (uniform_patterns patterns)

theorem uniform_items : ∀ items : List (Expr × Pattern), Uniform (surrogatesAfterItems c items)
  | [] => .some
  | (key, pattern) :: items =>
    .kleisli (uniform_expr c key) (.kleisli (uniform_pattern pattern) (uniform_items items))

theorem uniform_keywordPatterns : ∀ keywords : List (Identifier × Pattern),
    Uniform (surrogatesAfterKeywordPatterns c keywords)
  | [] => .some
  | (_, pattern) :: keywords =>
    .kleisli (uniform_pattern pattern) (uniform_keywordPatterns keywords)

end

end Uniformity

section Supported

variable (c : Config)

/-- The serializer does not panic in the expression. -/
def supports (f : Bool → Option Bool) : Bool := (f false).isSome

def supportsExpr (e : Expr) : Bool := supports (surrogatesAfter c e)

def supportsExprs (es : List Expr) : Bool := supports (surrogatesAfterExprs c es)

def supportsOptExpr (e : Option Expr) : Bool := supports (surrogatesAfterOpt c e)

def supportsParameters (parameters : Parameters) : Bool :=
  supports (surrogatesAfterParameters c parameters)

def supportsPattern (p : Pattern) : Bool := supports (surrogatesAfterPattern c p)

end Supported

section Records

/-- The state between statements. -/
abbrev Scope.tracked (scope : Scope) (trace : Trace) : Tracked := ⟨scope, trace⟩

/-- In the scope the action writes `w` and adds `e` to the trace, and panics unless `ok`. -/
abbrev Records (scope : Scope) (m : SerM Unit) (ok : Bool) (e : Trace) (w : Bytes) : Prop :=
  Logs stmtPort scope.tracked m ok e w

theorem records_of_flags {scope : Scope} {m : SerM Unit} {f : Bool → Option Bool} {w : Bytes}
    (uniform : Uniform f) (flags : ∀ trace, Flags (scope.tracked trace) m f w) :
    Records scope m (supports f) 0 w := by
  cases ok : supports f with
  | true =>
    apply Logs.quiet
    intro trace
    apply Emits.hideFlag
    intro b
    have reached : (f b).isSome = true := (uniform b false).trans ok
    obtain ⟨b', goes⟩ := Option.isSome_iff_exists.mp reached
    exact ⟨b', (flags trace).emits goes⟩
  | false =>
    intro trace s hs
    have lost : f s.hasSurrogates = none := by
      simpa [supports] using (uniform s.hasSurrogates false).trans ok
    have view : exprPort.view s = (scope.tracked trace, s.hasSurrogates) := by
      rw [← hs]
      rfl
    exact (flags trace).panics lost s view

variable {c : Config} {scope : Scope}

theorem records_expr (e : Expr) :
    Records scope (serializeExpr c e) (supportsExpr c e) 0 (encExpr (toWireExpr c scope e)) :=
  records_of_flags (uniform_expr c e) fun _ => flags_expr c e

theorem records_exprs (es : List Expr) :
    Records scope (serializeExprs c es) (supportsExprs c es) 0
      (encExprs (toWireExprs c scope es)) :=
  records_of_flags (uniform_exprs c es) fun _ => flags_exprs c es

theorem records_optExpr (e : Option Expr) :
    Records scope (serializeOptExpr c e) (supportsOptExpr c e) 0
      (encOptExpr (toWireOptExpr c scope e)) :=
  records_of_flags (uniform_optExpr c e) fun _ => flags_optExpr c e

theorem records_vec (es : List Expr) :
    Records scope (serializeVec es.length (serializeExprs c es)) (supportsExprs c es) 0
      (encListed (toWireExprs c scope es).length (encExprs (toWireExprs c scope es))) := by
  rw [toWireExprs_length]
  exact records_of_flags (uniform_exprs c es) fun _ => flags_vec _ (flags_exprs c es)

theorem records_parameters (argComments : List (Option Expr)) (parameters : Parameters)
    (covered : parameters.len ≤ argComments.length) :
    Records scope (serializeParameters c argComments parameters) (supportsParameters c parameters)
      0 (encListed (toWireParameters c scope argComments parameters).length
        (encParameters (toWireParameters c scope argComments parameters))) :=
  records_of_flags (uniform_parameters c parameters) fun _ =>
    flags_parameters c argComments parameters covered

theorem records_pattern (p : Pattern) :
    Records scope (serializePattern c p) (supportsPattern c p) 0
      (encPattern (toWirePattern c scope p)) :=
  records_of_flags (uniform_pattern c p) fun _ => flags_pattern p

/-- Types never panic. -/
theorem emits_typeQuietly (e : Expr) (trace : Trace) :
    Emits stmtPort (serializeType c e) (scope.tracked trace)
      (encType (toWireType c scope.isEvaluated e)) (scope.tracked trace) :=
  Emits.hideFlag fun b => ⟨b, emits_type _ b e⟩

end Records

end AstSerialize
