import AstSerialize.Serializer.Module

/-! What does not depend on the options: the flags of surrogates, the comments
of functions, and where the serializer panics. -/
namespace AstSerialize

/-- The other serializer has the same of everything but options. -/
def Config.Alike (c c' : Config) : Prop := ∃ o : Options, c' = { c with options := o }

section Surrogates

variable {c c' : Config}

theorem flag_literal (alike : c.Alike c') (value : String) (range : TextRange) :
    surrogatesAfterLiteral c' value range = surrogatesAfterLiteral c value range := by
  obtain ⟨o, rfl⟩ := alike
  rfl

theorem flag_parts (alike : c.Alike c') (parts : List StringLiteral) :
    surrogatesAfterParts c' parts = surrogatesAfterParts c parts := by
  induction parts with
  | nil => rfl
  | cons part parts ih => simp only [surrogatesAfterParts, ih, flag_literal alike]

mutual

theorem flag_expr (alike : c.Alike c') : ∀ e : Expr, surrogatesAfter c' e = surrogatesAfter c e
  | .name _ _ | .numberLiteral _ _ | .booleanLiteral _ _ | .noneLiteral _ | .ellipsisLiteral _
  | .bytesLiteral _ _ | .ipyEscapeCommand _ => rfl
  | .attribute value _ _ | .unaryOp _ value _ | .yieldFrom value _ | .starred value _
  | .await value _ => by simp only [surrogatesAfter, flag_expr alike value]
  | .binOp left _ right _ | .subscript left right _ | .named left right _ => by
    simp only [surrogatesAfter, flag_expr alike left, flag_expr alike right]
  | .call func args keywords _ => by
    simp only [surrogatesAfter, flag_expr alike func, flag_callArgs alike args,
      flag_keywords alike keywords]
  | .list elts _ _ | .tuple elts _ _ | .set elts _ | .boolOp _ elts _ => by
    simp only [surrogatesAfter, flag_exprs alike elts]
  | .generator elt generators _ | .listComp elt generators _ | .setComp elt generators _ => by
    simp only [surrogatesAfter, flag_expr alike elt, flag_targets alike generators,
      flag_iters alike generators, flag_conds alike generators]
  | .dictComp key value generators _ => by
    simp only [surrogatesAfter, flag_optExpr alike key, flag_expr alike value,
      flag_targets alike generators, flag_iters alike generators, flag_conds alike generators]
  | .yield value _ => by simp only [surrogatesAfter, flag_optExpr alike value]
  | .compare left _ comparators _ => by
    simp only [surrogatesAfter, flag_expr alike left, flag_exprs alike comparators]
  | .ifExp test body orelse _ => by
    simp only [surrogatesAfter, flag_expr alike test, flag_expr alike body,
      flag_expr alike orelse]
  | .dict items _ => by simp only [surrogatesAfter, flag_keys alike items, flag_values alike items]
  | .slice lower upper step _ => by
    simp only [surrogatesAfter, flag_optExpr alike lower, flag_optExpr alike upper,
      flag_optExpr alike step]
  | .stringLiteral value _ => by simp only [surrogatesAfter, flag_parts alike]
  | .fString value _ => by simp only [surrogatesAfter, flag_fStringParts alike value]
  | .tString elements _ => by simp only [surrogatesAfter, flag_tStringElements alike elements]
  | .lambda (some (.mk posonlyargs args _ kwonlyargs _)) body _ => by
    simp only [surrogatesAfter, surrogatesAfterParameters, flag_defaults alike posonlyargs,
      flag_defaults alike args, flag_defaults alike kwonlyargs, flag_expr alike body]
  | .lambda none body _ => by simp only [surrogatesAfter, flag_expr alike body]

theorem flag_exprs (alike : c.Alike c') : ∀ es : List Expr,
    surrogatesAfterExprs c' es = surrogatesAfterExprs c es
  | [] => rfl
  | e :: es => by simp only [surrogatesAfterExprs, flag_expr alike e, flag_exprs alike es]

theorem flag_optExpr (alike : c.Alike c') : ∀ e : Option Expr,
    surrogatesAfterOpt c' e = surrogatesAfterOpt c e
  | none => rfl
  | some e => flag_expr alike e

theorem flag_callArgs (alike : c.Alike c') : ∀ args : List Expr,
    surrogatesAfterCallArgs c' args = surrogatesAfterCallArgs c args
  | [] => rfl
  | arg :: args => by
    rw [surrogatesAfterCallArgs_cons, surrogatesAfterCallArgs_cons, surrogatesAfter_unstarred,
      surrogatesAfter_unstarred, flag_expr alike arg, flag_callArgs alike args]

theorem flag_keywords (alike : c.Alike c') : ∀ keywords : List Keyword,
    surrogatesAfterKeywords c' keywords = surrogatesAfterKeywords c keywords
  | [] => rfl
  | .mk _ value :: keywords => by
    simp only [surrogatesAfterKeywords, flag_expr alike value, flag_keywords alike keywords]

theorem flag_targets (alike : c.Alike c') : ∀ generators : List Comprehension,
    surrogatesAfterTargets c' generators = surrogatesAfterTargets c generators
  | [] => rfl
  | .mk target _ _ _ :: generators => by
    simp only [surrogatesAfterTargets, flag_expr alike target, flag_targets alike generators]

theorem flag_iters (alike : c.Alike c') : ∀ generators : List Comprehension,
    surrogatesAfterIters c' generators = surrogatesAfterIters c generators
  | [] => rfl
  | .mk _ iter _ _ :: generators => by
    simp only [surrogatesAfterIters, flag_expr alike iter, flag_iters alike generators]

theorem flag_conds (alike : c.Alike c') : ∀ generators : List Comprehension,
    surrogatesAfterConds c' generators = surrogatesAfterConds c generators
  | [] => rfl
  | .mk _ _ ifs _ :: generators => by
    simp only [surrogatesAfterConds, flag_exprs alike ifs, flag_conds alike generators]

theorem flag_keys (alike : c.Alike c') : ∀ items : List DictItem,
    surrogatesAfterKeys c' items = surrogatesAfterKeys c items
  | [] => rfl
  | .mk key _ :: items => by
    simp only [surrogatesAfterKeys, flag_optExpr alike key, flag_keys alike items]

theorem flag_values (alike : c.Alike c') : ∀ items : List DictItem,
    surrogatesAfterValues c' items = surrogatesAfterValues c items
  | [] => rfl
  | .mk _ value :: items => by
    simp only [surrogatesAfterValues, flag_expr alike value, flag_values alike items]

theorem flag_defaults (alike : c.Alike c') : ∀ parameters : List ParameterWithDefault,
    surrogatesAfterDefaults c' parameters = surrogatesAfterDefaults c parameters
  | [] => rfl
  | .mk _ default _ :: parameters => by
    simp only [surrogatesAfterDefaults, flag_optExpr alike default, flag_defaults alike parameters]

theorem flag_fStringParts (alike : c.Alike c') : ∀ parts : List FStringPart,
    surrogatesAfterFStringParts c' parts = surrogatesAfterFStringParts c parts
  | [] => rfl
  | .fString elements :: parts => by
    simp only [surrogatesAfterFStringParts, flag_elements alike elements,
      flag_fStringParts alike parts]
  | .literal lit :: parts => by
    simp only [surrogatesAfterFStringParts, flag_literal alike, flag_fStringParts alike parts]

theorem flag_elements (alike : c.Alike c') : ∀ elements : List InterpolatedStringElement,
    surrogatesAfterElements c' elements = surrogatesAfterElements c elements
  | [] => rfl
  | .literal _ _ :: elements => by
    simp only [surrogatesAfterElements, flag_literal alike, flag_elements alike elements]
  | .interpolation expression _ _ formatSpec :: elements => by
    simp only [surrogatesAfterElements, flag_expr alike expression,
      flag_formatSpec alike formatSpec, flag_elements alike elements]

theorem flag_formatSpec (alike : c.Alike c') : ∀ formatSpec : Option FormatSpec,
    surrogatesAfterFormatSpec c' formatSpec = surrogatesAfterFormatSpec c formatSpec
  | none => rfl
  | some (.mk elements _) => flag_elements alike elements

theorem flag_tStringElements (alike : c.Alike c') : ∀ elements : List InterpolatedStringElement,
    surrogatesAfterTStringElements c' elements = surrogatesAfterTStringElements c elements
  | [] => rfl
  | .literal _ _ :: elements => by
    simp only [surrogatesAfterTStringElements, flag_literal alike,
      flag_tStringElements alike elements]
  | .interpolation expression _ _ formatSpec :: elements => by
    simp only [surrogatesAfterTStringElements, flag_expr alike expression,
      flag_formatSpec alike formatSpec, flag_tStringElements alike elements]

end

theorem flag_parameters (alike : c.Alike c') (parameters : Parameters) :
    surrogatesAfterParameters c' parameters = surrogatesAfterParameters c parameters := by
  obtain ⟨posonlyargs, args, vararg, kwonlyargs, kwarg⟩ := parameters
  simp only [surrogatesAfterParameters, flag_defaults alike posonlyargs, flag_defaults alike args,
    flag_defaults alike kwonlyargs]

mutual

theorem flag_pattern (alike : c.Alike c') : ∀ p : Pattern,
    surrogatesAfterPattern c' p = surrogatesAfterPattern c p
  | .matchSingleton _ _ | .matchStar _ _ => rfl
  | .matchAs pattern _ _ => flag_optPattern alike pattern
  | .matchOr patterns _ | .matchSequence patterns _ => flag_patterns alike patterns
  | .matchValue value _ => flag_expr alike value
  | .matchMapping items _ _ => flag_items alike items
  | .matchClass cls patterns keywords _ => by
    simp only [surrogatesAfterPattern, flag_expr alike cls, flag_patterns alike patterns,
      flag_keywordPatterns alike keywords]

theorem flag_optPattern (alike : c.Alike c') : ∀ p : Option Pattern,
    surrogatesAfterOptPattern c' p = surrogatesAfterOptPattern c p
  | none => rfl
  | some pattern => flag_pattern alike pattern

theorem flag_patterns (alike : c.Alike c') : ∀ patterns : List Pattern,
    surrogatesAfterPatterns c' patterns = surrogatesAfterPatterns c patterns
  | [] => rfl
  | pattern :: patterns => by
    simp only [surrogatesAfterPatterns, flag_pattern alike pattern, flag_patterns alike patterns]

theorem flag_items (alike : c.Alike c') : ∀ items : List (Expr × Pattern),
    surrogatesAfterItems c' items = surrogatesAfterItems c items
  | [] => rfl
  | (key, pattern) :: items => by
    simp only [surrogatesAfterItems, flag_expr alike key, flag_pattern alike pattern,
      flag_items alike items]

theorem flag_keywordPatterns (alike : c.Alike c') : ∀ keywords : List (Identifier × Pattern),
    surrogatesAfterKeywordPatterns c' keywords = surrogatesAfterKeywordPatterns c keywords
  | [] => rfl
  | (_, pattern) :: keywords => by
    simp only [surrogatesAfterKeywordPatterns, flag_pattern alike pattern,
      flag_keywordPatterns alike keywords]

end

end Surrogates

section Comments

variable {c c' : Config}

theorem scanTokens_alike (alike : c.Alike c') : ∀ tokens : List Token,
    scanTokens c' tokens = scanTokens c tokens
  | [] | [_] => rfl
  | token :: next :: tokens => by
    simp only [scanTokens, scanTokens_alike alike (next :: tokens)]
    obtain ⟨o, rfl⟩ := alike
    rfl

theorem addParameterComments_alike (alike : c.Alike c') (starts : List Nat)
    (argTypes : List (Option Expr)) :
    addParameterComments c' starts argTypes = addParameterComments c starts argTypes := by
  induction starts generalizing argTypes with
  | nil => rfl
  | cons start starts ih =>
    cases argTypes with
    | nil => rfl
    | cons argType argTypes =>
      simp only [addParameterComments, ih]
      obtain ⟨o, rfl⟩ := alike
      rfl

theorem findFuncTypeComment_alike (alike : c.Alike c') (inClass : Bool) (parameters : Parameters)
    (body : List Stmt) :
    findFuncTypeComment c' inClass parameters body
      = findFuncTypeComment c inClass parameters body := by
  unfold findFuncTypeComment
  simp only [scanTokens_alike alike, addParameterComments_alike alike]
  obtain ⟨o, rfl⟩ := alike
  rfl

theorem funcComment_alike (alike : c.Alike c') (scope : Scope) (head : FunctionHead)
    (body : List Stmt) :
    funcComment c' scope head body = funcComment c scope head body := by
  simp only [funcComment, findFuncTypeComment_alike alike]

end Comments

section Supported

variable {c c' : Config} (skip : Bool)

theorem supportsExpr_alike (alike : c.Alike c') (e : Expr) :
    supportsExpr c' e = supportsExpr c e := by
  simp only [supportsExpr, flag_expr alike]

theorem supportsExprs_alike (alike : c.Alike c') (es : List Expr) :
    supportsExprs c' es = supportsExprs c es := by
  simp only [supportsExprs, flag_exprs alike]

theorem supportsOptExpr_alike (alike : c.Alike c') (e : Option Expr) :
    supportsOptExpr c' e = supportsOptExpr c e := by
  simp only [supportsOptExpr, flag_optExpr alike]

theorem supportsKeywords_alike (alike : c.Alike c') (keywords : List Keyword) :
    supportsKeywords c' keywords = supportsKeywords c keywords := by
  induction keywords with
  | nil => rfl
  | cons keyword keywords ih =>
    obtain ⟨arg, value⟩ := keyword
    cases arg with
    | none => exact ih
    | some arg => simp only [supportsKeywords, supportsExpr_alike alike, ih]

theorem supportsWithItems_alike (alike : c.Alike c') (items : List WithItem) :
    supportsWithItems c' items = supportsWithItems c items := by
  induction items with
  | nil => rfl
  | cons item items ih =>
    simp only [supportsWithItems, supportsExpr_alike alike, supportsOptExpr_alike alike, ih]

theorem supportsHandlerTypes_alike (alike : c.Alike c') (handlers : List ExceptHandler) :
    supportsHandlerTypes c' handlers = supportsHandlerTypes c handlers := by
  induction handlers with
  | nil => rfl
  | cons handler handlers ih =>
    obtain ⟨type, name, body, range⟩ := handler
    simp only [supportsHandlerTypes, supportsOptExpr_alike alike, ih]

mutual

theorem supportsStmt_alike (alike : c.Alike c') : ∀ (stmt : Stmt) (inClass : Bool),
    supportsStmt c' skip inClass stmt = supportsStmt c skip inClass stmt
  | .functionDef head body, inClass => by
    simp only [supportsStmt, findFuncTypeComment_alike alike, supportsExprs_alike alike,
      supportsParameters, flag_parameters alike, supportsStmts_alike alike body inClass]
  | .classDef head body, _ => by
    simp only [supportsStmt, supportsStmts_alike alike body true, supportsExprs_alike alike,
      supportsKeywords_alike alike]
  | .expr value _, _ => by simp only [supportsStmt, supportsExpr_alike alike]
  | .assign targets value _, _ => by
    simp only [supportsStmt, supportsExprs_alike alike, supportsExpr_alike alike]
  | .annAssign target _ value _, _ => by
    simp only [supportsStmt, supportsExpr_alike alike, supportsOptExpr_alike alike]
  | .augAssign target _ value _, _ => by simp only [supportsStmt, supportsExpr_alike alike]
  | .return value _, _ => by simp only [supportsStmt, supportsOptExpr_alike alike]
  | .raise exc cause _, _ => by simp only [supportsStmt, supportsOptExpr_alike alike]
  | .assert test msg _, _ => by
    simp only [supportsStmt, supportsExpr_alike alike, supportsOptExpr_alike alike]
  | .if test body clauses _, inClass => by
    simp only [supportsStmt, supportsExpr_alike alike, supportsStmts_alike alike body inClass,
      supportsClauses_alike alike clauses inClass]
  | .while test body orelse _, inClass => by
    simp only [supportsStmt, supportsExpr_alike alike, supportsStmts_alike alike body inClass,
      supportsStmts_alike alike orelse inClass]
  | .for _ target iter body orelse _, inClass => by
    simp only [supportsStmt, supportsExpr_alike alike, supportsStmts_alike alike body inClass,
      supportsStmts_alike alike orelse inClass]
  | .with _ items body _, inClass => by
    simp only [supportsStmt, supportsWithItems_alike alike, supportsStmts_alike alike body inClass]
  | .try body handlers orelse finalbody _ _, inClass => by
    simp only [supportsStmt, supportsHandlerTypes_alike alike,
      supportsStmts_alike alike body inClass, supportsHandlers_alike alike handlers inClass,
      supportsStmts_alike alike orelse inClass, supportsStmts_alike alike finalbody inClass]
  | .delete targets _, _ => by simp only [supportsStmt, supportsExprs_alike alike]
  | .match subject cases _, inClass => by
    simp only [supportsStmt, supportsExpr_alike alike, supportsCases_alike alike cases inClass]
  | .typeAlias name _ value _, _ => by simp only [supportsStmt, supportsExpr_alike alike]
  | .import .., _ | .importFrom .., _ | .global .., _ | .nonlocal .., _ | .pass .., _
  | .break .., _ | .continue .., _ | .ipyEscapeCommand .., _ => rfl

theorem supportsStmts_alike (alike : c.Alike c') : ∀ (stmts : List Stmt) (inClass : Bool),
    supportsStmts c' skip inClass stmts = supportsStmts c skip inClass stmts
  | [], _ => rfl
  | stmt :: stmts, inClass => by
    simp only [supportsStmts, supportsStmt_alike alike stmt inClass,
      supportsStmts_alike alike stmts inClass]

theorem supportsClauses_alike (alike : c.Alike c') :
    ∀ (clauses : ElifElseClauses) (inClass : Bool),
      supportsClauses c' skip inClass clauses = supportsClauses c skip inClass clauses
  | .nil, _ => rfl
  | .elif test body _ rest, inClass => by
    simp only [supportsClauses, supportsExpr_alike alike, supportsStmts_alike alike body inClass,
      supportsClauses_alike alike rest inClass]
  | .else body _, inClass => supportsStmts_alike alike body inClass

theorem supportsHandlers_alike (alike : c.Alike c') :
    ∀ (handlers : List ExceptHandler) (inClass : Bool),
      supportsHandlers c' skip inClass handlers = supportsHandlers c skip inClass handlers
  | [], _ => rfl
  | .mk _ _ body _ :: handlers, inClass => by
    simp only [supportsHandlers, supportsStmts_alike alike body inClass,
      supportsHandlers_alike alike handlers inClass]

theorem supportsCases_alike (alike : c.Alike c') : ∀ (cases : List MatchCase) (inClass : Bool),
    supportsCases c' skip inClass cases = supportsCases c skip inClass cases
  | [], _ => rfl
  | .mk pattern guard body _ :: cases, inClass => by
    simp only [supportsCases, supportsPattern, flag_pattern alike, supportsOptExpr_alike alike,
      supportsStmts_alike alike body inClass, supportsCases_alike alike cases inClass]

end

end Supported

end AstSerialize
