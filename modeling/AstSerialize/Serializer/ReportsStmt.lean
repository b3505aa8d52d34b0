import AstSerialize.Serializer.Module
import AstSerialize.Serializer.ReportsExpr

/-! What statements are reported for: the expressions in them, type comments that
do not fit, and exception types that lack parentheses. -/
namespace AstSerialize
open Coding

section PatternNotes

variable (c : Config)

mutual

def patternNotes : Pattern → Notes
  | .matchAs pattern _ _ => optPatternNotes pattern
  | .matchOr patterns _ | .matchSequence patterns _ => patternsNotes patterns
  | .matchValue value _ => exprNotes c value
  | .matchSingleton _ _ | .matchStar _ _ => 0
  | .matchMapping items _ _ => itemsNotes items
  | .matchClass cls patterns keywords _ =>
    exprNotes c cls + (patternsNotes patterns + keywordPatternsNotes keywords)

def optPatternNotes : Option Pattern → Notes
  | none => 0
  | some pattern => patternNotes pattern

def patternsNotes : List Pattern → Notes
  | [] => 0
  | pattern :: patterns => patternNotes pattern + patternsNotes patterns

def itemsNotes : List (Expr × Pattern) → Notes
  | [] => 0
  | (key, pattern) :: items => exprNotes c key + (patternNotes pattern + itemsNotes items)

def keywordPatternsNotes : List (Identifier × Pattern) → Notes
  | [] => 0
  | (_, pattern) :: keywords => patternNotes pattern + keywordPatternsNotes keywords

end

end PatternNotes

section StmtNotes

variable (c : Config) (skip : Bool)

/-- The errors of a function that its comments lead to. -/
def commentNotes (range : TextRange) : List String → Notes
  | [] => 0
  | error :: errors => errorNote c error range false + commentNotes range errors

def returnsNotes (head : FunctionHead) (retComment : Option Expr) : Notes :=
  if head.returns.isSome && retComment.isSome then
    errorNote c "Function has duplicate type signatures" head.range false
  else 0

/-- Where the serializer panics there are no comments. -/
def functionNotes (inClass : Bool) (head : FunctionHead) (body : List Stmt) (inside : Notes) :
    Notes :=
  let comment := (findFuncTypeComment c inClass head.parameters body).getD
    ⟨List.replicate head.parameters.len none, none, []⟩
  commentNotes c head.range comment.errors
    + (exprsNotes c (head.decoratorList.map (·.expression))
    + (parametersNotes c comment.argTypes head.parameters
    + ((if omitsBody skip inClass head body then 0 else inside)
    + returnsNotes c head comment.retType)))

def assignNotes (range : TextRange) : Notes :=
  match c.assignComment range with
  | some (.invalid error) => errorNote c error range false
  | _ => 0

def withItemsNotes : List WithItem → Notes
  | [] => 0
  | item :: items =>
    exprNotes c item.contextExpr + (optExprNotes c item.optionalVars + withItemsNotes items)

def handlerNotes (type : Option Expr) (name : Option Identifier) : Notes :=
  match needsParentheses c.options type name with
  | some range => errorNote c "multiple exception types must be parenthesized" range false
  | none => 0

def handlerTypesNotes : List ExceptHandler → Notes
  | [] => 0
  | .mk type name _ _ :: handlers =>
    optExprNotes c type + (handlerNotes c type name + handlerTypesNotes handlers)

mutual

/-- What a statement is reported for, in the order in which its parts are written. -/
def stmtNotes (inClass : Bool) : Stmt → Notes
  | .functionDef head body => functionNotes c skip inClass head body (stmtsNotes inClass body)
  | .classDef head body =>
    stmtsNotes true body + (exprsNotes c head.bases
      + (exprsNotes c (head.decoratorList.map (·.expression))
      + keywordsNotes c head.namedKeywords))
  | .expr value _ => exprNotes c value
  | .assign targets value range =>
    exprsNotes c targets + (exprNotes c value + assignNotes c range)
  | .annAssign target _ value _ => exprNotes c target + optExprNotes c value
  | .augAssign target _ value _ => exprNotes c target + exprNotes c value
  | .return value _ => optExprNotes c value
  | .raise exc cause _ => optExprNotes c exc + optExprNotes c cause
  | .assert test msg _ => exprNotes c test + optExprNotes c msg
  | .if test body clauses _ =>
    exprNotes c test + (stmtsNotes inClass body + clausesNotes inClass clauses)
  | .while test body orelse _ =>
    exprNotes c test + (stmtsNotes inClass body + stmtsNotes inClass orelse)
  | .for _ target iter body orelse _ =>
    exprNotes c target + (exprNotes c iter
      + (stmtsNotes inClass body + stmtsNotes inClass orelse))
  | .with _ items body _ => withItemsNotes c items + stmtsNotes inClass body
  | .try body handlers orelse finalbody _ _ =>
    stmtsNotes inClass body + (handlerTypesNotes c handlers + (handlersNotes inClass handlers
      + (stmtsNotes inClass orelse + stmtsNotes inClass finalbody)))
  | .delete targets _ => exprsNotes c targets
  | .match subject cases _ => exprNotes c subject + casesNotes inClass cases
  | .typeAlias name _ value _ => exprNotes c name + exprNotes c value
  | .import .. | .importFrom .. | .pass .. | .break .. | .continue .. | .global .. | .nonlocal ..
  | .ipyEscapeCommand .. => 0

def stmtsNotes (inClass : Bool) : List Stmt → Notes
  | [] => 0
  | stmt :: stmts => stmtNotes inClass stmt + stmtsNotes inClass stmts

def clausesNotes (inClass : Bool) : ElifElseClauses → Notes
  | .nil => 0
  | .elif test body _ rest =>
    exprNotes c test + (stmtsNotes inClass body + clausesNotes inClass rest)
  | .else body _ => stmtsNotes inClass body

def handlersNotes (inClass : Bool) : List ExceptHandler → Notes
  | [] => 0
  | .mk _ _ body _ :: handlers => stmtsNotes inClass body + handlersNotes inClass handlers

def casesNotes (inClass : Bool) : List MatchCase → Notes
  | [] => 0
  | .mk pattern guard body _ :: cases =>
    patternNotes c pattern + (optExprNotes c guard
      + (stmtsNotes inClass body + casesNotes inClass cases))

end

def moduleNotes (inClass : Bool) (stmts : List Stmt) : Notes :=
  stmtsNotes c skip inClass (splitModule c.options stmts).1

end StmtNotes

section Patterns

variable {inClass : Bool} {c : Config}

theorem silent_capture (name : Option Identifier) : Reports inClass (writeCapture c name) 0 := by
  cases name with
  | none => exact silent_bool _
  | some name =>
    exact .pass (silent_bool _) <| .pass (silent_bytes _) (silent_location c name.range)

theorem silent_singleton (value : Singleton) : Reports inClass (writeSingleton value) 0 := by
  cases value with
  | none => exact silent_tag _
  | «true» => exact silent_bool _
  | «false» => exact silent_bool _

mutual

theorem reports_pattern : ∀ pattern : Pattern,
    Reports inClass (serializePattern c pattern) (patternNotes c pattern)
  | .matchAs pattern name range =>
    .pass (silent_tag _) <| .close (reports_optPattern pattern) <|
      .pass (silent_capture name) (silent_close c range)
  | .matchOr patterns range | .matchSequence patterns range =>
    .pass (silent_tag _) <| .pass (silent_taggedInt _) <| .close (reports_patterns patterns)
      (silent_close c range)
  | .matchValue value range =>
    .pass (silent_tag _) <| .close (reports_expr value) (silent_close c range)
  | .matchSingleton value range =>
    .pass (silent_tag _) <| .pass (silent_singleton value) (silent_close c range)
  | .matchStar name range =>
    .pass (silent_tag _) <| .pass (silent_capture name) (silent_close c range)
  | .matchMapping items rest range =>
    .pass (silent_tag _) <| .pass (silent_taggedInt _) <| .close (reports_mappingItems items) <|
      .pass (silent_capture rest) (silent_close c range)
  | .matchClass cls patterns keywords range =>
    .pass (silent_tag _) <| .bind (reports_expr cls) <|
      .pass (silent_taggedInt _) <| .bind (reports_patterns patterns) <|
      .pass (silent_taggedInt _) <| .close (reports_keywordPatterns keywords)
      (silent_close c range)

theorem reports_optPattern : ∀ pattern : Option Pattern,
    Reports inClass (serializeOptPattern c pattern) (optPatternNotes c pattern)
  | none => silent_bool false
  | some pattern => .pass (silent_bool true) (reports_pattern pattern)

theorem reports_patterns : ∀ patterns : List Pattern,
    Reports inClass (serializePatterns c patterns) (patternsNotes c patterns)
  | [] => .pure
  | pattern :: patterns => .bind (reports_pattern pattern) (reports_patterns patterns)

theorem reports_mappingItems : ∀ items : List (Expr × Pattern),
    Reports inClass (serializeMappingItems c items) (itemsNotes c items)
  | [] => .pure
  | (key, pattern) :: items =>
    .bind (reports_expr key) <| .bind (reports_pattern pattern) <|
      reports_mappingItems items

theorem reports_keywordPatterns : ∀ keywords : List (Identifier × Pattern),
    Reports inClass (serializeKeywordPatterns c keywords) (keywordPatternsNotes c keywords)
  | [] => .pure
  | (_, pattern) :: keywords =>
    .pass (silent_bytes _) <| .bind (reports_pattern pattern) <|
      reports_keywordPatterns keywords

end

end Patterns

section Scopes

variable {inClass : Bool} {m : SerM Unit} {n : Notes}

theorem reports_withinFunction (h : Reports inClass m n) : Reports inClass (withinFunction m) n :=
  .read fun _ _ =>
    .pass (silent_modify (fun _ here => here) fun _ => rfl) <|
      .close h (silent_modify (fun _ here => here) fun _ => rfl)

theorem reports_withinClass (h : Reports true m n) : Reports inClass (withinClass m) n :=
  .read fun _ was =>
    .pass (silent_modify (fun _ _ => rfl) fun _ => rfl) <|
      .close h (silent_modify (fun _ _ => was) fun _ => rfl)

theorem reports_withBranchFlags (flags : BranchFlags) (h : Reports inClass m n) :
    Reports inClass (withBranchFlags flags m) n :=
  .read fun _ _ =>
    .pass (silent_modify (fun _ here => here) fun _ => rfl) <|
      .close h (silent_modify (fun _ here => here) fun _ => rfl)

end Scopes

section Blocks

variable {inClass : Bool} {c : Config} {items : SerM Unit}

theorem silent_skipLines (start stop : TextRange) :
    Reports inClass (skipLines c start stop) 0 := by
  unfold skipLines
  exact silent_modify (fun _ here => here) fun _ => rfl

theorem silent_skipBlock (unreachable : Bool) (block : List Stmt) :
    Reports inClass (skipBlock c unreachable block) 0 := by
  cases block with
  | nil => exact .pure
  | cons first rest =>
    simp only [skipBlock]
    split
    · exact silent_skipLines _ _
    · exact .pure

theorem silent_fallback (block : List Stmt) (fallback : Option TextRange) :
    Reports inClass (writeFallback c block fallback) 0 := by
  unfold writeFallback
  split
  · exact silent_location c _
  · exact .pure

theorem reports_serializeBlock {n : Notes} (block : List Stmt) (fallback : Option TextRange)
    (h : Reports inClass items n) :
    Reports inClass (serializeBlock c block fallback items) n := by
  unfold serializeBlock
  refine .pass (silent_tag _) <| .pass (silent_tag _) <| .pass (silent_count _) ?_
  refine .read fun _ _ => .pass (silent_bool _) ?_
  refine .pass (silent_skipBlock _ block) <| .pass (silent_fallback block fallback) ?_
  exact .close h silent_end

theorem silent_emptyBlock (range : TextRange) : Reports inClass (serializeEmptyBlock c range) 0 :=
  .pass (silent_tag _) <| .pass (silent_tag _) <| .pass (silent_int _) <| .read fun _ _ =>
    .pass (silent_bool _) (silent_close c range)

theorem reports_optBlock {n : Notes} (block : List Stmt) (range : TextRange)
    (h : Reports inClass items n) (empty : block = [] → n = 0) :
    Reports inClass (serializeOptBlock c block range items) n := by
  unfold serializeOptBlock
  cases block with
  | nil => exact .congr (silent_bool false) (empty rfl).symm
  | cons first rest =>
    exact .pass (silent_bool true) (reports_serializeBlock (first :: rest) (some range) h)

end Blocks

section Definitions

variable {inClass : Bool} {c : Config}

theorem silent_optType (type : Option Expr) : Reports inClass (serializeOptType c type) 0 := by
  cases type with
  | none => exact silent_bool _
  | some type => exact .pass (silent_bool _) (silent_type type)

theorem silent_typeParam (kind : Int) (name : Identifier) (bound : Option Expr)
    (values : List Expr) (default : Option Expr) :
    Reports inClass (serializeTypeParam c kind name bound values default) 0 :=
  .pass (silent_taggedInt _) <| .pass (silent_bytes _) <| .pass (silent_optType bound) <|
    .pass (silent_tag _) <| .pass (silent_int _) <|
    .pass (silent_types (fun value => silent_stringTypeWithin _ value) values)
    (silent_optType default)

theorem silent_typeParams (params : List TypeParam) :
    Reports inClass (serializeTypeParams c params) 0 := by
  induction params with
  | nil => exact .pure
  | cons param params ih =>
    cases param with
    | typeVar name bound default => exact .pass (silent_typeParam _ _ _ _ _) ih
    | paramSpec name default => exact .pass (silent_typeParam _ _ _ _ _) ih
    | typeVarTuple name default => exact .pass (silent_typeParam _ _ _ _ _) ih

theorem silent_optTypeParams (params : Option (List TypeParam)) :
    Reports inClass (serializeOptTypeParams c params) 0 := by
  cases params with
  | none => exact silent_bool _
  | some params => exact .pass (silent_bool _) <| .pass (silent_int _) (silent_typeParams params)

theorem silent_locationOf (loc : Location) : Reports inClass (writeLocationOf loc) 0 :=
  .pass (silent_tag _) <| .pass (silent_int _) <| .pass (silent_int _) <| .pass (silent_int _)
    (silent_int _)

theorem reports_errors (range : TextRange) (errors : List String) :
    Reports inClass (reportErrors c range errors) (commentNotes c range errors) := by
  induction errors with
  | nil => exact .pure
  | cons error errors ih => exact .bind (reports_error c error range false) ih

theorem reports_decorators (decorators : List Decorator) :
    Reports inClass (serializeDecorators c decorators)
      (exprsNotes c (decorators.map (·.expression))) := by
  cases decorators with
  | nil => exact .pure
  | cons first rest =>
    exact .pass (silent_tag _) <| .pass (silent_tag _) <| .pass (silent_count _) <|
      .close (reports_exprs _) <| .pass (silent_taggedInt _) (silent_taggedInt _)

theorem silent_getattr (head : FunctionHead) : Reports inClass (noteGetattr head) 0 := by
  refine .read fun _ _ => ?_
  dsimp only
  split
  · exact silent_modify (fun _ here => here) fun _ => rfl
  · exact .pure

theorem reports_returns (head : FunctionHead) (retComment : Option Expr) :
    Reports inClass (serializeReturns c head retComment) (returnsNotes c head retComment) := by
  unfold serializeReturns returnsNotes
  cases head.returns with
  | none =>
    cases retComment with
    | none => exact silent_bool _
    | some comment => exact .pass (silent_bool _) (reports_unevaluated (silent_type _))
  | some ret =>
    cases retComment with
    | none => exact .pass (silent_bool _) (silent_type ret)
    | some comment =>
      exact .close (reports_error c _ _ false) <| .pass (silent_bool _) (silent_type ret)

theorem silent_commentFlag (comment : FuncComment) :
    Reports inClass (writeTypeCommentFlag c comment) 0 := by
  unfold writeTypeCommentFlag
  split
  · exact silent_bool _
  · exact .pure

theorem silent_closeFunction (head : FunctionHead) :
    Reports inClass (closeFunction c head) 0 := by
  unfold closeFunction
  cases head.decoratorList with
  | nil => exact silent_close c head.range
  | cons first rest => exact .pass (silent_locationOf _) <| .pass silent_end silent_end

theorem reports_functionDef {n : Notes} (skip : Bool) (head : FunctionHead) (body : List Stmt)
    {items : SerM Unit} (inside : Reports inClass items n) :
    Reports inClass (serializeFunctionDef c skip head body items)
      (functionNotes c skip inClass head body n) := by
  refine .read fun s here => ?_
  rw [here, functionNotes]
  cases findFuncTypeComment c inClass head.parameters body with
  | none => exact silent_panic
  | some comment =>
    have block : Reports inClass
        (if omitsBody skip inClass head body then serializeEmptyBlock c (bodyRange head body)
          else serializeBlock c body (some head.range) items)
        (if omitsBody skip inClass head body then 0 else n) := by
      split
      · exact silent_emptyBlock _
      · exact reports_serializeBlock body (some head.range) inside
    refine .bind (reports_errors head.range comment.errors) ?_
    refine .bind (reports_decorators head.decoratorList) ?_
    refine .pass (silent_tag _) <| .pass (silent_bytes _) ?_
    refine .bind (reports_parameters comment.argTypes head.parameters) ?_
    refine .pass (silent_getattr head) <| .bind (reports_withinFunction block) ?_
    refine .pass (silent_bool _) <| .pass (silent_optTypeParams head.typeParams) ?_
    refine .close (reports_returns head comment.retType) ?_
    exact .pass (silent_commentFlag comment) (silent_closeFunction head)

theorem reports_classKeywords {keywords : List Keyword}
    (named : ∀ keyword ∈ keywords, keyword.arg.isSome = true) :
    Reports inClass (serializeClassKeywords c keywords) (keywordsNotes c keywords) := by
  induction keywords with
  | nil => exact .pure
  | cons keyword keywords ih =>
    obtain ⟨arg, value⟩ := keyword
    have rest := ih fun keyword mem => named keyword (List.mem_cons_of_mem _ mem)
    cases arg with
    | none => cases named _ List.mem_cons_self
    | some arg => exact .pass (silent_bytes _) <| .bind (reports_expr value) rest

theorem silent_classLocation (head : ClassHead) :
    Reports inClass (writeClassLocation c head) 0 := by
  unfold writeClassLocation
  cases head.decoratorList.getLast? with
  | none => exact silent_location c head.range
  | some last => exact silent_locationOf _

theorem reports_classDef {n : Notes} (head : ClassHead) (body : List Stmt) {items : SerM Unit}
    (inside : Reports true items n) :
    Reports inClass (serializeClassDef c head body items)
      (n + (exprsNotes c head.bases
        + (exprsNotes c (head.decoratorList.map (·.expression))
        + keywordsNotes c head.namedKeywords))) := by
  unfold serializeClassDef
  have block : Reports true (serializeBlock c body (some head.range) items) n :=
    reports_serializeBlock body (some head.range) inside
  have keywords : Reports inClass (serializeClassKeywords c head.namedKeywords)
      (keywordsNotes c head.namedKeywords) := reports_classKeywords (namedKeywords_named head)
  refine .pass (silent_tag _) <| .pass (silent_bytes _) <| .bind (reports_withinClass block) ?_
  refine .pass (silent_tag _) <| .pass (silent_int _) <| .bind (reports_exprs head.bases) ?_
  refine .pass (silent_tag _) <| .pass (silent_int _) <| .bind (reports_exprs _) ?_
  refine .pass (silent_optTypeParams head.typeParams) ?_
  refine .pass (silent_tag _) <| .pass (silent_int _) <| .close keywords ?_
  exact .pass (silent_classLocation head) silent_end

end Definitions

section Simple

variable {inClass : Bool} {c : Config}

theorem silent_pushImports (entries : List ImportStatement) :
    Reports inClass (pushImports entries) 0 :=
  silent_modify (fun _ here => here) fun _ => rfl

theorem silent_alias (name : Alias) : Reports inClass (writeAlias name) 0 :=
  .pass (silent_bytes _) (silent_optBytes _)

theorem silent_importNames (flags : UInt8) (names : List Alias) :
    Reports inClass (serializeImportNames flags names) 0 := by
  induction names with
  | nil => exact .pure
  | cons name names ih =>
    exact .pass (silent_alias name) <| .pass (silent_pushImports _) ih

theorem silent_aliases (names : List Alias) : Reports inClass (writeAliases names) 0 := by
  induction names with
  | nil => exact .pure
  | cons name names ih => exact .pass (silent_alias name) ih

theorem silent_importFlags (flags : UInt8) : Reports inClass (writeImportFlags c flags) 0 := by
  unfold writeImportFlags
  split
  · exact silent_taggedInt _
  · exact .pure

theorem silent_import (names : List Alias) (isLazy : Bool) (range : TextRange) :
    Reports inClass (serializeImport c names isLazy range) 0 :=
  .read fun _ _ =>
    .pass (silent_tag _) <| .pass (silent_taggedInt _) <| .pass (silent_importNames _ names) <|
    .pass (silent_location c range) <| .pass (silent_importFlags _) silent_end

theorem silent_importFrom (module : Option Identifier) (names : List Alias) (level : UInt32)
    (isLazy : Bool) (range : TextRange) :
    Reports inClass (serializeImportFrom c module names level isLazy range) 0 := by
  refine .read fun _ _ => ?_
  split
  · exact .pass (silent_tag _) <| .pass (silent_bytes _) <| .pass (silent_taggedInt _) <|
      .pass (silent_location c range) <| .pass (silent_importFlags _) <|
      .pass (silent_pushImports _) silent_end
  · refine .pass (silent_tag _) <| .pass (silent_taggedInt _) <| .pass (silent_bytes _) ?_
    refine .pass (silent_taggedInt _) <| .pass (silent_aliases names) ?_
    refine .pass (silent_pushImports _) <| .pass (silent_location c range) ?_
    exact .pass (silent_importFlags _) silent_end

theorem reports_assignType (range : TextRange) :
    Reports inClass (serializeAssignType c range) (assignNotes c range) := by
  unfold serializeAssignType assignNotes
  cases c.assignComment range with
  | none => exact silent_bool _
  | some comment =>
    cases comment with
    | regular type => exact .pass (silent_bool _) (reports_unevaluated (silent_type _))
    | function args ret => exact silent_bool _
    | invalid message =>
      exact .close (reports_error c message range false) <| .pass (silent_bool _) <|
        .pass (silent_invalid none none none) (silent_close c range)

theorem reports_valueOrTemp (value : Option Expr) :
    Reports inClass (serializeValueOrTemp c value) (optExprNotes c value) := by
  cases value with
  | none => exact .pass (silent_tag _) silent_end
  | some value => exact reports_expr value

theorem reports_delTargets (targets : List Expr) (range : TextRange) :
    Reports inClass (serializeDelTargets c targets range) (exprsNotes c targets) := by
  have tuple : Reports inClass (do
      writeTag .tupleExpr
      serializeVec targets.length (serializeExprs c targets)
      writeLocation c range
      writeEndTag) (exprsNotes c targets) :=
    .pass (silent_tag _) <| .close (reports_vec _ (reports_exprs targets)) (silent_close c range)
  cases targets with
  | nil => exact tuple
  | cons first rest =>
    cases rest with
    | nil => exact .congr (reports_expr first) (add_zero _).symm
    | cons second rest => exact tuple

theorem reports_withItems (items : List WithItem) :
    Reports inClass (serializeWithItems c items) (withItemsNotes c items) := by
  induction items with
  | nil => exact .pure
  | cons item items ih =>
    exact .bind (reports_expr item.contextExpr) <| .bind (reports_optExpr item.optionalVars) ih

theorem silent_identifiers (names : List Identifier) :
    Reports inClass (writeIdentifiers names) 0 := by
  induction names with
  | nil => exact .pure
  | cons name names ih => exact .pass (silent_bytes _) ih

theorem silent_handlerNames (handlers : List ExceptHandler) :
    Reports inClass (serializeHandlerNames c handlers) 0 := by
  induction handlers with
  | nil => exact .pure
  | cons handler handlers ih =>
    obtain ⟨type, name, body, range⟩ := handler
    refine .pass ?_ ih
    cases name with
    | none => exact silent_bool _
    | some name =>
      refine .pass (silent_bool _) <| .pass (silent_bytes _) ?_
      split
      · exact silent_location c name.range
      · exact .pure

theorem silent_syntheticElse (range : TextRange) (synthetic : Option BranchFlags) :
    Reports inClass (serializeSyntheticElse c range synthetic) 0 := by
  cases synthetic with
  | none => exact .pure
  | some flags =>
    simp only [serializeSyntheticElse]
    split
    · exact .pass (silent_bool _) (reports_withBranchFlags flags (silent_emptyBlock range))
    · exact silent_bool _

theorem reports_handlerTypes (handlers : List ExceptHandler) :
    Reports inClass (serializeHandlerTypes c handlers) (handlerTypesNotes c handlers) := by
  induction handlers with
  | nil => exact .pure
  | cons handler handlers ih =>
    obtain ⟨type, name, body, range⟩ := handler
    refine .bind (reports_optExpr type) ?_
    unfold handlerNotes
    cases needsParentheses c.options type name with
    | none => exact .congr ih (zero_add _).symm
    | some range => exact .bind (reports_error c _ range false) ih

end Simple

section Stmts

variable {c : Config} {skip : Bool}

mutual

theorem reports_stmt (inClass : Bool) : ∀ stmt : Stmt,
    Reports inClass (serializeStmt c skip stmt) (stmtNotes c skip inClass stmt)
  | .functionDef head body => reports_functionDef skip head body (reports_stmts inClass body)
  | .classDef head body => reports_classDef head body (reports_stmts true body)
  | .expr value _ => .pass (silent_tag _) <| .close (reports_expr value) silent_end
  | .assign targets value range =>
    .pass (silent_tag _) <| .bind (reports_vec _ (reports_exprs targets)) <|
      .bind (reports_expr value) <| .close (reports_assignType range) <|
      .pass (silent_bool _) (silent_close c range)
  | .annAssign target ann value range => by
    refine .pass (silent_tag _) <| .pass (silent_tag _) <| .pass (silent_int _) ?_
    refine .bind (reports_expr target) <| .close (reports_valueOrTemp value) ?_
    refine .pass (silent_bool _) <| .pass (silent_type ann) ?_
    exact .pass (silent_bool _) (silent_close c range)
  | .augAssign target op value range =>
    .pass (silent_tag _) <| .pass (silent_bytes _) <| .bind (reports_expr target) <|
      .close (reports_expr value) (silent_close c range)
  | .import names isLazy range => silent_import names isLazy range
  | .importFrom module names level isLazy range => silent_importFrom module names level isLazy range
  | .return value range =>
    .pass (silent_tag _) <| .close (reports_optExpr value) (silent_close c range)
  | .raise exc cause range =>
    .pass (silent_tag _) <| .bind (reports_optExpr exc) <|
      .close (reports_optExpr cause) (silent_close c range)
  | .assert test msg range =>
    .pass (silent_tag _) <| .bind (reports_expr test) <|
      .close (reports_optExpr msg) (silent_close c range)
  | .if test body clauses range => by
    have first := reports_serializeBlock (c := c) body (some range) (reports_stmts inClass body)
    refine .pass (silent_tag _) <| .bind (reports_expr test) ?_
    refine .bind (reports_withBranchFlags _ first) ?_
    refine .pass (silent_taggedInt _) <| .close (reports_clauses inClass _ clauses) ?_
    exact .pass (silent_syntheticElse range _) (silent_close c range)
  | .while test body orelse range => by
    have repeated := reports_serializeBlock (c := c) body (some range) (reports_stmts inClass body)
    have otherwise := reports_serializeBlock (c := c) orelse none (reports_stmts inClass orelse)
    refine .pass (silent_tag _) <| .bind (reports_expr test) ?_
    exact .bind repeated <| .close otherwise (silent_close c range)
  | .for _ target iter body orelse range => by
    have repeated := reports_serializeBlock (c := c) body (some range) (reports_stmts inClass body)
    have otherwise := reports_serializeBlock (c := c) orelse none (reports_stmts inClass orelse)
    refine .pass (silent_tag _) <| .bind (reports_expr target) <| .bind (reports_expr iter) ?_
    refine .bind repeated <| .close otherwise ?_
    exact .pass (silent_bool _) (silent_close c range)
  | .with _ items body range =>
    .pass (silent_tag _) <| .pass (silent_taggedInt _) <| .bind (reports_withItems items) <|
      .close (reports_serializeBlock body (some range) (reports_stmts inClass body)) <|
      .pass (silent_bool _) (silent_close c range)
  | .pass range => .pass (silent_tag _) (silent_close c range)
  | .break range => .pass (silent_tag _) (silent_close c range)
  | .continue range => .pass (silent_tag _) (silent_close c range)
  | .try body handlers orelse finalbody _ range => by
    have nothing {block : List Stmt} (empty : block = []) : stmtsNotes c skip inClass block = 0 :=
      by rw [empty]; rfl
    have guarded := reports_serializeBlock (c := c) body (some range) (reports_stmts inClass body)
    have otherwise := reports_optBlock (c := c) orelse range (reports_stmts inClass orelse) nothing
    have final := reports_optBlock (c := c) finalbody range (reports_stmts inClass finalbody)
      nothing
    refine .pass (silent_tag _) <| .bind guarded ?_
    refine .pass (silent_taggedInt _) <| .bind (reports_handlerTypes handlers) ?_
    refine .pass (silent_handlerNames handlers) <| .bind (reports_handlerBodies inClass handlers) ?_
    refine .bind otherwise <| .close final ?_
    exact .pass (silent_bool _) (silent_close c range)
  | .delete targets range =>
    .pass (silent_tag _) <| .close (reports_delTargets targets range) (silent_close c range)
  | .global names range | .nonlocal names range =>
    .pass (silent_tag _) <| .pass (silent_taggedInt _) <| .pass (silent_identifiers names)
      (silent_close c range)
  | .match subject cases range =>
    .pass (silent_tag _) <| .bind (reports_expr subject) <|
      .pass (silent_taggedInt _) <| .close (reports_cases inClass _ cases) (silent_close c range)
  | .typeAlias name typeParams value range =>
    .pass (silent_tag _) <| .bind (reports_expr name) <| .pass (silent_int _) <|
      .pass (silent_typeParams _) <| .close (reports_expr value) (silent_close c range)
  | .ipyEscapeCommand _ => silent_panic

theorem reports_stmts (inClass : Bool) : ∀ stmts : List Stmt,
    Reports inClass (serializeStmts c skip stmts) (stmtsNotes c skip inClass stmts)
  | [] => .pure
  | stmt :: stmts => .bind (reports_stmt inClass stmt) (reports_stmts inClass stmts)

theorem reports_clauses (inClass : Bool) (flags : List BranchFlags) :
    ∀ clauses : ElifElseClauses,
    Reports inClass (serializeClauses c skip flags clauses) (clausesNotes c skip inClass clauses)
  | .nil => .pure
  | .elif test body range rest =>
    .bind (reports_expr test) <|
      .bind (reports_withBranchFlags _ (reports_serializeBlock body (some range)
        (reports_stmts inClass body))) <|
      reports_clauses inClass flags.tail rest
  | .else body range =>
    .pass (silent_bool _) <| reports_withBranchFlags _
      (reports_serializeBlock body (some range) (reports_stmts inClass body))

theorem reports_handlerBodies (inClass : Bool) : ∀ handlers : List ExceptHandler,
    Reports inClass (serializeHandlerBodies c skip handlers) (handlersNotes c skip inClass handlers)
  | [] => .pure
  | .mk _ _ body range :: handlers =>
    .bind (reports_serializeBlock body (some range) (reports_stmts inClass body)) <|
      reports_handlerBodies inClass handlers

theorem reports_cases (inClass : Bool) (flags : List BranchFlags) : ∀ cases : List MatchCase,
    Reports inClass (serializeCases c skip flags cases) (casesNotes c skip inClass cases)
  | [] => .pure
  | .mk pattern guard body range :: cases =>
    .bind (reports_pattern pattern) <| .bind (reports_optExpr guard) <|
      .bind (reports_withBranchFlags _ (reports_serializeBlock body (some range)
        (reports_stmts inClass body))) <|
      reports_cases inClass flags.tail cases

end

theorem reports_module (inClass : Bool) (stmts : List Stmt) :
    Reports inClass (serializeModule c skip stmts) (moduleNotes c skip inClass stmts) :=
  .pass (silent_skipBlock true _) <| .pass (silent_taggedInt _) (reports_stmts inClass _)

end Stmts

end AstSerialize
