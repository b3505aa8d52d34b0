import AstSerialize.Serializer.ReportsStmt
import AstSerialize.Wire.Closed

/-! What is reported shows in the tree: the template strings, and of the errors
those that block, at comprehensions whose key is missing. -/
namespace AstSerialize
open Coding

section Kinds

variable {cv : Nat}

def WExpr.isTemplate : WExpr cv → Bool
  | .tString .. => true
  | _ => false

/-- Whether some of the errors blocks. -/
def blocks (errors : List SyntaxError) : Bool := errors.any (·.blocker)

theorem blocks_append (errors errors' : List SyntaxError) :
    blocks (errors ++ errors') = (blocks errors || blocks errors') := List.any_append

/-- What the notes say, as far as a tree shows it. -/
structure Notes.Tell (n : Notes) (templates blocked : Bool) : Prop where
  templates : n.templates = templates
  blocked : blocks n.errors = blocked

/-- The notes say what is found in a tree. -/
abbrev Tells (n : Notes) (any : (WExpr cv → Bool) → Bool) : Prop :=
  n.Tell (any WExpr.isTemplate) (any WExpr.isKeyless)

/-- None of the notes shows in a tree. -/
abbrev Notes.Quiet (n : Notes) : Prop := n.Tell false false

namespace Notes.Tell

variable {n m : Notes} {templates templates' blocked blocked' : Bool}

theorem zero : Quiet 0 := ⟨rfl, rfl⟩

theorem add (h : n.Tell templates blocked) (h' : m.Tell templates' blocked') :
    (n + m).Tell (templates || templates') (blocked || blocked') where
  templates := by rw [add_templates, h.templates, h'.templates]
  blocked := by rw [add_errors, blocks_append, h.blocked, h'.blocked]

theorem add_quiet (h : n.Tell templates blocked) (quiet : m.Quiet) :
    (n + m).Tell templates blocked where
  templates := by rw [(h.add quiet).templates, Bool.or_false]
  blocked := by rw [(h.add quiet).blocked, Bool.or_false]

end Notes.Tell

end Kinds

open Notes

section Exprs

variable {c : Config} {scope : Scope}

theorem quiet_error (error : String) (range : TextRange) :
    Quiet (errorNote c error range false) := ⟨rfl, rfl⟩

theorem quiet_argument (param : Parameter) (argComment : Option Expr) :
    Quiet (argumentNotes c param argComment) := by
  unfold argumentNotes
  split
  · exact quiet_error _ _
  · exact .zero

theorem quiet_variadic (argComments : List (Option Expr)) (idx : Nat) (param : Option Parameter) :
    Quiet (variadicNotes c argComments idx param) := by
  cases param with
  | none => exact .zero
  | some param => exact quiet_argument param _

theorem variadic_any (p : WExpr c.cacheVersion → Bool) (argComments : List (Option Expr))
    (idx : Nat) (kind : Int) (param : Option Parameter) :
    parametersAny p (toWireVariadic c scope argComments idx kind param) = false := by
  cases param <;> rfl

theorem tells_number (value : Number) (loc : Location) :
    Tells 0 fun p => (toWireNumber c value loc).any p := by
  cases value with
  | int n =>
    simp only [toWireNumber]
    split <;> exact .zero
  | float bits => exact .zero
  | complex re im => exact .zero

mutual

theorem tells_expr : ∀ e : Expr, Tells (exprNotes c e) fun p => (toWireExpr c scope e).any p
  | .name .. | .stringLiteral .. | .booleanLiteral .. | .noneLiteral .. | .ellipsisLiteral ..
  | .bytesLiteral .. | .ipyEscapeCommand _ => .zero
  | .numberLiteral value range => tells_number value _
  | .attribute value .. | .unaryOp _ value _ | .yieldFrom value _ | .starred value _
  | .await value _ => tells_expr value
  | .binOp left _ right _ | .subscript left right _ | .named left right _ =>
    (tells_expr left).add (tells_expr right)
  | .call func args keywords range => by
    simp only [exprNotes, toWireExpr, WExpr.any, exprsAny_append]
    exact (tells_expr func).add ((tells_callArgs args).add (tells_keywordValues keywords))
  | .list elts ctx range => by
    simp only [toWireExpr]
    split <;> exact tells_exprs elts
  | .tuple elts .. | .set elts _ | .boolOp _ elts _ => tells_exprs elts
  | .generator elt generators _ | .listComp elt generators _ | .setComp elt generators _ =>
    (tells_expr elt).add <| (tells_targets generators).add <|
      (tells_iters generators).add (tells_conds generators)
  | .dictComp key value generators range => by
    have rest := (tells_expr value).add <| (tells_targets generators).add <|
      (tells_iters generators).add (tells_conds generators)
    simp only [exprNotes, toWireExpr]
    split
    · exact (tells_optExpr key).add rest
    · cases key with
      | none => exact Tell.add (n := errorNote c _ range true) ⟨rfl, rfl⟩ rest
      | some key => exact (tells_expr key).add rest
  | .yield value _ => tells_optExpr value
  | .compare left _ comparators _ => (tells_expr left).add (tells_exprs comparators)
  | .ifExp test body orelse _ =>
    (tells_expr body).add <| (tells_expr test).add (tells_expr orelse)
  | .dict items _ => (tells_keys items).add (tells_values items)
  | .slice lower upper step _ =>
    (tells_optExpr lower).add <| (tells_optExpr upper).add (tells_optExpr step)
  | .fString value _ => tells_fStringParts value
  | .lambda (some parameters) body _ => (tells_parameters _ parameters).add (tells_expr body)
  | .lambda none body _ => tells_expr body
  | .tString elements _ => Tell.add ⟨rfl, rfl⟩ (tells_tStringElements elements)

theorem tells_exprs : ∀ es : List Expr,
    Tells (exprsNotes c es) fun p => exprsAny p (toWireExprs c scope es)
  | [] => .zero
  | e :: es => (tells_expr e).add (tells_exprs es)

theorem tells_optExpr : ∀ e : Option Expr,
    Tells (optExprNotes c e) fun p => optExprAny p (toWireOptExpr c scope e)
  | none => .zero
  | some e => tells_expr e

theorem tells_callArgs : ∀ args : List Expr,
    Tells (exprsNotes c args) fun p => exprsAny p (toWireCallArgs c scope args)
  | [] => .zero
  | arg :: args => by
    have rest := tells_callArgs args
    cases arg with
    | starred value range => exact (tells_expr value).add rest
    | _ => exact (tells_expr _).add rest

theorem tells_keywordValues : ∀ keywords : List Keyword,
    Tells (keywordsNotes c keywords) fun p => exprsAny p (toWireKeywordValues c scope keywords)
  | [] => .zero
  | .mk _ value :: keywords => (tells_expr value).add (tells_keywordValues keywords)

theorem tells_targets : ∀ generators : List Comprehension,
    Tells (targetsNotes c generators)
      fun p => targetsAny p (toWireComprehensions c scope generators)
  | [] => .zero
  | .mk target _ _ _ :: generators => (tells_expr target).add (tells_targets generators)

theorem tells_iters : ∀ generators : List Comprehension,
    Tells (itersNotes c generators)
      fun p => itersAny p (toWireComprehensions c scope generators)
  | [] => .zero
  | .mk _ iter _ _ :: generators => (tells_expr iter).add (tells_iters generators)

theorem tells_conds : ∀ generators : List Comprehension,
    Tells (condsNotes c generators)
      fun p => condsAny p (toWireComprehensions c scope generators)
  | [] => .zero
  | .mk _ _ ifs _ :: generators => (tells_exprs ifs).add (tells_conds generators)

theorem tells_keys : ∀ items : List DictItem,
    Tells (keysNotes c items) fun p => keysAny p (toWireDictKeys c scope items)
  | [] => .zero
  | .mk key _ :: items => (tells_optExpr key).add (tells_keys items)

theorem tells_values : ∀ items : List DictItem,
    Tells (valuesNotes c items) fun p => exprsAny p (toWireDictValues c scope items)
  | [] => .zero
  | .mk _ value :: items => (tells_expr value).add (tells_values items)

/-- Only the defaults of parameters have something to tell. -/
theorem tells_parameters (argComments : List (Option Expr)) : ∀ parameters : Parameters,
    Tells (parametersNotes c argComments parameters)
      fun p => parametersAny p (toWireParameters c scope argComments parameters)
  | .mk posonlyargs args vararg kwonlyargs kwarg => by
    simp only [parametersNotes, toWireParameters, parametersAny_append, variadic_any,
      Bool.or_false, Bool.or_assoc]
    exact (tells_defaults argComments _ _ _ _ posonlyargs).add <|
      (tells_defaults argComments _ _ _ _ args).add <|
      (quiet_variadic argComments _ vararg).add <|
      (tells_defaults argComments _ _ _ _ kwonlyargs).add_quiet (quiet_variadic argComments _ kwarg)

theorem tells_defaults (argComments : List (Option Expr)) (idx : Nat)
    (kindNoDefault kindWithDefault : Int) (posOnly : Parameter → Bool) :
    ∀ parameters : List ParameterWithDefault,
    Tells (defaultsNotes c argComments idx parameters) fun p =>
      parametersAny p
        (toWireDefaults c scope argComments idx kindNoDefault kindWithDefault posOnly parameters)
  | [] => .zero
  | .mk parameter default _ :: parameters =>
    ((quiet_argument parameter _).add (tells_optExpr default)).add
      (tells_defaults argComments (idx + 1) kindNoDefault kindWithDefault posOnly parameters)

theorem tells_fStringParts : ∀ parts : List FStringPart,
    Tells (fStringPartsNotes c parts) fun p => fStringPartsAny p (toWireFStringParts c scope parts)
  | [] => .zero
  | .fString elements :: parts => (tells_elements elements).add (tells_fStringParts parts)
  | .literal _ :: parts => tells_fStringParts parts

theorem tells_elements : ∀ elements : List InterpolatedStringElement,
    Tells (elementsNotes c elements) fun p => elementsAny p (toWireElements c scope elements)
  | [] => .zero
  | .literal _ _ :: elements => tells_elements elements
  | .interpolation expression debugText _ formatSpec :: elements => by
    have item := (tells_expr expression).add <|
      (tells_formatSpec formatSpec).add (tells_elements elements)
    cases debugText <;> exact item

theorem tells_formatSpec : ∀ formatSpec : Option FormatSpec,
    Tells (formatSpecNotes c formatSpec)
      fun p => formatSpecAny p (toWireFormatSpec c scope formatSpec)
  | none => .zero
  | some (.mk elements _) => tells_elements elements

theorem tells_tStringElements : ∀ elements : List InterpolatedStringElement,
    Tells (tStringElementsNotes c elements)
      fun p => tStringPartsAny p (toWireTStringElements c scope elements)
  | [] => .zero
  | .literal _ _ :: elements => tells_tStringElements elements
  | .interpolation expression _ _ formatSpec :: elements =>
    (tells_expr expression).add <|
      (tells_formatSpec formatSpec).add (tells_tStringElements elements)

end

end Exprs

section Patterns

variable {c : Config} {scope : Scope}

mutual

theorem tells_pattern : ∀ pattern : Pattern,
    Tells (patternNotes c pattern) fun p => (toWirePattern c scope pattern).any p
  | .matchAs pattern _ _ => tells_optPattern pattern
  | .matchOr patterns _ | .matchSequence patterns _ => tells_patterns patterns
  | .matchValue value _ => tells_expr value
  | .matchSingleton _ _ | .matchStar _ _ => .zero
  | .matchMapping items _ _ => tells_mappingItems items
  | .matchClass cls patterns keywords _ =>
    (tells_expr cls).add <| (tells_patterns patterns).add (tells_keywordPatterns keywords)

theorem tells_optPattern : ∀ pattern : Option Pattern,
    Tells (optPatternNotes c pattern) fun p => optPatternAny p (toWireOptPattern c scope pattern)
  | none => .zero
  | some pattern => tells_pattern pattern

theorem tells_patterns : ∀ patterns : List Pattern,
    Tells (patternsNotes c patterns) fun p => patternsAny p (toWirePatterns c scope patterns)
  | [] => .zero
  | pattern :: patterns => (tells_pattern pattern).add (tells_patterns patterns)

theorem tells_mappingItems : ∀ items : List (Expr × Pattern),
    Tells (itemsNotes c items) fun p => itemsAny p (toWireMappingItems c scope items)
  | [] => .zero
  | (key, pattern) :: items =>
    (tells_expr key).add <| (tells_pattern pattern).add (tells_mappingItems items)

theorem tells_keywordPatterns : ∀ keywords : List (Identifier × Pattern),
    Tells (keywordPatternsNotes c keywords)
      fun p => keywordPatternsAny p (toWireKeywordPatterns c scope keywords)
  | [] => .zero
  | (_, pattern) :: keywords => (tells_pattern pattern).add (tells_keywordPatterns keywords)

end

end Patterns

section Definitions

variable {c : Config} {skip : Bool}

theorem quiet_comments (range : TextRange) (errors : List String) :
    Quiet (commentNotes c range errors) := by
  induction errors with
  | nil => exact .zero
  | cons error errors ih => exact (quiet_error error range).add ih

theorem quiet_returns (head : FunctionHead) (retComment : Option Expr) :
    Quiet (returnsNotes c head retComment) := by
  unfold returnsNotes
  split
  · exact quiet_error _ _
  · exact .zero

theorem quiet_assign (range : TextRange) : Quiet (assignNotes c range) := by
  unfold assignNotes
  split
  · exact quiet_error _ _
  · exact .zero

theorem quiet_handler (type : Option Expr) (name : Option Identifier) :
    Quiet (handlerNotes c type name) := by
  unfold handlerNotes
  split
  · exact quiet_error _ _
  · exact .zero

theorem tells_block (scope : Scope) (range : TextRange) {n : Notes}
    {items : List (WStmt c.cacheVersion)} (inside : Tells n fun p => stmtsAny p items) :
    Tells n fun p => (toWireBlock c scope range items).any p := by
  cases items <;> exact inside

theorem tells_optBlock (scope : Scope) {block : List Stmt} (range : TextRange) {n : Notes}
    {items : List (WStmt c.cacheVersion)} (length : items.length = block.length)
    (inside : Tells n fun p => stmtsAny p items) :
    Tells n fun p => optBlockAny p (toWireOptBlock c scope block range items) := by
  cases block with
  | nil =>
    obtain rfl := List.length_eq_zero_iff.mp length
    exact inside
  | cons first rest => exact tells_block scope range inside

theorem tells_syntheticElse (scope : Scope) (range : TextRange) (synthetic : Option BranchFlags) :
    Tells 0 fun p => optBlockAny p (toWireSyntheticElse c scope range synthetic) := by
  unfold toWireSyntheticElse
  split
  · exact .zero
  · split <;> exact .zero

theorem tells_functionDef (scope : Scope) (head : FunctionHead) (body : List Stmt) {inside : Notes}
    {items : List (WStmt c.cacheVersion)} (h : Tells inside fun p => stmtsAny p items) :
    Tells (functionNotes c skip scope.inClass head body inside) fun p =>
      (toWireFunctionDef c scope head (funcComment c scope head body) <|
        if omitsBody skip scope.inClass head body then
          .empty scope.unreachable (c.location (bodyRange head body))
        else toWireBlock c scope head.range items).any p := by
  generalize written : funcComment c scope head body = comment
  have block : Tells (if omitsBody skip scope.inClass head body then 0 else inside) fun p =>
      (if omitsBody skip scope.inClass head body then
        .empty scope.unreachable (c.location (bodyRange head body))
      else toWireBlock c scope head.range items).any p := by
    split
    · exact .zero
    · exact tells_block scope head.range h
  have parameters : Tells (parametersNotes c comment.argTypes head.parameters) fun p =>
      parametersAny p (toWireParameters c scope comment.argTypes head.parameters) :=
    tells_parameters comment.argTypes head.parameters
  have decorators : Tells (exprsNotes c (head.decoratorList.map (·.expression))) fun p =>
      exprsAny p (toWireExprs c scope (head.decoratorList.map (·.expression))) :=
    tells_exprs _
  have comments : Quiet (commentNotes c head.range comment.errors) := quiet_comments _ _
  have returns : Quiet (returnsNotes c head comment.retType) := quiet_returns _ _
  have whole := comments.add <| decorators.add <| parameters.add (block.add_quiet returns)
  have notes : functionNotes c skip scope.inClass head body inside
      = commentNotes c head.range comment.errors
        + (exprsNotes c (head.decoratorList.map (·.expression))
        + (parametersNotes c comment.argTypes head.parameters
        + ((if omitsBody skip scope.inClass head body then 0 else inside)
        + returnsNotes c head comment.retType))) := by
    rw [← written]
    rfl
  rw [notes]
  unfold toWireFunctionDef
  -- without decorators there is nothing of them to find
  generalize head.decoratorList = decorated at whole ⊢
  cases decorated <;> exact whole

theorem tells_classKeywords (scope : Scope) {keywords : List Keyword}
    (named : ∀ keyword ∈ keywords, keyword.arg.isSome = true) :
    Tells (keywordsNotes c keywords)
      fun p => classKeywordsAny p (toWireClassKeywords c scope keywords) := by
  induction keywords with
  | nil => exact .zero
  | cons keyword keywords ih =>
    obtain ⟨arg, value⟩ := keyword
    have rest := ih fun keyword mem => named keyword (List.mem_cons_of_mem _ mem)
    cases arg with
    | none => cases named _ List.mem_cons_self
    | some arg => exact (tells_expr value).add rest

theorem tells_classDef (scope : Scope) (head : ClassHead) (body : List Stmt)
    {items : List (WStmt c.cacheVersion)}
    (inside : Tells (stmtsNotes c skip true body) fun p => stmtsAny p items) :
    Tells (stmtNotes c skip scope.inClass (.classDef head body)) fun p =>
      (toWireClassDef c scope head (toWireBlock c scope head.range items)).any p :=
  (tells_block scope head.range inside).add <| (tells_exprs head.bases).add <|
    (tells_exprs _).add (tells_classKeywords scope (namedKeywords_named head))

end Definitions

section Simple

variable {c : Config}

theorem tells_valueOrTemp (scope : Scope) (value : Option Expr) :
    Tells (optExprNotes c value) fun p => (toWireValueOrTemp c scope value).any p := by
  cases value with
  | none => exact .zero
  | some value => exact tells_expr value

theorem tells_delTargets (scope : Scope) (targets : List Expr) (range : TextRange) :
    Tells (exprsNotes c targets) fun p => (toWireDelTargets c scope targets range).any p := by
  cases targets with
  | nil => exact .zero
  | cons first rest =>
    cases rest with
    | nil => exact (tells_expr first).add_quiet .zero
    | cons second rest => exact tells_exprs (first :: second :: rest)

theorem tells_withItems (scope : Scope) (items : List WithItem) :
    Tells (withItemsNotes c items) fun p => withItemsAny p (toWireWithItems c scope items) := by
  induction items with
  | nil => exact .zero
  | cons item items ih =>
    exact (tells_expr item.contextExpr).add <| (tells_optExpr item.optionalVars).add ih

theorem tells_handlerTypes (skip : Bool) (scope : Scope) (handlers : List ExceptHandler) :
    Tells (handlerTypesNotes c handlers)
      fun p => handlerTypesAny p (toWireHandlers c skip scope handlers) := by
  induction handlers with
  | nil => exact .zero
  | cons handler handlers ih =>
    obtain ⟨type, name, body, range⟩ := handler
    exact (tells_optExpr type).add <| (quiet_handler type name).add ih

end Simple

section Stmts

variable {c : Config} {skip : Bool}

mutual

/-- What is reported for a statement, its tree shows. -/
theorem tells_stmt (scope : Scope) : ∀ stmt : Stmt,
    Tells (stmtNotes c skip scope.inClass stmt) fun p => (toWireStmt c skip scope stmt).any p
  | .functionDef head body =>
    tells_functionDef scope head body (tells_stmts scope.enterFunction body)
  | .classDef head body => tells_classDef scope head body (tells_stmts scope.enterClass body)
  | .expr value _ => tells_expr value
  | .assign targets value range =>
    (tells_exprs targets).add <| (tells_expr value).add_quiet (quiet_assign range)
  | .annAssign target ann value range => by
    simp only [toWireStmt, WStmt.any, exprsAny, Bool.or_false]
    exact (tells_expr target).add (tells_valueOrTemp scope value)
  | .augAssign target _ value _ => (tells_expr target).add (tells_expr value)
  | .return value _ => tells_optExpr value
  | .raise exc cause _ => (tells_optExpr exc).add (tells_optExpr cause)
  | .assert test msg _ => (tells_expr test).add (tells_optExpr msg)
  | .if test body clauses range =>
    let flags := ifFlags c.options test clauses
    (tells_expr test).add <|
      (tells_block _ range (tells_stmts (scope.enterBranch flags.main) body)).add <|
      tells_clauses scope flags.clauses (tells_syntheticElse scope range flags.synthetic) clauses
  | .while test body orelse range =>
    (tells_expr test).add <| (tells_block scope range (tells_stmts scope body)).add
      (tells_stmts scope orelse)
  | .for _ target iter body orelse range =>
    (tells_expr target).add <| (tells_expr iter).add <|
      (tells_block scope range (tells_stmts scope body)).add (tells_stmts scope orelse)
  | .with _ items body range =>
    (tells_withItems scope items).add (tells_block scope range (tells_stmts scope body))
  | .try body handlers orelse finalbody _ range =>
    (tells_block scope range (tells_stmts scope body)).add <|
      (tells_handlerTypes skip scope handlers).add <| (tells_handlers scope handlers).add <|
      (tells_optBlock scope range (toWireStmts_length ..) (tells_stmts scope orelse)).add
      (tells_optBlock scope range (toWireStmts_length ..) (tells_stmts scope finalbody))
  | .delete targets range => tells_delTargets scope targets range
  | .match subject cases _ => (tells_expr subject).add (tells_cases scope _ cases)
  | .typeAlias name _ value _ => (tells_expr name).add (tells_expr value)
  | .importFrom module names level isLazy range => by
    simp only [toWireStmt, toWireImportFrom]
    split <;> exact .zero
  | .import .. | .pass .. | .break .. | .continue .. | .global .. | .nonlocal ..
  | .ipyEscapeCommand .. => .zero

theorem tells_stmts (scope : Scope) : ∀ stmts : List Stmt,
    Tells (stmtsNotes c skip scope.inClass stmts)
      fun p => stmtsAny p (toWireStmts c skip scope stmts)
  | [] => .zero
  | stmt :: stmts => (tells_stmt scope stmt).add (tells_stmts scope stmts)

theorem tells_clauses (scope : Scope) (flags : List BranchFlags)
    {synthetic : Option (WBlock c.cacheVersion)}
    (missing : Tells 0 fun p => optBlockAny p synthetic) :
    ∀ clauses : ElifElseClauses,
    Tells (clausesNotes c skip scope.inClass clauses) fun p =>
      elifsAny p (toWireElifs c skip scope flags clauses)
        || optBlockAny p (toWireOrelse c skip scope flags synthetic clauses)
  | .nil => missing
  | .elif test body range rest => by
    simp only [toWireElifs, toWireOrelse, elifsAny, Bool.or_assoc]
    have inside := tells_stmts (scope.enterBranch (flags.headD ⟨false, false⟩)) body
    exact (tells_expr test).add <| (tells_block _ range inside).add <|
      tells_clauses scope flags.tail missing rest
  | .else body range =>
    tells_block _ range (tells_stmts (scope.enterBranch (flags.headD ⟨false, false⟩)) body)

theorem tells_handlers (scope : Scope) : ∀ handlers : List ExceptHandler,
    Tells (handlersNotes c skip scope.inClass handlers)
      fun p => handlersAny p (toWireHandlers c skip scope handlers)
  | [] => .zero
  | .mk _ _ body range :: handlers =>
    (tells_block scope range (tells_stmts scope body)).add (tells_handlers scope handlers)

theorem tells_cases (scope : Scope) (flags : List BranchFlags) : ∀ cases : List MatchCase,
    Tells (casesNotes c skip scope.inClass cases)
      fun p => casesAny p (toWireCases c skip scope flags cases)
  | [] => .zero
  | .mk pattern guard body range :: cases =>
    (tells_pattern pattern).add <| (tells_optExpr guard).add <|
      (tells_block _ range (tells_stmts (scope.enterBranch (flags.headD ⟨false, false⟩)) body)).add
      (tells_cases scope flags.tail cases)

end

theorem tells_module (scope : Scope) (stmts : List Stmt) :
    Tells (moduleNotes c skip scope.inClass stmts)
      fun p => stmtsAny p (toWireModule c skip scope stmts) :=
  tells_stmts scope _

end Stmts

end AstSerialize
