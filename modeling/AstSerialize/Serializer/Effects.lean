import AstSerialize.Serializer.FuncEffect

/-! What `has_externally_visible_effect` decides: where the walk finds a `yield`
and where it finds a defined attribute. -/
namespace AstSerialize

section Yields

/- Whether yields in the headers of nested definitions count, and those in the defaults of lambdas.
They are evaluated in the function's own scope, but the walk does not reach them. -/
variable (headers : Bool)

mutual

/-- An expression in the function's own scope has a `yield`. -/
def exprYields : Expr → Bool
  | .yield _ _ | .yieldFrom _ _ => true
  | .lambda parameters _ _ => headers && lambdaYields parameters
  | .boolOp _ values _ => exprsYield values
  | .named target value _ => exprYields value || exprYields target
  | .binOp left _ right _ => exprYields left || exprYields right
  | .unaryOp _ operand _ => exprYields operand
  | .ifExp test body orelse _ => exprYields test || exprYields body || exprYields orelse
  | .dict items _ => dictItemsYield items
  | .set elts _ | .list elts _ _ | .tuple elts _ _ => exprsYield elts
  | .listComp elt generators _ | .setComp elt generators _ | .generator elt generators _ =>
    comprehensionsYield generators || exprYields elt
  | .dictComp key value generators _ =>
    comprehensionsYield generators || optExprYields key || exprYields value
  | .await value _ | .attribute value _ _ | .starred value _ => exprYields value
  | .compare left _ comparators _ => exprYields left || exprsYield comparators
  | .call func args keywords _ => exprYields func || exprsYield args || keywordsYield keywords
  | .fString value _ => fStringPartsYield value
  | .tString elements _ => elementsYield elements
  | .subscript value slice _ => exprYields value || exprYields slice
  | .slice lower upper step _ =>
    optExprYields lower || optExprYields upper || optExprYields step
  | .stringLiteral _ _ | .bytesLiteral _ _ | .numberLiteral _ _ | .booleanLiteral _ _
  | .noneLiteral _ | .ellipsisLiteral _ | .name _ _ | .ipyEscapeCommand _ => false

def exprsYield : List Expr → Bool
  | [] => false
  | e :: es => exprYields e || exprsYield es

def optExprYields : Option Expr → Bool
  | none => false
  | some e => exprYields e

def dictItemsYield : List DictItem → Bool
  | [] => false
  | .mk key value :: items => optExprYields key || exprYields value || dictItemsYield items

def comprehensionsYield : List Comprehension → Bool
  | [] => false
  | .mk target iter ifs _ :: generators =>
    exprYields iter || exprYields target || exprsYield ifs || comprehensionsYield generators

def keywordsYield : List Keyword → Bool
  | [] => false
  | .mk _ value :: keywords => exprYields value || keywordsYield keywords

def fStringPartsYield : List FStringPart → Bool
  | [] => false
  | .fString elements :: parts => elementsYield elements || fStringPartsYield parts
  | .literal _ :: parts => fStringPartsYield parts

def elementsYield : List InterpolatedStringElement → Bool
  | [] => false
  | .literal _ _ :: elements => elementsYield elements
  | .interpolation expression _ _ formatSpec :: elements =>
    exprYields expression || formatSpecYields formatSpec || elementsYield elements

def formatSpecYields : Option FormatSpec → Bool
  | none => false
  | some (.mk elements _) => elementsYield elements

def lambdaYields : Option Parameters → Bool
  | none => false
  | some (.mk posonlyargs args _ kwonlyargs _) =>
    defaultsYield posonlyargs || defaultsYield args || defaultsYield kwonlyargs

/-- The defaults of parameters. -/
def defaultsYield : List ParameterWithDefault → Bool
  | [] => false
  | .mk _ default _ :: parameters => optExprYields default || defaultsYield parameters

end

mutual

def patternYields : Pattern → Bool
  | .matchValue value _ => exprYields headers value
  | .matchSingleton _ _ | .matchStar _ _ => false
  | .matchSequence patterns _ | .matchOr patterns _ => patternsYield patterns
  | .matchMapping items _ _ => itemKeysYield items || itemPatternsYield items
  | .matchClass cls patterns keywords _ =>
    exprYields headers cls || patternsYield patterns || keywordPatternsYield keywords
  | .matchAs pattern _ _ => optPatternYields pattern

def optPatternYields : Option Pattern → Bool
  | none => false
  | some pattern => patternYields pattern

def patternsYield : List Pattern → Bool
  | [] => false
  | pattern :: patterns => patternYields pattern || patternsYield patterns

def itemKeysYield : List (Expr × Pattern) → Bool
  | [] => false
  | (key, _) :: items => exprYields headers key || itemKeysYield items

def itemPatternsYield : List (Expr × Pattern) → Bool
  | [] => false
  | (_, pattern) :: items => patternYields pattern || itemPatternsYield items

def keywordPatternsYield : List (Identifier × Pattern) → Bool
  | [] => false
  | (_, pattern) :: keywords => patternYields pattern || keywordPatternsYield keywords

end

def typeParamsYield : List TypeParam → Bool
  | [] => false
  | .typeVar _ bound default :: params =>
    optExprYields headers bound || optExprYields headers default || typeParamsYield params
  | .paramSpec _ default :: params | .typeVarTuple _ default :: params =>
    optExprYields headers default || typeParamsYield params

def withItemsYield : List WithItem → Bool
  | [] => false
  | item :: items =>
    exprYields headers item.contextExpr || optExprYields headers item.optionalVars
      || withItemsYield items

/-- The annotations of parameters, of `*args` and `**kwargs` too. -/
def annotationsYield : Parameters → Bool
  | .mk posonlyargs args vararg kwonlyargs kwarg =>
    ((posonlyargs ++ args ++ kwonlyargs).map (·.parameter) ++ vararg.toList ++ kwarg.toList).any
      fun param => optExprYields headers param.annotated

/-- What of a nested function is evaluated outside of it. -/
def functionHeadYields (head : FunctionHead) : Bool :=
  exprsYield headers (head.decoratorList.map (·.expression))
    || lambdaYields headers (some head.parameters)
    || annotationsYield headers head.parameters || optExprYields headers head.returns

def classHeadYields (head : ClassHead) : Bool :=
  exprsYield headers (head.decoratorList.map (·.expression))
    || match head.arguments with
      | some arguments => exprsYield headers arguments.args || keywordsYield headers arguments.keywords
      | none => false

mutual

/-- A statement has a `yield` in the function's own scope. -/
def stmtYields : Stmt → Bool
  | .functionDef head _ => headers && functionHeadYields headers head
  | .classDef head _ => headers && classHeadYields headers head
  | .assign targets value _ => exprYields headers value || exprsYield headers targets
  | .augAssign target _ value _ => exprYields headers value || exprYields headers target
  | .annAssign target ann value _ =>
    optExprYields headers value || exprYields headers ann || exprYields headers target
  | .with _ items body _ => withItemsYield headers items || bodyYields body
  | .for _ target iter body orelse _ =>
    exprYields headers iter || exprYields headers target || bodyYields body || bodyYields orelse
  | .return value _ => optExprYields headers value
  | .delete targets _ => exprsYield headers targets
  | .typeAlias name typeParams value _ =>
    exprYields headers value || typeParamsYield headers (typeParams.getD [])
      || exprYields headers name
  | .while test body orelse _ => exprYields headers test || bodyYields body || bodyYields orelse
  | .if test body clauses _ => exprYields headers test || bodyYields body || clausesYield clauses
  | .match subject cases _ => exprYields headers subject || casesYield cases
  | .raise exc cause _ => optExprYields headers exc || optExprYields headers cause
  | .try body handlers orelse finalbody _ _ =>
    bodyYields body || handlersYield handlers || bodyYields orelse || bodyYields finalbody
  | .assert test msg _ => exprYields headers test || optExprYields headers msg
  | .expr value _ => exprYields headers value
  | .import _ _ _ | .importFrom _ _ _ _ _ | .global _ _ | .nonlocal _ _ | .pass _ | .break _
  | .continue _ | .ipyEscapeCommand _ => false

def bodyYields : List Stmt → Bool
  | [] => false
  | stmt :: stmts => stmtYields stmt || bodyYields stmts

def clausesYield : ElifElseClauses → Bool
  | .nil => false
  | .elif test body _ rest => exprYields headers test || bodyYields body || clausesYield rest
  | .else body _ => bodyYields body

def casesYield : List MatchCase → Bool
  | [] => false
  | .mk pattern guard body _ :: cases =>
    patternYields headers pattern || optExprYields headers guard || bodyYields body
      || casesYield cases

def handlersYield : List ExceptHandler → Bool
  | [] => false
  | .mk type _ body _ :: handlers =>
    optExprYields headers type || bodyYields body || handlersYield handlers

end

end Yields

/-- The function is a generator. -/
def isGenerator (body : List Stmt) : Bool := bodyYields true body

/-- A `yield` outside of the headers of nested definitions and of lambdas. -/
def hasPlainYield (body : List Stmt) : Bool := bodyYields false body

section Targets

mutual

/-- A statement and those in its blocks. Nested definitions are not opened. -/
def ownStmts : Stmt → List Stmt
  | stmt@(.with _ _ body _) => stmt :: ownBody body
  | stmt@(.for _ _ _ body orelse _) | stmt@(.while _ body orelse _) =>
    stmt :: (ownBody body ++ ownBody orelse)
  | stmt@(.if _ body clauses _) => stmt :: (ownBody body ++ ownClauses clauses)
  | stmt@(.match _ cases _) => stmt :: ownCases cases
  | stmt@(.try body handlers orelse finalbody _ _) =>
    stmt :: (ownBody body ++ ownHandlers handlers ++ ownBody orelse ++ ownBody finalbody)
  | stmt@(.functionDef ..) | stmt@(.classDef ..) | stmt@(.return ..) | stmt@(.delete ..)
  | stmt@(.typeAlias ..) | stmt@(.assign ..) | stmt@(.augAssign ..) | stmt@(.annAssign ..)
  | stmt@(.raise ..) | stmt@(.assert ..) | stmt@(.import ..) | stmt@(.importFrom ..)
  | stmt@(.global ..) | stmt@(.nonlocal ..) | stmt@(.expr ..) | stmt@(.pass ..)
  | stmt@(.break ..) | stmt@(.continue ..) | stmt@(.ipyEscapeCommand ..) => [stmt]

def ownBody : List Stmt → List Stmt
  | [] => []
  | stmt :: stmts => ownStmts stmt ++ ownBody stmts

def ownClauses : ElifElseClauses → List Stmt
  | .nil => []
  | .elif _ body _ rest => ownBody body ++ ownClauses rest
  | .else body _ => ownBody body

def ownCases : List MatchCase → List Stmt
  | [] => []
  | .mk _ _ body _ :: cases => ownBody body ++ ownCases cases

def ownHandlers : List ExceptHandler → List Stmt
  | [] => []
  | .mk _ _ body _ :: handlers => ownBody body ++ ownHandlers handlers

end

/-- What the statement itself assigns to. -/
def Stmt.assignmentTargets : Stmt → List Expr
  | .assign targets _ _ => targets
  | .augAssign target _ _ _ | .annAssign target _ _ _ | .for _ target _ _ _ _ => [target]
  | .with _ items _ _ => items.filterMap (·.optionalVars)
  | _ => []

/-- The parts that are assigned to when a target is unpacked. -/
inductive Unpacks : Expr → Expr → Prop where
  | self (e : Expr) : Unpacks e e
  | tuple {elts : List Expr} {parenthesized : Bool} {range : TextRange} {e part : Expr} :
      e ∈ elts → Unpacks e part → Unpacks (.tuple elts parenthesized range) part
  | list {elts : List Expr} {ctx : ExprContext} {range : TextRange} {e part : Expr} :
      e ∈ elts → Unpacks e part → Unpacks (.list elts ctx range) part
  | starred {value part : Expr} {range : TextRange} :
      Unpacks value part → Unpacks (.starred value range) part

/-- Some statement assigns to an attribute of the name. -/
def AssignsAttribute (name : String) (body : List Stmt) : Prop :=
  ∃ stmt ∈ ownBody body, ∃ target ∈ stmt.assignmentTargets, ∃ attr nameRange range,
    Unpacks target (.attribute (.name name nameRange) attr range)

mutual

theorem containsParamAttribute_iff (name : String) : ∀ target : Expr,
    containsParamAttribute name target = true ↔ ∃ attr nameRange range,
      Unpacks target (.attribute (.name name nameRange) attr range)
  | .attribute value attr range => by
    constructor
    · intro found
      cases value
      case name id nameRange =>
        rw [containsParamAttribute, decide_eq_true_eq] at found
        rw [found]
        exact ⟨attr, nameRange, range, .self _⟩
      all_goals simp [containsParamAttribute] at found
    · rintro ⟨attr', nameRange, range', unpacks⟩
      cases unpacks
      simp [containsParamAttribute]
  | .tuple elts _ _ => by
    rw [containsParamAttribute, anyParamAttribute_iff name elts]
    constructor
    · rintro ⟨e, mem, attr, nameRange, range, unpacks⟩
      exact ⟨attr, nameRange, range, .tuple mem unpacks⟩
    · rintro ⟨attr, nameRange, range, unpacks⟩
      cases unpacks with
      | tuple mem unpacks => exact ⟨_, mem, attr, nameRange, range, unpacks⟩
  | .list elts _ _ => by
    rw [containsParamAttribute, anyParamAttribute_iff name elts]
    constructor
    · rintro ⟨e, mem, attr, nameRange, range, unpacks⟩
      exact ⟨attr, nameRange, range, .list mem unpacks⟩
    · rintro ⟨attr, nameRange, range, unpacks⟩
      cases unpacks with
      | list mem unpacks => exact ⟨_, mem, attr, nameRange, range, unpacks⟩
  | .starred value _ => by
    rw [containsParamAttribute, containsParamAttribute_iff name value]
    constructor
    · rintro ⟨attr, nameRange, range, unpacks⟩
      exact ⟨attr, nameRange, range, .starred unpacks⟩
    · rintro ⟨attr, nameRange, range, unpacks⟩
      cases unpacks with
      | starred unpacks => exact ⟨attr, nameRange, range, unpacks⟩
  | .boolOp .. | .named .. | .binOp .. | .unaryOp .. | .lambda .. | .ifExp .. | .dict .. | .set ..
  | .listComp .. | .setComp .. | .dictComp .. | .generator .. | .await .. | .yield ..
  | .yieldFrom .. | .compare .. | .call .. | .fString .. | .tString .. | .stringLiteral ..
  | .bytesLiteral .. | .numberLiteral .. | .booleanLiteral .. | .noneLiteral ..
  | .ellipsisLiteral .. | .subscript .. | .name .. | .slice .. | .ipyEscapeCommand .. => by
    constructor
    · intro found
      simp [containsParamAttribute] at found
    · rintro ⟨attr, nameRange, range, unpacks⟩
      cases unpacks

theorem anyParamAttribute_iff (name : String) : ∀ targets : List Expr,
    anyParamAttribute name targets = true ↔ ∃ e ∈ targets, ∃ attr nameRange range,
      Unpacks e (.attribute (.name name nameRange) attr range)
  | [] => by simp [anyParamAttribute]
  | e :: es => by
    simp only [anyParamAttribute, Bool.or_eq_true, containsParamAttribute_iff name e,
      anyParamAttribute_iff name es, List.exists_mem_cons_iff]

end

/-- The walk checks this of each statement by itself. -/
def definesAttribute (name : String) (stmt : Stmt) : Bool :=
  anyParamAttribute name stmt.assignmentTargets

theorem assignsAttribute_iff (name : String) (body : List Stmt) :
    (ownBody body).any (definesAttribute name) = true ↔ AssignsAttribute name body := by
  simp only [List.any_eq_true, definesAttribute, anyParamAttribute_iff, AssignsAttribute]

end Targets

section Walk

/-- What a walk leaves in the detector: it finds attributes exactly where they are defined, but once
it has found one it need not look for yields. -/
structure Shows (walk : EffectDetector → EffectDetector) (attributes yields : Bool) : Prop where
  defines : ∀ d, (walk d).definesAttributes = (d.definesAttributes || attributes)
  either : ∀ d, ((walk d).definesAttributes || (walk d).containsYield)
    = (d.definesAttributes || d.containsYield || (attributes || yields))

namespace Shows

variable {walk walk' : EffectDetector → EffectDetector} {a a' y y' : Bool}

theorem nothing : Shows id false false := by
  constructor <;> intro d <;> simp

theorem congr (h : Shows walk a y) (attributes : a = a') (yields : y = y') :
    Shows walk a' y' := attributes ▸ yields ▸ h

theorem next (first : Shows walk a y) (second : Shows walk' a' y') :
    Shows (walk' ∘ walk) (a || a') (y || y') := by
  constructor
  · intro d
    rw [Function.comp_apply, second.defines, first.defines, Bool.or_assoc]
  · intro d
    rw [Function.comp_apply, second.either, first.either]
    cases a <;> cases y <;> simp

theorem visiting (h : Shows walk a y) : Shows (visiting walk) a y := by
  constructor
  · intro d
    unfold AstSerialize.visiting
    split
    case isTrue both =>
      rw [Bool.and_eq_true] at both
      rw [both.1, Bool.true_or]
    case isFalse => exact h.defines d
  · intro d
    unfold AstSerialize.visiting
    split
    case isTrue both =>
      rw [Bool.and_eq_true] at both
      simp [both.1]
    case isFalse => exact h.either d

theorem yield : Shows (AstSerialize.visiting fun d => { d with containsYield := true }) false
    true := by
  apply visiting
  constructor <;> intro d <;> simp

theorem assigning (found : Bool) (h : Shows walk a y) :
    Shows (assigning found walk) (found || a) y := by
  cases found with
  | true => constructor <;> intro d <;> simp [AstSerialize.assigning]
  | false => exact h

end Shows

mutual

theorem shows_expr : ∀ e : Expr, Shows (visitExpr e) false (exprYields false e)
  | .yield _ _ | .yieldFrom _ _ => .yield
  | .lambda _ _ _ => .nothing
  | .boolOp _ values _ => (shows_exprs values).visiting
  | .named target value _ => ((shows_expr value).next (shows_expr target)).visiting
  | .binOp left _ right _ => ((shows_expr left).next (shows_expr right)).visiting
  | .unaryOp _ operand _ => (shows_expr operand).visiting
  | .ifExp test body orelse _ =>
    (((shows_expr test).next (shows_expr body)).next (shows_expr orelse)).visiting
  | .dict items _ => (shows_dictItems items).visiting
  | .set elts _ | .list elts _ _ | .tuple elts _ _ => (shows_exprs elts).visiting
  | .listComp elt generators _ | .setComp elt generators _ | .generator elt generators _ =>
    ((shows_comprehensions generators).next (shows_expr elt)).visiting
  | .dictComp key value generators _ =>
    (((shows_comprehensions generators).next (shows_optExpr key)).next (shows_expr value)).visiting
  | .await value _ | .attribute value _ _ | .starred value _ => (shows_expr value).visiting
  | .compare left _ comparators _ => ((shows_expr left).next (shows_exprs comparators)).visiting
  | .call func args keywords _ =>
    (((shows_expr func).next (shows_exprs args)).next (shows_keywords keywords)).visiting
  | .fString value _ => (shows_fStringParts value).visiting
  | .tString elements _ => (shows_elements elements).visiting
  | .subscript value slice _ => ((shows_expr value).next (shows_expr slice)).visiting
  | .slice lower upper step _ =>
    (((shows_optExpr lower).next (shows_optExpr upper)).next (shows_optExpr step)).visiting
  | .stringLiteral .. | .bytesLiteral .. | .numberLiteral .. | .booleanLiteral ..
  | .noneLiteral .. | .ellipsisLiteral .. | .name .. | .ipyEscapeCommand .. => .nothing

theorem shows_exprs : ∀ es : List Expr, Shows (visitExprs es) false (exprsYield false es)
  | [] => .nothing
  | e :: es => (shows_expr e).next (shows_exprs es)

theorem shows_optExpr : ∀ e : Option Expr, Shows (visitOptExpr e) false (optExprYields false e)
  | none => .nothing
  | some e => shows_expr e

theorem shows_dictItems : ∀ items : List DictItem,
    Shows (visitDictItems items) false (dictItemsYield false items)
  | [] => .nothing
  | .mk key value :: items =>
    ((shows_optExpr key).next (shows_expr value)).next (shows_dictItems items)

theorem shows_comprehensions : ∀ generators : List Comprehension,
    Shows (visitComprehensions generators) false (comprehensionsYield false generators)
  | [] => .nothing
  | .mk target iter ifs _ :: generators =>
    (((shows_expr iter).next (shows_expr target)).next (shows_exprs ifs)).next
      (shows_comprehensions generators)

theorem shows_keywords : ∀ keywords : List Keyword,
    Shows (visitKeywords keywords) false (keywordsYield false keywords)
  | [] => .nothing
  | .mk _ value :: keywords => (shows_expr value).next (shows_keywords keywords)

theorem shows_fStringParts : ∀ parts : List FStringPart,
    Shows (visitFStringParts parts) false (fStringPartsYield false parts)
  | [] => .nothing
  | .fString elements :: parts => (shows_elements elements).next (shows_fStringParts parts)
  | .literal _ :: parts => shows_fStringParts parts

theorem shows_elements : ∀ elements : List InterpolatedStringElement,
    Shows (visitElements elements) false (elementsYield false elements)
  | [] => .nothing
  | .literal _ _ :: elements => shows_elements elements
  | .interpolation expression _ _ formatSpec :: elements =>
    ((shows_expr expression).next (shows_formatSpec formatSpec)).next (shows_elements elements)

theorem shows_formatSpec : ∀ formatSpec : Option FormatSpec,
    Shows (visitFormatSpec formatSpec) false (formatSpecYields false formatSpec)
  | none => .nothing
  | some (.mk elements _) => shows_elements elements

end

mutual

theorem shows_pattern : ∀ pattern : Pattern,
    Shows (visitPattern pattern) false (patternYields false pattern)
  | .matchValue value _ => shows_expr value
  | .matchSingleton _ _ | .matchStar _ _ => .nothing
  | .matchSequence patterns _ | .matchOr patterns _ => shows_patterns patterns
  | .matchMapping items _ _ => (shows_itemKeys items).next (shows_itemPatterns items)
  | .matchClass cls patterns keywords _ =>
    ((shows_expr cls).next (shows_patterns patterns)).next (shows_keywordPatterns keywords)
  | .matchAs pattern _ _ => shows_optPattern pattern

theorem shows_optPattern : ∀ pattern : Option Pattern,
    Shows (visitOptPattern pattern) false (optPatternYields false pattern)
  | none => .nothing
  | some pattern => shows_pattern pattern

theorem shows_patterns : ∀ patterns : List Pattern,
    Shows (visitPatterns patterns) false (patternsYield false patterns)
  | [] => .nothing
  | pattern :: patterns => (shows_pattern pattern).next (shows_patterns patterns)

theorem shows_itemKeys : ∀ items : List (Expr × Pattern),
    Shows (visitItemKeys items) false (itemKeysYield false items)
  | [] => .nothing
  | (key, _) :: items => (shows_expr key).next (shows_itemKeys items)

theorem shows_itemPatterns : ∀ items : List (Expr × Pattern),
    Shows (visitItemPatterns items) false (itemPatternsYield false items)
  | [] => .nothing
  | (_, pattern) :: items => (shows_pattern pattern).next (shows_itemPatterns items)

theorem shows_keywordPatterns : ∀ keywords : List (Identifier × Pattern),
    Shows (visitKeywordPatterns keywords) false (keywordPatternsYield false keywords)
  | [] => .nothing
  | (_, pattern) :: keywords => (shows_pattern pattern).next (shows_keywordPatterns keywords)

end

theorem shows_typeParams (params : List TypeParam) :
    Shows (visitTypeParams params) false (typeParamsYield false params) := by
  induction params with
  | nil => exact .nothing
  | cons param params ih =>
    cases param with
    | typeVar name bound default =>
      exact ((shows_optExpr bound).next (shows_optExpr default)).next ih
    | paramSpec name default => exact (shows_optExpr default).next ih
    | typeVarTuple name default => exact (shows_optExpr default).next ih

theorem shows_withItems (items : List WithItem) :
    Shows (visitWithItems items) false (withItemsYield false items) := by
  induction items with
  | nil => exact .nothing
  | cons item items ih =>
    exact ((shows_expr item.contextExpr).next (shows_optExpr item.optionalVars)).next ih

theorem bindsAttribute_eq (name : String) (items : List WithItem) :
    bindsAttribute name items = anyParamAttribute name (items.filterMap (·.optionalVars)) := by
  induction items with
  | nil => rfl
  | cons item items ih =>
    rw [bindsAttribute, ih]
    cases vars : item.optionalVars with
    | none => simp [vars]
    | some target => simp [vars, anyParamAttribute]

section Stmts

variable (name : String)

mutual

theorem shows_stmt : ∀ stmt : Stmt, Shows (visitStmt name stmt)
    ((ownStmts stmt).any (definesAttribute name)) (stmtYields false stmt)
  | .functionDef _ _ | .classDef _ _ => .nothing
  | .assign targets value _ => by
    apply Shows.congr (Shows.assigning _ ((shows_expr value).next (shows_exprs targets))).visiting
    · simp [ownStmts, definesAttribute, Stmt.assignmentTargets]
    · rfl
  | .augAssign target _ value _ => by
    apply Shows.congr (Shows.assigning _ ((shows_expr value).next (shows_expr target))).visiting
    · simp [ownStmts, definesAttribute, Stmt.assignmentTargets, anyParamAttribute]
    · rfl
  | .annAssign target ann value _ => by
    apply Shows.congr (Shows.assigning _ (((shows_optExpr value).next (shows_expr ann)).next
      (shows_expr target))).visiting
    · simp [ownStmts, definesAttribute, Stmt.assignmentTargets, anyParamAttribute]
    · rfl
  | .with _ items body _ => by
    apply Shows.congr (Shows.assigning _ ((shows_withItems items).next (shows_body body))).visiting
    · simp [ownStmts, definesAttribute, Stmt.assignmentTargets, bindsAttribute_eq]
    · rfl
  | .for _ target iter body orelse _ => by
    apply Shows.congr (Shows.assigning _ ((((shows_expr iter).next (shows_expr target)).next
      (shows_body body)).next (shows_body orelse))).visiting
    · simp [ownStmts, definesAttribute, Stmt.assignmentTargets, anyParamAttribute]
    · rfl
  | .return value _ => (shows_optExpr value).visiting
  | .delete targets _ => (shows_exprs targets).visiting
  | .typeAlias name typeParams value _ =>
    (((shows_expr value).next (shows_typeParams (typeParams.getD []))).next
      (shows_expr name)).visiting
  | .while test body orelse _ => by
    apply Shows.congr (((shows_expr test).next (shows_body body)).next
      (shows_body orelse)).visiting
    · simp [ownStmts, definesAttribute, Stmt.assignmentTargets, anyParamAttribute]
    · rfl
  | .if test body clauses _ => by
    apply Shows.congr (((shows_expr test).next (shows_body body)).next
      (shows_clauses clauses)).visiting
    · simp [ownStmts, definesAttribute, Stmt.assignmentTargets, anyParamAttribute]
    · rfl
  | .match subject cases _ => by
    apply Shows.congr ((shows_expr subject).next (shows_cases cases)).visiting
    · simp [ownStmts, definesAttribute, Stmt.assignmentTargets, anyParamAttribute]
    · rfl
  | .raise exc cause _ => ((shows_optExpr exc).next (shows_optExpr cause)).visiting
  | .try body handlers orelse finalbody _ _ => by
    apply Shows.congr ((((shows_body body).next (shows_handlers handlers)).next
      (shows_body orelse)).next (shows_body finalbody)).visiting
    · simp [ownStmts, definesAttribute, Stmt.assignmentTargets, anyParamAttribute, Bool.or_assoc]
    · rfl
  | .assert test msg _ => ((shows_expr test).next (shows_optExpr msg)).visiting
  | .expr value _ => (shows_expr value).visiting
  | .import .. | .importFrom .. | .global .. | .nonlocal .. | .pass .. | .break ..
  | .continue .. | .ipyEscapeCommand .. => .nothing

theorem shows_body : ∀ body : List Stmt, Shows (visitBody name body)
    ((ownBody body).any (definesAttribute name)) (bodyYields false body)
  | [] => .nothing
  | stmt :: stmts => by
    apply Shows.congr ((shows_stmt stmt).next (shows_body stmts))
    · rw [ownBody, List.any_append]
    · rfl

theorem shows_clauses : ∀ clauses : ElifElseClauses, Shows (visitClauses name clauses)
    ((ownClauses clauses).any (definesAttribute name)) (clausesYield false clauses)
  | .nil => .nothing
  | .elif test body _ rest => by
    apply Shows.congr (((shows_expr test).next (shows_body body)).next (shows_clauses rest))
    · rw [ownClauses, List.any_append, Bool.false_or]
    · rfl
  | .else body _ => shows_body body

theorem shows_cases : ∀ cases : List MatchCase, Shows (visitCases name cases)
    ((ownCases cases).any (definesAttribute name)) (casesYield false cases)
  | [] => .nothing
  | .mk pattern guard body _ :: cases => by
    apply Shows.congr ((((shows_pattern pattern).next (shows_optExpr guard)).next
      (shows_body body)).next (shows_cases cases))
    · rw [ownCases, List.any_append, Bool.false_or, Bool.false_or]
    · rfl

theorem shows_handlers : ∀ handlers : List ExceptHandler, Shows (visitHandlers name handlers)
    ((ownHandlers handlers).any (definesAttribute name)) (handlersYield false handlers)
  | [] => .nothing
  | .mk type _ body _ :: handlers => by
    apply Shows.congr (((shows_optExpr type).next (shows_body body)).next
      (shows_handlers handlers))
    · rw [ownHandlers, List.any_append, Bool.false_or]
    · rfl

end

end Stmts

/-- A body that is not trivial has an effect exactly if the walk finds a `yield` or a defined
attribute in it. -/
theorem hasExternallyVisibleEffect_iff (body : List Stmt) (parameters : Parameters)
    (checkAttributes : Bool) :
    hasExternallyVisibleEffect body parameters checkAttributes = true ↔
      isTrivialBody body = true ∨ hasPlainYield body = true
        ∨ AssignsAttribute (firstParamName parameters checkAttributes) body := by
  have walked := (shows_body (firstParamName parameters checkAttributes) body).either ⟨false, false⟩
  rw [hasExternallyVisibleEffect, ← assignsAttribute_iff]
  cases isTrivialBody body with
  | true => simp
  | false =>
    simp only [Bool.false_eq_true, if_false, walked, Bool.or_false, Bool.false_or,
      Bool.or_eq_true, hasPlainYield, false_or]
    exact Or.comm

end Walk

section Generators

/-- The body of a generator is kept, whether or not attributes are checked. -/
def KeepsGenerator (parameters : Parameters) (body : List Stmt) : Prop :=
  isGenerator body = true →
    ∀ checkAttributes, hasExternallyVisibleEffect body parameters checkAttributes = true

/-- Besides trivial bodies, those are kept that have a `yield` outside of nested headers. With names
left empty by error recovery an attribute can also do. -/
theorem keepsGenerator_iff (parameters : Parameters) (body : List Stmt) :
    KeepsGenerator parameters body ↔ (isGenerator body = true →
      isTrivialBody body = true ∨ hasPlainYield body = true ∨
      (AssignsAttribute "" body ∧ AssignsAttribute (firstParamName parameters true) body)) := by
  apply imp_congr_right
  intro _
  simp only [hasExternallyVisibleEffect_iff, Bool.forall_bool]
  have unchecked : firstParamName parameters false = "" := rfl
  rw [unchecked, ← or_and_left, ← or_and_left]

/-- `def h(x=(yield)): pass`, followed by `return`. -/
def generatorByDefault : List Stmt :=
  [.functionDef ⟨false, [], ⟨"h", ⟨4, 5⟩⟩, none,
      .mk [] [.mk (.mk ⟨"x", ⟨6, 7⟩⟩ none ⟨6, 7⟩) (some (.yield none ⟨9, 14⟩)) ⟨6, 15⟩] none [] none,
      none, ⟨0, 22⟩⟩ [.pass ⟨18, 22⟩],
    .return none ⟨23, 29⟩]

theorem generatorByDefault_dropped :
    isGenerator generatorByDefault = true ∧
    hasExternallyVisibleEffect generatorByDefault (.mk [] [] none [] none) false = false ∧
    ¬ KeepsGenerator (.mk [] [] none [] none) generatorByDefault := by
  have generator : isGenerator generatorByDefault = true := rfl
  have dropped : hasExternallyVisibleEffect generatorByDefault (.mk [] [] none [] none) false
      = false := rfl
  refine ⟨generator, dropped, ?_⟩
  intro keeps
  have kept := keeps generator false
  rw [dropped] at kept
  cases kept

end Generators

section Attributes

/-- The names of which statements assign attributes are not empty. -/
def TargetsNamed (body : List Stmt) : Prop := ∀ name, AssignsAttribute name body → name ≠ ""

/-- The first positional parameter, a positional-only one before the others. -/
def Parameters.firstPositional (parameters : Parameters) : Option ParameterWithDefault :=
  (parameters.posonlyargs ++ parameters.args).head?

theorem firstParamName_checked (parameters : Parameters) :
    firstParamName parameters true
      = (parameters.firstPositional.map (·.parameter.name.id)).getD "" := by
  cases parameters with
  | mk posonlyargs args vararg kwonlyargs kwarg =>
    cases posonlyargs with
    | nil => cases args <;> rfl
    | cons => rfl

/-- Without yields a body that is not trivial has an effect exactly if attributes are checked and it
assigns to an attribute of the first positional parameter. -/
theorem attribute_effect_iff {body : List Stmt} (parameters : Parameters) (checkAttributes : Bool)
    (yieldFree : hasPlainYield body = false) (trivial : isTrivialBody body = false)
    (named : TargetsNamed body) :
    hasExternallyVisibleEffect body parameters checkAttributes = true ↔
      checkAttributes = true ∧ ∃ first, parameters.firstPositional = some first ∧
        AssignsAttribute first.parameter.name.id body := by
  simp only [hasExternallyVisibleEffect_iff, yieldFree, trivial, Bool.false_eq_true, false_or]
  cases checkAttributes with
  | false =>
    constructor
    · intro assigns
      exact absurd rfl (named "" assigns)
    · rintro ⟨unchecked, -⟩
      cases unchecked
  | true =>
    rw [firstParamName_checked]
    cases first : parameters.firstPositional with
    | none =>
      constructor
      · intro assigns
        exact absurd rfl (named "" assigns)
      · rintro ⟨-, first, impossible, -⟩
        cases impossible
    | some param =>
      constructor
      · intro assigns
        exact ⟨rfl, param, rfl, assigns⟩
      · rintro ⟨-, other, same, assigns⟩
        cases same
        exact assigns

/-- `self.x = 1` in a method of `self`. -/
theorem attribute_effect_self :
    hasExternallyVisibleEffect
      [.assign [.attribute (.name "self" ⟨0, 4⟩) ⟨"x", ⟨5, 6⟩⟩ ⟨0, 6⟩]
        (.numberLiteral (.int (.small 1)) ⟨9, 10⟩) ⟨0, 10⟩]
      (.mk [] [.mk (.mk ⟨"self", ⟨0, 4⟩⟩ none ⟨0, 4⟩) none ⟨0, 4⟩] none [] none) true = true := by
  have named : TargetsNamed
      [.assign [.attribute (.name "self" ⟨0, 4⟩) ⟨"x", ⟨5, 6⟩⟩ ⟨0, 6⟩]
        (.numberLiteral (.int (.small 1)) ⟨9, 10⟩) ⟨0, 10⟩] := by
    intro name assigns
    rw [← assignsAttribute_iff] at assigns
    rintro rfl
    exact absurd assigns (by decide)
  apply (attribute_effect_iff _ true rfl rfl named).mpr
  refine ⟨rfl, _, rfl, ?_⟩
  rw [← assignsAttribute_iff]
  rfl

end Attributes

end AstSerialize
