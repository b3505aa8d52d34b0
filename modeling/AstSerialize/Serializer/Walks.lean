import AstSerialize.Serializer.Checkpoints
import AstSerialize.SourceType

/-! The checkpoints stop the serializer exactly where it panics. All comments of
parameters are found, and only a command of a tree is unsupported. -/
namespace AstSerialize

/-- The index into the comments is inside of them. -/
def Checkpoint.Indexed : Checkpoint → Prop
  | .argComment argComments idx => idx < argComments.length
  | _ => True

section Outcomes

variable (c : Config)

theorem toOption_bind {ε α β : Type} (x : Except ε α) (f : α → Except ε β) :
    (x >>= f).toOption = x.toOption >>= fun a => (f a).toOption := by
  cases x <;> rfl

theorem outcome_append (points points' : List Checkpoint) (seen : Bool) :
    outcome c (points ++ points') seen = outcome c points seen >>= outcome c points' := by
  rw [outcome, List.foldlM_append]
  rfl

theorem outcome_cons (p : Checkpoint) (points : List Checkpoint) (seen : Bool) :
    outcome c (p :: points) seen = p.pass c seen >>= outcome c points := by
  rw [outcome, List.foldlM_cons]
  rfl

theorem pass_literal (value : String) (range : TextRange) (seen : Bool) :
    (Checkpoint.pass c seen (.literal value range)).toOption
      = surrogatesAfterLiteral c value range seen := by
  rw [Checkpoint.pass]
  cases surrogatesAfterLiteral c value range seen <;> rfl

/-- What the reason for a stop says about the checkpoint. -/
theorem pass_error {p : Checkpoint} {seen : Bool} {panic : Panic}
    (stopped : p.pass c seen = .error panic) :
    (p = .unsupported ∧ panic = .unsupported) ∨ (¬ p.Indexed ∧ panic = .argComment) ∨
      panic = .escape ∨ panic = .tokens := by
  cases p with
  | clears =>
    rw [Checkpoint.pass] at stopped
    cases stopped
  | literal value range =>
    rw [Checkpoint.pass] at stopped
    split at stopped
    · cases stopped
    · cases stopped
      exact .inr (.inr (.inl rfl))
  | argComment argComments idx =>
    rw [Checkpoint.pass] at stopped
    split at stopped
    · cases stopped
    case isFalse outside =>
      cases stopped
      exact .inr (.inl ⟨outside, rfl⟩)
  | funcComment inClass parameters body =>
    rw [Checkpoint.pass] at stopped
    split at stopped
    · cases stopped
    · cases stopped
      exact .inr (.inr (.inr rfl))
  | unsupported =>
    rw [Checkpoint.pass] at stopped
    cases stopped
    exact .inl ⟨rfl, rfl⟩

/-- A walk stops for the reason of the first checkpoint that does not pass. -/
theorem outcome_error_iff (points : List Checkpoint) (seen : Bool) (panic : Panic) :
    outcome c points seen = .error panic ↔
      ∃ before p after, points = before ++ p :: after ∧
        ∃ seen', outcome c before seen = .ok seen' ∧ p.pass c seen' = .error panic := by
  constructor
  · intro stopped
    induction points generalizing seen with
    | nil => cases stopped
    | cons p points ih =>
      rw [outcome_cons] at stopped
      cases passed : p.pass c seen with
      | error panic' =>
        rw [passed] at stopped
        cases stopped
        exact ⟨[], p, points, rfl, seen, rfl, passed⟩
      | ok seen₁ =>
        rw [passed] at stopped
        obtain ⟨before, p', after, rfl, seen', reached, fails⟩ := ih seen₁ stopped
        refine ⟨p :: before, p', after, rfl, seen', ?_, fails⟩
        rw [outcome_cons, passed]
        exact reached
  · rintro ⟨before, p, after, rfl, seen', reached, fails⟩
    rw [outcome_append, reached]
    change outcome c (p :: after) seen' = _
    rw [outcome_cons, fails]
    rfl

/-- The serializer stops at an unsupported node if it comes to one. -/
theorem outcome_unsupported_iff (points : List Checkpoint) (seen : Bool) :
    outcome c points seen = .error .unsupported ↔
      ∃ before after, points = before ++ .unsupported :: after ∧
        ∃ seen', outcome c before seen = .ok seen' := by
  rw [outcome_error_iff]
  constructor
  · rintro ⟨before, p, after, split, seen', reached, fails⟩
    rcases pass_error c fails with ⟨rfl, -⟩ | ⟨-, other⟩ | other | other
    · exact ⟨before, after, split, seen', reached⟩
    · cases other
    · cases other
    · cases other
  · rintro ⟨before, after, split, seen', reached⟩
    exact ⟨before, .unsupported, after, split, seen', reached, rfl⟩

/-- With all indices inside, no comment is missed; and no module is an expression. -/
theorem outcome_indexed {points : List Checkpoint} (indexed : ∀ p ∈ points, p.Indexed)
    {seen : Bool} {panic : Panic} (stopped : outcome c points seen = .error panic) :
    panic ≠ .argComment ∧ panic ≠ .expression := by
  induction points generalizing seen with
  | nil => cases stopped
  | cons p points ih =>
    rw [List.forall_mem_cons] at indexed
    rw [outcome_cons] at stopped
    cases passed : p.pass c seen with
    | ok seen₁ =>
      rw [passed] at stopped
      exact ih indexed.2 stopped
    | error panic' =>
      rw [passed] at stopped
      cases stopped
      rcases pass_error c passed with ⟨-, rfl⟩ | ⟨outside, -⟩ | rfl | rfl
      · exact ⟨by decide, by decide⟩
      · exact absurd indexed.1 outside
      · exact ⟨by decide, by decide⟩
      · exact ⟨by decide, by decide⟩

/-- A step does with the flag what its checkpoint says, and fails where that stops. -/
theorem step_run (p : Checkpoint) (s : Serializer) :
    (p.step c).run s = (p.pass c s.hasSurrogates).toOption.map
      fun seen => ((), { s with hasSurrogates := seen }) := by
  cases p with
  | clears | unsupported => rfl
  | literal value range =>
    rw [pass_literal, Checkpoint.step, checkSurrogateCodepoint, surrogatesAfterLiteral]
    by_cases replaced : value.toList.contains '\uFFFD' = true
    · rw [if_pos replaced, if_pos replaced]
      cases seen : s.hasSurrogates with
      | true =>
        change (if s.hasSurrogates then _ else _ : SerM Unit).run s = _
        rw [seen]
        simp [← seen]
      | false =>
        change (if s.hasSurrogates then _ else _ : SerM Unit).run s = _
        rw [seen]
        rcases scanSurrogates 0 (c.textAt range) with _ | _ | _
        · rfl
        · simp [noteSurrogates, ← seen]
        · rfl
    · rw [if_neg replaced, if_neg replaced]
      rfl
  | argComment argComments idx =>
    rw [Checkpoint.step, Checkpoint.pass]
    by_cases inside : idx < argComments.length
    · rw [List.getElem?_eq_getElem inside, if_pos inside]
      rfl
    · rw [List.getElem?_eq_none (Nat.le_of_not_lt inside), if_neg inside]
      rfl
  | funcComment inClass parameters body =>
    rw [Checkpoint.step, Checkpoint.pass]
    cases findFuncTypeComment c inClass parameters body <;> rfl

theorem steps_run (points : List Checkpoint) (s : Serializer) :
    (points.forM (Checkpoint.step c)).run s = (outcome c points s.hasSurrogates).toOption.map
      fun seen => ((), { s with hasSurrogates := seen }) := by
  induction points generalizing s with
  | nil => rfl
  | cons p points ih =>
    have here := step_run c p s
    change (p.step c >>= fun _ => points.forM (Checkpoint.step c)).run s = _
    rw [outcome_cons, StateT.run_bind, here]
    cases p.pass c s.hasSurrogates with
    | error panic => rfl
    | ok seen => exact ih { s with hasSurrogates := seen }

end Outcomes

theorem commanded_append {points points' : List Checkpoint} {commands commands' : Bool}
    (first : .unsupported ∈ points → commands = true)
    (second : .unsupported ∈ points' → commands' = true)
    (mem : .unsupported ∈ points ++ points') : (commands || commands') = true := by
  rw [Bool.or_eq_true]
  rcases List.mem_append.mp mem with here | there
  · exact .inl (first here)
  · exact .inr (second there)

/-- The checkpoints of an action that leaves the flag as `f` says: they agree with it, and are
unsupported only where the tree has a command. -/
structure Walk (c : Config) (f : Bool → Option Bool) (points : List Checkpoint) (commands : Bool) :
    Prop where
  agrees : ∀ seen, (outcome c points seen).toOption = f seen
  indexed : ∀ p ∈ points, p.Indexed
  commanded : .unsupported ∈ points → commands = true

namespace Walk

variable {c : Config} {f g : Bool → Option Bool} {points points' : List Checkpoint}
  {commands commands' : Bool}

theorem nothing : Walk c some [] false where
  agrees _ := rfl
  indexed _ mem := nomatch mem
  commanded mem := nomatch mem

theorem next (first : Walk c f points commands) (second : Walk c g points' commands') :
    Walk c (f >=> g) (points ++ points') (commands || commands') where
  agrees seen := by
    rw [outcome_append, toOption_bind, first.agrees, Bind.kleisliRight]
    congr 1
    funext seen'
    exact second.agrees seen'
  indexed := List.forall_mem_append.mpr ⟨first.indexed, second.indexed⟩
  commanded := commanded_append first.commanded second.commanded

/-- The tree around may have more commands. -/
theorem wider (walk : Walk c f points commands) (more : commands = true → commands' = true) :
    Walk c f points commands' :=
  { walk with commanded := fun mem => more (walk.commanded mem) }

theorem clears (inside : Walk c f points commands) :
    Walk c (fun _ => f false) (.clears :: points) commands where
  agrees _ := by
    rw [outcome_cons]
    exact inside.agrees false
  indexed := List.forall_mem_cons.mpr ⟨True.intro, inside.indexed⟩
  commanded mem := by
    rcases List.mem_cons.mp mem with same | mem
    · cases same
    · exact inside.commanded mem

theorem literal (value : String) (range : TextRange) :
    Walk c (surrogatesAfterLiteral c value range) [.literal value range] false where
  agrees seen := by
    rw [outcome_cons, toOption_bind, pass_literal]
    cases surrogatesAfterLiteral c value range seen <;> rfl
  indexed := List.forall_mem_singleton.mpr True.intro
  commanded mem := nomatch List.mem_singleton.mp mem

theorem command : Walk c (fun _ => none) [.unsupported] true where
  agrees _ := rfl
  indexed := List.forall_mem_singleton.mpr True.intro
  commanded _ := rfl

theorem argComment {argComments : List (Option Expr)} {idx : Nat} (inside : idx < argComments.length) :
    Walk c some [.argComment argComments idx] false where
  agrees seen := by
    rw [outcome_cons, Checkpoint.pass, if_pos inside]
    rfl
  indexed := List.forall_mem_singleton.mpr inside
  commanded mem := nomatch List.mem_singleton.mp mem

/-- Checkpoints that leave the flag alone. -/
theorem silent (first : Walk c some points commands) (second : Walk c g points' commands') :
    Walk c g (points ++ points') (commands || commands') := first.next second

theorem silentLast (first : Walk c f points commands) (second : Walk c some points' commands') :
    Walk c f (points ++ points') (commands || commands') := by
  have walk := first.next second
  have same : f >=> some = f := by
    funext seen
    exact Option.bind_fun_some (f seen)
  rwa [same] at walk

end Walk

section Exprs

variable {c : Config}

theorem walk_variadic {argComments : List (Option Expr)} {idx : Nat} :
    ∀ param : Option Parameter, idx + param.toList.length ≤ argComments.length →
      Walk c some (variadicCheckpoints argComments idx param) (optParameterCommand param)
  | none, _ => .nothing
  | some (.mk _ _ _), covered => Walk.argComment covered |>.wider nofun

/-- From every index that leaves room for them, the parameters are walked. -/
abbrev DefaultsWalk (c : Config) (argComments : List (Option Expr))
    (parameters : List ParameterWithDefault) : Prop :=
  ∀ idx, idx + parameters.length ≤ argComments.length →
    Walk c (surrogatesAfterDefaults c parameters) (defaultsCheckpoints argComments idx parameters)
      (defaultsCommand parameters)

/-- The parameters of all kinds, from those with defaults. -/
theorem walk_parametersOf {argComments : List (Option Expr)}
    {posonlyargs args kwonlyargs : List ParameterWithDefault} {vararg kwarg : Option Parameter}
    (covered : (Parameters.mk posonlyargs args vararg kwonlyargs kwarg).len ≤ argComments.length)
    (walkPosonlyargs : DefaultsWalk c argComments posonlyargs)
    (walkArgs : DefaultsWalk c argComments args)
    (walkKwonlyargs : DefaultsWalk c argComments kwonlyargs) :
    Walk c (surrogatesAfterParameters c (.mk posonlyargs args vararg kwonlyargs kwarg))
      (parametersCheckpoints argComments (.mk posonlyargs args vararg kwonlyargs kwarg))
      (parametersCommand (.mk posonlyargs args vararg kwonlyargs kwarg)) := by
  have total : posonlyargs.length + args.length + vararg.toList.length + kwonlyargs.length
      + kwarg.toList.length ≤ argComments.length := covered
  have first := walkPosonlyargs 0 (by omega)
  have second := walkArgs posonlyargs.length (by omega)
  have third := walkKwonlyargs (posonlyargs.length + args.length + vararg.toList.length) (by omega)
  have rest : Walk c some (variadicCheckpoints argComments (posonlyargs.length + args.length) vararg)
      (optParameterCommand vararg) := walk_variadic vararg (by omega)
  have last : Walk c some (variadicCheckpoints argComments
      (posonlyargs.length + args.length + vararg.toList.length + kwonlyargs.length) kwarg)
      (optParameterCommand kwarg) := walk_variadic kwarg (by omega)
  exact first.next (second.next (rest.silent (third.silentLast last)))

theorem walk_parts (parts : List StringLiteral) : Walk c (surrogatesAfterParts c parts)
    (parts.map fun part => .literal part.value part.range) false := by
  induction parts with
  | nil => exact .nothing
  | cons part parts ih => exact .next (.literal part.value part.range) ih

mutual

theorem walk_expr : ∀ e : Expr, Walk c (surrogatesAfter c e) (exprCheckpoints e) e.hasCommand
  | .name _ _ | .numberLiteral _ _ | .booleanLiteral _ _ | .noneLiteral _ | .ellipsisLiteral _
  | .bytesLiteral _ _ => .nothing
  | .attribute value _ _ | .unaryOp _ value _ | .yieldFrom value _ | .starred value _
  | .await value _ => walk_expr value
  | .binOp left _ right _ | .subscript left right _ | .named left right _ =>
    .next (walk_expr left) (walk_expr right)
  | .call func args keywords _ =>
    .next (walk_expr func) (.next (walk_callArgs args) (walk_keywords keywords))
  | .list elts _ _ | .tuple elts _ _ | .set elts _ | .boolOp _ elts _ => walk_exprs elts
  | .generator elt generators _ | .listComp elt generators _ | .setComp elt generators _ =>
    .next (walk_expr elt) <| .wider (.next (walk_targets generators) <|
      .next (walk_iters generators) (walk_conds generators)) <| by simp
  | .dictComp key value generators _ =>
    .next (walk_optExpr key) <| .next (walk_expr value) <| .wider (.next (walk_targets generators) <|
      .next (walk_iters generators) (walk_conds generators)) <| by simp
  | .yield value _ => walk_optExpr value
  | .compare left _ comparators _ => .next (walk_expr left) (walk_exprs comparators)
  | .ifExp test body orelse _ =>
    .next (walk_expr body) (.next (walk_expr test) (walk_expr orelse))
  | .dict items _ => .wider (.next (walk_keys items) (walk_values items)) <| by simp [Expr.hasCommand]
  | .slice lower upper step _ =>
    .next (walk_optExpr lower) (.next (walk_optExpr upper) (walk_optExpr step))
  | .stringLiteral value _ => .clears (walk_parts value)
  | .fString value _ => .clears (walk_fStringParts value)
  | .tString elements _ => .clears (walk_tStringElements elements)
  | .ipyEscapeCommand _ => .command
  | .lambda (some (.mk posonlyargs args _ kwonlyargs _)) body _ =>
    .next (walk_parametersOf (Nat.le_of_eq List.length_replicate.symm) (walk_defaults posonlyargs _)
      (walk_defaults args _) (walk_defaults kwonlyargs _)) (walk_expr body)
  | .lambda none body _ => walk_expr body

theorem walk_exprs : ∀ es : List Expr,
    Walk c (surrogatesAfterExprs c es) (exprsCheckpoints es) (exprsCommand es)
  | [] => .nothing
  | e :: es => .next (walk_expr e) (walk_exprs es)

theorem walk_optExpr : ∀ e : Option Expr,
    Walk c (surrogatesAfterOpt c e) (optExprCheckpoints e) (optExprCommand e)
  | none => .nothing
  | some e => walk_expr e

theorem walk_callArgs : ∀ args : List Expr,
    Walk c (surrogatesAfterCallArgs c args) (exprsCheckpoints args) (exprsCommand args)
  | [] => .nothing
  | arg :: args => by
    rw [surrogatesAfterCallArgs_cons, surrogatesAfter_unstarred]
    exact .next (walk_expr arg) (walk_callArgs args)

theorem walk_keywords : ∀ keywords : List Keyword,
    Walk c (surrogatesAfterKeywords c keywords) (keywordsCheckpoints keywords)
      (keywordsCommand keywords)
  | [] => .nothing
  | .mk _ value :: keywords => .next (walk_expr value) (walk_keywords keywords)

theorem walk_targets : ∀ generators : List Comprehension,
    Walk c (surrogatesAfterTargets c generators) (targetsCheckpoints generators)
      (comprehensionsCommand generators)
  | [] => .nothing
  | .mk target iter ifs _ :: generators =>
    .wider (.next (walk_expr target) (walk_targets generators)) <| by
      simp only [comprehensionsCommand, Bool.or_eq_true]
      tauto

theorem walk_iters : ∀ generators : List Comprehension,
    Walk c (surrogatesAfterIters c generators) (itersCheckpoints generators)
      (comprehensionsCommand generators)
  | [] => .nothing
  | .mk target iter ifs _ :: generators =>
    .wider (.next (walk_expr iter) (walk_iters generators)) <| by
      simp only [comprehensionsCommand, Bool.or_eq_true]
      tauto

theorem walk_conds : ∀ generators : List Comprehension,
    Walk c (surrogatesAfterConds c generators) (condsCheckpoints generators)
      (comprehensionsCommand generators)
  | [] => .nothing
  | .mk target iter ifs _ :: generators =>
    .wider (.next (walk_exprs ifs) (walk_conds generators)) <| by
      simp only [comprehensionsCommand, Bool.or_eq_true]
      tauto

theorem walk_keys : ∀ items : List DictItem,
    Walk c (surrogatesAfterKeys c items) (keysCheckpoints items) (itemsCommand items)
  | [] => .nothing
  | .mk key value :: items =>
    .wider (.next (walk_optExpr key) (walk_keys items)) <| by
      simp only [itemsCommand, Bool.or_eq_true]
      tauto

theorem walk_values : ∀ items : List DictItem,
    Walk c (surrogatesAfterValues c items) (valuesCheckpoints items) (itemsCommand items)
  | [] => .nothing
  | .mk key value :: items =>
    .wider (.next (walk_expr value) (walk_values items)) <| by
      simp only [itemsCommand, Bool.or_eq_true]
      tauto

theorem walk_defaults : ∀ (parameters : List ParameterWithDefault)
    (argComments : List (Option Expr)), DefaultsWalk c argComments parameters
  | [], _, _, _ => .nothing
  | .mk (.mk _ ann _) default _ :: parameters, argComments, idx, covered => by
    rw [List.length_cons] at covered
    have inside : idx < argComments.length := by omega
    have rest := walk_defaults parameters argComments (idx + 1) (by omega)
    refine .wider (.silent (.argComment inside) (.next (walk_optExpr default) rest)) ?_
    simp only [defaultsCommand, Bool.false_or, Bool.or_eq_true]
    tauto

theorem walk_fStringParts : ∀ parts : List FStringPart,
    Walk c (surrogatesAfterFStringParts c parts) (partsCheckpoints parts) (partsCommand parts)
  | [] => .nothing
  | .fString elements :: parts => .next (walk_elements elements) (walk_fStringParts parts)
  | .literal lit :: parts => .next (.literal lit.value lit.range) (walk_fStringParts parts)

theorem walk_elements : ∀ elements : List InterpolatedStringElement,
    Walk c (surrogatesAfterElements c elements) (elementsCheckpoints elements)
      (elementsCommand elements)
  | [] => .nothing
  | .literal value range :: elements => .next (.literal value range) (walk_elements elements)
  | .interpolation expression _ _ formatSpec :: elements =>
    .next (walk_expr expression) (.next (walk_formatSpec formatSpec) (walk_elements elements))

theorem walk_formatSpec : ∀ formatSpec : Option FormatSpec,
    Walk c (surrogatesAfterFormatSpec c formatSpec) (formatSpecCheckpoints formatSpec)
      (formatSpecCommand formatSpec)
  | none => .nothing
  | some (.mk elements _) => walk_elements elements

theorem walk_tStringElements : ∀ elements : List InterpolatedStringElement,
    Walk c (surrogatesAfterTStringElements c elements) (elementsCheckpoints elements)
      (elementsCommand elements)
  | [] => .nothing
  | .literal value range :: elements =>
    .next (.literal value range) (walk_tStringElements elements)
  | .interpolation expression _ _ formatSpec :: elements =>
    .next (walk_expr expression) (.next (walk_formatSpec formatSpec)
      (walk_tStringElements elements))

end

theorem walk_parameters {argComments : List (Option Expr)} (parameters : Parameters)
    (covered : parameters.len ≤ argComments.length) :
    Walk c (surrogatesAfterParameters c parameters) (parametersCheckpoints argComments parameters)
      (parametersCommand parameters) := by
  cases parameters with
  | mk posonlyargs args vararg kwonlyargs kwarg =>
    exact walk_parametersOf covered (walk_defaults posonlyargs _) (walk_defaults args _)
      (walk_defaults kwonlyargs _)

mutual

theorem walk_pattern : ∀ p : Pattern,
    Walk c (surrogatesAfterPattern c p) (patternCheckpoints p) p.hasCommand
  | .matchSingleton _ _ | .matchStar _ _ => .nothing
  | .matchAs pattern _ _ => walk_optPattern pattern
  | .matchOr patterns _ | .matchSequence patterns _ => walk_patterns patterns
  | .matchValue value _ => walk_expr value
  | .matchMapping items _ _ => walk_items items
  | .matchClass cls patterns keywords _ =>
    .next (walk_expr cls) (.next (walk_patterns patterns) (walk_keywordPatterns keywords))

theorem walk_optPattern : ∀ p : Option Pattern,
    Walk c (surrogatesAfterOptPattern c p) (optPatternCheckpoints p) (optPatternCommand p)
  | none => .nothing
  | some pattern => walk_pattern pattern

theorem walk_patterns : ∀ patterns : List Pattern,
    Walk c (surrogatesAfterPatterns c patterns) (patternsCheckpoints patterns)
      (patternsCommand patterns)
  | [] => .nothing
  | pattern :: patterns => .next (walk_pattern pattern) (walk_patterns patterns)

theorem walk_items : ∀ items : List (Expr × Pattern),
    Walk c (surrogatesAfterItems c items) (mappingCheckpoints items) (mappingCommand items)
  | [] => .nothing
  | (key, pattern) :: items => .next (walk_expr key) (.next (walk_pattern pattern) (walk_items items))

theorem walk_keywordPatterns : ∀ keywords : List (Identifier × Pattern),
    Walk c (surrogatesAfterKeywordPatterns c keywords) (keywordPatternsCheckpoints keywords)
      (keywordPatternsCommand keywords)
  | [] => .nothing
  | (_, pattern) :: keywords => .next (walk_pattern pattern) (walk_keywordPatterns keywords)

end

end Exprs

/-- The checkpoints of a statement, which can be passed from one flag as from the other: the
serializer passes them unless it panics. -/
structure Passes (c : Config) (ok : Bool) (points : List Checkpoint) (commands : Bool) : Prop where
  agrees : ∀ seen, (outcome c points seen).toOption.isSome = ok
  indexed : ∀ p ∈ points, p.Indexed
  commanded : .unsupported ∈ points → commands = true

theorem Walk.passes {c : Config} {f : Bool → Option Bool} {points : List Checkpoint}
    {commands : Bool} (walk : Walk c f points commands) (uniform : Uniform f) :
    Passes c (supports f) points commands where
  agrees seen := by
    rw [walk.agrees]
    exact uniform seen false
  indexed := walk.indexed
  commanded := walk.commanded

namespace Passes

variable {c : Config} {ok ok' : Bool} {points points' : List Checkpoint} {commands commands' : Bool}

theorem nothing : Passes c true [] false where
  agrees _ := rfl
  indexed _ mem := nomatch mem
  commanded mem := nomatch mem

theorem next (first : Passes c ok points commands) (second : Passes c ok' points' commands') :
    Passes c (ok && ok') (points ++ points') (commands || commands') where
  agrees seen := by
    rw [outcome_append, toOption_bind, ← first.agrees seen]
    cases (outcome c points seen).toOption with
    | none => rfl
    | some seen' => exact second.agrees seen'
  indexed := List.forall_mem_append.mpr ⟨first.indexed, second.indexed⟩
  commanded := commanded_append first.commanded second.commanded

theorem wider (passes : Passes c ok points commands) (more : commands = true → commands' = true) :
    Passes c ok points commands' :=
  { passes with commanded := fun mem => more (passes.commanded mem) }

theorem command : Passes c false [.unsupported] true := Walk.command.passes (.const none)

theorem funcComment {inClass : Bool} {parameters : Parameters} {body : List Stmt} :
    Passes c (findFuncTypeComment c inClass parameters body).isSome
      [.funcComment inClass parameters body] false where
  agrees seen := by
    rw [outcome_cons, Checkpoint.pass]
    cases findFuncTypeComment c inClass parameters body <;> rfl
  indexed := List.forall_mem_singleton.mpr True.intro
  commanded mem := nomatch List.mem_singleton.mp mem

end Passes

section Stmts

variable {c : Config} {skip : Bool}

theorem passes_expr (e : Expr) : Passes c (supportsExpr c e) (exprCheckpoints e) e.hasCommand :=
  (walk_expr e).passes (uniform_expr c e)

theorem passes_exprs (es : List Expr) :
    Passes c (supportsExprs c es) (exprsCheckpoints es) (exprsCommand es) :=
  (walk_exprs es).passes (uniform_exprs c es)

theorem passes_optExpr (e : Option Expr) :
    Passes c (supportsOptExpr c e) (optExprCheckpoints e) (optExprCommand e) :=
  (walk_optExpr e).passes (uniform_optExpr c e)

theorem passes_pattern (p : Pattern) :
    Passes c (supportsPattern c p) (patternCheckpoints p) p.hasCommand :=
  (walk_pattern p).passes (uniform_pattern c p)

theorem functionArgTypes_length (inClass : Bool) (head : FunctionHead) (body : List Stmt) :
    (functionArgTypes c inClass head body).length = head.parameters.len := by
  unfold functionArgTypes
  split
  case h_1 comment found => exact findFuncTypeComment_length c found
  case h_2 => exact List.length_replicate

theorem passes_parameters (inClass : Bool) (head : FunctionHead) (body : List Stmt) :
    Passes c (supportsParameters c head.parameters)
      (parametersCheckpoints (functionArgTypes c inClass head body) head.parameters)
      (parametersCommand head.parameters) :=
  (walk_parameters head.parameters (Nat.le_of_eq (functionArgTypes_length inClass head body).symm)).passes
    (uniform_parameters c head.parameters)

theorem passes_classKeywords (keywords : List Keyword) :
    Passes c (supportsKeywords c keywords) (classKeywordsCheckpoints keywords)
      (keywordsCommand keywords) := by
  induction keywords with
  | nil => exact .nothing
  | cons keyword keywords ih =>
    rcases keyword with ⟨_ | arg, value⟩
    · refine ih.wider fun command => ?_
      rw [keywordsCommand, command, Bool.or_true]
    · exact .next (passes_expr value) ih

theorem keywordsCommand_filter (keywords : List Keyword) (p : Keyword → Bool)
    (command : keywordsCommand (keywords.filter p) = true) : keywordsCommand keywords = true := by
  induction keywords with
  | nil => exact command
  | cons keyword keywords ih =>
    rcases keyword with ⟨arg, value⟩
    rw [keywordsCommand, Bool.or_eq_true]
    rw [List.filter_cons] at command
    split at command
    · rw [keywordsCommand, Bool.or_eq_true] at command
      exact command.imp_right ih
    · exact .inr (ih command)

theorem passes_withItems (items : List WithItem) :
    Passes c (supportsWithItems c items) (withItemsCheckpoints items) (withItemsCommand items) := by
  induction items with
  | nil => exact .nothing
  | cons item items ih =>
    exact .next (passes_expr item.contextExpr) (.next (passes_optExpr item.optionalVars) ih)

theorem passes_handlerTypes (handlers : List ExceptHandler) :
    Passes c (supportsHandlerTypes c handlers) (handlerTypesCheckpoints handlers)
      (handlersCommand handlers) := by
  induction handlers with
  | nil => exact .nothing
  | cons handler handlers ih =>
    rcases handler with ⟨type, name, body, range⟩
    refine .wider (.next (passes_optExpr type) ih) ?_
    simp only [handlersCommand, Bool.or_eq_true]
    tauto

/-- What a class is written with has no commands but those of its head. -/
theorem passes_classHead (head : ClassHead) :
    Passes c (supportsExprs c head.bases
        && (supportsExprs c (head.decoratorList.map (·.expression))
        && supportsKeywords c head.namedKeywords))
      (exprsCheckpoints head.bases ++ (exprsCheckpoints (head.decoratorList.map (·.expression))
        ++ classKeywordsCheckpoints head.namedKeywords)) head.hasCommand := by
  refine .wider (.next (passes_exprs head.bases) (.next (passes_exprs _)
    (passes_classKeywords head.namedKeywords))) ?_
  unfold ClassHead.hasCommand ClassHead.bases ClassHead.namedKeywords
  cases head.arguments with
  | none =>
    simp only [exprsCommand, keywordsCommand, Bool.or_eq_true]
    tauto
  | some arguments =>
    have named := keywordsCommand_filter arguments.keywords (·.arg.isSome)
    simp only [Bool.or_eq_true]
    tauto

mutual

theorem passes_stmt : ∀ (stmt : Stmt) (inClass : Bool),
    Passes c (supportsStmt c skip inClass stmt) (stmtCheckpoints c skip inClass stmt) stmt.hasCommand
  | .functionDef head body, inClass => by
    have written : Passes c
        (if omitsBody skip inClass head body then true else supportsStmts c skip inClass body)
        (if omitsBody skip inClass head body then [] else stmtsCheckpoints c skip inClass body)
        (stmtsCommand body) := by
      have whole := passes_stmts body inClass
      split
      · exact Passes.nothing.wider nofun
      · exact whole
    refine .wider (.next .funcComment <| .next (passes_exprs _) <|
      .next (passes_parameters inClass head body) written) ?_
    simp only [Stmt.hasCommand, FunctionHead.hasCommand, Bool.false_or, Bool.or_eq_true]
    tauto
  | .classDef head body, _ => .next (passes_stmts body true) (passes_classHead head)
  | .expr value _, _ => passes_expr value
  | .assign targets value _, _ => .next (passes_exprs targets) (passes_expr value)
  | .annAssign target ann value _, _ => by
    refine .wider (.next (passes_expr target) (passes_optExpr value)) ?_
    simp only [Stmt.hasCommand, Bool.or_eq_true]
    tauto
  | .augAssign target _ value _, _ => .next (passes_expr target) (passes_expr value)
  | .return value _, _ => passes_optExpr value
  | .raise exc cause _, _ => .next (passes_optExpr exc) (passes_optExpr cause)
  | .assert test msg _, _ => .next (passes_expr test) (passes_optExpr msg)
  | .if test body clauses _, inClass =>
    .next (passes_expr test) (.next (passes_stmts body inClass) (passes_clauses clauses inClass))
  | .while test body orelse _, inClass =>
    .next (passes_expr test) (.next (passes_stmts body inClass) (passes_stmts orelse inClass))
  | .for _ target iter body orelse _, inClass =>
    .next (passes_expr target) <| .next (passes_expr iter) <|
      .next (passes_stmts body inClass) (passes_stmts orelse inClass)
  | .with _ items body _, inClass => .next (passes_withItems items) (passes_stmts body inClass)
  | .try body handlers orelse finalbody _ _, inClass => by
    refine .wider (.next (passes_stmts body inClass) <| .next (passes_handlerTypes handlers) <|
      .next (passes_handlers handlers inClass) <|
      .next (passes_stmts orelse inClass) (passes_stmts finalbody inClass)) ?_
    simp only [Stmt.hasCommand, Bool.or_eq_true]
    tauto
  | .delete targets _, _ => passes_exprs targets
  | .match subject cases _, inClass => .next (passes_expr subject) (passes_cases cases inClass)
  | .typeAlias name typeParams value _, _ => by
    refine .wider (.next (passes_expr name) (passes_expr value)) ?_
    simp only [Stmt.hasCommand, Bool.or_eq_true]
    tauto
  | .import _ _ _, _ | .importFrom _ _ _ _ _, _ | .global _ _, _ | .nonlocal _ _, _ | .pass _, _
  | .break _, _ | .continue _, _ => .nothing
  | .ipyEscapeCommand _, _ => .command

theorem passes_stmts : ∀ (stmts : List Stmt) (inClass : Bool),
    Passes c (supportsStmts c skip inClass stmts) (stmtsCheckpoints c skip inClass stmts)
      (stmtsCommand stmts)
  | [], _ => .nothing
  | stmt :: stmts, inClass => .next (passes_stmt stmt inClass) (passes_stmts stmts inClass)

theorem passes_clauses : ∀ (clauses : ElifElseClauses) (inClass : Bool),
    Passes c (supportsClauses c skip inClass clauses) (clausesCheckpoints c skip inClass clauses)
      (clausesCommand clauses)
  | .nil, _ => .nothing
  | .elif test body _ rest, inClass =>
    .next (passes_expr test) (.next (passes_stmts body inClass) (passes_clauses rest inClass))
  | .else body _, inClass => passes_stmts body inClass

theorem passes_handlers : ∀ (handlers : List ExceptHandler) (inClass : Bool),
    Passes c (supportsHandlers c skip inClass handlers) (handlersCheckpoints c skip inClass handlers)
      (handlersCommand handlers)
  | [], _ => .nothing
  | .mk type _ body _ :: handlers, inClass => by
    refine .wider (.next (passes_stmts body inClass) (passes_handlers handlers inClass)) ?_
    simp only [handlersCommand, Bool.or_eq_true]
    tauto

theorem passes_cases : ∀ (cases : List MatchCase) (inClass : Bool),
    Passes c (supportsCases c skip inClass cases) (casesCheckpoints c skip inClass cases)
      (casesCommand cases)
  | [], _ => .nothing
  | .mk pattern guard body _ :: cases, inClass =>
    .next (passes_pattern pattern) <| .next (passes_optExpr guard) <|
      .next (passes_stmts body inClass) (passes_cases cases inClass)

end

end Stmts

end AstSerialize
