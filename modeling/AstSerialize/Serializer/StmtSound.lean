import AstSerialize.Serializer.StmtTree
import AstSerialize.Wire.StmtDecoder

/-! Serializing a statement emits its tree, adds to the trace and restores the
scope; where `supportsStmt` fails it panics. -/
namespace AstSerialize
open Coding

section Lists

variable {cv : Nat}

theorem toWireTypeParams_length (c : Config) (scope : Scope) (params : List TypeParam) :
    (toWireTypeParams c scope params).length = params.length := by
  induction params with
  | nil => rfl
  | cons param params ih => cases param <;> simp [toWireTypeParams, ih]

theorem toWireStmts_length (c : Config) (skip : Bool) (scope : Scope) (stmts : List Stmt) :
    (toWireStmts c skip scope stmts).length = stmts.length := by
  induction stmts with
  | nil => rfl
  | cons stmt stmts ih => simp [toWireStmts, ih]

theorem toWireHandlers_length (c : Config) (skip : Bool) (scope : Scope)
    (handlers : List ExceptHandler) :
    (toWireHandlers c skip scope handlers).length = handlers.length := by
  induction handlers with
  | nil => rfl
  | cons handler handlers ih =>
    cases handler
    simp [toWireHandlers, ih]

theorem toWireCases_length (c : Config) (skip : Bool) (scope : Scope) (flags : List BranchFlags)
    (cases : List MatchCase) :
    (toWireCases c skip scope flags cases).length = cases.length := by
  induction cases generalizing flags with
  | nil => rfl
  | cons matchCase cases ih =>
    cases matchCase
    simp [toWireCases, ih]

theorem toWireWithItems_length (c : Config) (scope : Scope) (items : List WithItem) :
    (toWireWithItems c scope items).length = items.length := by
  induction items with
  | nil => rfl
  | cons item items ih => simp [toWireWithItems, ih]

theorem toWireElifs_length (c : Config) (skip : Bool) (scope : Scope) :
    ∀ (clauses : ElifElseClauses) (flags : List BranchFlags),
      (toWireElifs c skip scope flags clauses).length = clauses.numElif
  | .nil, _ | .else _ _, _ => rfl
  | .elif _ _ _ rest, flags =>
    congrArg (· + 1) (toWireElifs_length c skip scope rest flags.tail)

end Lists

section Scopes

variable {scope : Scope} {m : SerM Unit} {ok : Bool} {e : Trace} {w : Bytes}

/-- An update of the trace. -/
theorem records_trace {f : Serializer → Serializer}
    (moved : ∀ s, (f s).tracked = ⟨s.tracked.scope, s.tracked.trace + e⟩)
    (still : ∀ s, (f s).bytes = s.bytes) : Records scope (modify f) true e [] := by
  apply Logs.adding
  intro trace
  refine .modify ?_ still
  intro s hs
  change s.tracked = _ at hs
  change (f s).tracked = _
  rw [moved, hs]

/-- An update of the scope. -/
theorem emits_scope {scope' : Scope} {f : Serializer → Serializer} {g : Scope → Scope}
    (moved : ∀ s, (f s).tracked = ⟨g s.tracked.scope, s.tracked.trace⟩)
    (still : ∀ s, (f s).bytes = s.bytes) (reached : g scope = scope') (trace : Trace) :
    Emits stmtPort (modify f) (scope.tracked trace) [] (scope'.tracked trace) := by
  refine .modify ?_ still
  intro s hs
  change s.tracked = _ at hs
  change (f s).tracked = _
  rw [moved, hs, reached]

theorem records_withinFunction (h : Records scope.enterFunction m ok e w) :
    Records scope (withinFunction m) ok e w := by
  refine .read (g := fun t => t.scope.inFunction) (x := scope.inFunction) (fun _ => rfl)
    (fun _ => rfl) ?_
  apply h.within
  · exact emits_scope (g := Scope.enterFunction) (fun _ => rfl) (fun _ => rfl) rfl
  · exact emits_scope (g := fun inner => { inner with inFunction := scope.inFunction })
      (fun _ => rfl) (fun _ => rfl) rfl

theorem records_withinClass (h : Records scope.enterClass m ok e w) :
    Records scope (withinClass m) ok e w := by
  refine .read (g := fun t => t.scope.inClass) (x := scope.inClass) (fun _ => rfl)
    (fun _ => rfl) ?_
  apply h.within
  · exact emits_scope (g := Scope.enterClass) (fun _ => rfl) (fun _ => rfl) rfl
  · exact emits_scope (g := fun inner => { inner with inClass := scope.inClass })
      (fun _ => rfl) (fun _ => rfl) rfl

theorem records_withBranchFlags {flags : BranchFlags}
    (h : Records (scope.enterBranch flags) m ok e w) :
    Records scope (withBranchFlags flags m) ok e w := by
  refine .read (g := fun t => (t.scope.unreachable, t.scope.mypyOnly))
    (x := (scope.unreachable, scope.mypyOnly)) (fun _ => rfl) (fun _ => rfl) ?_
  apply h.within
  · exact emits_scope (g := fun outer => outer.enterBranch flags) (fun _ => rfl) (fun _ => rfl) rfl
  · exact emits_scope
      (g := fun inner =>
        { inner with unreachable := scope.unreachable, mypyOnly := scope.mypyOnly })
      (fun _ => rfl) (fun _ => rfl) rfl

end Scopes

section Blocks

variable {c : Config} {scope : Scope} {m : SerM Unit} {ok : Bool} {e : Trace} {w : Bytes}

theorem records_skipBlock (unreachable : Bool) (block : List Stmt) :
    Records scope (skipBlock c unreachable block) true ⟨[], skippedBlock c unreachable block, false⟩
      [] := by
  cases block with
  | nil => exact .quiet fun _ => .pure
  | cons first rest =>
    unfold skipBlock skippedBlock
    cases unreachable with
    | false => exact .quiet fun _ => .pure
    | true =>
      apply records_trace
      · intro s
        simp only [Serializer.tracked, Tracked.mk.injEq, true_and]
        ext <;> simp
      · exact fun _ => rfl

/-- The flag of a block, the lines it skips, and what follows. -/
theorem records_blockFlag {ws : List Bytes} {k : SerM Unit} (block : List Stmt)
    (rest : Records scope k ok e ws.flatten) :
    Records scope (do
      let unreachable ← (·.currentUnreachable) <$> get
      writeBool unreachable
      skipBlock c unreachable block
      k) ok (blockTrace c scope block e) (encBool scope.unreachable :: ws).flatten := by
  refine .read (g := fun t => t.scope.unreachable) (x := scope.unreachable) (fun _ => rfl)
    (fun _ => rfl) ?_
  exact .pass (fun _ => emits_bool _) ((records_skipBlock scope.unreachable block).bind rest)

theorem records_block {block : List Stmt} {trees : List (WStmt c.cacheVersion)}
    (range : TextRange) (length : trees.length = block.length)
    (items : Records scope m ok e (encStmts trees)) :
    Records scope (serializeBlock c block (some range) m) ok (blockTrace c scope block e)
      (encBlock (toWireBlock c scope range trees)) := by
  have close (trees : List (WStmt c.cacheVersion)) (items : Records scope m ok e (encStmts trees)) :
      Records scope (do m; writeEndTag) ok e [encStmts trees, encTag .end].flatten :=
    .close items fun _ => .last emits_end
  cases block with
  | nil =>
    obtain rfl := List.length_eq_zero_iff.mp length
    exact .pass (fun _ => emits_tag _) <| .pass (fun _ => emits_tag _) <|
      .pass (fun _ => emits_count 0) <| records_blockFlag [] <|
      .pass (fun _ => emits_location c range) (close [] items)
  | cons first rest =>
    obtain ⟨tree, others, rfl⟩ := List.exists_cons_of_length_eq_add_one length
    have written : Records scope (do
        writeFallback c (first :: rest) (some range)
        m
        writeEndTag) ok e [encStmt tree, encStmts others, encTag .end].flatten := by
      apply Logs.skip
      · exact fun _ => .pure
      · simpa [encStmts] using close _ items
    have count : others.length + 1 = (first :: rest).length := length
    rw [toWireBlock, encBlock, count]
    exact .pass (fun _ => emits_tag _) <| .pass (fun _ => emits_tag _) <|
      .pass (fun _ => emits_count _) <| records_blockFlag (first :: rest) written

/-- The `else` block of a loop. -/
theorem records_elseBlock {block : List Stmt} {trees : List (WStmt c.cacheVersion)}
    (length : trees.length = block.length) (items : Records scope m ok e (encStmts trees)) :
    Records scope (serializeBlock c block none m) ok (blockTrace c scope block e)
      (encElse (.mk scope.unreachable trees)) := by
  have written : Records scope (do
      writeFallback c block none
      m
      writeEndTag) ok e [encStmts trees, encTag .end].flatten := by
    apply Logs.skip
    · intro trace
      cases block <;> exact .pure
    · exact .close items fun _ => .last emits_end
  rw [encElse, length]
  exact .pass (fun _ => emits_tag _) <| .pass (fun _ => emits_tag _) <|
    .pass (fun _ => emits_count _) <| records_blockFlag block written

theorem emits_emptyBlock (range : TextRange) (trace : Trace) :
    Emits stmtPort (serializeEmptyBlock c range) (scope.tracked trace)
      (encBlock (.empty scope.unreachable (c.location range) : WBlock c.cacheVersion))
      (scope.tracked trace) := by
  have flag : Emits stmtPort (do
      writeBool (← (·.currentUnreachable) <$> get)
      writeLocation c range
      writeEndTag) (scope.tracked trace)
      [encBool scope.unreachable, encLocation (c.location range), encTag .end].flatten
      (scope.tracked trace) :=
    .read (g := fun t => t.scope.unreachable) (fun _ => rfl) <|
      .step (emits_bool _) (emits_close c range)
  exact .step (emits_tag _) <| .step (emits_tag _) <| .step (emits_int 0) flag

theorem records_optBlock {block : List Stmt} {trees : List (WStmt c.cacheVersion)}
    (range : TextRange) (length : trees.length = block.length)
    (items : Records scope m ok e (encStmts trees)) (idle : block = [] → ok = true) :
    Records scope (serializeOptBlock c block range m) ok (optBlockTrace c scope block e)
      (encOptBlock (toWireOptBlock c scope block range trees)) := by
  unfold serializeOptBlock optBlockTrace toWireOptBlock
  cases block with
  | nil =>
    rw [idle rfl]
    exact .quiet fun _ => emits_bool false
  | cons first rest =>
    exact .pass (fun _ => emits_bool true) <| .last (records_block range length items)

/-- A missing `else` writes its flag, and the empty block if it is unreachable. -/
theorem records_syntheticElse (range : TextRange) (flags : BranchFlags) :
    Records scope (serializeSyntheticElse c range (some flags)) true 0
      (encOptBlock (toWireSyntheticElse c scope range (some flags))) := by
  simp only [serializeSyntheticElse, toWireSyntheticElse]
  split
  · exact .pass (fun _ => emits_bool true) <| .last <|
      records_withBranchFlags (.quiet (emits_emptyBlock range))
  · exact .quiet fun _ => emits_bool false

end Blocks

section Definitions

variable {c : Config} {scope : Scope}

theorem emits_optType (type : Option Expr) (trace : Trace) :
    Emits stmtPort (serializeOptType c type) (scope.tracked trace)
      (encOption encType (type.map (toWireType c scope.isEvaluated))) (scope.tracked trace) := by
  cases type with
  | none => exact emits_bool false
  | some type => exact .step (emits_bool true) (.last (emits_typeQuietly type trace))

theorem emits_typesQuietly (types : List Expr) (trace : Trace) :
    Emits stmtPort (serializeTypes c (serializeStringType c) types) (scope.tracked trace)
      (encTypes (toWireTypes c (toWireStringType c false) scope.isEvaluated types))
      (scope.tracked trace) :=
  Emits.hideFlag fun b =>
    ⟨b, emits_types types fun value _ range => emits_stringType _ b value range⟩

/-- A type comment is not evaluated. -/
theorem emits_commentType (comment : Expr) (range : TextRange) (trace : Trace) :
    Emits stmtPort (unevaluated (serializeType c (comment.relocate range))) (scope.tracked trace)
      (encType (toWireType c false (comment.relocate range))) (scope.tracked trace) :=
  Emits.hideFlag fun b => ⟨b, emits_argComment comment range b⟩

theorem emits_typeParam (kind : Int) (name : Identifier) (bound : Option Expr)
    (values : List Expr) (default : Option Expr) (trace : Trace) :
    Emits stmtPort (serializeTypeParam c kind name bound values default) (scope.tracked trace)
      (encTypeParams [toWireTypeParam c scope kind name bound values default])
      (scope.tracked trace) := by
  refine .congr (.step (emits_taggedInt kind) <| .step (emits_bytes _) <|
    .step (emits_optType bound trace) <| .step (emits_tag _) <| .step (emits_int _) <|
    .step (emits_typesQuietly values trace) <| .last (emits_optType default trace)) ?_
  simp [encTypeParams, toWireTypeParam, encListed, encCount, toWireTypes_length]

theorem encTypeParams_cons {cv : Nat} (param : WTypeParam cv) (params : List (WTypeParam cv)) :
    encTypeParams (param :: params) = encTypeParams [param] ++ encTypeParams params := by
  cases param
  simp [encTypeParams]

theorem emits_typeParams (params : List TypeParam) (trace : Trace) :
    Emits stmtPort (serializeTypeParams c params) (scope.tracked trace)
      (encTypeParams (toWireTypeParams c scope params)) (scope.tracked trace) := by
  induction params with
  | nil => exact .pure
  | cons param params ih =>
    cases param with
    | typeVar name bound default =>
      rw [toWireTypeParams, encTypeParams_cons]
      exact (emits_typeParam _ name _ _ default trace).bind ih
    | paramSpec name default =>
      rw [toWireTypeParams, encTypeParams_cons]
      exact (emits_typeParam _ name none [] default trace).bind ih
    | typeVarTuple name default =>
      rw [toWireTypeParams, encTypeParams_cons]
      exact (emits_typeParam _ name none [] default trace).bind ih

theorem emits_optTypeParams (params : Option (List TypeParam)) (trace : Trace) :
    Emits stmtPort (serializeOptTypeParams c params) (scope.tracked trace)
      (encOptTypeParams (params.map (toWireTypeParams c scope))) (scope.tracked trace) := by
  cases params with
  | none => exact emits_bool false
  | some params =>
    rw [Option.map_some, encOptTypeParams, toWireTypeParams_length]
    exact .step (emits_bool true) <| .last <| .step (emits_int _) <|
      .last (emits_typeParams params trace)

theorem emits_locationOf {t : Tracked} (loc : Location) :
    Emits stmtPort (writeLocationOf loc) t (encLocation loc) t :=
  .step (emits_tag _) <| .step (emits_int _) <| .step (emits_int _) <| .step (emits_int _) <|
    .last (emits_int _)

theorem emits_errors {t : Tracked} (range : TextRange) (errors : List String) :
    Emits stmtPort (reportErrors c range errors) t [] t := by
  induction errors with
  | nil => exact .pure
  | cons error errors ih => exact (emits_error c error range false).bind ih

theorem emits_returns (head : FunctionHead) (retComment : Option Expr) (trace : Trace) :
    Emits stmtPort (serializeReturns c head retComment) (scope.tracked trace)
      (encOption encType (toWireReturns c scope head retComment)) (scope.tracked trace) := by
  unfold serializeReturns toWireReturns
  cases head.returns with
  | none =>
    cases retComment with
    | none => exact emits_bool false
    | some comment =>
      exact .step (emits_bool true) <| .last (emits_commentType comment head.range trace)
  | some ret =>
    have annotated : Emits stmtPort (do writeBool true; serializeType c ret) (scope.tracked trace)
        (encOption encType (some (toWireType c scope.isEvaluated ret))) (scope.tracked trace) :=
      .step (emits_bool true) (.last (emits_typeQuietly ret trace))
    cases retComment with
    | none => exact annotated
    | some comment => exact .skip (emits_error c _ _ _) annotated

theorem emits_typeCommentFlag {t : Tracked} (comment : FuncComment) :
    Emits stmtPort (writeTypeCommentFlag c comment) t
      (encGated encBool fun _ : cvFuncTypeCommentFlag ≤ c.cacheVersion => comment.present) t := by
  unfold writeTypeCommentFlag encGated
  split
  · exact emits_bool _
  · exact .pure

theorem records_noteGetattr (head : FunctionHead) :
    Records scope (noteGetattr head) true (getattrTrace scope head) [] := by
  refine .read (g := fun t => (t.scope.inClass, t.scope.inFunction))
    (x := (scope.inClass, scope.inFunction)) (fun _ => rfl) (fun _ => rfl) ?_
  dsimp only
  unfold getattrTrace
  split
  · apply records_trace
    · intro s
      simp only [Serializer.tracked, Tracked.mk.injEq, true_and]
      ext <;> simp
    · exact fun _ => rfl
  · exact .quiet fun _ => .pure

/-- The fields of a function after its tag, whatever closes it. -/
theorem records_function {m : SerM Unit} {ok : Bool} {e : Trace} {closing : List Bytes}
    (head : FunctionHead) (comment : FuncComment) {body : WBlock c.cacheVersion}
    (fits : comment.argTypes.length = head.parameters.len)
    (block : Records scope.enterFunction m ok e (encBlock body))
    (closes : ∀ trace, Emits stmtPort (closeFunction c head) (scope.tracked trace) closing.flatten
      (scope.tracked trace)) :
    Records scope (do
      writeBytes head.name.bytes
      serializeParameters c comment.argTypes head.parameters
      noteGetattr head
      withinFunction m
      writeBool head.isAsync
      serializeOptTypeParams c head.typeParams
      serializeReturns c head comment.retType
      writeTypeCommentFlag c comment
      closeFunction c head)
      (supportsParameters c head.parameters && ok) (getattrTrace scope head + e)
      (encBytes head.name.bytes
        :: encListed (toWireParameters c scope comment.argTypes head.parameters).length
            (encParameters (toWireParameters c scope comment.argTypes head.parameters))
        :: encBlock body :: encBool head.isAsync
        :: encOptTypeParams (head.typeParams.map (toWireTypeParams c scope))
        :: encOption encType (toWireReturns c scope head comment.retType)
        :: (encGated encBool fun _ : cvFuncTypeCommentFlag ≤ c.cacheVersion => comment.present)
        :: closing).flatten := by
  have covered : head.parameters.len ≤ comment.argTypes.length := Nat.le_of_eq fits.symm
  refine .pass (fun _ => emits_bytes _) ?_
  refine .guard (records_parameters comment.argTypes head.parameters covered) ?_
  refine (records_noteGetattr head).bind <| .close (records_withinFunction block) ?_
  intro trace
  refine .step (emits_bool _) <| .step (emits_optTypeParams head.typeParams trace) ?_
  refine .step (emits_returns head comment.retType trace) ?_
  exact .step (emits_typeCommentFlag comment) (closes trace)

theorem records_decorators (decorators : List Decorator) :
    Records scope (serializeDecorators c decorators)
      (supportsExprs c (decorators.map (·.expression))) 0
      (match decorators with
        | [] => []
        | first :: _ =>
          [encTag .decorator, encListed (toWireExprs c scope (decorators.map (·.expression))).length
              (encExprs (toWireExprs c scope (decorators.map (·.expression)))),
            encTaggedInt (c.source.lineColumn first.range.start).line,
            encTaggedInt (c.source.lineColumn first.range.start).column].flatten) := by
  cases decorators with
  | nil => exact .quiet fun _ => .pure
  | cons first rest =>
    refine .congr (.pass (fun _ => emits_tag _) <| .pass (fun _ => emits_tag _) <|
      .pass (fun _ => emits_count _) <| .close (records_exprs _) fun _ =>
        .step (emits_taggedInt _) <| .last (emits_taggedInt _)) ?_
    simp [encListed, toWireExprs_length]

theorem records_functionDef {skip : Bool} {head : FunctionHead} {body : List Stmt} {items : SerM Unit}
    {ok : Bool} {e : Trace} {trees : List (WStmt c.cacheVersion)}
    (length : trees.length = body.length)
    (records : Records scope.enterFunction items ok e (encStmts trees)) :
    Records scope (serializeFunctionDef c skip head body items)
      ((findFuncTypeComment c scope.inClass head.parameters body).isSome
        && (supportsExprs c (head.decoratorList.map (·.expression))
        && (supportsParameters c head.parameters
        && if omitsBody skip scope.inClass head body then true else ok)))
      (getattrTrace scope head
        + if omitsBody skip scope.inClass head body then 0 else blockTrace c scope body e)
      (encStmt (toWireFunctionDef c scope head (funcComment c scope head body) <|
        if omitsBody skip scope.inClass head body then
          .empty scope.unreachable (c.location (bodyRange head body))
        else toWireBlock c scope head.range trees)) := by
  refine .read (g := fun t => t.scope.inClass) (x := scope.inClass) (fun _ => rfl)
    (fun _ => rfl) ?_
  have block : Records scope.enterFunction
      (if omitsBody skip scope.inClass head body then serializeEmptyBlock c (bodyRange head body)
        else serializeBlock c body (some head.range) items)
      (if omitsBody skip scope.inClass head body then true else ok)
      (if omitsBody skip scope.inClass head body then 0 else blockTrace c scope body e)
      (encBlock <| if omitsBody skip scope.inClass head body then
          .empty scope.unreachable (c.location (bodyRange head body))
        else toWireBlock c scope head.range trees) := by
    split
    · exact .quiet (emits_emptyBlock _)
    · exact records_block head.range length records
  unfold funcComment
  cases found : findFuncTypeComment c scope.inClass head.parameters body with
  | none => exact .fails fun _ _ _ => rfl
  | some comment =>
    have fits := findFuncTypeComment_length c found
    simp only [Option.isSome_some, Bool.true_and, Option.getD_some]
    apply Logs.skip
    · exact fun _ => emits_errors head.range comment.errors
    · cases decorators : head.decoratorList with
      | nil =>
        have closes (trace : Trace) : Emits stmtPort (closeFunction c head) (scope.tracked trace)
            [encLocation (c.location head.range), encTag .end].flatten (scope.tracked trace) := by
          simp only [closeFunction, decorators]
          exact emits_close c head.range
        refine .congr (.guard (records_decorators []) <| .pass (fun _ => emits_tag _) <|
          records_function head comment fits block closes) ?_
        simp [toWireFunctionDef, toWireFunction, functionLocation, encStmt, encFunction, decorators]
      | cons first rest =>
        have closes (trace : Trace) : Emits stmtPort (closeFunction c head) (scope.tracked trace)
            [encLocation (c.defLocation head), encTag .end, encTag .end].flatten
            (scope.tracked trace) := by
          simp only [closeFunction, decorators]
          exact .step (emits_locationOf _) <| .step emits_end <| .last emits_end
        refine .congr (.guard (records_decorators (first :: rest)) <| .pass (fun _ => emits_tag _) <|
          records_function head comment fits block closes) ?_
        simp [toWireFunctionDef, toWireFunction, functionLocation, encStmt, encFunction, decorators]

theorem records_classKeywords (c : Config) (scope : Scope) (keywords : List Keyword)
    (named : ∀ keyword ∈ keywords, keyword.arg.isSome = true) :
    Records scope (serializeClassKeywords c keywords) (supportsKeywords c keywords) 0
      (encClassKeywords (toWireClassKeywords c scope keywords)) ∧
    (toWireClassKeywords c scope keywords).length = keywords.length := by
  induction keywords with
  | nil => exact ⟨.quiet fun _ => .pure, rfl⟩
  | cons keyword keywords ih =>
    obtain ⟨records, length⟩ := ih fun other mem => named other (List.mem_cons_of_mem _ mem)
    rcases keyword with ⟨arg, value⟩
    cases arg with
    | none => exact absurd (named _ List.mem_cons_self) Bool.false_ne_true
    | some arg =>
      constructor
      · refine .congr (.pass (fun _ => emits_bytes _) <| .guard (records_expr value) <|
          .last records) ?_
        simp [toWireClassKeywords, encClassKeywords]
      · simp [toWireClassKeywords, length]

theorem namedKeywords_named (head : ClassHead) :
    ∀ keyword ∈ head.namedKeywords, keyword.arg.isSome = true := by
  intro keyword mem
  unfold ClassHead.namedKeywords at mem
  split at mem
  · exact (List.mem_filter.mp mem).2
  · cases mem

theorem records_classDef {head : ClassHead} {body : List Stmt} {items : SerM Unit} {ok : Bool}
    {e : Trace} {trees : List (WStmt c.cacheVersion)} (length : trees.length = body.length)
    (records : Records scope.enterClass items ok e (encStmts trees)) :
    Records scope (serializeClassDef c head body items)
      (ok && (supportsExprs c head.bases
        && (supportsExprs c (head.decoratorList.map (·.expression))
        && supportsKeywords c head.namedKeywords)))
      (blockTrace c scope body e)
      (encStmt (toWireClassDef c scope head (toWireBlock c scope head.range trees))) := by
  have block : Records scope.enterClass (serializeBlock c body (some head.range) items) ok
      (blockTrace c scope body e) (encBlock (toWireBlock c scope head.range trees)) :=
    records_block head.range length records
  have keywords := records_classKeywords c scope head.namedKeywords (namedKeywords_named head)
  have location (trace : Trace) : Emits stmtPort (writeClassLocation c head) (scope.tracked trace)
      (encLocation (classLocation c head)) (scope.tracked trace) := by
    unfold writeClassLocation classLocation
    cases head.decoratorList.getLast? with
    | none => exact emits_location c _
    | some lastDecorator => exact emits_locationOf _
  refine .congr (.pass (fun _ => emits_tag _) <| .pass (fun _ => emits_bytes _) <|
    .guarded (records_withinClass block) <|
    .pass (fun _ => emits_tag _) <| .pass (fun _ => emits_int _) <|
    .guard (records_exprs head.bases) <| .pass (fun _ => emits_tag _) <|
    .pass (fun _ => emits_int _) <| .guard (records_exprs _) <|
    .pass (emits_optTypeParams head.typeParams) <| .pass (fun _ => emits_tag _) <|
    .pass (fun _ => emits_int _) <| .close keywords.1 fun trace =>
      .step (location trace) <| .last emits_end) ?_
  simp [toWireClassDef, encStmt, encListed, toWireExprs_length, keywords.2, encCount]

end Definitions

section Imports

variable {c : Config} {scope : Scope}

theorem records_pushImports (entries : List ImportStatement) :
    Records scope (pushImports entries) true ⟨entries, [], false⟩ [] := by
  apply records_trace
  · intro s
    simp only [Serializer.tracked, Tracked.mk.injEq, true_and]
    ext <;> simp
  · exact fun _ => rfl

theorem emits_alias {t : Tracked} (name : Alias) :
    Emits stmtPort (writeAlias name) t (encAliases [toWireAlias name]) t :=
  .congr (.step (emits_bytes _) (.last (emits_optBytes name.asBytes))) <| by
    simp [encAliases, toWireAlias]

theorem encAliases_cons (name : WAlias) (names : List WAlias) :
    encAliases (name :: names) = encAliases [name] ++ encAliases names := by
  simp [encAliases]

theorem emits_aliases {t : Tracked} (names : List Alias) :
    Emits stmtPort (writeAliases names) t (encAliases (names.map toWireAlias)) t := by
  induction names with
  | nil => exact .pure
  | cons name names ih =>
    rw [List.map_cons, encAliases_cons]
    exact (emits_alias name).bind ih

theorem records_importNames (flags : UInt8) (names : List Alias) :
    Records scope (serializeImportNames flags names) true ⟨names.map (importEntry flags), [], false⟩
      (encAliases (names.map toWireAlias)) := by
  induction names with
  | nil => exact .quiet fun _ => .pure
  | cons name names ih =>
    rw [List.map_cons, List.map_cons, encAliases_cons]
    have pushed := (records_pushImports [importEntry flags name]).bind
      (k := fun _ => serializeImportNames flags names) ih
    exact .congr (.pass (fun _ => emits_alias name) (.last pushed)) (by simp)

theorem emits_importFlags {t : Tracked} (flags : UInt8) :
    Emits stmtPort (writeImportFlags c flags) t
      (encGated encTaggedInt fun _ : cvImportFlags ≤ c.cacheVersion => (flags.toNat : Int)) t := by
  unfold writeImportFlags encGated
  split
  · exact emits_taggedInt _
  · exact .pure

theorem currentImportFlags_eq (isLazy : Bool) (s : Serializer) :
    currentImportFlags isLazy s = importFlags (stmtPort.view s).scope isLazy := rfl

theorem records_import (names : List Alias) (isLazy : Bool) (range : TextRange) :
    Records scope (serializeImport c names isLazy range) true
      ⟨names.map (importEntry (importFlags scope isLazy)), [], false⟩
      (encStmt (toWireImport c scope names isLazy range)) := by
  apply Logs.read (g := fun t => importFlags t.scope isLazy) (x := importFlags scope isLazy)
  · exact currentImportFlags_eq isLazy
  · exact fun _ => rfl
  rw [toWireImport, encStmt, List.length_map]
  exact .pass (fun _ => emits_tag _) <| .pass (fun _ => emits_taggedInt _) <|
    .close (records_importNames _ names) fun _ => .step (emits_location c range) <|
    .step (emits_importFlags _) <| .last emits_end

theorem records_importFrom (module : Option Identifier) (names : List Alias) (level : UInt32)
    (isLazy : Bool) (range : TextRange) :
    Records scope (serializeImportFrom c module names level isLazy range) true
      ⟨[fromEntry module names level range (importFlags scope isLazy)], [], false⟩
      (encStmt (toWireImportFrom c scope module names level isLazy range)) := by
  apply Logs.read (g := fun t => importFlags t.scope isLazy) (x := importFlags scope isLazy)
  · exact currentImportFlags_eq isLazy
  · exact fun _ => rfl
  have pushed : Records scope
      (pushImports [fromEntry module names level range (importFlags scope isLazy)]) true
      ⟨[fromEntry module names level range (importFlags scope isLazy)], [], false⟩ [] :=
    records_pushImports _
  unfold toWireImportFrom
  split
  · have ending : Records scope (do
        pushImports [fromEntry module names level range (importFlags scope isLazy)]
        writeEndTag) true ⟨[fromEntry module names level range (importFlags scope isLazy)], [], false⟩
        (encTag .end) := pushed.bind (k := fun _ => writeEndTag) (.quiet fun _ => emits_end)
    rw [encStmt]
    refine .pass (fun _ => emits_tag _) <| .pass (fun _ => emits_bytes _) ?_
    refine .pass (fun _ => emits_taggedInt _) <| .pass (fun _ => emits_location c range) ?_
    exact .pass (fun _ => emits_importFlags _) <| .last ending
  · have ending : Records scope (do
        pushImports [fromEntry module names level range (importFlags scope isLazy)]
        writeLocation c range
        writeImportFlags c (importFlags scope isLazy)
        writeEndTag) true ⟨[fromEntry module names level range (importFlags scope isLazy)], [], false⟩
        [encLocation (c.location range),
          encGated encTaggedInt fun _ : cvImportFlags ≤ c.cacheVersion =>
            ((importFlags scope isLazy).toNat : Int), encTag .end].flatten :=
      pushed.bind <| .quiet fun _ => .step (emits_location c range) <|
        .step (emits_importFlags _) <| .last emits_end
    rw [encStmt, List.length_map]
    refine .pass (fun _ => emits_tag _) <| .pass (fun _ => emits_taggedInt _) ?_
    refine .pass (fun _ => emits_bytes _) <| .pass (fun _ => emits_taggedInt _) ?_
    exact .pass (fun _ => emits_aliases names) ending

end Imports

section Simple

variable {c : Config} {scope : Scope}

theorem emits_assignType (range : TextRange) (trace : Trace) :
    Emits stmtPort (serializeAssignType c range) (scope.tracked trace)
      (encOption encType (toWireAssignType c range)) (scope.tracked trace) := by
  unfold serializeAssignType toWireAssignType
  cases c.assignComment range with
  | none => exact emits_bool false
  | some comment =>
    cases comment with
    | regular type => exact .step (emits_bool true) <| .last (emits_commentType type range trace)
    | function args ret => exact emits_bool false
    | invalid error =>
      refine .skip (emits_error c error range false) ?_
      exact .step (emits_bool true) <| .last (emits_invalidType none rfl)

theorem records_valueOrTemp (value : Option Expr) :
    Records scope (serializeValueOrTemp c value) (supportsOptExpr c value) 0
      (encExpr (toWireValueOrTemp c scope value)) := by
  cases value with
  | some value => exact records_expr value
  | none => exact .quiet fun _ => .step (emits_tag _) <| .last emits_end

theorem records_delTargets (targets : List Expr) (range : TextRange) :
    Records scope (serializeDelTargets c targets range) (supportsExprs c targets) 0
      (encExpr (toWireDelTargets c scope targets range)) := by
  have several (targets : List Expr) : Records scope (do
      writeTag .tupleExpr
      serializeVec targets.length (serializeExprs c targets)
      writeLocation c range
      writeEndTag) (supportsExprs c targets) 0
      (encExpr (.tuple (toWireExprs c scope targets) (c.location range))) :=
    .pass (fun _ => emits_tag _) <| .close (records_vec targets) fun _ => emits_close c range
  match targets with
  | [target] =>
    have one : supportsExprs c [target] = supportsExpr c target := by
      rw [supportsExprs, surrogatesAfterExprs, surrogatesAfterExprs, kleisli_some, supportsExpr]
    rw [one]
    exact records_expr target
  | [] => exact several []
  | first :: second :: rest => exact several (first :: second :: rest)

theorem records_withItems (items : List WithItem) :
    Records scope (serializeWithItems c items) (supportsWithItems c items) 0
      (encItems (toWireWithItems c scope items)) := by
  induction items with
  | nil => exact .quiet fun _ => .pure
  | cons item items ih =>
    refine .congr (.guard (records_expr item.contextExpr) <|
      .guard (records_optExpr item.optionalVars) <| .last ih) ?_
    simp [toWireWithItems, encItems]

theorem emits_identifiers {t : Tracked} (names : List Identifier) :
    Emits stmtPort (writeIdentifiers names) t (encGlobals (names.map Identifier.bytes)) t := by
  induction names with
  | nil => exact .pure
  | cons name names ih => exact (emits_bytes _).bind ih

theorem emits_handlerName {t : Tracked} (name : Option Identifier) :
    Emits stmtPort (serializeHandlerName c name) t (encHandlerName (toWireHandlerName c name)) t := by
  cases name with
  | none => exact emits_bool false
  | some name =>
    refine .step (emits_bool true) <| .last <| .step (emits_bytes _) <| .last ?_
    unfold encGated
    split
    · exact emits_location c _
    · exact .pure

theorem records_handlerTypes (skip : Bool) (handlers : List ExceptHandler) :
    Records scope (serializeHandlerTypes c handlers) (supportsHandlerTypes c handlers) 0
      (encHandlerTypes (toWireHandlers c skip scope handlers)) := by
  induction handlers with
  | nil => exact .quiet fun _ => .pure
  | cons handler handlers ih =>
    obtain ⟨type, name, body, range⟩ := handler
    refine .congr (.guard (records_optExpr type)
      (.last (w := encHandlerTypes (toWireHandlers c skip scope handlers)) ?_)) ?_
    · cases needsParentheses c.options type name with
      | none => exact ih
      | some range => exact .skip (fun _ => emits_error c _ _ _) ih
    · simp [toWireHandlers, encHandlerTypes]

theorem emits_handlerNames {t : Tracked} (skip : Bool) (handlers : List ExceptHandler) :
    Emits stmtPort (serializeHandlerNames c handlers) t
      (encHandlerNames (toWireHandlers c skip scope handlers)) t := by
  induction handlers with
  | nil => exact .pure
  | cons handler handlers ih =>
    obtain ⟨type, name, body, range⟩ := handler
    exact (emits_handlerName name).bind ih

theorem records_typeAlias (name : Expr) (typeParams : Option (List TypeParam)) (value : Expr)
    (range : TextRange) :
    Records scope (serializeTypeAlias c name typeParams value range)
      (supportsExpr c name && supportsExpr c value) 0
      (encStmt (.typeAlias (toWireExpr c scope name)
        (toWireTypeParams c scope (typeParams.getD [])) (toWireExpr c scope value)
        (c.location range))) := by
  rw [encStmt, toWireTypeParams_length]
  exact .pass (fun _ => emits_tag _) <| .guard (records_expr name) <| .pass (fun _ => emits_int _) <|
    .pass (emits_typeParams _) <| .close (records_expr value) fun _ => emits_close c range

end Simple

section Clauses

variable {c : Config} {skip : Bool} {scope : Scope}

/-- The last clause of a chain, if it is an `else`. -/
def encPresent {cv : Nat} : Option (WBlock cv) → Bytes
  | none => []
  | some block => encOptBlock (some block)

/-- Where there is no `else`, the flag of the missing one follows the clauses. -/
theorem encOptBlock_orelse (synthetic : Option (WBlock c.cacheVersion)) :
    ∀ (clauses : ElifElseClauses) (flags : List BranchFlags),
      encOptBlock (toWireOrelse c skip scope flags synthetic clauses)
        = encPresent (toWireOrelse c skip scope flags none clauses)
          ++ if clauses.hasElse then [] else encOptBlock synthetic
  | .nil, _ => by simp [toWireOrelse, encPresent, ElifElseClauses.hasElse]
  | .else _ _, _ => by simp [toWireOrelse, encPresent, ElifElseClauses.hasElse]
  | .elif _ _ _ rest, flags => encOptBlock_orelse synthetic rest flags.tail

theorem emits_missingElse (range : TextRange) (test : Expr) (clauses : ElifElseClauses)
    (trace : Trace) :
    Emits stmtPort (serializeSyntheticElse c range (ifFlags c.options test clauses).synthetic)
      (scope.tracked trace)
      (if clauses.hasElse then [] else
        encOptBlock (toWireSyntheticElse c scope range (ifFlags c.options test clauses).synthetic))
      (scope.tracked trace) := by
  rw [ifFlags_synthetic]
  split
  · exact .pure
  · have written := (records_syntheticElse range _ : Records scope (serializeSyntheticElse c range
      (some (stateAfter ((chain test clauses).map (inferConditionValue c.options))).elseFlags))
      true 0 _).emits trace
    rwa [add_zero] at written

end Clauses

section Stmts

variable (c : Config) (skip : Bool)

mutual

theorem records_stmt : ∀ (stmt : Stmt) (scope : Scope),
    Records scope (serializeStmt c skip stmt) (supportsStmt c skip scope.inClass stmt)
      (stmtTrace c skip scope stmt) (encStmt (toWireStmt c skip scope stmt))
  | .functionDef head body, scope =>
    records_functionDef (toWireStmts_length ..) (records_stmts body scope.enterFunction)
  | .classDef head body, scope =>
    records_classDef (toWireStmts_length ..) (records_stmts body scope.enterClass)
  | .expr value _, scope => by
    rw [toWireStmt, encStmt]
    exact .pass (fun _ => emits_tag _) <| .close (records_expr value) fun _ => .last emits_end
  | .assign targets value range, scope => by
    rw [toWireStmt, encStmt]
    exact .pass (fun _ => emits_tag _) <| .guard (records_vec targets) <|
      .close (records_expr value) fun trace => .step (emits_assignType range trace) <|
      .step (emits_bool _) <| emits_close c range
  | .annAssign target ann value range, scope => by
    rw [toWireStmt, encStmt]
    refine .congr (.pass (fun _ => emits_tag _) <| .pass (fun _ => emits_tag _) <|
      .pass (fun _ => emits_int _) <| .guard (records_expr target) <|
      .close (records_valueOrTemp value) fun trace => .step (emits_bool _) <|
      .step (emits_typeQuietly ann trace) <| .step (emits_bool _) <| emits_close c range) ?_
    simp [encListed, encCount, encExprs, encOption]
  | .augAssign target op value range, scope => by
    rw [toWireStmt, encStmt]
    exact .pass (fun _ => emits_tag _) <| .pass (fun _ => emits_bytes _) <|
      .guard (records_expr target) <| .close (records_expr value) fun _ => emits_close c range
  | .import names isLazy range, scope => records_import names isLazy range
  | .importFrom module names level isLazy range, scope =>
    records_importFrom module names level isLazy range
  | .return value range, scope => by
    rw [toWireStmt, encStmt]
    exact .pass (fun _ => emits_tag _) <| .close (records_optExpr value) fun _ =>
      emits_close c range
  | .raise exc cause range, scope => by
    rw [toWireStmt, encStmt]
    exact .pass (fun _ => emits_tag _) <| .guard (records_optExpr exc) <|
      .close (records_optExpr cause) fun _ => emits_close c range
  | .assert test msg range, scope => by
    rw [toWireStmt, encStmt]
    exact .pass (fun _ => emits_tag _) <| .guard (records_expr test) <|
      .close (records_optExpr msg) fun _ => emits_close c range
  | .if test body clauses range, scope => by
    have chain : Records scope (do
        serializeClauses c skip (ifFlags c.options test clauses).clauses clauses
        serializeSyntheticElse c range (ifFlags c.options test clauses).synthetic
        writeLocation c range
        writeEndTag) _ _ _ :=
      .close (records_clauses clauses scope _) fun trace =>
        .step (emits_missingElse range test clauses trace) (emits_close c range)
    refine .congr (.pass (fun _ => emits_tag _) <| .guard (records_expr test) <|
      .step (records_withBranchFlags (records_block range (toWireStmts_length ..)
        (records_stmts body _))) <| .pass (fun _ => emits_taggedInt _) chain) ?_
    rw [toWireStmt, encStmt, toWireElifs_length, encOptBlock_orelse]
    simp [encTaggedCount]
  | .while test body orelse range, scope => by
    rw [toWireStmt, encStmt]
    have otherwise := records_elseBlock (toWireStmts_length ..) (records_stmts orelse scope)
    refine .pass (fun _ => emits_tag _) <| .guard (records_expr test) ?_
    refine .step (records_block range (toWireStmts_length ..) (records_stmts body scope)) ?_
    exact .close otherwise fun _ => emits_close c range
  | .for isAsync target iter body orelse range, scope => by
    rw [toWireStmt, encStmt]
    have otherwise := records_elseBlock (toWireStmts_length ..) (records_stmts orelse scope)
    refine .pass (fun _ => emits_tag _) <| .guard (records_expr target) ?_
    refine .guard (records_expr iter) ?_
    refine .step (records_block range (toWireStmts_length ..) (records_stmts body scope)) ?_
    exact .close otherwise fun _ => .step (emits_bool _) <| emits_close c range
  | .with isAsync items body range, scope => by
    rw [toWireStmt, encStmt, toWireWithItems_length]
    exact .pass (fun _ => emits_tag _) <| .pass (fun _ => emits_taggedInt _) <|
      .guard (records_withItems items) <|
      .close (records_block range (toWireStmts_length ..) (records_stmts body scope)) fun _ =>
      .step (emits_bool _) <| emits_close c range
  | .pass range, _ | .break range, _ | .continue range, _ =>
    .quiet fun _ => .step (emits_tag _) (emits_close c range)
  | .try body handlers orelse finalbody isStar range, scope => by
    rw [toWireStmt, encStmt, toWireHandlers_length]
    have emptySupported (stmts : List Stmt) (empty : stmts = []) :
        supportsStmts c skip scope.inClass stmts = true := by rw [empty, supportsStmts]
    refine .pass (fun _ => emits_tag _) ?_
    refine .step (records_block range (toWireStmts_length ..) (records_stmts body scope)) ?_
    refine .pass (fun _ => emits_taggedInt _) <| .guard (records_handlerTypes skip handlers) ?_
    refine .pass (fun _ => emits_handlerNames skip handlers) ?_
    refine .step (records_handlerBodies handlers scope) ?_
    refine .step (records_optBlock range (toWireStmts_length ..) (records_stmts orelse scope)
      (emptySupported orelse)) ?_
    refine .close (records_optBlock range (toWireStmts_length ..) (records_stmts finalbody scope)
      (emptySupported finalbody)) fun _ => ?_
    exact .step (emits_bool _) <| emits_close c range
  | .delete targets range, scope => by
    rw [toWireStmt, encStmt]
    exact .pass (fun _ => emits_tag _) <| .close (records_delTargets targets range) fun _ =>
      emits_close c range
  | .global names range, scope => by
    rw [toWireStmt, encStmt, List.length_map]
    exact .quiet fun _ => .step (emits_tag _) <| .step (emits_taggedInt _) <|
      .step (emits_identifiers names) <| emits_close c range
  | .nonlocal names range, scope => by
    rw [toWireStmt, encStmt, List.length_map]
    exact .quiet fun _ => .step (emits_tag _) <| .step (emits_taggedInt _) <|
      .step (emits_identifiers names) <| emits_close c range
  | .match subject cases range, scope => by
    rw [toWireStmt, encStmt, toWireCases_length]
    exact .pass (fun _ => emits_tag _) <| .guard (records_expr subject) <|
      .pass (fun _ => emits_taggedInt _) <| .close (records_cases cases scope _) fun _ =>
      emits_close c range
  | .typeAlias name typeParams value range, scope => records_typeAlias name typeParams value range
  | .ipyEscapeCommand _, _ => .fails fun _ _ _ => rfl

theorem records_stmts : ∀ (stmts : List Stmt) (scope : Scope),
    Records scope (serializeStmts c skip stmts) (supportsStmts c skip scope.inClass stmts)
      (stmtsTrace c skip scope stmts) (encStmts (toWireStmts c skip scope stmts))
  | [], _ => .quiet fun _ => .pure
  | stmt :: stmts, scope => (records_stmt stmt scope).bind (records_stmts stmts scope)

theorem records_clauses : ∀ (clauses : ElifElseClauses) (scope : Scope)
    (flags : List BranchFlags),
    Records scope (serializeClauses c skip flags clauses)
      (supportsClauses c skip scope.inClass clauses) (clausesTrace c skip scope flags clauses)
      (encElifs (toWireElifs c skip scope flags clauses)
        ++ encPresent (toWireOrelse c skip scope flags none clauses))
  | .nil, _, _ => .quiet fun _ => .pure
  | .elif test body range rest, scope, flags => by
    refine .congr (.guard (records_expr test) <|
      .step (records_withBranchFlags (records_block range (toWireStmts_length ..)
        (records_stmts body _))) <| .last (records_clauses rest scope flags.tail)) ?_
    simp [toWireElifs, toWireOrelse, encElifs]
  | .else body range, scope, flags => by
    refine .congr (.pass (fun _ => emits_bool true) <|
      .last (records_withBranchFlags (records_block range (toWireStmts_length ..)
        (records_stmts body _)))) ?_
    simp [toWireElifs, toWireOrelse, encElifs, encPresent, encOptBlock]

theorem records_handlerBodies : ∀ (handlers : List ExceptHandler) (scope : Scope),
    Records scope (serializeHandlerBodies c skip handlers)
      (supportsHandlers c skip scope.inClass handlers) (handlersTrace c skip scope handlers)
      (encHandlerBodies (toWireHandlers c skip scope handlers))
  | [], _ => .quiet fun _ => .pure
  | .mk _ _ body range :: handlers, scope =>
    (records_block range (toWireStmts_length ..) (records_stmts body scope)).bind
      (records_handlerBodies handlers scope)

theorem records_cases : ∀ (cases : List MatchCase) (scope : Scope) (flags : List BranchFlags),
    Records scope (serializeCases c skip flags cases) (supportsCases c skip scope.inClass cases)
      (casesTrace c skip scope flags cases) (encCases (toWireCases c skip scope flags cases))
  | [], _, _ => .quiet fun _ => .pure
  | .mk pattern guard body range :: cases, scope, flags => by
    refine .congr (.guard (records_pattern pattern) <| .guard (records_optExpr guard) <|
      .step (records_withBranchFlags (records_block range (toWireStmts_length ..)
        (records_stmts body _))) <| .last (records_cases cases scope flags.tail)) ?_
    simp [toWireCases, encCases]

end

end Stmts

end AstSerialize
