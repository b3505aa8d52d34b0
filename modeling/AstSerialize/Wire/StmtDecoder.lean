import AstSerialize.Wire.Stmt

/-! The decoder of statements and modules, and that it undoes the encoding on
every stream. A block is read by its position: `readBlock` where an empty one
has a location, `readElse` after a loop. -/
namespace AstSerialize
open Coding

variable {cv : Nat}

def WHandler.type : WHandler cv → Option (WExpr cv)
  | .mk type _ _ => type

def WHandler.name : WHandler cv → Option (WHandlerName cv)
  | .mk _ name _ => name

def WHandler.body : WHandler cv → WBlock cv
  | .mk _ _ body => body

/-- The stream lists the handlers of a `try` field by field. -/
def zipHandlers : List (Option (WExpr cv)) → List (Option (WHandlerName cv)) → List (WBlock cv) →
    List (WHandler cv)
  | type :: types, name :: names, body :: bodies =>
    .mk type name body :: zipHandlers types names bodies
  | _, _, _ => []

theorem zipHandlers_fields (handlers : List (WHandler cv)) :
    zipHandlers (handlers.map (·.type)) (handlers.map (·.name)) (handlers.map (·.body))
      = handlers := by
  induction handlers with
  | nil => rfl
  | cons handler handlers ih =>
    cases handler
    simp only [List.map_cons, zipHandlers, ih]
    rfl

def readTypeParam : Decoder UInt8 (WTypeParam cv) := do
  let kind ← readTaggedInt
  let name ← readBytes
  let bound ← readOption decType
  let values ← readList decType
  let default ← readOption decType
  pure (.mk kind name bound values default)

/-- A list whose length has no tag. -/
def readBare {α : Type} (d : Decoder UInt8 α) : Decoder UInt8 (List α) := do
  let n ← readCount
  times d n

def readAlias : Decoder UInt8 WAlias := do
  let name ← readBytes
  let asname ← readOption readBytes
  pure (name, asname)

def readItem : Decoder UInt8 (WExpr cv × Option (WExpr cv)) := do
  let context ← decExpr
  let vars ← readOption decExpr
  pure (context, vars)

def readClassKeyword : Decoder UInt8 (Bytes × WExpr cv) := do
  let arg ← readBytes
  let value ← decExpr
  pure (arg, value)

/-- A dictionary with string keys. -/
def readDict {α : Type} (d : Decoder UInt8 α) : Decoder UInt8 (List α) := do
  expectTag .dictStrGen
  readBare d

def readHandlerName : Decoder UInt8 (WHandlerName cv) := do
  let name ← readBytes
  let loc ← readGated readLoc
  pure (name, loc)

/-- A block in a position where an empty one has a location. -/
def readBlock (d : Decoder UInt8 (WStmt cv)) : Decoder UInt8 (WBlock cv) := do
  expectTag .block
  expectTag .listGen
  let n ← readCount
  let unreachable ← readBool
  match n with
  | 0 => closing (.empty unreachable)
  | n + 1 => do
    let first ← d
    let rest ← times d n
    expectTag .end
    pure (.stmts unreachable first rest)

/-- The `else` block of a loop. -/
def readElse (d : Decoder UInt8 (WStmt cv)) : Decoder UInt8 (WElse cv) := do
  expectTag .block
  expectTag .listGen
  let n ← readCount
  let unreachable ← readBool
  let stmts ← times d n
  expectTag .end
  pure (.mk unreachable stmts)

def readFunction (d : Decoder UInt8 (WStmt cv)) : Decoder UInt8 (WFunction cv) := do
  let name ← readBytes
  let parameters ← readList (readParameter decExpr)
  let body ← readBlock d
  let isAsync ← readBool
  let typeParams ← readOption (readBare readTypeParam)
  let returns ← readOption decType
  let typeComment ← readGated readBool
  closing (.mk name parameters body isAsync typeParams returns typeComment)

def readElif (d : Decoder UInt8 (WStmt cv)) : Decoder UInt8 (WElif cv) := do
  let test ← decExpr
  let body ← readBlock d
  pure (.mk test body)

def readCase (d : Decoder UInt8 (WStmt cv)) : Decoder UInt8 (WCase cv) := do
  let pattern ← decPattern
  let guard ← readOption decExpr
  let body ← readBlock d
  pure (.mk pattern guard body)

def readHandlers (d : Decoder UInt8 (WStmt cv)) : Decoder UInt8 (List (WHandler cv)) := do
  let n ← readTaggedCount
  let types ← times (readOption decExpr) n
  let names ← times (readOption readHandlerName) n
  let bodies ← times (readBlock d) n
  pure (zipHandlers types names bodies)

/-- What follows the tag of a statement. -/
def decStmtBody (d : Decoder UInt8 (WStmt cv)) : Tag → Decoder UInt8 (WStmt cv)
  | .funcDef => .funcDef <$> readFunction d
  | .decorator => do
    let decorators ← readList decExpr
    let line ← readTaggedInt
    let column ← readTaggedInt
    expectTag .funcDef
    let func ← readFunction d
    expectTag .end
    pure (.decorator decorators line column func)
  | .classDef => do
    let name ← readBytes
    let body ← readBlock d
    let bases ← readList decExpr
    let decorators ← readList decExpr
    let typeParams ← readOption (readBare readTypeParam)
    let keywords ← readDict readClassKeyword
    closing (.classDef name body bases decorators typeParams keywords)
  | .exprStmt => do
    let value ← decExpr
    expectTag .end
    pure (.expr value)
  | .assign => do
    let targets ← readList decExpr
    let value ← decExpr
    let type ← readOption decType
    let newSyntax ← readBool
    closing (.assign targets value type newSyntax)
  | .operatorAssignmentStmt => do
    let op ← readBytes
    let target ← decExpr
    let value ← decExpr
    closing (.operatorAssignment op target value)
  | .import => do
    let names ← readTaggedList readAlias
    let loc ← readLoc
    let flags ← readGated readTaggedInt
    expectTag .end
    pure (.import names loc flags)
  | .importAll => do
    let module ← readBytes
    let level ← readTaggedInt
    let loc ← readLoc
    let flags ← readGated readTaggedInt
    expectTag .end
    pure (.importAll module level loc flags)
  | .importFrom => do
    let level ← readTaggedInt
    let module ← readBytes
    let names ← readTaggedList readAlias
    let loc ← readLoc
    let flags ← readGated readTaggedInt
    expectTag .end
    pure (.importFrom level module names loc flags)
  | .return => do
    let value ← readOption decExpr
    closing (.return value)
  | .raiseStmt => do
    let exc ← readOption decExpr
    let cause ← readOption decExpr
    closing (.raise exc cause)
  | .assertStmt => do
    let test ← decExpr
    let msg ← readOption decExpr
    closing (.assert test msg)
  | .if => do
    let test ← decExpr
    let body ← readBlock d
    let elifs ← readTaggedList (readElif d)
    let orelse ← readOption (readBlock d)
    closing (.if test body elifs orelse)
  | .while => do
    let test ← decExpr
    let body ← readBlock d
    let orelse ← readElse d
    closing (.while test body orelse)
  | .forStmt => do
    let target ← decExpr
    let iter ← decExpr
    let body ← readBlock d
    let orelse ← readElse d
    let isAsync ← readBool
    closing (.for target iter body orelse isAsync)
  | .withStmt => do
    let items ← readTaggedList readItem
    let body ← readBlock d
    let isAsync ← readBool
    closing (.with items body isAsync)
  | .passStmt => closing .pass
  | .breakStmt => closing .break
  | .continueStmt => closing .continue
  | .tryStmt => do
    let body ← readBlock d
    let handlers ← readHandlers d
    let orelse ← readOption (readBlock d)
    let finalbody ← readOption (readBlock d)
    let isStar ← readBool
    closing (.try body handlers orelse finalbody isStar)
  | .delStmt => do
    let target ← decExpr
    closing (.del target)
  | .globalDecl => do
    let names ← readTaggedList readBytes
    closing (.global names)
  | .nonlocalDecl => do
    let names ← readTaggedList readBytes
    closing (.nonlocal names)
  | .matchStmt => do
    let subject ← decExpr
    let cases ← readTaggedList (readCase d)
    closing (.match subject cases)
  | .typeAliasStmt => do
    let name ← decExpr
    let typeParams ← readBare readTypeParam
    let value ← decExpr
    closing (.typeAlias name typeParams value)
  | _ => fun _ => none

def decStmtAt : Nat → Decoder UInt8 (WStmt cv)
  | 0 => fun _ => none
  | n + 1 => readTag >>= decStmtBody (decStmtAt n)

def decStmt : Decoder UInt8 (WStmt cv) := bounded decStmtAt

def decModule : Decoder UInt8 (List (WStmt cv)) := readTaggedList decStmt

section Fields

theorem reads_listed {α : Type} {d : Decoder UInt8 α} {enc : α → Bytes} {encs : List α → Bytes}
    (nil : encs [] = []) (cons : ∀ a as, encs (a :: as) = enc a ++ encs as)
    (each : ∀ a, Reads d (enc a) a) (as : List α) :
    Reads (readList d) (encListed as.length (encs as)) as :=
  decodes_listed (.all nil cons each as) _ (Nat.le_refl _)

theorem reads_exprs (es : List (WExpr cv)) :
    Reads (readList decExpr) (encListed es.length (encExprs es)) es :=
  reads_listed rfl (fun _ _ => rfl) reads_expr es

theorem reads_optExpr (e : Option (WExpr cv)) : Reads (readOption decExpr) (encOptExpr e) e := by
  cases e with
  | none => exact reads_option reads_expr none
  | some e => exact reads_option reads_expr (some e)

theorem reads_parameter : ∀ parameter : WParameter cv,
    Reads (readParameter decExpr) (encParameters [parameter]) parameter
  | .mk name kind type default posOnly loc => by
    rw [encParameters, encParameters, List.append_nil]
    exact .step (reads_bytes name) <| .step (reads_taggedInt kind) <|
      .step (reads_option reads_type type) <| .step (reads_optExpr default) <|
      .step (reads_bool posOnly) <| .step (reads_loc loc) (.done _)

theorem reads_parameters (parameters : List (WParameter cv)) :
    Reads (readList (readParameter decExpr))
      (encListed parameters.length (encParameters parameters)) parameters := by
  refine reads_listed rfl (fun parameter parameters => ?_) reads_parameter parameters
  cases parameter
  simp only [encParameters, List.append_nil]

theorem decodes_typeParams (params : List (WTypeParam cv)) :
    Decodes (fun _ => times readTypeParam params.length) (encTypeParams params) params := by
  refine .all rfl (fun _ _ => rfl) (fun param => ?_) params
  exact .step (reads_taggedInt param.kind) <| .step (reads_bytes param.name) <|
    .step (reads_option reads_type param.bound) <|
    .step (reads_listed rfl (fun _ _ => rfl) reads_type param.values) <|
    .step (reads_option reads_type param.default) (.done _)

theorem decodes_bare {α γ : Type} {d : Nat → Decoder UInt8 α} {k : Nat → List α → Decoder UInt8 γ}
    {w : Bytes} {ws : List Bytes} {as : List α} {b : γ}
    (items : Decodes (fun n => times (d n) as.length) w as)
    (next : Decodes (fun n => k n as) ws.flatten b) :
    Decodes (fun n => readBare (d n) >>= k n) (encCount as.length :: w :: ws).flatten b := by
  have list : Decodes (fun n => readBare (d n)) [encCount as.length, w].flatten as :=
    .step (.const (reads_count _)) (.last items)
  have both := list.bind next
  rwa [← List.flatten_append] at both

theorem decodes_optTypeParams (params : Option (List (WTypeParam cv))) :
    Decodes (fun _ => readOption (readBare readTypeParam)) (encOptTypeParams params) params := by
  cases params with
  | none => exact decodes_none
  | some params =>
    exact decodes_some (.step (.const (reads_count _)) (.last (decodes_typeParams params)))

theorem decodes_aliases (names : List WAlias) :
    Decodes (fun _ => times readAlias names.length) (encAliases names) names := by
  refine .all rfl (fun _ _ => rfl) (fun name => ?_) names
  exact .step (reads_bytes name.1) <| .step (reads_option reads_bytes name.2) (.done _)

theorem decodes_globals (names : List Bytes) :
    Decodes (fun _ => times readBytes names.length) (encGlobals names) names :=
  .all rfl (fun _ _ => rfl) reads_bytes names

theorem decodes_items (items : List (WExpr cv × Option (WExpr cv))) :
    Decodes (fun _ => times readItem items.length) (encItems items) items := by
  refine .all rfl (fun _ _ => rfl) (fun item => ?_) items
  exact .step (reads_expr item.1) <| .step (reads_optExpr item.2) (.done _)

theorem decodes_dict {γ : Type} {k : Nat → List (Bytes × WExpr cv) → Decoder UInt8 γ}
    {ws : List Bytes} {b : γ} (keywords : List (Bytes × WExpr cv))
    (next : Decodes (fun n => k n keywords) ws.flatten b) :
    Decodes (fun n => readDict readClassKeyword >>= k n)
      (encTag .dictStrGen :: encCount keywords.length :: encClassKeywords keywords :: ws).flatten
      b := by
  have items : Decodes (fun _ => times readClassKeyword keywords.length)
      (encClassKeywords keywords) keywords := by
    refine .all rfl (fun _ _ => rfl) (fun keyword => ?_) keywords
    exact .step (reads_bytes keyword.1) <| .step (reads_expr keyword.2) (.done _)
  have dict : Decodes (fun _ => readDict readClassKeyword)
      [encTag .dictStrGen, encCount keywords.length, encClassKeywords keywords].flatten keywords :=
    .step (.const (reads_expectTag _)) <| .step (.const (reads_count _)) (.last items)
  have both := dict.bind next
  rwa [← List.flatten_append] at both

theorem reads_handlerName (name : Option (WHandlerName cv)) :
    Reads (readOption readHandlerName) (encHandlerName name) name := by
  have some (name : WHandlerName cv) :
      Reads readHandlerName [encBytes name.1, encGated encLocation name.2].flatten name :=
    .step (reads_bytes name.1) <| .step (reads_gated reads_loc name.2) (.done _)
  cases name with
  | none => exact reads_option some none
  | some name => exact reads_option some (Option.some name)

/-- The handlers of a `try`, from their three columns. -/
theorem decodes_handlers {γ : Type} {d : Nat → Decoder UInt8 (WStmt cv)}
    {k : Nat → List (WHandler cv) → Decoder UInt8 γ} {ws : List Bytes}
    {handlers : List (WHandler cv)} {b : γ} {bodies : Bytes}
    (readBodies : Decodes (fun n => times (readBlock (d n)) handlers.length) bodies
      (handlers.map (·.body)))
    (next : Decodes (fun n => k n handlers) ws.flatten b) :
    Decodes (fun n => readHandlers (d n) >>= k n)
      (encTaggedCount handlers.length :: encHandlerTypes handlers :: encHandlerNames handlers
        :: bodies :: ws).flatten b := by
  have columns : Decodes (fun n => readHandlers (d n))
      [encTaggedCount handlers.length, encHandlerTypes handlers, encHandlerNames handlers,
        bodies].flatten handlers := by
    refine .step (.const (reads_taggedCount _)) <|
      .step (.column (fun handler => encOptExpr handler.type) _ rfl (fun ⟨_, _, _⟩ _ => rfl)
        (fun handler => reads_optExpr handler.type) handlers) <|
      .step (.column (fun handler => encHandlerName handler.name) _ rfl (fun ⟨_, _, _⟩ _ => rfl)
        (fun handler => reads_handlerName handler.name) handlers) <|
      .step readBodies ?_
    rw [zipHandlers_fields]
    exact .done _
  have both := columns.bind next
  rwa [← List.flatten_append] at both

end Fields

mutual

theorem decodes_stmt : ∀ stmt : WStmt cv, Decodes decStmtAt (encStmt stmt) stmt
  | .funcDef func =>
    .node (fun _ => rfl) (reads_tag .funcDef) (encTag_ne_nil _) <| by
      dsimp only [decStmtBody]
      exact .last ((decodes_function func).map WStmt.funcDef)
  | .decorator decorators line column func =>
    .node (fun _ => rfl) (reads_tag .decorator) (encTag_ne_nil _) <| by
      dsimp only [decStmtBody]
      exact .step (.const (reads_exprs decorators)) <|
        .step (.const (reads_taggedInt line)) <| .step (.const (reads_taggedInt column)) <|
        .step (.const (reads_expectTag _)) <| .step (decodes_function func) <|
        .step (.const (reads_expectTag _)) (.done _)
  | .classDef name body bases decorators typeParams keywords _ =>
    .node (fun _ => rfl) (reads_tag .classDef) (encTag_ne_nil _) <| by
      dsimp only [decStmtBody]
      exact .step (.const (reads_bytes name)) <| .step (decodes_block body) <|
        .step (.const (reads_exprs bases)) <| .step (.const (reads_exprs decorators)) <|
        .step (decodes_optTypeParams typeParams) <| decodes_dict keywords <| decodes_close _ _
  | .expr value =>
    .node (fun _ => rfl) (reads_tag .exprStmt) (encTag_ne_nil _) <| by
      dsimp only [decStmtBody]
      exact .step (.const (reads_expr value)) <| .step (.const (reads_expectTag _)) (.done _)
  | .assign targets value type newSyntax _ =>
    .node (fun _ => rfl) (reads_tag .assign) (encTag_ne_nil _) <| by
      dsimp only [decStmtBody]
      exact .step (.const (reads_exprs targets)) <| .step (.const (reads_expr value)) <|
        .step (.const (reads_option reads_type type)) <| .step (.const (reads_bool newSyntax)) <|
        decodes_close _ _
  | .operatorAssignment op target value _ =>
    .node (fun _ => rfl) (reads_tag .operatorAssignmentStmt) (encTag_ne_nil _) <| by
      dsimp only [decStmtBody]
      exact .step (.const (reads_bytes op)) <| .step (.const (reads_expr target)) <|
        .step (.const (reads_expr value)) <| decodes_close _ _
  | .import names loc flags =>
    .node (fun _ => rfl) (reads_tag .import) (encTag_ne_nil _) <| by
      dsimp only [decStmtBody]
      exact decodes_counted (decodes_aliases names) <| .step (.const (reads_loc loc)) <| .step (.const (reads_gated reads_taggedInt flags)) <|
        .step (.const (reads_expectTag _)) (.done _)
  | .importAll module level loc flags =>
    .node (fun _ => rfl) (reads_tag .importAll) (encTag_ne_nil _) <| by
      dsimp only [decStmtBody]
      exact .step (.const (reads_bytes module)) <| .step (.const (reads_taggedInt level)) <|
        .step (.const (reads_loc loc)) <| .step (.const (reads_gated reads_taggedInt flags)) <|
        .step (.const (reads_expectTag _)) (.done _)
  | .importFrom level module names loc flags =>
    .node (fun _ => rfl) (reads_tag .importFrom) (encTag_ne_nil _) <| by
      dsimp only [decStmtBody]
      exact .step (.const (reads_taggedInt level)) <| .step (.const (reads_bytes module)) <|
        decodes_counted (decodes_aliases names) <| .step (.const (reads_loc loc)) <| .step (.const (reads_gated reads_taggedInt flags)) <|
        .step (.const (reads_expectTag _)) (.done _)
  | .return value _ =>
    .node (fun _ => rfl) (reads_tag .return) (encTag_ne_nil _) <| by
      dsimp only [decStmtBody]
      exact .step (.const (reads_optExpr value)) <| decodes_close _ _
  | .raise exc cause _ =>
    .node (fun _ => rfl) (reads_tag .raiseStmt) (encTag_ne_nil _) <| by
      dsimp only [decStmtBody]
      exact .step (.const (reads_optExpr exc)) <| .step (.const (reads_optExpr cause)) <|
        decodes_close _ _
  | .assert test msg _ =>
    .node (fun _ => rfl) (reads_tag .assertStmt) (encTag_ne_nil _) <| by
      dsimp only [decStmtBody]
      exact .step (.const (reads_expr test)) <| .step (.const (reads_optExpr msg)) <|
        decodes_close _ _
  | .if test body elifs orelse _ =>
    .node (fun _ => rfl) (reads_tag .if) (encTag_ne_nil _) <| by
      dsimp only [decStmtBody]
      exact .step (.const (reads_expr test)) <| .step (decodes_block body) <|
        decodes_counted (decodes_elifs elifs) <| .step (decodes_optBlock orelse) <|
        decodes_close _ _
  | .while test body orelse _ =>
    .node (fun _ => rfl) (reads_tag .while) (encTag_ne_nil _) <| by
      dsimp only [decStmtBody]
      exact .step (.const (reads_expr test)) <| .step (decodes_block body) <|
        .step (decodes_else orelse) <| decodes_close _ _
  | .for target iter body orelse isAsync _ =>
    .node (fun _ => rfl) (reads_tag .forStmt) (encTag_ne_nil _) <| by
      dsimp only [decStmtBody]
      exact .step (.const (reads_expr target)) <| .step (.const (reads_expr iter)) <|
        .step (decodes_block body) <| .step (decodes_else orelse) <|
        .step (.const (reads_bool isAsync)) <| decodes_close _ _
  | .with items body isAsync _ =>
    .node (fun _ => rfl) (reads_tag .withStmt) (encTag_ne_nil _) <| by
      dsimp only [decStmtBody]
      exact decodes_counted (decodes_items items) <| .step (decodes_block body) <|
        .step (.const (reads_bool isAsync)) <| decodes_close _ _
  | .pass _ =>
    .node (fun _ => rfl) (reads_tag .passStmt) (encTag_ne_nil _) <| by
      dsimp only [decStmtBody]
      exact decodes_close _ _
  | .break _ =>
    .node (fun _ => rfl) (reads_tag .breakStmt) (encTag_ne_nil _) <| by
      dsimp only [decStmtBody]
      exact decodes_close _ _
  | .continue _ =>
    .node (fun _ => rfl) (reads_tag .continueStmt) (encTag_ne_nil _) <| by
      dsimp only [decStmtBody]
      exact decodes_close _ _
  | .try body handlers orelse finalbody isStar _ =>
    .node (fun _ => rfl) (reads_tag .tryStmt) (encTag_ne_nil _) <| by
      dsimp only [decStmtBody]
      exact .step (decodes_block body) <| decodes_handlers (decodes_handlerBodies handlers) <|
        .step (decodes_optBlock orelse) <| .step (decodes_optBlock finalbody) <|
        .step (.const (reads_bool isStar)) <| decodes_close _ _
  | .del target _ =>
    .node (fun _ => rfl) (reads_tag .delStmt) (encTag_ne_nil _) <| by
      dsimp only [decStmtBody]
      exact .step (.const (reads_expr target)) <| decodes_close _ _
  | .global names _ =>
    .node (fun _ => rfl) (reads_tag .globalDecl) (encTag_ne_nil _) <| by
      dsimp only [decStmtBody]
      exact decodes_counted (decodes_globals names) <| decodes_close _ _
  | .nonlocal names _ =>
    .node (fun _ => rfl) (reads_tag .nonlocalDecl) (encTag_ne_nil _) <| by
      dsimp only [decStmtBody]
      exact decodes_counted (decodes_globals names) <| decodes_close _ _
  | .match subject cases _ =>
    .node (fun _ => rfl) (reads_tag .matchStmt) (encTag_ne_nil _) <| by
      dsimp only [decStmtBody]
      exact .step (.const (reads_expr subject)) <| decodes_counted (decodes_cases cases) <|
        decodes_close _ _
  | .typeAlias name typeParams value _ =>
    .node (fun _ => rfl) (reads_tag .typeAliasStmt) (encTag_ne_nil _) <| by
      dsimp only [decStmtBody]
      exact .step (.const (reads_expr name)) <| decodes_bare (decodes_typeParams typeParams) <|
        .step (.const (reads_expr value)) <| decodes_close _ _

theorem decodes_stmts : ∀ stmts : List (WStmt cv),
    Decodes (fun n => times (decStmtAt n) stmts.length) (encStmts stmts) stmts
  | [] => .nil
  | stmt :: stmts => .cons (decodes_stmt stmt) (decodes_stmts stmts)

theorem decodes_block : ∀ block : WBlock cv,
    Decodes (fun n => readBlock (decStmtAt n)) (encBlock block) block
  | .empty unreachable _ =>
    .step (.const (reads_expectTag _)) <| .step (.const (reads_expectTag _)) <|
      .step (.const (reads_count 0)) <| .step (.const (reads_bool unreachable)) <|
      decodes_close _ _
  | .stmts unreachable first rest =>
    .step (.const (reads_expectTag _)) <| .step (.const (reads_expectTag _)) <|
      .step (.const (reads_count _)) <| .step (.const (reads_bool unreachable)) <|
      .step (decodes_stmt first) <| .step (decodes_stmts rest) <|
      .step (.const (reads_expectTag _)) (.done _)

theorem decodes_else : ∀ block : WElse cv,
    Decodes (fun n => readElse (decStmtAt n)) (encElse block) block
  | .mk unreachable stmts =>
    .step (.const (reads_expectTag _)) <| .step (.const (reads_expectTag _)) <|
      .step (.const (reads_count _)) <| .step (.const (reads_bool unreachable)) <|
      .step (decodes_stmts stmts) <| .step (.const (reads_expectTag _)) (.done _)

theorem decodes_optBlock : ∀ block : Option (WBlock cv),
    Decodes (fun n => readOption (readBlock (decStmtAt n))) (encOptBlock block) block
  | none => decodes_none
  | some block => decodes_some (decodes_block block)

theorem decodes_function : ∀ func : WFunction cv,
    Decodes (fun n => readFunction (decStmtAt n)) (encFunction func) func
  | .mk name parameters body isAsync typeParams returns typeComment _ =>
    .step (.const (reads_bytes name)) <| .step (.const (reads_parameters parameters)) <|
      .step (decodes_block body) <| .step (.const (reads_bool isAsync)) <|
      .step (decodes_optTypeParams typeParams) <|
      .step (.const (reads_option reads_type returns)) <|
      .step (.const (reads_gated reads_bool typeComment)) <| decodes_close _ _

theorem decodes_elifs : ∀ elifs : List (WElif cv),
    Decodes (fun n => times (readElif (decStmtAt n)) elifs.length) (encElifs elifs) elifs
  | [] => .nil
  | .mk test body :: elifs =>
    .cons (.step (.const (reads_expr test)) <| .step (decodes_block body) (.done _))
      (decodes_elifs elifs)

theorem decodes_handlerBodies : ∀ handlers : List (WHandler cv),
    Decodes (fun n => times (readBlock (decStmtAt n)) handlers.length)
      (encHandlerBodies handlers) (handlers.map (·.body))
  | [] => .nil
  | .mk _ _ body :: handlers => .cons (decodes_block body) (decodes_handlerBodies handlers)

theorem decodes_cases : ∀ cases : List (WCase cv),
    Decodes (fun n => times (readCase (decStmtAt n)) cases.length) (encCases cases) cases
  | [] => .nil
  | .mk pattern guard body :: cases =>
    .cons
      (.step (.const (reads_pattern pattern)) <| .step (.const (reads_optExpr guard)) <|
        .step (decodes_block body) (.done _))
      (decodes_cases cases)

end

/-- The decoder undoes the encoding of statements on every stream. -/
theorem reads_stmt (stmt : WStmt cv) : Reads decStmt (encStmt stmt) stmt :=
  (decodes_stmt stmt).bounded

/-- The decoder undoes the encoding of modules on every stream. -/
theorem reads_module (stmts : List (WStmt cv)) : Reads decModule (encModule stmts) stmts :=
  decodes_taggedList (d := fun _ => decStmt) (.all rfl (fun _ _ => rfl) reads_stmt stmts) _
    (Nat.le_refl _)

end AstSerialize
