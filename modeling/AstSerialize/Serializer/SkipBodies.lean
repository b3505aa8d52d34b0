import AstSerialize.Serializer.Imports

/-! Skipping function bodies. The tree that is written then is the whole tree
with the bodies of functions without effect emptied. -/
namespace AstSerialize
open Coding

section Omission

variable {cv : Nat}

/-- The block without its statements. -/
def WBlock.emptied (loc : Location) : WBlock cv → WBlock cv
  | .empty unreachable _ | .stmts unreachable _ _ => .empty unreachable loc

/-- Other statements, as many as there were. -/
def WBlock.mapStmts (f : List (WStmt cv) → List (WStmt cv)) : WBlock cv → WBlock cv
  | .empty unreachable loc => .empty unreachable loc
  | .stmts unreachable first rest =>
    match f (first :: rest) with
    | [] => .stmts unreachable first rest
    | first' :: rest' => .stmts unreachable first' rest'

def WElse.mapStmts (f : List (WStmt cv) → List (WStmt cv)) : WElse cv → WElse cv
  | .mk unreachable stmts => .mk unreachable (f stmts)

def WFunction.mapBody (f : WBlock cv → WBlock cv) : WFunction cv → WFunction cv
  | .mk name parameters body isAsync typeParams returns typeComment loc =>
    .mk name parameters (f body) isAsync typeParams returns typeComment loc

/-- The function of a definition, decorated or not. -/
def WStmt.mapFunction (f : WFunction cv → WFunction cv) : WStmt cv → WStmt cv
  | .funcDef func => .funcDef (f func)
  | .decorator decorators line column func => .decorator decorators line column (f func)
  | tree => tree

variable (c : Config)

mutual

/-- Walks along a statement and its tree, and empties the bodies of functions without effect; it
does not look into such a body. -/
def omitBodies (inClass : Bool) : Stmt → WStmt cv → WStmt cv
  | .functionDef head body, tree =>
    tree.mapFunction fun func => func.mapBody fun block =>
      if hasExternallyVisibleEffect body head.parameters inClass then
        block.mapStmts (omitBodiesIn inClass body)
      else block.emptied (c.location (bodyRange head body))
  | .classDef _ body, .classDef name block bases decorators typeParams keywords loc =>
    .classDef name (block.mapStmts (omitBodiesIn true body)) bases decorators typeParams keywords loc
  | .if _ body clauses _, .if test block elifs orelse loc =>
    .if test (block.mapStmts (omitBodiesIn inClass body)) (omitInElifs inClass clauses elifs)
      (omitInOrelse inClass clauses orelse) loc
  | .while _ body orelse _, .while test block elseBlock loc =>
    .while test (block.mapStmts (omitBodiesIn inClass body))
      (elseBlock.mapStmts (omitBodiesIn inClass orelse)) loc
  | .for _ _ _ body orelse _, .for target iter block elseBlock isAsync loc =>
    .for target iter (block.mapStmts (omitBodiesIn inClass body))
      (elseBlock.mapStmts (omitBodiesIn inClass orelse)) isAsync loc
  | .with _ _ body _, .with items block isAsync loc =>
    .with items (block.mapStmts (omitBodiesIn inClass body)) isAsync loc
  | .try body handlers orelse finalbody _ _, .try block trees elseBlock finalBlock isStar loc =>
    .try (block.mapStmts (omitBodiesIn inClass body)) (omitInHandlers inClass handlers trees)
      (elseBlock.map (·.mapStmts (omitBodiesIn inClass orelse)))
      (finalBlock.map (·.mapStmts (omitBodiesIn inClass finalbody))) isStar loc
  | .match _ cases _, .match subject trees loc =>
    .match subject (omitInCases inClass cases trees) loc
  | _, tree => tree

def omitBodiesIn (inClass : Bool) : List Stmt → List (WStmt cv) → List (WStmt cv)
  | stmt :: stmts, tree :: trees => omitBodies inClass stmt tree :: omitBodiesIn inClass stmts trees
  | _, trees => trees

def omitInElifs (inClass : Bool) : ElifElseClauses → List (WElif cv) → List (WElif cv)
  | .elif _ body _ rest, .mk test block :: elifs =>
    .mk test (block.mapStmts (omitBodiesIn inClass body)) :: omitInElifs inClass rest elifs
  | _, elifs => elifs

def omitInOrelse (inClass : Bool) : ElifElseClauses → Option (WBlock cv) → Option (WBlock cv)
  | .nil, orelse => orelse
  | .elif _ _ _ rest, orelse => omitInOrelse inClass rest orelse
  | .else body _, orelse => orelse.map (·.mapStmts (omitBodiesIn inClass body))

def omitInHandlers (inClass : Bool) : List ExceptHandler → List (WHandler cv) → List (WHandler cv)
  | .mk _ _ body _ :: handlers, .mk type name block :: trees =>
    .mk type name (block.mapStmts (omitBodiesIn inClass body))
      :: omitInHandlers inClass handlers trees
  | _, trees => trees

def omitInCases (inClass : Bool) : List MatchCase → List (WCase cv) → List (WCase cv)
  | .mk _ _ body _ :: cases, .mk pattern guard block :: trees =>
    .mk pattern guard (block.mapStmts (omitBodiesIn inClass body)) :: omitInCases inClass cases trees
  | _, trees => trees

end

end Omission

section Trees

variable (c : Config)

theorem mapStmts_toWireBlock {scope : Scope} {range : TextRange}
    {trees trees' : List (WStmt c.cacheVersion)}
    {f : List (WStmt c.cacheVersion) → List (WStmt c.cacheVersion)} (mapped : trees' = f trees)
    (length : trees'.length = trees.length) :
    (toWireBlock c scope range trees).mapStmts f = toWireBlock c scope range trees' := by
  cases trees with
  | nil =>
    obtain rfl := List.length_eq_zero_iff.mp length
    rfl
  | cons first rest =>
    obtain ⟨first', rest', rfl⟩ := List.exists_cons_of_length_eq_add_one length
    simp only [toWireBlock, WBlock.mapStmts, ← mapped]

/-- A block whose statements stand in the scope `inner`. -/
theorem block_skip (scope : Scope) (range : TextRange) {inner : Scope} {body : List Stmt}
    (items : toWireStmts c true inner body
      = omitBodiesIn c inner.inClass body (toWireStmts c false inner body)) :
    toWireBlock c scope range (toWireStmts c true inner body)
      = (toWireBlock c scope range (toWireStmts c false inner body)).mapStmts
        (omitBodiesIn c inner.inClass body) := by
  refine (mapStmts_toWireBlock c items ?_).symm
  rw [toWireStmts_length, toWireStmts_length]

theorem emptied_toWireBlock (scope : Scope) (range : TextRange) (loc : Location)
    (trees : List (WStmt c.cacheVersion)) :
    (toWireBlock c scope range trees).emptied loc = .empty scope.unreachable loc := by
  cases trees <;> rfl

theorem mapFunction_toWireFunctionDef (scope : Scope) (head : FunctionHead)
    (comment : FuncComment) (f : WBlock c.cacheVersion → WBlock c.cacheVersion)
    (body : WBlock c.cacheVersion) :
    (toWireFunctionDef c scope head comment body).mapFunction (·.mapBody f)
      = toWireFunctionDef c scope head comment (f body) := by
  unfold toWireFunctionDef
  cases head.decoratorList <;> rfl

theorem optBlock_skip (scope : Scope) (range : TextRange) {block : List Stmt}
    (items : toWireStmts c true scope block
      = omitBodiesIn c scope.inClass block (toWireStmts c false scope block)) :
    toWireOptBlock c scope block range (toWireStmts c true scope block)
      = (toWireOptBlock c scope block range (toWireStmts c false scope block)).map
        (·.mapStmts (omitBodiesIn c scope.inClass block)) := by
  unfold toWireOptBlock
  split
  · rfl
  · rw [block_skip c scope range items, Option.map_some]

mutual

theorem toWireStmt_skip : ∀ (stmt : Stmt) (scope : Scope),
    toWireStmt c true scope stmt = omitBodies c scope.inClass stmt (toWireStmt c false scope stmt)
  | .functionDef head body, scope => by
    have full : omitsBody false scope.inClass head body = false := rfl
    have short : omitsBody true scope.inClass head body
        = !hasExternallyVisibleEffect body head.parameters scope.inClass := rfl
    rw [toWireStmt, toWireStmt, omitBodies, mapFunction_toWireFunctionDef, full, short]
    congr 1
    cases hasExternallyVisibleEffect body head.parameters scope.inClass with
    | false => exact (emptied_toWireBlock c scope head.range _ _).symm
    | true => exact block_skip c scope head.range (toWireStmts_skip body scope.enterFunction)
  | .classDef head body, scope => by
    rw [toWireStmt, block_skip c scope head.range (toWireStmts_skip body scope.enterClass)]
    rfl
  | .if test body clauses range, scope => by
    rw [toWireStmt, block_skip c _ range (toWireStmts_skip body _), toWireElifs_skip clauses scope,
      toWireOrelse_skip clauses scope]
    rfl
  | .while test body orelse range, scope => by
    rw [toWireStmt, block_skip c scope range (toWireStmts_skip body scope),
      toWireStmts_skip orelse scope]
    rfl
  | .for isAsync target iter body orelse range, scope => by
    rw [toWireStmt, block_skip c scope range (toWireStmts_skip body scope),
      toWireStmts_skip orelse scope]
    rfl
  | .with isAsync items body range, scope => by
    rw [toWireStmt, block_skip c scope range (toWireStmts_skip body scope)]
    rfl
  | .try body handlers orelse finalbody isStar range, scope => by
    rw [toWireStmt, block_skip c scope range (toWireStmts_skip body scope),
      toWireHandlers_skip handlers scope, optBlock_skip c scope range (toWireStmts_skip orelse scope),
      optBlock_skip c scope range (toWireStmts_skip finalbody scope)]
    rfl
  | .match subject cases range, scope => by
    rw [toWireStmt, toWireCases_skip cases scope]
    rfl
  | .return .., _ | .delete .., _ | .typeAlias .., _ | .assign .., _ | .augAssign .., _
  | .annAssign .., _ | .raise .., _ | .assert .., _ | .import .., _ | .importFrom .., _
  | .global .., _ | .nonlocal .., _ | .expr .., _ | .pass .., _ | .break .., _ | .continue .., _
  | .ipyEscapeCommand .., _ => rfl

theorem toWireStmts_skip : ∀ (stmts : List Stmt) (scope : Scope),
    toWireStmts c true scope stmts
      = omitBodiesIn c scope.inClass stmts (toWireStmts c false scope stmts)
  | [], _ => rfl
  | stmt :: stmts, scope => by
    rw [toWireStmts, toWireStmt_skip stmt scope, toWireStmts_skip stmts scope]
    rfl

theorem toWireElifs_skip : ∀ (clauses : ElifElseClauses) (scope : Scope)
    (flags : List BranchFlags), toWireElifs c true scope flags clauses
      = omitInElifs c scope.inClass clauses (toWireElifs c false scope flags clauses)
  | .nil, _, _ | .else _ _, _, _ => rfl
  | .elif test body range rest, scope, flags => by
    rw [toWireElifs, block_skip c _ range (toWireStmts_skip body _), toWireElifs_skip rest]
    rfl

theorem toWireOrelse_skip {synthetic : Option (WBlock c.cacheVersion)} :
    ∀ (clauses : ElifElseClauses) (scope : Scope) (flags : List BranchFlags),
      toWireOrelse c true scope flags synthetic clauses
        = omitInOrelse c scope.inClass clauses (toWireOrelse c false scope flags synthetic clauses)
  | .nil, _, _ => rfl
  | .elif _ _ _ rest, scope, flags => toWireOrelse_skip rest scope flags.tail
  | .else body range, scope, flags => by
    rw [toWireOrelse, block_skip c _ range (toWireStmts_skip body _)]
    rfl

theorem toWireHandlers_skip : ∀ (handlers : List ExceptHandler) (scope : Scope),
    toWireHandlers c true scope handlers
      = omitInHandlers c scope.inClass handlers (toWireHandlers c false scope handlers)
  | [], _ => rfl
  | .mk type name body range :: handlers, scope => by
    rw [toWireHandlers, block_skip c scope range (toWireStmts_skip body scope),
      toWireHandlers_skip handlers scope]
    rfl

theorem toWireCases_skip : ∀ (cases : List MatchCase) (scope : Scope)
    (flags : List BranchFlags), toWireCases c true scope flags cases
      = omitInCases c scope.inClass cases (toWireCases c false scope flags cases)
  | [], _, _ => rfl
  | .mk pattern guard body range :: cases, scope, flags => by
    rw [toWireCases, block_skip c _ range (toWireStmts_skip body _), toWireCases_skip cases]
    rfl

end

end Trees

section Support

variable (c : Config)

mutual

/-- Where the whole module can be serialized, so can the one without bodies. -/
theorem supportsStmt_skip : ∀ (stmt : Stmt) (inClass : Bool),
    supportsStmt c false inClass stmt = true → supportsStmt c true inClass stmt = true
  | .functionDef head body, inClass, full => by
    simp only [supportsStmt, Bool.and_eq_true] at full ⊢
    obtain ⟨comment, decorators, parameters, items⟩ := full
    refine ⟨comment, decorators, parameters, ?_⟩
    split
    · rfl
    · exact supportsStmts_skip body inClass items
  | .classDef head body, inClass, full => by
    simp only [supportsStmt, Bool.and_eq_true] at full ⊢
    exact ⟨supportsStmts_skip body true full.1, full.2⟩
  | .if test body clauses range, inClass, full => by
    simp only [supportsStmt, Bool.and_eq_true] at full ⊢
    exact ⟨full.1, supportsStmts_skip body inClass full.2.1,
      supportsClauses_skip clauses inClass full.2.2⟩
  | .while test body orelse range, inClass, full => by
    simp only [supportsStmt, Bool.and_eq_true] at full ⊢
    exact ⟨full.1, supportsStmts_skip body inClass full.2.1,
      supportsStmts_skip orelse inClass full.2.2⟩
  | .for isAsync target iter body orelse range, inClass, full => by
    simp only [supportsStmt, Bool.and_eq_true] at full ⊢
    exact ⟨full.1, full.2.1, supportsStmts_skip body inClass full.2.2.1,
      supportsStmts_skip orelse inClass full.2.2.2⟩
  | .with isAsync items body range, inClass, full => by
    simp only [supportsStmt, Bool.and_eq_true] at full ⊢
    exact ⟨full.1, supportsStmts_skip body inClass full.2⟩
  | .try body handlers orelse finalbody isStar range, inClass, full => by
    simp only [supportsStmt, Bool.and_eq_true] at full ⊢
    exact ⟨supportsStmts_skip body inClass full.1, full.2.1,
      supportsHandlers_skip handlers inClass full.2.2.1,
      supportsStmts_skip orelse inClass full.2.2.2.1,
      supportsStmts_skip finalbody inClass full.2.2.2.2⟩
  | .match subject cases range, inClass, full => by
    simp only [supportsStmt, Bool.and_eq_true] at full ⊢
    exact ⟨full.1, supportsCases_skip cases inClass full.2⟩
  | .return .., _, full | .delete .., _, full | .typeAlias .., _, full | .assign .., _, full
  | .augAssign .., _, full | .annAssign .., _, full | .raise .., _, full | .assert .., _, full
  | .import .., _, full | .importFrom .., _, full | .global .., _, full | .nonlocal .., _, full
  | .expr .., _, full | .pass .., _, full | .break .., _, full | .continue .., _, full
  | .ipyEscapeCommand .., _, full => full

theorem supportsStmts_skip : ∀ (stmts : List Stmt) (inClass : Bool),
    supportsStmts c false inClass stmts = true → supportsStmts c true inClass stmts = true
  | [], _, full => full
  | stmt :: stmts, inClass, full => by
    simp only [supportsStmts, Bool.and_eq_true] at full ⊢
    exact ⟨supportsStmt_skip stmt inClass full.1, supportsStmts_skip stmts inClass full.2⟩

theorem supportsClauses_skip : ∀ (clauses : ElifElseClauses) (inClass : Bool),
    supportsClauses c false inClass clauses = true → supportsClauses c true inClass clauses = true
  | .nil, _, full => full
  | .elif test body range rest, inClass, full => by
    simp only [supportsClauses, Bool.and_eq_true] at full ⊢
    exact ⟨full.1, supportsStmts_skip body inClass full.2.1,
      supportsClauses_skip rest inClass full.2.2⟩
  | .else body range, inClass, full => supportsStmts_skip body inClass full

theorem supportsHandlers_skip : ∀ (handlers : List ExceptHandler) (inClass : Bool),
    supportsHandlers c false inClass handlers = true →
      supportsHandlers c true inClass handlers = true
  | [], _, full => full
  | .mk type name body range :: handlers, inClass, full => by
    simp only [supportsHandlers, Bool.and_eq_true] at full ⊢
    exact ⟨supportsStmts_skip body inClass full.1, supportsHandlers_skip handlers inClass full.2⟩

theorem supportsCases_skip : ∀ (cases : List MatchCase) (inClass : Bool),
    supportsCases c false inClass cases = true → supportsCases c true inClass cases = true
  | [], _, full => full
  | .mk pattern guard body range :: cases, inClass, full => by
    simp only [supportsCases, Bool.and_eq_true] at full ⊢
    exact ⟨full.1, full.2.1, supportsStmts_skip body inClass full.2.2.1,
      supportsCases_skip cases inClass full.2.2.2⟩

end

end Support

section Traces

variable {c : Config}

theorem importSites_position {occ : Occurrence} :
    ∀ site ∈ occ.importSites, site.position = occ.position := by
  rcases occ with ⟨p, part⟩
  intro site mem
  simp only [Occurrence.importSites] at mem
  split at mem
  · obtain ⟨name, -, rfl⟩ := List.mem_map.mp mem
    rfl
  · rw [List.mem_singleton.mp mem]
  · cases mem

end Traces

section Files

variable (c : Config)

end Files

end AstSerialize
