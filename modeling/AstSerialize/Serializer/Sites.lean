import AstSerialize.Serializer.Imports

/-! All statements of a module with their positions. Those that are written are
the statements of the tree, each as it is written in the scope of its position. -/
namespace AstSerialize
open Coding

/-- A statement, and what encloses it. -/
structure StmtSite where
  position : Position
  stmt : Stmt

section Sites

variable (o : Options)

mutual

/-- A statement and those in its blocks, in the order in which they are written. -/
def stmtSites (p : Position) : Stmt → List StmtSite
  | stmt@(.functionDef head body) => ⟨p, stmt⟩ :: blockSites (functionFrame p head body :: p) body
  | stmt@(.classDef _ body) => ⟨p, stmt⟩ :: blockSites (.classDef :: p) body
  | stmt@(.if test body clauses _) =>
    ⟨p, stmt⟩ :: (blockSites (.branch (ifFlags o test clauses).main :: p) body
      ++ clausesSites p (ifFlags o test clauses).clauses clauses)
  | stmt@(.while _ body orelse _) | stmt@(.for _ _ _ body orelse _) =>
    ⟨p, stmt⟩ :: (blockSites p body ++ blockSites p orelse)
  | stmt@(.with _ _ body _) => ⟨p, stmt⟩ :: blockSites p body
  | stmt@(.try body handlers orelse finalbody _ _) =>
    ⟨p, stmt⟩ :: (blockSites p body ++ (handlersSites p handlers
      ++ (blockSites p orelse ++ blockSites p finalbody)))
  | stmt@(.match _ cases _) =>
    ⟨p, stmt⟩ :: casesSites p (IfReachabilityAnalyzer.new.caseFlags o cases) cases
  | stmt@(.return ..) | stmt@(.delete ..) | stmt@(.typeAlias ..) | stmt@(.assign ..)
  | stmt@(.augAssign ..) | stmt@(.annAssign ..) | stmt@(.raise ..) | stmt@(.assert ..)
  | stmt@(.import ..) | stmt@(.importFrom ..) | stmt@(.global ..) | stmt@(.nonlocal ..)
  | stmt@(.expr ..) | stmt@(.pass ..) | stmt@(.break ..) | stmt@(.continue ..)
  | stmt@(.ipyEscapeCommand ..) => [⟨p, stmt⟩]

def blockSites (p : Position) : List Stmt → List StmtSite
  | [] => []
  | stmt :: stmts => stmtSites p stmt ++ blockSites p stmts

def clausesSites (p : Position) (flags : List BranchFlags) : ElifElseClauses → List StmtSite
  | .nil => []
  | .elif _ body _ rest =>
    blockSites (.branch (flags.headD ⟨false, false⟩) :: p) body ++ clausesSites p flags.tail rest
  | .else body _ => blockSites (.branch (flags.headD ⟨false, false⟩) :: p) body

def handlersSites (p : Position) : List ExceptHandler → List StmtSite
  | [] => []
  | .mk _ _ body _ :: handlers => blockSites p body ++ handlersSites p handlers

def casesSites (p : Position) (flags : List BranchFlags) : List MatchCase → List StmtSite
  | [] => []
  | .mk _ _ body _ :: cases =>
    blockSites (.branch (flags.headD ⟨false, false⟩) :: p) body ++ casesSites p flags.tail cases

end

mutual

theorem stmtSites_below : ∀ (stmt : Stmt) (p : Position),
    ∀ site ∈ stmtSites o p stmt, p <:+ site.position
  | .functionDef head body, p => by
    have inside := blockSites_below body (functionFrame p head body :: p)
    simp only [stmtSites, List.forall_mem_cons]
    exact ⟨List.suffix_rfl, fun site mem => (List.suffix_cons _ _).trans (inside site mem)⟩
  | .classDef _ body, p => by
    have inside := blockSites_below body (.classDef :: p)
    simp only [stmtSites, List.forall_mem_cons]
    exact ⟨List.suffix_rfl, fun site mem => (List.suffix_cons _ _).trans (inside site mem)⟩
  | .if test body clauses _, p => by
    have inside := blockSites_below body (.branch (ifFlags o test clauses).main :: p)
    simp only [stmtSites, List.forall_mem_append, List.forall_mem_cons]
    exact ⟨List.suffix_rfl, fun site mem => (List.suffix_cons _ _).trans (inside site mem),
      clausesSites_below clauses p _⟩
  | .while _ body orelse _, p | .for _ _ _ body orelse _, p => by
    simp only [stmtSites, List.forall_mem_append, List.forall_mem_cons]
    exact ⟨List.suffix_rfl, blockSites_below body p, blockSites_below orelse p⟩
  | .with _ _ body _, p => by
    simp only [stmtSites, List.forall_mem_cons]
    exact ⟨List.suffix_rfl, blockSites_below body p⟩
  | .try body handlers orelse finalbody _ _, p => by
    simp only [stmtSites, List.forall_mem_append, List.forall_mem_cons]
    exact ⟨List.suffix_rfl, blockSites_below body p, handlersSites_below handlers p,
      blockSites_below orelse p, blockSites_below finalbody p⟩
  | .match _ cases _, p => by
    simp only [stmtSites, List.forall_mem_cons]
    exact ⟨List.suffix_rfl, casesSites_below cases p _⟩
  | .return .., p | .delete .., p | .typeAlias .., p | .assign .., p | .augAssign .., p
  | .annAssign .., p | .raise .., p | .assert .., p | .import .., p | .importFrom .., p
  | .global .., p | .nonlocal .., p | .expr .., p | .pass .., p | .break .., p | .continue .., p
  | .ipyEscapeCommand .., p => by
    simp only [stmtSites, List.forall_mem_singleton]
    exact List.suffix_rfl

theorem blockSites_below : ∀ (stmts : List Stmt) (p : Position),
    ∀ site ∈ blockSites o p stmts, p <:+ site.position
  | [], _ => fun _ mem => nomatch mem
  | stmt :: stmts, p => by
    simp only [blockSites, List.forall_mem_append]
    exact ⟨stmtSites_below stmt p, blockSites_below stmts p⟩

theorem clausesSites_below : ∀ (clauses : ElifElseClauses) (p : Position)
    (flags : List BranchFlags), ∀ site ∈ clausesSites o p flags clauses, p <:+ site.position
  | .nil, _, _ => fun _ mem => nomatch mem
  | .elif _ body _ rest, p, flags => by
    have inside := blockSites_below body (.branch (flags.headD ⟨false, false⟩) :: p)
    simp only [clausesSites, List.forall_mem_append]
    exact ⟨fun site mem => (List.suffix_cons _ _).trans (inside site mem),
      clausesSites_below rest p flags.tail⟩
  | .else body _, p, flags => by
    have inside := blockSites_below body (.branch (flags.headD ⟨false, false⟩) :: p)
    exact fun site mem => (List.suffix_cons _ _).trans (inside site mem)

theorem handlersSites_below : ∀ (handlers : List ExceptHandler) (p : Position),
    ∀ site ∈ handlersSites o p handlers, p <:+ site.position
  | [], _ => fun _ mem => nomatch mem
  | .mk _ _ body _ :: handlers, p => by
    simp only [handlersSites, List.forall_mem_append]
    exact ⟨blockSites_below body p, handlersSites_below handlers p⟩

theorem casesSites_below : ∀ (cases : List MatchCase) (p : Position)
    (flags : List BranchFlags), ∀ site ∈ casesSites o p flags cases, p <:+ site.position
  | [], _, _ => fun _ mem => nomatch mem
  | .mk _ _ body _ :: cases, p, flags => by
    have inside := blockSites_below body (.branch (flags.headD ⟨false, false⟩) :: p)
    simp only [casesSites, List.forall_mem_append]
    exact ⟨fun site mem => (List.suffix_cons _ _).trans (inside site mem),
      casesSites_below cases p flags.tail⟩

end

end Sites

section Trees

variable {cv : Nat}

mutual

/-- A statement of the tree and those in its blocks, in the order of the stream. -/
def treeStmts : WStmt cv → List (WStmt cv)
  | stmt@(.funcDef func) | stmt@(.decorator _ _ _ func) => stmt :: functionStmts func
  | stmt@(.classDef _ body _ _ _ _ _) | stmt@(.with _ body _ _) => stmt :: blockStmts body
  | stmt@(.if _ body elifs orelse _) =>
    stmt :: (blockStmts body ++ (elifsStmts elifs ++ optBlockStmts orelse))
  | stmt@(.while _ body orelse _) | stmt@(.for _ _ body orelse _ _) =>
    stmt :: (blockStmts body ++ elseStmts orelse)
  | stmt@(.try body handlers orelse finalbody _ _) =>
    stmt :: (blockStmts body ++ (handlersStmts handlers
      ++ (optBlockStmts orelse ++ optBlockStmts finalbody)))
  | stmt@(.match _ cases _) => stmt :: casesStmts cases
  | stmt@(.expr _) | stmt@(.assign _ _ _ _ _) | stmt@(.operatorAssignment _ _ _ _)
  | stmt@(.import _ _ _) | stmt@(.importAll _ _ _ _) | stmt@(.importFrom _ _ _ _ _)
  | stmt@(.return _ _) | stmt@(.raise _ _ _) | stmt@(.assert _ _ _) | stmt@(.pass _)
  | stmt@(.break _) | stmt@(.continue _) | stmt@(.del _ _) | stmt@(.global _ _)
  | stmt@(.nonlocal _ _) | stmt@(.typeAlias _ _ _ _) => [stmt]

def treesStmts : List (WStmt cv) → List (WStmt cv)
  | [] => []
  | stmt :: stmts => treeStmts stmt ++ treesStmts stmts

def blockStmts : WBlock cv → List (WStmt cv)
  | .empty _ _ => []
  | .stmts _ first rest => treeStmts first ++ treesStmts rest

def elseStmts : WElse cv → List (WStmt cv)
  | .mk _ stmts => treesStmts stmts

def optBlockStmts : Option (WBlock cv) → List (WStmt cv)
  | none => []
  | some block => blockStmts block

def functionStmts : WFunction cv → List (WStmt cv)
  | .mk _ _ body _ _ _ _ _ => blockStmts body

def elifsStmts : List (WElif cv) → List (WStmt cv)
  | [] => []
  | .mk _ body :: elifs => blockStmts body ++ elifsStmts elifs

def handlersStmts : List (WHandler cv) → List (WStmt cv)
  | [] => []
  | .mk _ _ body :: handlers => blockStmts body ++ handlersStmts handlers

def casesStmts : List (WCase cv) → List (WStmt cv)
  | [] => []
  | .mk _ _ body :: cases => blockStmts body ++ casesStmts cases

end

end Trees

section Written

variable (c : Config) (skip : Bool)

/-- The tree that the statement is written as. -/
def StmtSite.tree (site : StmtSite) : WStmt c.cacheVersion :=
  toWireStmt c skip site.position.scope site.stmt

/-- The statements that are written. -/
def writtenSites (sites : List StmtSite) : List StmtSite :=
  sites.filter fun site => site.position.written skip

def siteTrees (sites : List StmtSite) : List (WStmt c.cacheVersion) :=
  (writtenSites skip sites).map (·.tree c skip)

variable {c skip}

theorem siteTrees_append (sites sites' : List StmtSite) :
    siteTrees c skip (sites ++ sites') = siteTrees c skip sites ++ siteTrees c skip sites' := by
  simp [siteTrees, writtenSites]

theorem siteTrees_cons {p : Position} (alive : p.written skip = true) (stmt : Stmt)
    (sites : List StmtSite) :
    siteTrees c skip (⟨p, stmt⟩ :: sites)
      = toWireStmt c skip p.scope stmt :: siteTrees c skip sites := by
  simp [siteTrees, writtenSites, alive, StmtSite.tree]

theorem siteTrees_dead {p : Position} {sites : List StmtSite} (dead : p.written skip = false)
    (below : ∀ site ∈ sites, p <:+ site.position) : siteTrees c skip sites = [] := by
  have none : writtenSites skip sites = [] := by
    apply List.filter_eq_nil_iff.mpr
    intro site mem
    rw [Position.written_suffix (below site mem) dead]
    exact Bool.false_ne_true
  rw [siteTrees, none]
  rfl

theorem blockStmts_toWireBlock (scope : Scope) (fallback : TextRange)
    (trees : List (WStmt c.cacheVersion)) :
    blockStmts (toWireBlock c scope fallback trees) = treesStmts trees := by
  cases trees <;> rfl

theorem optBlockStmts_toWireOptBlock (scope : Scope) {block : List Stmt} (range : TextRange)
    {trees : List (WStmt c.cacheVersion)} (length : trees.length = block.length) :
    optBlockStmts (toWireOptBlock c scope block range trees) = treesStmts trees := by
  cases block with
  | nil =>
    obtain rfl := List.length_eq_zero_iff.mp length
    rfl
  | cons first rest => exact blockStmts_toWireBlock scope range trees

theorem treeStmts_functionDef (scope : Scope) (head : FunctionHead) (comment : FuncComment)
    (body : WBlock c.cacheVersion) :
    treeStmts (toWireFunctionDef c scope head comment body)
      = toWireFunctionDef c scope head comment body :: blockStmts body := by
  unfold toWireFunctionDef
  cases head.decoratorList <;> rfl

theorem optBlockStmts_synthetic (scope : Scope) (range : TextRange)
    (synthetic : Option BranchFlags) :
    optBlockStmts (toWireSyntheticElse c scope range synthetic) = [] := by
  unfold toWireSyntheticElse
  split
  · rfl
  · split <;> rfl

variable (c skip)

mutual

theorem treeStmts_eq : ∀ (stmt : Stmt) (p : Position), p.written skip = true →
    treeStmts (toWireStmt c skip p.scope stmt) = siteTrees c skip (stmtSites c.options p stmt)
  | .functionDef head body, p, alive => by
    rw [stmtSites, siteTrees_cons alive, toWireStmt, treeStmts_functionDef]
    congr 1
    cases omitted : omitsBody skip p.scope.inClass head body with
    | false =>
      have inside : Position.written skip (functionFrame p head body :: p) = true := by
        rw [functionFrame_written, alive, omitted]
        rfl
      rw [← treesStmts_eq body _ inside, functionFrame, Position.scope_function]
      exact blockStmts_toWireBlock ..
    | true =>
      have outside : Position.written skip (functionFrame p head body :: p) = false := by
        rw [functionFrame_written, alive, omitted]
        rfl
      rw [siteTrees_dead outside (blockSites_below c.options body _)]
      rfl
  | .classDef head body, p, alive => by
    have inside := (Position.written_class skip p).trans alive
    rw [stmtSites, siteTrees_cons alive, ← treesStmts_eq body _ inside, Position.scope_class,
      ← blockStmts_toWireBlock p.scope head.range]
    rfl
  | .if test body clauses range, p, alive => by
    have inside := (Position.written_branch skip p (ifFlags c.options test clauses).main).trans alive
    have missing := optBlockStmts_synthetic (c := c) p.scope range
      (ifFlags c.options test clauses).synthetic
    rw [stmtSites, siteTrees_cons alive, siteTrees_append, ← treesStmts_eq body _ inside,
      ← clausesStmts_eq _ missing clauses p _ alive, Position.scope_branch, toWireStmt, treeStmts,
      blockStmts_toWireBlock]
  | .while test body orelse range, p, alive | .for _ test _ body orelse range, p, alive => by
    rw [stmtSites, siteTrees_cons alive, siteTrees_append, ← treesStmts_eq body p alive,
      ← treesStmts_eq orelse p alive, toWireStmt, treeStmts, blockStmts_toWireBlock, elseStmts]
  | .with isAsync items body range, p, alive => by
    rw [stmtSites, siteTrees_cons alive, ← treesStmts_eq body p alive,
      ← blockStmts_toWireBlock p.scope range]
    rfl
  | .try body handlers orelse finalbody isStar range, p, alive => by
    rw [stmtSites, siteTrees_cons alive, siteTrees_append, siteTrees_append, siteTrees_append,
      ← treesStmts_eq body p alive, ← handlersStmts_eq handlers p alive,
      ← treesStmts_eq orelse p alive, ← treesStmts_eq finalbody p alive, toWireStmt, treeStmts,
      blockStmts_toWireBlock, optBlockStmts_toWireOptBlock _ _ (toWireStmts_length ..),
      optBlockStmts_toWireOptBlock _ _ (toWireStmts_length ..)]
  | .match subject cases range, p, alive => by
    rw [stmtSites, siteTrees_cons alive, ← casesStmts_eq cases p _ alive]
    rfl
  | .importFrom module names level isLazy range, p, alive => by
    rw [stmtSites, siteTrees_cons alive, toWireStmt, toWireImportFrom]
    split <;> rfl
  | .import .., p, alive | .return .., p, alive | .delete .., p, alive | .typeAlias .., p, alive
  | .assign .., p, alive | .augAssign .., p, alive | .annAssign .., p, alive
  | .raise .., p, alive | .assert .., p, alive | .global .., p, alive | .nonlocal .., p, alive
  | .expr .., p, alive | .pass .., p, alive | .break .., p, alive | .continue .., p, alive
  | .ipyEscapeCommand .., p, alive => by
    rw [stmtSites, siteTrees_cons alive]
    rfl

theorem treesStmts_eq : ∀ (stmts : List Stmt) (p : Position), p.written skip = true →
    treesStmts (toWireStmts c skip p.scope stmts)
      = siteTrees c skip (blockSites c.options p stmts)
  | [], _, _ => rfl
  | stmt :: stmts, p, alive => by
    rw [blockSites, siteTrees_append, ← treeStmts_eq stmt p alive, ← treesStmts_eq stmts p alive,
      toWireStmts, treesStmts]

theorem clausesStmts_eq (synthetic : Option (WBlock c.cacheVersion))
    (missing : optBlockStmts synthetic = []) : ∀ (clauses : ElifElseClauses) (p : Position)
    (flags : List BranchFlags), p.written skip = true →
    elifsStmts (toWireElifs c skip p.scope flags clauses)
        ++ optBlockStmts (toWireOrelse c skip p.scope flags synthetic clauses)
      = siteTrees c skip (clausesSites c.options p flags clauses)
  | .nil, _, _, _ => missing
  | .elif test body range rest, p, flags, alive => by
    have inside := (Position.written_branch skip p (flags.headD ⟨false, false⟩)).trans alive
    rw [clausesSites, siteTrees_append, ← treesStmts_eq body _ inside,
      ← clausesStmts_eq synthetic missing rest p _ alive, Position.scope_branch, toWireElifs,
      elifsStmts, toWireOrelse, blockStmts_toWireBlock, List.append_assoc]
  | .else body range, p, flags, alive => by
    have inside := (Position.written_branch skip p (flags.headD ⟨false, false⟩)).trans alive
    rw [clausesSites, ← treesStmts_eq body _ inside, Position.scope_branch]
    exact blockStmts_toWireBlock ..

theorem handlersStmts_eq : ∀ (handlers : List ExceptHandler) (p : Position),
    p.written skip = true → handlersStmts (toWireHandlers c skip p.scope handlers)
      = siteTrees c skip (handlersSites c.options p handlers)
  | [], _, _ => rfl
  | .mk type name body range :: handlers, p, alive => by
    rw [handlersSites, siteTrees_append, ← treesStmts_eq body p alive,
      ← handlersStmts_eq handlers p alive, toWireHandlers, handlersStmts, blockStmts_toWireBlock]

theorem casesStmts_eq : ∀ (cases : List MatchCase) (p : Position) (flags : List BranchFlags),
    p.written skip = true → casesStmts (toWireCases c skip p.scope flags cases)
      = siteTrees c skip (casesSites c.options p flags cases)
  | [], _, _, _ => rfl
  | .mk pattern guard body range :: cases, p, flags, alive => by
    have inside := (Position.written_branch skip p (flags.headD ⟨false, false⟩)).trans alive
    rw [casesSites, siteTrees_append, ← treesStmts_eq body _ inside,
      ← casesStmts_eq cases p _ alive, Position.scope_branch, toWireCases, casesStmts,
      blockStmts_toWireBlock]

end

end Written

section Supported

variable (c : Config) (skip : Bool)

/-- Every statement that is written is supported in its own scope. -/
def SitesSupported (sites : List StmtSite) : Prop :=
  ∀ site ∈ writtenSites skip sites, supportsStmt c skip site.position.scope.inClass site.stmt = true

variable {c skip}

theorem sitesSupported_append {sites sites' : List StmtSite} (first : SitesSupported c skip sites)
    (second : SitesSupported c skip sites') : SitesSupported c skip (sites ++ sites') := by
  intro site mem
  rw [writtenSites, List.filter_append, List.mem_append] at mem
  rcases mem with mem | mem
  · exact first site mem
  · exact second site mem

theorem sitesSupported_cons {p : Position} {stmt : Stmt} {sites : List StmtSite}
    (here : supportsStmt c skip p.scope.inClass stmt = true)
    (rest : SitesSupported c skip sites) : SitesSupported c skip (⟨p, stmt⟩ :: sites) := by
  intro site mem
  rw [writtenSites, List.mem_filter, List.mem_cons] at mem
  obtain ⟨rfl | mem, written⟩ := mem
  · exact here
  · exact rest site (List.mem_filter.mpr ⟨mem, written⟩)

theorem sitesSupported_nil : SitesSupported c skip [] := fun _ mem => nomatch mem

theorem sitesSupported_dead {p : Position} {sites : List StmtSite} (dead : p.written skip = false)
    (below : ∀ site ∈ sites, p <:+ site.position) : SitesSupported c skip sites := by
  intro site mem
  rw [writtenSites, List.mem_filter] at mem
  have outside := Position.written_suffix (below site mem.1) dead
  rw [outside] at mem
  cases mem.2

variable (c skip)

mutual

theorem stmtSites_supported : ∀ (stmt : Stmt) (p : Position),
    supportsStmt c skip p.scope.inClass stmt = true →
    SitesSupported c skip (stmtSites c.options p stmt)
  | .functionDef head body, p, supported => by
    refine sitesSupported_cons supported ?_
    simp only [supportsStmt, Bool.and_eq_true] at supported
    cases omitted : omitsBody skip p.scope.inClass head body with
    | true =>
      have outside : Position.written skip (functionFrame p head body :: p) = false := by
        rw [functionFrame_written, omitted]
        exact Bool.and_false _
      exact sitesSupported_dead outside (blockSites_below c.options body _)
    | false =>
      rw [omitted] at supported
      exact blockSites_supported body (functionFrame p head body :: p) supported.2.2.2
  | .classDef head body, p, supported => by
    refine sitesSupported_cons supported ?_
    simp only [supportsStmt, Bool.and_eq_true] at supported
    exact blockSites_supported body (.classDef :: p) supported.1
  | .if test body clauses range, p, supported => by
    refine sitesSupported_cons supported ?_
    simp only [supportsStmt, Bool.and_eq_true] at supported
    apply sitesSupported_append
    · exact blockSites_supported body (.branch _ :: p) supported.2.1
    · exact clausesSites_supported clauses p _ supported.2.2
  | .while test body orelse range, p, supported => by
    refine sitesSupported_cons supported ?_
    simp only [supportsStmt, Bool.and_eq_true] at supported
    exact sitesSupported_append (blockSites_supported body p supported.2.1)
      (blockSites_supported orelse p supported.2.2)
  | .for isAsync target iter body orelse range, p, supported => by
    refine sitesSupported_cons supported ?_
    simp only [supportsStmt, Bool.and_eq_true] at supported
    exact sitesSupported_append (blockSites_supported body p supported.2.2.1)
      (blockSites_supported orelse p supported.2.2.2)
  | .with isAsync items body range, p, supported => by
    refine sitesSupported_cons supported ?_
    simp only [supportsStmt, Bool.and_eq_true] at supported
    exact blockSites_supported body p supported.2
  | .try body handlers orelse finalbody isStar range, p, supported => by
    refine sitesSupported_cons supported ?_
    simp only [supportsStmt, Bool.and_eq_true] at supported
    apply sitesSupported_append
    · exact blockSites_supported body p supported.1
    apply sitesSupported_append
    · exact handlersSites_supported handlers p supported.2.2.1
    exact sitesSupported_append (blockSites_supported orelse p supported.2.2.2.1)
      (blockSites_supported finalbody p supported.2.2.2.2)
  | .match subject cases range, p, supported => by
    refine sitesSupported_cons supported ?_
    simp only [supportsStmt, Bool.and_eq_true] at supported
    exact casesSites_supported cases p _ supported.2
  | .import .., p, supported | .importFrom .., p, supported | .return .., p, supported
  | .delete .., p, supported | .typeAlias .., p, supported | .assign .., p, supported
  | .augAssign .., p, supported | .annAssign .., p, supported | .raise .., p, supported
  | .assert .., p, supported | .global .., p, supported | .nonlocal .., p, supported
  | .expr .., p, supported | .pass .., p, supported | .break .., p, supported
  | .continue .., p, supported | .ipyEscapeCommand .., p, supported =>
    sitesSupported_cons supported sitesSupported_nil

theorem blockSites_supported : ∀ (stmts : List Stmt) (p : Position),
    supportsStmts c skip p.scope.inClass stmts = true →
    SitesSupported c skip (blockSites c.options p stmts)
  | [], _, _ => sitesSupported_nil
  | stmt :: stmts, p, supported => by
    rw [supportsStmts, Bool.and_eq_true] at supported
    exact sitesSupported_append (stmtSites_supported stmt p supported.1)
      (blockSites_supported stmts p supported.2)

theorem clausesSites_supported : ∀ (clauses : ElifElseClauses) (p : Position)
    (flags : List BranchFlags), supportsClauses c skip p.scope.inClass clauses = true →
    SitesSupported c skip (clausesSites c.options p flags clauses)
  | .nil, _, _, _ => sitesSupported_nil
  | .elif test body range rest, p, flags, supported => by
    simp only [supportsClauses, Bool.and_eq_true] at supported
    apply sitesSupported_append
    · exact blockSites_supported body (.branch _ :: p) supported.2.1
    · exact clausesSites_supported rest p flags.tail supported.2.2
  | .else body range, p, flags, supported =>
    blockSites_supported body (.branch (flags.headD ⟨false, false⟩) :: p) supported

theorem handlersSites_supported : ∀ (handlers : List ExceptHandler) (p : Position),
    supportsHandlers c skip p.scope.inClass handlers = true →
    SitesSupported c skip (handlersSites c.options p handlers)
  | [], _, _ => sitesSupported_nil
  | .mk type name body range :: handlers, p, supported => by
    rw [supportsHandlers, Bool.and_eq_true] at supported
    exact sitesSupported_append (blockSites_supported body p supported.1)
      (handlersSites_supported handlers p supported.2)

theorem casesSites_supported : ∀ (cases : List MatchCase) (p : Position)
    (flags : List BranchFlags), supportsCases c skip p.scope.inClass cases = true →
    SitesSupported c skip (casesSites c.options p flags cases)
  | [], _, _, _ => sitesSupported_nil
  | .mk pattern guard body range :: cases, p, flags, supported => by
    simp only [supportsCases, Bool.and_eq_true] at supported
    apply sitesSupported_append
    · exact blockSites_supported body (.branch _ :: p) supported.2.2.1
    · exact casesSites_supported cases p flags.tail supported.2.2.2

end

end Supported

section Modules

variable (c : Config) (skip : Bool)

/-- The statements of a module that are written. -/
def moduleStmtSites (stmts : List Stmt) : List StmtSite :=
  writtenSites skip (blockSites c.options [] (splitModule c.options stmts).1)

theorem treesStmts_toWireModule (stmts : List Stmt) :
    treesStmts (toWireModule c skip .initial stmts)
      = (moduleStmtSites c skip stmts).map (·.tree c skip) := by
  have outermost : Position.written skip [] = true := by
    cases skip <;> rfl
  exact treesStmts_eq c skip (splitModule c.options stmts).1 [] outermost

/-- In a module that is written every statement is supported. -/
theorem moduleStmtSites_supported {stmts : List Stmt}
    (supported : supportsModule c skip false stmts = true) {site : StmtSite}
    (mem : site ∈ moduleStmtSites c skip stmts) :
    supportsStmt c skip site.position.scope.inClass site.stmt = true :=
  blockSites_supported c skip (splitModule c.options stmts).1 [] supported site mem

/-- What a run over a module writes, statement by statement. -/
structure SiteRun (stmts : List Stmt) (s : Serializer) (tree : List (WStmt c.cacheVersion)) :
    Prop where
  supported : supportsModule c skip false stmts = true
  reads : ∀ r, decModule (s.bytes ++ r) = some (tree, r)
  written : treesStmts tree = (moduleStmtSites c skip stmts).map (·.tree c skip)

/-- What holds of every run over a module whose bytes hold the statements that are written. -/
theorem serializeModule_sites {P : Serializer → Prop} (stmts : List Stmt)
    (holds : ∀ s tree, SiteRun c skip stmts s tree → P s) :
    match (serializeModule c skip stmts).run Serializer.initial with
    | some ((), s) => P s
    | none => supportsModule c skip false stmts = false := by
  have ran := serializeModule_run c skip stmts
  cases result : (serializeModule c skip stmts).run Serializer.initial with
  | none =>
    rw [result] at ran
    exact ran
  | some result' =>
    obtain ⟨⟨⟩, s⟩ := result'
    rw [result] at ran
    have reads : ∀ r, decModule (s.bytes ++ r)
        = some (toWireModule c skip .initial stmts, r) := by
      intro r
      rw [ran.bytes]
      exact (reads_module _).run_eq r
    exact holds s _ ⟨ran.supported, reads, treesStmts_toWireModule ..⟩

end Modules

end AstSerialize
