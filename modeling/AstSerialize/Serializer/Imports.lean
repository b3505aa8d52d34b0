import AstSerialize.Serializer.Position

/-! The import list, and the imports in the tree that is written. -/
namespace AstSerialize
open Coding

section Sites

namespace ImportSite

/-- The number of dots fits into the `i32` of the entry. -/
def fits (site : ImportSite) : Bool :=
  match site.item with
  | .name _ => true
  | .fromModule _ _ level _ => level.toNat < 2 ^ 31

/-- What the flags of an import at this site say. -/
structure FlagsAt (site : ImportSite) (flags : UInt8) : Prop where
  topLevel : flags &&& importFlagTopLevel ≠ 0 ↔ ∀ frame ∈ site.position, frame.isFunction = false
  unreachable : flags &&& importFlagUnreachable ≠ 0 ↔
    ∃ frame ∈ site.position, frame.unreachable = true
  mypyOnly : flags &&& importFlagMypyOnly ≠ 0 ↔ ∃ frame ∈ site.position, frame.mypyOnly = true
  isLazy : flags &&& importFlagLazy ≠ 0 ↔ site.isLazy = true

theorem makeImportFlags_bits : ∀ inFunction unreachable mypyOnly isLazy : Bool,
    (makeImportFlags inFunction unreachable mypyOnly isLazy &&& importFlagTopLevel ≠ 0 ↔
      inFunction = false) ∧
    (makeImportFlags inFunction unreachable mypyOnly isLazy &&& importFlagUnreachable ≠ 0 ↔
      unreachable = true) ∧
    (makeImportFlags inFunction unreachable mypyOnly isLazy &&& importFlagMypyOnly ≠ 0 ↔
      mypyOnly = true) ∧
    (makeImportFlags inFunction unreachable mypyOnly isLazy &&& importFlagLazy ≠ 0 ↔
      isLazy = true) := by
  decide

theorem flagsAt_flags (site : ImportSite) : site.FlagsAt site.flags := by
  obtain ⟨topLevel, unreachable, mypyOnly, isLazy⟩ := makeImportFlags_bits
    (site.position.any (·.isFunction)) (site.position.any (·.unreachable))
    (site.position.any (·.mypyOnly)) site.isLazy
  constructor
  · apply topLevel.trans
    simp
  · exact unreachable.trans List.any_eq_true
  · exact mypyOnly.trans List.any_eq_true
  · exact isLazy

end ImportSite

/-- An import as the reader of the tree sees it; its flags are in the tree from some version on. -/
inductive ImportNode (cv : Nat) where
  | import (name : Bytes) (relative : Int) (asname : Option Bytes)
      (flags : cvImportFlags ≤ cv → Int)
  | importFrom (module : Bytes) (relative : Int) (names : List WAlias)
      (flags : cvImportFlags ≤ cv → Int)
  | importAll (module : Bytes) (relative : Int) (flags : cvImportFlags ≤ cv → Int)

def ImportStatement.flags : ImportStatement → UInt8
  | .import _ _ _ _ flags | .importFrom _ _ _ _ flags | .importAll _ _ _ flags => flags

def ImportStatement.node (cv : Nat) : ImportStatement → ImportNode cv
  | .import name relative asName _ flags =>
    .import (utf8 name) relative (asName.map utf8) fun _ => flags.toNat
  | .importFrom module relative names _ flags =>
    .importFrom (utf8 module) relative (names.map fun (name, asName) => (utf8 name, asName.map utf8))
      fun _ => flags.toNat
  | .importAll module relative _ flags => .importAll (utf8 module) relative fun _ => flags.toNat

/-- The node that the statement at the site is written as. -/
def ImportSite.node (cv : Nat) (site : ImportSite) : ImportNode cv :=
  match site.item with
  | .name name => .import name.bytes 0 name.asBytes fun _ => site.flags.toNat
  | .fromModule module names level _ =>
    if isWildcard names then
      .importAll (utf8 (moduleName module)) level.toNat fun _ => site.flags.toNat
    else
      .importFrom (utf8 (moduleName module)) level.toNat (names.map toWireAlias)
        fun _ => site.flags.toNat

theorem wrapI32_eq_iff (n : UInt32) : wrapI32 n = n.toNat ↔ n.toNat < 2 ^ 31 := by
  have bound := n.toNat_lt
  unfold wrapI32
  split <;> omega

theorem asBytes_eq (name : Alias) : name.asBytes = (name.asname.map (·.id)).map utf8 := by
  rw [Option.map_map]
  rfl

/-- The entry of a site is the node of the site, as long as the level fits. -/
theorem entry_node_iff (cv : Nat) (site : ImportSite) :
    site.entry.node cv = site.node cv ↔ site.fits = true := by
  rcases site with ⟨position, isLazy, item⟩
  cases item with
  | name name =>
    refine ⟨fun _ => rfl, fun _ => ?_⟩
    simp only [ImportSite.entry, importEntry, ImportStatement.node, ImportSite.node, asBytes_eq]
    rfl
  | fromModule module names level range =>
    simp only [ImportSite.entry, ImportSite.node, ImportSite.fits, fromEntry, decide_eq_true_eq,
      ← wrapI32_eq_iff]
    split
    · simp [ImportStatement.node, ImportSite.flags]
    · simp only [ImportStatement.node, List.map_map, ImportNode.importFrom.injEq, true_and,
        and_true]
      constructor
      · rintro ⟨level, -⟩
        exact level
      · intro level
        refine ⟨level, ?_⟩
        apply List.map_congr_left
        intro name _
        rw [toWireAlias, asBytes_eq]
        rfl

end Sites

section Nodes

variable {cv : Nat}

mutual

/-- The imports in a tree, in the order of the stream. -/
def stmtNodes : WStmt cv → List (ImportNode cv)
  | .import names _ flags => names.map fun name => .import name.1 0 name.2 flags
  | .importAll module level _ flags => [.importAll module level flags]
  | .importFrom level module names _ flags => [.importFrom module level names flags]
  | .funcDef func | .decorator _ _ _ func => functionNodes func
  | .classDef _ body _ _ _ _ _ => blockNodes body
  | .if _ body elifs orelse _ => blockNodes body ++ (elifsNodes elifs ++ optBlockNodes orelse)
  | .while _ body orelse _ | .for _ _ body orelse _ _ => blockNodes body ++ elseNodes orelse
  | .with _ body _ _ => blockNodes body
  | .try body handlers orelse finalbody _ _ =>
    blockNodes body ++ (handlersNodes handlers
      ++ (optBlockNodes orelse ++ optBlockNodes finalbody))
  | .match _ cases _ => casesNodes cases
  | .expr _ | .assign _ _ _ _ _ | .operatorAssignment _ _ _ _ | .return _ _ | .raise _ _ _
  | .assert _ _ _ | .pass _ | .break _ | .continue _ | .del _ _ | .global _ _ | .nonlocal _ _
  | .typeAlias _ _ _ _ => []

def stmtsNodes : List (WStmt cv) → List (ImportNode cv)
  | [] => []
  | stmt :: stmts => stmtNodes stmt ++ stmtsNodes stmts

def blockNodes : WBlock cv → List (ImportNode cv)
  | .empty _ _ => []
  | .stmts _ first rest => stmtNodes first ++ stmtsNodes rest

def elseNodes : WElse cv → List (ImportNode cv)
  | .mk _ stmts => stmtsNodes stmts

def optBlockNodes : Option (WBlock cv) → List (ImportNode cv)
  | none => []
  | some block => blockNodes block

def functionNodes : WFunction cv → List (ImportNode cv)
  | .mk _ _ body _ _ _ _ _ => blockNodes body

def elifsNodes : List (WElif cv) → List (ImportNode cv)
  | [] => []
  | .mk _ body :: elifs => blockNodes body ++ elifsNodes elifs

def handlersNodes : List (WHandler cv) → List (ImportNode cv)
  | [] => []
  | .mk _ _ body :: handlers => blockNodes body ++ handlersNodes handlers

def casesNodes : List (WCase cv) → List (ImportNode cv)
  | [] => []
  | .mk _ _ body :: cases => blockNodes body ++ casesNodes cases

end

end Nodes

section Written

variable (c : Config) (skip : Bool)

/-- The nodes of the imports that are written. -/
def siteNodes (occs : List Occurrence) : List (ImportNode c.cacheVersion) :=
  (written skip occs).flatMap fun occ => occ.importSites.map (·.node c.cacheVersion)

variable {c skip}

theorem siteNodes_append (occs occs' : List Occurrence) :
    siteNodes c skip (occs ++ occs') = siteNodes c skip occs ++ siteNodes c skip occs' := by
  simp [siteNodes, written]

theorem siteNodes_cons {occ : Occurrence} (alive : occ.position.written skip = true)
    (occs : List Occurrence) :
    siteNodes c skip (occ :: occs)
      = occ.importSites.map (·.node c.cacheVersion) ++ siteNodes c skip occs := by
  simp [siteNodes, written, alive]

theorem siteNodes_block {p : Position} (alive : p.written skip = true) (block : List Stmt)
    (occs : List Occurrence) : siteNodes c skip (⟨p, .block block⟩ :: occs) = siteNodes c skip occs :=
  siteNodes_cons alive occs

theorem blockNodes_toWireBlock (scope : Scope) (fallback : TextRange)
    (trees : List (WStmt c.cacheVersion)) :
    blockNodes (toWireBlock c scope fallback trees) = stmtsNodes trees := by
  cases trees <;> rfl

theorem optBlockNodes_toWireOptBlock (scope : Scope) {block : List Stmt} (range : TextRange)
    {trees : List (WStmt c.cacheVersion)} (length : trees.length = block.length) :
    optBlockNodes (toWireOptBlock c scope block range trees) = stmtsNodes trees := by
  cases block with
  | nil =>
    obtain rfl := List.length_eq_zero_iff.mp length
    rfl
  | cons first rest => exact blockNodes_toWireBlock scope range trees

theorem stmtNodes_functionDef (scope : Scope) (head : FunctionHead) (comment : FuncComment)
    (body : WBlock c.cacheVersion) :
    stmtNodes (toWireFunctionDef c scope head comment body) = blockNodes body := by
  unfold toWireFunctionDef
  cases head.decoratorList <;> rfl

theorem siteNodes_simple {p : Position} (alive : p.written skip = true) (stmt : Stmt) :
    siteNodes c skip [⟨p, .simple stmt⟩]
      = (Occurrence.importSites ⟨p, .simple stmt⟩).map (·.node c.cacheVersion) := by
  rw [siteNodes_cons alive]
  exact List.append_nil _

variable (c skip)

mutual

theorem stmtNodes_eq : ∀ (stmt : Stmt) (p : Position), p.written skip = true →
    stmtNodes (toWireStmt c skip p.scope stmt) = siteNodes c skip (occurrences c.options p stmt)
  | .functionDef head body, p, alive => by
    rw [occurrences, siteNodes_cons alive, toWireStmt, stmtNodes_functionDef]
    cases omitted : omitsBody skip p.scope.inClass head body with
    | false =>
      have inside : Position.written skip (functionFrame p head body :: p) = true := by
        rw [functionFrame_written, alive, omitted]
        rfl
      rw [siteNodes_block inside, ← stmtsNodes_eq body _ inside, functionFrame,
        Position.scope_function]
      exact blockNodes_toWireBlock ..
    | true =>
      have outside : Position.written skip (functionFrame p head body :: p) = false := by
        rw [functionFrame_written, alive, omitted]
        rfl
      rw [siteNodes, written_body outside]
      rfl
  | .classDef head body, p, alive => by
    have inside := (Position.written_class skip p).trans alive
    rw [occurrences, siteNodes_block inside, ← stmtsNodes_eq body _ inside, Position.scope_class]
    exact blockNodes_toWireBlock ..
  | .if test body clauses range, p, alive => by
    have inside := (Position.written_branch skip p (ifFlags c.options test clauses).main).trans alive
    have missing : optBlockNodes (toWireSyntheticElse c p.scope range
        (ifFlags c.options test clauses).synthetic) = [] := by
      unfold toWireSyntheticElse
      split
      · rfl
      · split <;> rfl
    rw [occurrences, siteNodes_append, siteNodes_block inside, ← stmtsNodes_eq body _ inside,
      ← clausesNodes_eq _ missing clauses p _ alive, Position.scope_branch, toWireStmt, stmtNodes,
      blockNodes_toWireBlock]
  | .while test body orelse range, p, alive | .for _ test _ body orelse range, p, alive => by
    rw [occurrences, siteNodes_append, siteNodes_block alive, siteNodes_block alive,
      ← stmtsNodes_eq body p alive, ← stmtsNodes_eq orelse p alive, toWireStmt, stmtNodes,
      blockNodes_toWireBlock, elseNodes]
  | .with isAsync items body range, p, alive => by
    rw [occurrences, siteNodes_block alive, ← stmtsNodes_eq body p alive]
    exact blockNodes_toWireBlock ..
  | .try body handlers orelse finalbody isStar range, p, alive => by
    rw [occurrences, siteNodes_append, siteNodes_append, siteNodes_append, siteNodes_block alive,
      siteNodes_block alive, siteNodes_block alive, ← stmtsNodes_eq body p alive,
      ← handlersNodes_eq handlers p alive, ← stmtsNodes_eq orelse p alive,
      ← stmtsNodes_eq finalbody p alive, toWireStmt, stmtNodes, blockNodes_toWireBlock,
      optBlockNodes_toWireOptBlock _ _ (toWireStmts_length ..),
      optBlockNodes_toWireOptBlock _ _ (toWireStmts_length ..)]
  | .match subject cases range, p, alive => casesNodes_eq cases p _ alive
  | .import names isLazy range, p, alive => by
    rw [occurrences, siteNodes_simple alive, Occurrence.importSites, List.map_map, toWireStmt,
      toWireImport, stmtNodes, List.map_map]
    rfl
  | .importFrom module names level isLazy range, p, alive => by
    rw [occurrences, siteNodes_simple alive, toWireStmt, toWireImportFrom]
    simp only [Occurrence.importSites, List.map_cons, List.map_nil, ImportSite.node]
    split <;> rfl
  | .return .., p, alive | .delete .., p, alive | .typeAlias .., p, alive | .assign .., p, alive
  | .augAssign .., p, alive | .annAssign .., p, alive | .raise .., p, alive | .assert .., p, alive
  | .global .., p, alive | .nonlocal .., p, alive | .expr .., p, alive | .pass .., p, alive
  | .break .., p, alive | .continue .., p, alive | .ipyEscapeCommand .., p, alive => by
    rw [occurrences, siteNodes_simple alive]
    rfl

theorem stmtsNodes_eq : ∀ (stmts : List Stmt) (p : Position), p.written skip = true →
    stmtsNodes (toWireStmts c skip p.scope stmts)
      = siteNodes c skip (stmtsOccurrences c.options p stmts)
  | [], _, _ => rfl
  | stmt :: stmts, p, alive => by
    rw [stmtsOccurrences, siteNodes_append, ← stmtNodes_eq stmt p alive,
      ← stmtsNodes_eq stmts p alive, toWireStmts, stmtsNodes]

theorem clausesNodes_eq (synthetic : Option (WBlock c.cacheVersion))
    (missing : optBlockNodes synthetic = []) : ∀ (clauses : ElifElseClauses) (p : Position)
    (flags : List BranchFlags), p.written skip = true →
    elifsNodes (toWireElifs c skip p.scope flags clauses)
        ++ optBlockNodes (toWireOrelse c skip p.scope flags synthetic clauses)
      = siteNodes c skip (clausesOccurrences c.options p flags clauses)
  | .nil, _, _, _ => missing
  | .elif test body range rest, p, flags, alive => by
    have inside := (Position.written_branch skip p (flags.headD ⟨false, false⟩)).trans alive
    rw [clausesOccurrences, siteNodes_append, siteNodes_block inside,
      ← stmtsNodes_eq body _ inside, ← clausesNodes_eq synthetic missing rest p _ alive,
      Position.scope_branch, toWireElifs, elifsNodes, toWireOrelse, blockNodes_toWireBlock,
      List.append_assoc]
  | .else body range, p, flags, alive => by
    have inside := (Position.written_branch skip p (flags.headD ⟨false, false⟩)).trans alive
    rw [clausesOccurrences, siteNodes_block inside, ← stmtsNodes_eq body _ inside,
      Position.scope_branch]
    exact blockNodes_toWireBlock ..

theorem handlersNodes_eq : ∀ (handlers : List ExceptHandler) (p : Position),
    p.written skip = true → handlersNodes (toWireHandlers c skip p.scope handlers)
      = siteNodes c skip (handlersOccurrences c.options p handlers)
  | [], _, _ => rfl
  | .mk type name body range :: handlers, p, alive => by
    rw [handlersOccurrences, siteNodes_append, siteNodes_block alive, ← stmtsNodes_eq body p alive,
      ← handlersNodes_eq handlers p alive, toWireHandlers, handlersNodes, blockNodes_toWireBlock]

theorem casesNodes_eq : ∀ (cases : List MatchCase) (p : Position) (flags : List BranchFlags),
    p.written skip = true → casesNodes (toWireCases c skip p.scope flags cases)
      = siteNodes c skip (casesOccurrences c.options p flags cases)
  | [], _, _, _ => rfl
  | .mk pattern guard body range :: cases, p, flags, alive => by
    have inside := (Position.written_branch skip p (flags.headD ⟨false, false⟩)).trans alive
    rw [casesOccurrences, siteNodes_append, siteNodes_block inside, ← stmtsNodes_eq body _ inside,
      ← casesNodes_eq cases p _ alive, Position.scope_branch, toWireCases, casesNodes,
      blockNodes_toWireBlock]

end

end Written

section Modules

variable {c : Config} {skip : Bool}

/-- The imports of a module that are written, one site for each entry of the list. -/
def moduleSites (c : Config) (skip : Bool) (stmts : List Stmt) : List ImportSite :=
  (written skip (moduleOccurrences c.options stmts)).flatMap (·.importSites)

theorem occurrence_imports (occ : Occurrence) :
    (occ.trace c).imports = occ.importSites.map (·.entry) := by
  rcases occ with ⟨p, part⟩
  cases part with
  | simple stmt => rfl
  | block stmts => rfl
  | function head =>
    simp only [Occurrence.trace, getattrTrace]
    split <;> rfl

theorem traces_imports (occs : List Occurrence) :
    (traces c skip occs).imports
      = ((written skip occs).flatMap (·.importSites)).map (·.entry) := by
  unfold traces
  induction written skip occs with
  | nil => rfl
  | cons occ occs ih =>
    rw [List.map_cons, List.sum_cons, Trace.add_imports, ih, occurrence_imports,
      List.flatMap_cons, List.map_append]

theorem moduleTrace_imports (stmts : List Stmt) :
    (moduleTrace c skip .initial stmts).imports = (moduleSites c skip stmts).map (·.entry) := by
  rw [moduleTrace_eq, Trace.add_imports, traces_imports]
  rfl

theorem stmtsNodes_toWireModule (stmts : List Stmt) :
    stmtsNodes (toWireModule c skip .initial stmts)
      = (moduleSites c skip stmts).map (·.node c.cacheVersion) := by
  have outermost : Position.written skip [] = true := by
    cases skip <;> rfl
  have nodes := stmtsNodes_eq c skip (splitModule c.options stmts).1 [] outermost
  rw [moduleSites, List.map_flatMap]
  exact nodes

/-- The list of imports says the same as the tree, and its flags what the positions say. -/
structure ImportsAgree {cv : Nat} (imports : List ImportStatement) (tree : List (WStmt cv))
    (sites : List ImportSite) : Prop where
  nodes : imports.map (·.node cv) = stmtsNodes tree
  flags : List.Forall₂ (fun entry site => ImportSite.FlagsAt site entry.flags) imports sites

theorem entry_flags (site : ImportSite) : site.entry.flags = site.flags := by
  rcases site with ⟨position, isLazy, item⟩
  cases item with
  | name name => rfl
  | fromModule module names level range =>
    simp only [ImportSite.entry, fromEntry]
    split <;> rfl

theorem importsAgree_iff (stmts : List Stmt) :
    ImportsAgree ((moduleSites c skip stmts).map (·.entry)) (toWireModule c skip .initial stmts)
        (moduleSites c skip stmts) ↔
      ∀ site ∈ moduleSites c skip stmts, site.fits = true := by
  have nodes : ((moduleSites c skip stmts).map (·.entry)).map (·.node c.cacheVersion)
      = stmtsNodes (toWireModule c skip .initial stmts) ↔
        ∀ site ∈ moduleSites c skip stmts, site.fits = true := by
    rw [stmtsNodes_toWireModule, List.map_map, List.map_inj_left]
    exact forall₂_congr fun site _ => entry_node_iff c.cacheVersion site
  have flags : List.Forall₂ (fun entry site => ImportSite.FlagsAt site entry.flags)
      ((moduleSites c skip stmts).map (·.entry)) (moduleSites c skip stmts) := by
    rw [List.forall₂_map_left_iff, List.forall₂_same]
    intro site _
    rw [entry_flags]
    exact site.flagsAt_flags
  constructor
  · intro agree
    exact nodes.mp agree.nodes
  · intro fit
    exact ⟨nodes.mpr fit, flags⟩

theorem serializeStmt_scope {stmt : Stmt} {s s' : Serializer}
    (run : (serializeStmt c skip stmt).run s = some ((), s')) :
    s'.tracked.scope = s.tracked.scope := by
  have records := records_stmt c skip stmt s.tracked.scope
  cases supported : supportsStmt c skip s.tracked.scope.inClass stmt with
  | false =>
    rw [supported] at records
    rw [records.panics s.tracked.trace s rfl] at run
    cases run
  | true =>
    rw [supported] at records
    obtain ⟨s₁, run₁, tracked, -⟩ := records.emits s.tracked.trace s rfl
    rw [run₁] at run
    cases run
    change s'.tracked = _ at tracked
    rw [tracked]

/-- The list of imports agrees with the imports in the bytes exactly if the levels of the imports
that are written are below `2 ^ 31`; every statement restores the flags that the list depends on. -/
theorem serializeModule_imports_iff (c : Config) (skip : Bool) (stmts : List Stmt) :
    (match (serializeModule c skip stmts).run Serializer.initial with
    | some ((), s) =>
      ∃ tree : List (WStmt c.cacheVersion), (∀ r, decModule (s.bytes ++ r) = some (tree, r)) ∧
        stmtsNodes tree = (moduleSites c skip stmts).map (·.node c.cacheVersion) ∧
        (ImportsAgree s.imports tree (moduleSites c skip stmts) ↔
          ∀ site ∈ moduleSites c skip stmts, site.fits = true)
    | none => supportsModule c skip false stmts = false) ∧
    (∀ stmt s s', (serializeStmt c skip stmt).run s = some ((), s') →
      s'.tracked.scope = s.tracked.scope) := by
  constructor
  · have ran := serializeModule_run c skip stmts
    cases result : (serializeModule c skip stmts).run Serializer.initial with
    | none =>
      rw [result] at ran
      exact ran
    | some result' =>
      obtain ⟨⟨⟩, s⟩ := result'
      rw [result] at ran
      have imports : s.imports = (moduleSites c skip stmts).map (·.entry) := by
        have trace := congrArg (fun t => t.trace.imports) ran.tracked
        exact trace.trans (moduleTrace_imports stmts)
      refine ⟨toWireModule c skip .initial stmts, ?_, stmtsNodes_toWireModule stmts, ?_⟩
      · intro r
        rw [ran.bytes]
        exact (reads_module _).run_eq r
      · rw [imports]
        exact importsAgree_iff stmts
  · intro stmt s s' run
    exact serializeStmt_scope run

def deepImportText : List Char :=
  "from ".toList ++ List.replicate (2 ^ 31) '.' ++ " import x\n".toList

def deepImport : Stmt :=
  .importFrom none [⟨⟨"x", ⟨2147483661, 2147483662⟩⟩, none, ⟨2147483661, 2147483662⟩⟩] 2147483648 false
    ⟨0, 2147483662⟩

/-- The entry of an import with `2 ^ 31` dots has a negative level. -/
theorem deepImport_disagrees :
    ∃ (s : Serializer) (tree : List (WStmt (Config.plain deepImportText).cacheVersion)),
      (serializeModule (.plain deepImportText) false [deepImport]).run Serializer.initial
        = some ((), s) ∧
      (∀ r, decModule (s.bytes ++ r) = some (tree, r)) ∧
      ¬ ImportsAgree s.imports tree (moduleSites (.plain deepImportText) false [deepImport]) := by
  have ran := serializeModule_run (.plain deepImportText) false [deepImport]
  cases result : (serializeModule (.plain deepImportText) false [deepImport]).run
      Serializer.initial with
  | none =>
    rw [result] at ran
    cases ran
  | some result' =>
    obtain ⟨⟨⟩, s⟩ := result'
    rw [result] at ran
    have imports : s.imports
        = (moduleSites (.plain deepImportText) false [deepImport]).map (·.entry) := by
      have trace := congrArg (fun t => t.trace.imports) ran.tracked
      exact trace.trans (moduleTrace_imports _)
    refine ⟨s, toWireModule (.plain deepImportText) false .initial [deepImport], rfl, ?_, ?_⟩
    · intro r
      rw [ran.bytes]
      exact (reads_module _).run_eq r
    · rw [imports, importsAgree_iff]
      intro fit
      exact absurd (fit _ (List.mem_singleton.mpr rfl)) (by decide)

end Modules

end AstSerialize
