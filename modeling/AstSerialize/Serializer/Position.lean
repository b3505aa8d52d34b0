import Mathlib.Algebra.BigOperators.Group.List.Basic
import AstSerialize.Serializer.File

/-! Where the parts of a module stand. The scope of the serializer and what it
adds to the trace follow from the positions. -/
namespace AstSerialize

/-- What encloses a statement; a function whose body has no effect can be left out. -/
inductive Frame where
  | function (omittable : Bool)
  | classDef
  | branch (flags : BranchFlags)
  deriving DecidableEq, Repr

namespace Frame

def isFunction : Frame → Bool
  | .function _ => true
  | _ => false

def isClass : Frame → Bool
  | .classDef => true
  | _ => false

def unreachable : Frame → Bool
  | .branch flags => flags.unreachable
  | _ => false

def mypyOnly : Frame → Bool
  | .branch flags => flags.mypyOnly
  | _ => false

def omittable : Frame → Bool
  | .function omittable => omittable
  | _ => false

end Frame

/-- The enclosing frames, innermost first. -/
abbrev Position := List Frame

namespace Position

def scope (p : Position) : Scope :=
  ⟨p.any (·.isClass), p.any (·.isFunction), p.any (·.unreachable), p.any (·.mypyOnly), true⟩

/-- Whether the serializer gets there. -/
def written (skip : Bool) (p : Position) : Bool := !(skip && p.any (·.omittable))

theorem scope_function (p : Position) (omittable : Bool) :
    scope (.function omittable :: p) = p.scope.enterFunction := rfl

theorem scope_class (p : Position) : scope (.classDef :: p) = p.scope.enterClass := rfl

theorem scope_branch (p : Position) (flags : BranchFlags) :
    scope (.branch flags :: p) = p.scope.enterBranch flags := by
  simp [scope, Scope.enterBranch, Frame.isClass, Frame.isFunction, Frame.unreachable,
    Frame.mypyOnly, Bool.or_comm]

theorem written_class (skip : Bool) (p : Position) :
    written skip (.classDef :: p) = written skip p := rfl

theorem written_branch (skip : Bool) (p : Position) (flags : BranchFlags) :
    written skip (.branch flags :: p) = written skip p := rfl

theorem written_function (skip omittable : Bool) (p : Position) :
    written skip (.function omittable :: p) = (written skip p && !(skip && omittable)) := by
  change (!(skip && (omittable || p.any (·.omittable)))) = _
  rw [written, Bool.and_or_distrib_left, Bool.not_or, Bool.and_comm]

/-- Nothing is written below a position that is not. -/
theorem written_suffix {skip : Bool} {p q : Position} (below : p <:+ q)
    (dead : written skip p = false) : written skip q = false := by
  obtain ⟨frames, rfl⟩ := below
  simp only [written, List.any_append, Bool.not_eq_false', Bool.and_eq_true] at dead ⊢
  exact ⟨dead.1, by rw [dead.2, Bool.or_true]⟩

end Position

/-- The parts of a module that the trace depends on. -/
inductive Part where
  | simple (stmt : Stmt)
  | block (stmts : List Stmt)
  | function (head : FunctionHead)

structure Occurrence where
  position : Position
  part : Part

section Occurrences

variable (o : Options)

/-- The frame of a function definition. -/
def functionFrame (p : Position) (head : FunctionHead) (body : List Stmt) : Frame :=
  .function !hasExternallyVisibleEffect body head.parameters p.scope.inClass

mutual

/-- The parts of a statement, in the order in which they are written. -/
def occurrences (p : Position) : Stmt → List Occurrence
  | .functionDef head body =>
    ⟨p, .function head⟩ :: ⟨functionFrame p head body :: p, .block body⟩
      :: stmtsOccurrences (functionFrame p head body :: p) body
  | .classDef _ body => ⟨.classDef :: p, .block body⟩ :: stmtsOccurrences (.classDef :: p) body
  | .if test body clauses _ =>
    ⟨.branch (ifFlags o test clauses).main :: p, .block body⟩
      :: stmtsOccurrences (.branch (ifFlags o test clauses).main :: p) body
      ++ clausesOccurrences p (ifFlags o test clauses).clauses clauses
  | .while _ body orelse _ | .for _ _ _ body orelse _ =>
    ⟨p, .block body⟩ :: stmtsOccurrences p body ++ ⟨p, .block orelse⟩ :: stmtsOccurrences p orelse
  | .with _ _ body _ => ⟨p, .block body⟩ :: stmtsOccurrences p body
  | .try body handlers orelse finalbody _ _ =>
    ⟨p, .block body⟩ :: stmtsOccurrences p body ++ (handlersOccurrences p handlers
      ++ (⟨p, .block orelse⟩ :: stmtsOccurrences p orelse
        ++ ⟨p, .block finalbody⟩ :: stmtsOccurrences p finalbody))
  | .match _ cases _ => casesOccurrences p (IfReachabilityAnalyzer.new.caseFlags o cases) cases
  | stmt@(.return ..) | stmt@(.delete ..) | stmt@(.typeAlias ..) | stmt@(.assign ..)
  | stmt@(.augAssign ..) | stmt@(.annAssign ..) | stmt@(.raise ..) | stmt@(.assert ..)
  | stmt@(.import ..) | stmt@(.importFrom ..) | stmt@(.global ..) | stmt@(.nonlocal ..)
  | stmt@(.expr ..) | stmt@(.pass ..) | stmt@(.break ..) | stmt@(.continue ..)
  | stmt@(.ipyEscapeCommand ..) => [⟨p, .simple stmt⟩]

def stmtsOccurrences (p : Position) : List Stmt → List Occurrence
  | [] => []
  | stmt :: stmts => occurrences p stmt ++ stmtsOccurrences p stmts

def clausesOccurrences (p : Position) (flags : List BranchFlags) :
    ElifElseClauses → List Occurrence
  | .nil => []
  | .elif _ body _ rest =>
    ⟨.branch (flags.headD ⟨false, false⟩) :: p, .block body⟩
      :: stmtsOccurrences (.branch (flags.headD ⟨false, false⟩) :: p) body
      ++ clausesOccurrences p flags.tail rest
  | .else body _ =>
    ⟨.branch (flags.headD ⟨false, false⟩) :: p, .block body⟩
      :: stmtsOccurrences (.branch (flags.headD ⟨false, false⟩) :: p) body

def handlersOccurrences (p : Position) : List ExceptHandler → List Occurrence
  | [] => []
  | .mk _ _ body _ :: handlers =>
    ⟨p, .block body⟩ :: stmtsOccurrences p body ++ handlersOccurrences p handlers

def casesOccurrences (p : Position) (flags : List BranchFlags) :
    List MatchCase → List Occurrence
  | [] => []
  | .mk _ _ body _ :: cases =>
    ⟨.branch (flags.headD ⟨false, false⟩) :: p, .block body⟩
      :: stmtsOccurrences (.branch (flags.headD ⟨false, false⟩) :: p) body
      ++ casesOccurrences p flags.tail cases

end

mutual

theorem occurrences_below : ∀ (stmt : Stmt) (p : Position),
    ∀ occ ∈ occurrences o p stmt, p <:+ occ.position
  | .functionDef head body, p => by
    have inside := stmtsOccurrences_below body (functionFrame p head body :: p)
    simp only [occurrences, List.forall_mem_cons]
    exact ⟨List.suffix_rfl, List.suffix_cons _ _, fun occ mem =>
      (List.suffix_cons _ _).trans (inside occ mem)⟩
  | .classDef _ body, p => by
    have inside := stmtsOccurrences_below body (.classDef :: p)
    simp only [occurrences, List.forall_mem_cons]
    exact ⟨List.suffix_cons _ _, fun occ mem => (List.suffix_cons _ _).trans (inside occ mem)⟩
  | .if test body clauses _, p => by
    have inside := stmtsOccurrences_below body (.branch (ifFlags o test clauses).main :: p)
    simp only [occurrences, List.forall_mem_append, List.forall_mem_cons]
    exact ⟨⟨List.suffix_cons _ _, fun occ mem => (List.suffix_cons _ _).trans (inside occ mem)⟩,
      clausesOccurrences_below clauses p _⟩
  | .while _ body orelse _, p | .for _ _ _ body orelse _, p => by
    simp only [occurrences, List.forall_mem_append, List.forall_mem_cons]
    exact ⟨⟨List.suffix_rfl, stmtsOccurrences_below body p⟩, List.suffix_rfl,
      stmtsOccurrences_below orelse p⟩
  | .with _ _ body _, p => by
    simp only [occurrences, List.forall_mem_cons]
    exact ⟨List.suffix_rfl, stmtsOccurrences_below body p⟩
  | .try body handlers orelse finalbody _ _, p => by
    simp only [occurrences, List.forall_mem_append, List.forall_mem_cons]
    exact ⟨⟨List.suffix_rfl, stmtsOccurrences_below body p⟩, handlersOccurrences_below handlers p,
      ⟨List.suffix_rfl, stmtsOccurrences_below orelse p⟩, List.suffix_rfl,
      stmtsOccurrences_below finalbody p⟩
  | .match _ cases _, p => casesOccurrences_below cases p _
  | .return .., p | .delete .., p | .typeAlias .., p | .assign .., p | .augAssign .., p
  | .annAssign .., p | .raise .., p | .assert .., p | .import .., p | .importFrom .., p
  | .global .., p | .nonlocal .., p | .expr .., p | .pass .., p | .break .., p | .continue .., p
  | .ipyEscapeCommand .., p => by
    simp only [occurrences, List.forall_mem_singleton]
    exact List.suffix_rfl

theorem stmtsOccurrences_below : ∀ (stmts : List Stmt) (p : Position),
    ∀ occ ∈ stmtsOccurrences o p stmts, p <:+ occ.position
  | [], _ => fun _ mem => nomatch mem
  | stmt :: stmts, p => by
    simp only [stmtsOccurrences, List.forall_mem_append]
    exact ⟨occurrences_below stmt p, stmtsOccurrences_below stmts p⟩

theorem clausesOccurrences_below : ∀ (clauses : ElifElseClauses) (p : Position)
    (flags : List BranchFlags), ∀ occ ∈ clausesOccurrences o p flags clauses, p <:+ occ.position
  | .nil, _, _ => fun _ mem => nomatch mem
  | .elif _ body _ rest, p, flags => by
    have inside := stmtsOccurrences_below body (.branch (flags.headD ⟨false, false⟩) :: p)
    simp only [clausesOccurrences, List.forall_mem_append, List.forall_mem_cons]
    exact ⟨⟨List.suffix_cons _ _, fun occ mem => (List.suffix_cons _ _).trans (inside occ mem)⟩,
      clausesOccurrences_below rest p flags.tail⟩
  | .else body _, p, flags => by
    have inside := stmtsOccurrences_below body (.branch (flags.headD ⟨false, false⟩) :: p)
    simp only [clausesOccurrences, List.forall_mem_cons]
    exact ⟨List.suffix_cons _ _, fun occ mem => (List.suffix_cons _ _).trans (inside occ mem)⟩

theorem handlersOccurrences_below : ∀ (handlers : List ExceptHandler) (p : Position),
    ∀ occ ∈ handlersOccurrences o p handlers, p <:+ occ.position
  | [], _ => fun _ mem => nomatch mem
  | .mk _ _ body _ :: handlers, p => by
    simp only [handlersOccurrences, List.forall_mem_append, List.forall_mem_cons]
    exact ⟨⟨List.suffix_rfl, stmtsOccurrences_below body p⟩, handlersOccurrences_below handlers p⟩

theorem casesOccurrences_below : ∀ (cases : List MatchCase) (p : Position)
    (flags : List BranchFlags), ∀ occ ∈ casesOccurrences o p flags cases, p <:+ occ.position
  | [], _, _ => fun _ mem => nomatch mem
  | .mk _ _ body _ :: cases, p, flags => by
    have inside := stmtsOccurrences_below body (.branch (flags.headD ⟨false, false⟩) :: p)
    simp only [casesOccurrences, List.forall_mem_append, List.forall_mem_cons]
    exact ⟨⟨List.suffix_cons _ _, fun occ mem => (List.suffix_cons _ _).trans (inside occ mem)⟩,
      casesOccurrences_below cases p flags.tail⟩

end

end Occurrences

section Sites

/-- What an entry of the import list is made for. -/
inductive ImportItem where
  | name (name : Alias)
  | fromModule (module : Option Identifier) (names : List Alias) (level : UInt32)
      (range : TextRange)

/-- An item of an import statement, and where the statement stands. -/
structure ImportSite where
  position : Position
  isLazy : Bool
  item : ImportItem

def Occurrence.importSites (occ : Occurrence) : List ImportSite :=
  match occ.part with
  | .simple (.import names isLazy _) => names.map fun name => ⟨occ.position, isLazy, .name name⟩
  | .simple (.importFrom module names level isLazy range) =>
    [⟨occ.position, isLazy, .fromModule module names level range⟩]
  | _ => []

namespace ImportSite

def flags (site : ImportSite) : UInt8 := importFlags site.position.scope site.isLazy

def entry (site : ImportSite) : ImportStatement :=
  match site.item with
  | .name name => importEntry site.flags name
  | .fromModule module names level range => fromEntry module names level range site.flags

end ImportSite

end Sites

section Traces

variable (c : Config) (skip : Bool)

/-- What the serializer adds to the trace at an occurrence. -/
def Occurrence.trace (occ : Occurrence) : Trace :=
  match occ.part with
  | .simple _ => ⟨occ.importSites.map (·.entry), [], false⟩
  | .block stmts => ⟨[], skippedBlock c occ.position.scope.unreachable stmts, false⟩
  | .function head => getattrTrace occ.position.scope head

/-- The occurrences that are written. -/
def written (occs : List Occurrence) : List Occurrence :=
  occs.filter fun occ => occ.position.written skip

def traces (occs : List Occurrence) : Trace :=
  ((written skip occs).map (·.trace c)).sum

variable {c skip}

theorem traces_append (occs occs' : List Occurrence) :
    traces c skip (occs ++ occs') = traces c skip occs + traces c skip occs' := by
  simp [traces, written]

theorem traces_cons {occ : Occurrence} (alive : occ.position.written skip = true)
    (occs : List Occurrence) :
    traces c skip (occ :: occs) = occ.trace c + traces c skip occs := by
  simp [traces, written, alive]

theorem written_dead {occs : List Occurrence} {p : Position} (dead : p.written skip = false)
    (below : ∀ occ ∈ occs, p <:+ occ.position) : written skip occs = [] := by
  apply List.filter_eq_nil_iff.mpr
  intro occ mem
  rw [Position.written_suffix (below occ mem) dead]
  exact Bool.false_ne_true

theorem functionFrame_written (p : Position) (head : FunctionHead) (body : List Stmt) :
    Position.written skip (functionFrame p head body :: p)
      = (p.written skip && !omitsBody skip p.scope.inClass head body) := by
  rw [functionFrame, Position.written_function, omitsBody]

/-- Nothing of an omitted body is written. -/
theorem written_body {o : Options} {p : Position} {block : List Stmt}
    (dead : p.written skip = false) :
    written skip (⟨p, .block block⟩ :: stmtsOccurrences o p block) = [] := by
  apply written_dead dead
  rw [List.forall_mem_cons]
  exact ⟨List.suffix_rfl, stmtsOccurrences_below o block p⟩

theorem traces_simple {p : Position} (alive : p.written skip = true) (stmt : Stmt) :
    traces c skip [⟨p, .simple stmt⟩]
      = ⟨(Occurrence.importSites ⟨p, .simple stmt⟩).map (·.entry), [], false⟩ := by
  rw [traces_cons alive]
  exact add_zero _

theorem traces_block {p : Position} (alive : p.written skip = true) (block : List Stmt)
    (occs : List Occurrence) :
    traces c skip (⟨p, .block block⟩ :: occs) = blockTrace c p.scope block (traces c skip occs) :=
  traces_cons alive occs

theorem optBlockTrace_eq (scope : Scope) (block : List Stmt) (items : Trace)
    (nothing : block = [] → items = 0) :
    optBlockTrace c scope block items = blockTrace c scope block items := by
  cases block with
  | nil => rw [nothing rfl]; rfl
  | cons first rest => rfl

variable (c skip)

mutual

theorem stmtTrace_eq : ∀ (stmt : Stmt) (p : Position), p.written skip = true →
    stmtTrace c skip p.scope stmt = traces c skip (occurrences c.options p stmt)
  | .functionDef head body, p, alive => by
    rw [occurrences, traces_cons alive, stmtTrace]
    cases omitted : omitsBody skip p.scope.inClass head body with
    | false =>
      have inside : Position.written skip (functionFrame p head body :: p) = true := by
        rw [functionFrame_written, alive, omitted]
        rfl
      rw [traces_block inside, ← stmtsTrace_eq body _ inside, functionFrame,
        Position.scope_function]
      rfl
    | true =>
      have outside : Position.written skip (functionFrame p head body :: p) = false := by
        rw [functionFrame_written, alive, omitted]
        rfl
      have nothing : traces c skip (⟨functionFrame p head body :: p, .block body⟩
          :: stmtsOccurrences c.options (functionFrame p head body :: p) body) = 0 := by
        rw [traces, written_body outside]
        rfl
      rw [nothing]
      rfl
  | .classDef head body, p, alive => by
    have inside := (Position.written_class skip p).trans alive
    rw [occurrences, traces_block inside, ← stmtsTrace_eq body _ inside, Position.scope_class]
    rfl
  | .if test body clauses range, p, alive => by
    have inside := (Position.written_branch skip p (ifFlags c.options test clauses).main).trans alive
    rw [occurrences, traces_append, traces_block inside, ← stmtsTrace_eq body _ inside,
      ← clausesTrace_eq clauses p _ alive, Position.scope_branch]
    rfl
  | .while test body orelse range, p, alive => by
    rw [occurrences, traces_append, traces_block alive, traces_block alive,
      ← stmtsTrace_eq body p alive, ← stmtsTrace_eq orelse p alive]
    rfl
  | .for isAsync target iter body orelse range, p, alive => by
    rw [occurrences, traces_append, traces_block alive, traces_block alive,
      ← stmtsTrace_eq body p alive, ← stmtsTrace_eq orelse p alive]
    rfl
  | .with isAsync items body range, p, alive => by
    rw [occurrences, traces_block alive, ← stmtsTrace_eq body p alive]
    rfl
  | .try body handlers orelse finalbody isStar range, p, alive => by
    rw [occurrences, traces_append, traces_append, traces_append, traces_block alive,
      traces_block alive, traces_block alive, ← stmtsTrace_eq body p alive,
      ← handlersTrace_eq handlers p alive, ← stmtsTrace_eq orelse p alive,
      ← stmtsTrace_eq finalbody p alive, stmtTrace, optBlockTrace_eq, optBlockTrace_eq]
    · intro empty
      rw [empty, stmtsTrace]
    · intro empty
      rw [empty, stmtsTrace]
  | .match subject cases range, p, alive => casesTrace_eq cases p _ alive
  | .import names isLazy range, p, alive => by
    rw [occurrences, traces_simple alive, Occurrence.importSites, List.map_map]
    rfl
  | .return .., p, alive | .delete .., p, alive | .typeAlias .., p, alive | .assign .., p, alive
  | .augAssign .., p, alive | .annAssign .., p, alive | .raise .., p, alive | .assert .., p, alive
  | .importFrom .., p, alive | .global .., p, alive | .nonlocal .., p, alive | .expr .., p, alive
  | .pass .., p, alive | .break .., p, alive | .continue .., p, alive
  | .ipyEscapeCommand .., p, alive => by
    rw [occurrences, traces_simple alive]
    rfl

theorem stmtsTrace_eq : ∀ (stmts : List Stmt) (p : Position), p.written skip = true →
    stmtsTrace c skip p.scope stmts = traces c skip (stmtsOccurrences c.options p stmts)
  | [], _, _ => rfl
  | stmt :: stmts, p, alive => by
    rw [stmtsOccurrences, traces_append, ← stmtTrace_eq stmt p alive,
      ← stmtsTrace_eq stmts p alive, stmtsTrace]

theorem clausesTrace_eq : ∀ (clauses : ElifElseClauses) (p : Position) (flags : List BranchFlags),
    p.written skip = true → clausesTrace c skip p.scope flags clauses
      = traces c skip (clausesOccurrences c.options p flags clauses)
  | .nil, _, _, _ => rfl
  | .elif test body range rest, p, flags, alive => by
    have inside := (Position.written_branch skip p (flags.headD ⟨false, false⟩)).trans alive
    rw [clausesOccurrences, traces_append, traces_block inside, ← stmtsTrace_eq body _ inside,
      ← clausesTrace_eq rest p _ alive, Position.scope_branch]
    rfl
  | .else body range, p, flags, alive => by
    have inside := (Position.written_branch skip p (flags.headD ⟨false, false⟩)).trans alive
    rw [clausesOccurrences, traces_block inside, ← stmtsTrace_eq body _ inside,
      Position.scope_branch]
    rfl

theorem handlersTrace_eq : ∀ (handlers : List ExceptHandler) (p : Position),
    p.written skip = true →
    handlersTrace c skip p.scope handlers
      = traces c skip (handlersOccurrences c.options p handlers)
  | [], _, _ => rfl
  | .mk type name body range :: handlers, p, alive => by
    rw [handlersOccurrences, traces_append, traces_block alive, ← stmtsTrace_eq body p alive,
      ← handlersTrace_eq handlers p alive, handlersTrace]

theorem casesTrace_eq : ∀ (cases : List MatchCase) (p : Position) (flags : List BranchFlags),
    p.written skip = true → casesTrace c skip p.scope flags cases
      = traces c skip (casesOccurrences c.options p flags cases)
  | [], _, _, _ => rfl
  | .mk pattern guard body range :: cases, p, flags, alive => by
    have inside := (Position.written_branch skip p (flags.headD ⟨false, false⟩)).trans alive
    rw [casesOccurrences, traces_append, traces_block inside, ← stmtsTrace_eq body _ inside,
      ← casesTrace_eq cases p _ alive, Position.scope_branch]
    rfl

end

end Traces

section Modules

/-- The parts of a module that are not stripped. -/
def moduleOccurrences (o : Options) (stmts : List Stmt) : List Occurrence :=
  stmtsOccurrences o [] (splitModule o stmts).1

theorem moduleTrace_eq (c : Config) (skip : Bool) (stmts : List Stmt) :
    moduleTrace c skip .initial stmts
      = ⟨[], skippedBlock c true (splitModule c.options stmts).2, false⟩
        + traces c skip (moduleOccurrences c.options stmts) := by
  have outermost : Position.written skip [] = true := by
    cases skip <;> rfl
  rw [moduleOccurrences, ← stmtsTrace_eq c skip _ [] outermost]
  rfl

end Modules

end AstSerialize
