import AstSerialize.Execution.Located

/-! Pruning. The contents of the blocks that are flagged unreachable, and what
follows an assertion that always fails, have no part in any run. -/
namespace AstSerialize
open IfReachabilityAnalyzer

section Agreement

/-- Code that may differ in its dead parts only. -/
inductive SameLive (o : Options) : Code → Code → Prop where
  | simple {stmt} : stmt.isSimple = true → SameLive o (.stmt stmt) (.stmt stmt)
  | functionDef {head body body'} : SameLive o (.calls body) (.calls body') →
    SameLive o (.stmt (.functionDef head body)) (.stmt (.functionDef head body'))
  | classDef {head body body'} : SameLive o (.block body) (.block body') →
    SameLive o (.stmt (.classDef head body)) (.stmt (.classDef head body'))
  | if {test body body' clauses clauses' range} : clauses.conditions = clauses'.conditions →
    (ifBlocks body clauses).length = (ifBlocks body' clauses').length →
    (∀ (i : Nat) (block block' : List Stmt) (flags : BranchFlags), (ifBlocks body clauses)[i]? = some block →
      (ifBlocks body' clauses')[i]? = some block' →
      (ifFlags o test clauses).all[i]? = some flags → flags.unreachable = false →
      SameLive o (.block block) (.block block')) →
    SameLive o (.stmt (.if test body clauses range)) (.stmt (.if test body' clauses' range))
  | while {test body body' orelse orelse' range} :
    SameLive o (.loop (some test) body orelse) (.loop (some test) body' orelse') →
    SameLive o (.stmt (.while test body orelse range)) (.stmt (.while test body' orelse' range))
  | for {isAsync target iter body body' orelse orelse' range} :
    SameLive o (.loop none body orelse) (.loop none body' orelse') →
    SameLive o (.stmt (.for isAsync target iter body orelse range))
      (.stmt (.for isAsync target iter body' orelse' range))
  | with {isAsync items body body' range} : SameLive o (.block body) (.block body') →
    SameLive o (.stmt (.with isAsync items body range)) (.stmt (.with isAsync items body' range))
  | try {body body' handlers handlers' orelse orelse' finalbody finalbody' isStar range} :
    SameLive o (.guarded body handlers orelse) (.guarded body' handlers' orelse') →
    SameLive o (.block finalbody) (.block finalbody') →
    SameLive o (.stmt (.try body handlers orelse finalbody isStar range))
      (.stmt (.try body' handlers' orelse' finalbody' isStar range))
  | match {subject cases cases' range} : cases.map (·.head) = cases'.map (·.head) →
    (∀ (i : Nat) (c c' : MatchCase) (flags : BranchFlags), cases[i]? = some c → cases'[i]? = some c' →
      (new.caseFlags o cases)[i]? = some flags → flags.unreachable = false →
      SameLive o (.block c.body) (.block c'.body)) →
    SameLive o (.stmt (.match subject cases range)) (.stmt (.match subject cases' range))
  | nil : SameLive o (.block []) (.block [])
  | cons {stmt stmt' stmts stmts'} : SameLive o (.stmt stmt) (.stmt stmt') →
    SameLive o (.block stmts) (.block stmts') →
    SameLive o (.block (stmt :: stmts)) (.block (stmt' :: stmts'))
  | failing {stmt stmts stmts'} : assertWillAlwaysFail o stmt = true →
    SameLive o (.block (stmt :: stmts)) (.block (stmt :: stmts'))
  | calls {body body'} : SameLive o (.block body) (.block body') →
    SameLive o (.calls body) (.calls body')
  | loop {test body body' orelse orelse'} : SameLive o (.block body) (.block body') →
    SameLive o (.block orelse) (.block orelse') →
    SameLive o (.loop test body orelse) (.loop test body' orelse')
  | guarded {body body' handlers handlers' orelse orelse'} :
    SameLive o (.block body) (.block body') → SameLive o (.handlers handlers) (.handlers handlers') →
    SameLive o (.block orelse) (.block orelse') →
    SameLive o (.guarded body handlers orelse) (.guarded body' handlers' orelse')
  | noHandlers : SameLive o (.handlers []) (.handlers [])
  | handlers {handler handler' handlers handlers'} :
    SameLive o (.block handler.body) (.block handler'.body) →
    SameLive o (.handlers handlers) (.handlers handlers') →
    SameLive o (.handlers (handler :: handlers)) (.handlers (handler' :: handlers'))

variable {o : Options}

theorem ifFlags_congr {test : Expr} {clauses clauses' : ElifElseClauses}
    (same : clauses.conditions = clauses'.conditions) :
    (ifFlags o test clauses).all = (ifFlags o test clauses').all := by
  rw [ifFlags_all, ifFlags_all, chain, chain, same]

/-- The flags of the cases depend on their patterns and guards. -/
theorem caseFlags_congr (a : IfReachabilityAnalyzer) {cases₁ cases₂ : List MatchCase}
    (same : cases₁.map (·.head) = cases₂.map (·.head)) :
    a.caseFlags o cases₁ = a.caseFlags o cases₂ := by
  induction cases₁ generalizing a cases₂ with
  | nil =>
    cases cases₂ with
    | nil => rfl
    | cons c₂ rest₂ => cases same
  | cons c₁ rest₁ ih =>
    cases cases₂ with
    | nil => cases same
    | cons c₂ rest₂ =>
      obtain ⟨heads, rest⟩ := List.cons.inj same
      obtain ⟨pattern, guard⟩ := Prod.mk.inj heads
      rw [caseFlags_cons, caseFlags_cons, pattern, guard, ih _ rest]

theorem SameLive.symm {code code' : Code} (same : SameLive o code code') :
    SameLive o code' code := by
  induction same with
  | simple simple => exact .simple simple
  | functionDef _ ih => exact .functionDef ih
  | classDef _ ih => exact .classDef ih
  | «if» conditions lengths _ ih =>
    refine .if conditions.symm lengths.symm ?_
    intro i block block' flags found found' flagged reachable
    rw [← ifFlags_congr conditions] at flagged
    exact ih i block' block flags found' found flagged reachable
  | «while» _ ih => exact .while ih
  | «for» _ ih => exact .for ih
  | «with» _ ih => exact .with ih
  | «try» _ _ guarded final => exact .try guarded final
  | «match» heads _ ih =>
    refine .match heads.symm ?_
    intro i c c' flags found found' flagged reachable
    rw [← caseFlags_congr new heads] at flagged
    exact ih i c' c flags found' found flagged reachable
  | nil => exact .nil
  | cons _ _ first rest => exact .cons first rest
  | failing fails => exact .failing fails
  | calls _ ih => exact .calls ih
  | loop _ _ body orelse => exact .loop body orelse
  | guarded _ _ _ body handlers orelse => exact .guarded body handlers orelse
  | noHandlers => exact .noHandlers
  | handlers _ _ first rest => exact .handlers first rest

theorem SameLive.handlers_form {handlers : List ExceptHandler} {code : Code}
    (same : SameLive o (.handlers handlers) code) : ∃ handlers', code = .handlers handlers' := by
  cases same with
  | noHandlers => exact ⟨[], rfl⟩
  | handlers _ _ => exact ⟨_, rfl⟩

theorem SameLive.handler {handlers handlers' : List ExceptHandler} {handler : ExceptHandler}
    (same : SameLive o (.handlers handlers) (.handlers handlers')) (mem : handler ∈ handlers) :
    ∃ handler' ∈ handlers', SameLive o (.block handler.body) (.block handler'.body) := by
  induction handlers generalizing handlers' with
  | nil => exact absurd mem List.not_mem_nil
  | cons first rest ih =>
    cases same with
    | @handlers _ first' _ rest' here later =>
      rcases List.mem_cons.mp mem with rfl | mem
      · exact ⟨first', List.mem_cons_self, here⟩
      · obtain ⟨handler', inside, agrees⟩ := ih later mem
        exact ⟨handler', List.mem_cons_of_mem _ inside, agrees⟩

end Agreement

section Runs

variable {o : Options} {choices : Choices}

/-- Patterns and guards decide which case is taken. -/
theorem passes_congr {cases₁ cases₂ : List MatchCase}
    (same : cases₁.map (·.head) = cases₂.map (·.head))
    (passed : ∀ c ∈ cases₁, choices.Passes c) : ∀ c ∈ cases₂, choices.Passes c := by
  intro c₂ mem
  have head : c₂.head ∈ cases₁.map (·.head) := by
    rw [same]
    exact List.mem_map_of_mem mem
  obtain ⟨c₁, mem₁, eq⟩ := List.mem_map.mp head
  obtain ⟨pattern, guard⟩ := Prod.mk.inj eq
  have here := passed c₁ mem₁
  rw [Choices.Passes, pattern, guard] at here
  exact here

/-- The dead parts have no influence on a run. -/
theorem exec_sameLive (agree : choices.Agree o) {ctx : Context} {code code' : Code}
    {vs : List Visit} {out : Outcome} (run : Exec choices ctx code vs out)
    (same : SameLive o code code') : Exec choices ctx code' vs out := by
  induction run generalizing code' with
  | stop => exact .stop
  | raise => cases same <;> exact .raise
  | simple simple completes =>
    cases same with
    | simple => exact .simple simple completes
    | _ => cases simple
  | functionDef _ ih =>
    cases same with
    | simple simple => cases simple
    | functionDef bodies => exact .functionDef (ih bodies)
  | classDef _ ih =>
    cases same with
    | simple simple => cases simple
    | classDef bodies => exact .classDef (ih bodies)
  | @ifTaken ctx test body clauses range i block vs out selects found _ ih =>
    cases same with
    | simple simple => cases simple
    | @«if» _ _ body' _ clauses' _ conditions lengths blocks =>
      have chains : chain test clauses = chain test clauses' := congrArg (test :: ·) conditions
      obtain ⟨flags, flagged⟩ := selects.flags o
      have flagged' := flagged
      rw [ifFlags_all] at flagged'
      have bound := (List.getElem?_eq_some_iff.mp found).1
      rw [lengths] at bound
      have found' := List.getElem?_eq_getElem bound
      have agrees := blocks i block _ flags found found' flagged
        (selected_reachable agree selects flagged')
      have inner := ih agrees
      rw [chains] at inner selects
      exact .ifTaken selects found' inner
  | @ifSkipped ctx test body clauses range i selects found =>
    cases same with
    | simple simple => cases simple
    | @«if» _ _ body' _ clauses' _ conditions lengths blocks =>
      have chains : chain test clauses = chain test clauses' := congrArg (test :: ·) conditions
      rw [chains] at selects
      rw [List.getElem?_eq_none_iff, lengths, ← List.getElem?_eq_none_iff] at found
      exact .ifSkipped selects found
  | «while» _ ih =>
    cases same with
    | simple simple => cases simple
    | «while» loops => exact .while (ih loops)
  | «for» _ ih =>
    cases same with
    | simple simple => cases simple
    | «for» loops => exact .for (ih loops)
  | «with» _ ih =>
    cases same with
    | simple simple => cases simple
    | «with» bodies => exact .with (ih bodies)
  | withTaken _ ih =>
    cases same with
    | simple simple => cases simple
    | «with» bodies => exact .withTaken (ih bodies)
  | «try» going _ _ guarded final =>
    cases same with
    | simple simple => cases simple
    | «try» bodies finals => exact .try going (guarded bodies) (final finals)
  | tryStopped _ ih =>
    cases same with
    | simple simple => cases simple
    | «try» bodies _ => exact .tryStopped (ih bodies)
  | @matchTaken ctx subject cases' range i c vs out found passed taken _ ih =>
    cases same with
    | simple simple => cases simple
    | @«match» _ _ cases₂ _ heads bodies =>
      obtain ⟨c₂, found₂, head⟩ : ∃ c₂, cases₂[i]? = some c₂ ∧ c.head = c₂.head := by
        have there := congrArg (·[i]?) heads
        simp only [List.getElem?_map, found, Option.map_some] at there
        obtain ⟨c₂, found₂, eq⟩ := Option.map_eq_some_iff.mp there.symm
        exact ⟨c₂, found₂, eq.symm⟩
      obtain ⟨pattern, guard⟩ := Prod.mk.inj head
      have earlier : (cases'.take i).map (·.head) = (cases₂.take i).map (·.head) := by
        rw [List.map_take, List.map_take, heads]
      obtain ⟨flags, flagged⟩ := case_flags o found
      have reachable := takenCase_reachable agree found passed taken flagged
      have inner := ih (bodies i c c₂ flags found found₂ flagged reachable)
      rw [Choices.Takes, pattern, guard] at taken
      rw [heads] at inner
      exact .matchTaken found₂ (passes_congr earlier passed) taken inner
  | @matchPassed ctx subject cases' range passed =>
    cases same with
    | simple simple => cases simple
    | «match» heads bodies => exact .matchPassed (passes_congr heads passed)
  | nil =>
    cases same with
    | nil => exact .nil
  | cons ran _ first rest =>
    cases same with
    | cons here later => exact .cons (first here) (rest later)
    | failing fails => exact absurd ran (assert_not_normal agree fails)
  | leave abnormal ran first =>
    cases same with
    | cons here later => exact .leave abnormal (first here)
    | failing fails => exact .leave abnormal ran
  | uncalled =>
    cases same with
    | calls => exact .uncalled
  | called _ _ first rest =>
    cases same with
    | calls bodies => exact .called (first bodies) (rest (.calls bodies))
  | loopRaise =>
    cases same with
    | loop => exact .loopRaise
  | loopEnd fails _ ih =>
    cases same with
    | loop _ elses => exact .loopEnd fails (ih elses)
  | loopNext holds next _ _ first rest =>
    cases same with
    | loop bodies elses => exact .loopNext holds next (first bodies) (rest (.loop bodies elses))
  | loopBreak holds _ ih =>
    cases same with
    | loop bodies _ => exact .loopBreak holds (ih bodies)
  | loopLeave holds leaves _ ih =>
    cases same with
    | loop bodies _ => exact .loopLeave holds leaves (ih bodies)
  | guardedElse _ _ first rest =>
    cases same with
    | guarded bodies _ elses => exact .guardedElse (first bodies) (rest elses)
  | caught _ _ first rest =>
    cases same with
    | guarded bodies hands _ => exact .caught (first bodies) (rest hands)
  | uncaught abnormal _ ih =>
    cases same with
    | guarded bodies _ _ => exact .uncaught abnormal (ih bodies)
  | handled mem _ ih =>
    obtain ⟨handlers', rfl⟩ := same.handlers_form
    obtain ⟨handler', mem', bodies⟩ := same.handler mem
    exact .handled mem' (ih bodies)
  | handledNext mem _ _ here rest =>
    obtain ⟨handlers', rfl⟩ := same.handlers_form
    obtain ⟨handler', mem', bodies⟩ := same.handler mem
    exact .handledNext mem' (here bodies) (rest same)

end Runs

section Pruning

variable (o : Options)

/-- The body of a block, unless it is flagged unreachable. -/
def liveBody (flags : BranchFlags) (body : List Stmt) : List Stmt :=
  if flags.unreachable then [] else body

mutual

/-- The statement without the contents of its unreachable blocks. -/
def pruneStmt : Stmt → Stmt
  | .functionDef head body => .functionDef head (pruneStmts body)
  | .classDef head body => .classDef head (pruneStmts body)
  | .for isAsync target iter body orelse range =>
    .for isAsync target iter (pruneStmts body) (pruneStmts orelse) range
  | .while test body orelse range => .while test (pruneStmts body) (pruneStmts orelse) range
  | .if test body clauses range =>
    .if test (liveBody (ifFlags o test clauses).main (pruneStmts body))
      (pruneClauses (ifFlags o test clauses).clauses clauses) range
  | .with isAsync items body range => .with isAsync items (pruneStmts body) range
  | .match subject cases range =>
    .match subject (pruneCases (new.caseFlags o cases) cases) range
  | .try body handlers orelse finalbody isStar range =>
    .try (pruneStmts body) (pruneHandlers handlers) (pruneStmts orelse) (pruneStmts finalbody)
      isStar range
  | stmt => stmt

def pruneStmts : List Stmt → List Stmt
  | [] => []
  | stmt :: stmts => pruneStmt stmt :: pruneStmts stmts

def pruneClauses (flags : List BranchFlags) : ElifElseClauses → ElifElseClauses
  | .nil => .nil
  | .elif test body range rest =>
    .elif test (liveBody (flags.headD ⟨false, false⟩) (pruneStmts body)) range
      (pruneClauses flags.tail rest)
  | .else body range => .else (liveBody (flags.headD ⟨false, false⟩) (pruneStmts body)) range

def pruneHandlers : List ExceptHandler → List ExceptHandler
  | [] => []
  | .mk type name body range :: handlers =>
    .mk type name (pruneStmts body) range :: pruneHandlers handlers

def pruneCases (flags : List BranchFlags) : List MatchCase → List MatchCase
  | [] => []
  | .mk pattern guard body range :: cases =>
    .mk pattern guard (liveBody (flags.headD ⟨false, false⟩) (pruneStmts body)) range
      :: pruneCases flags.tail cases

end

/-- The module without what the serializer strips or flags unreachable. -/
def pruneModule (stmts : List Stmt) : List Stmt := pruneStmts o (splitModule o stmts).1

variable {o}

theorem pruneClauses_conditions : ∀ (clauses : ElifElseClauses) (flags : List BranchFlags),
    (pruneClauses o flags clauses).conditions = clauses.conditions
  | .nil, _ => rfl
  | .elif test _ _ rest, flags => congrArg (test :: ·) (pruneClauses_conditions rest flags.tail)
  | .else _ _, _ => rfl

theorem pruneClauses_length : ∀ (clauses : ElifElseClauses) (flags : List BranchFlags),
    (pruneClauses o flags clauses).bodies.length = clauses.bodies.length
  | .nil, _ => rfl
  | .elif _ _ _ rest, flags => congrArg (· + 1) (pruneClauses_length rest flags.tail)
  | .else _ _, _ => rfl

theorem pruneClauses_flags : ∀ (clauses : ElifElseClauses) (flags : List BranchFlags)
    (a : IfReachabilityAnalyzer),
    a.clauseFlags o (pruneClauses o flags clauses) = a.clauseFlags o clauses
  | .nil, _, _ => rfl
  | .elif test body range rest, flags, a => by
    simp only [pruneClauses, clauseFlags, pruneClauses_flags rest]
  | .else _ _, _, _ => rfl

theorem ifFlags_prune (test : Expr) (clauses : ElifElseClauses) (flags : List BranchFlags) :
    ifFlags o test (pruneClauses o flags clauses) = ifFlags o test clauses := by
  simp only [ifFlags, pruneClauses_flags]

theorem pruneCases_heads (cases' : List MatchCase) (flags : List BranchFlags) :
    (pruneCases o flags cases').map (·.head) = cases'.map (·.head) := by
  induction cases' generalizing flags with
  | nil => rfl
  | cons c rest ih =>
    obtain ⟨pattern, guard, body, range⟩ := c
    exact congrArg (_ :: ·) (ih flags.tail)

theorem liveBody_live {flags : BranchFlags} {body : List Stmt}
    (reachable : flags.unreachable = false) : liveBody flags body = body := by
  rw [liveBody, reachable]
  rfl

/-- The flags of the clauses that are there stand before that of an absent `else`. -/
theorem clause_flagged {test : Expr} {clauses : ElifElseClauses} {i : Nat} {block : List Stmt}
    {flags : BranchFlags} (found : clauses.bodies[i]? = some block)
    (flagged : (ifFlags o test clauses).all[i + 1]? = some flags) :
    (ifFlags o test clauses).clauses[i]? = some flags := by
  have present : i < (ifFlags o test clauses).clauses.length := by
    have bound := (List.getElem?_eq_some_iff.mp found).1
    exact (congrArg (i < ·) (clauseFlags_length o clauses _)).mpr bound
  rw [IfFlags.all, List.getElem?_cons_succ, List.getElem?_append_left present] at flagged
  exact flagged

mutual

/-- Pruning touches dead parts only. -/
theorem sameLive_pruneStmt : ∀ stmt : Stmt, SameLive o (.stmt stmt) (.stmt (pruneStmt o stmt))
  | .functionDef _ body => .functionDef (.calls (sameLive_pruneStmts body))
  | .classDef _ body => .classDef (sameLive_pruneStmts body)
  | .for _ _ _ body orelse _ =>
    .for (.loop (sameLive_pruneStmts body) (sameLive_pruneStmts orelse))
  | .while _ body orelse _ =>
    .while (.loop (sameLive_pruneStmts body) (sameLive_pruneStmts orelse))
  | .with _ _ body _ => .with (sameLive_pruneStmts body)
  | .try body handlers orelse finalbody _ _ =>
    .try (.guarded (sameLive_pruneStmts body) (sameLive_pruneHandlers handlers)
      (sameLive_pruneStmts orelse)) (sameLive_pruneStmts finalbody)
  | .if test body clauses range => by
    refine .if (pruneClauses_conditions clauses _).symm ?_ ?_
    · exact congrArg (· + 1) (pruneClauses_length clauses _).symm
    · intro i block block' flags found found' flagged reachable
      cases i with
      | zero =>
        cases found
        cases flagged
        rw [liveBody_live reachable] at found'
        cases found'
        exact sameLive_pruneStmts body
      | succ i =>
        exact sameLive_pruneClauses clauses _ i block block' flags found found'
          (clause_flagged found flagged) reachable
  | .match subject cases range => by
    refine .match (pruneCases_heads cases _).symm ?_
    intro i c c' flags found found' flagged reachable
    exact sameLive_pruneCases cases _ i c c' flags found found' flagged reachable
  | .return .. | .delete .. | .typeAlias .. | .assign .. | .augAssign .. | .annAssign ..
  | .raise .. | .assert .. | .import .. | .importFrom .. | .global .. | .nonlocal .. | .expr ..
  | .pass .. | .break .. | .continue .. | .ipyEscapeCommand .. => .simple rfl

theorem sameLive_pruneStmts : ∀ stmts : List Stmt,
    SameLive o (.block stmts) (.block (pruneStmts o stmts))
  | [] => .nil
  | stmt :: stmts => .cons (sameLive_pruneStmt stmt) (sameLive_pruneStmts stmts)

theorem sameLive_pruneClauses : ∀ (clauses : ElifElseClauses) (flags : List BranchFlags) (i : Nat)
    (block block' : List Stmt) (flag : BranchFlags), clauses.bodies[i]? = some block →
    (pruneClauses o flags clauses).bodies[i]? = some block' → flags[i]? = some flag →
    flag.unreachable = false → SameLive o (.block block) (.block block')
  | .nil, _, _, _, _, _ => by
    intro found
    cases found
  | .elif _ body _ rest, flags, 0, block, block', flag => by
    intro found found' flagged reachable
    cases found
    cases found'
    rw [List.headD_eq_head?_getD, List.head?_eq_getElem?, flagged, Option.getD_some,
      liveBody_live reachable]
    exact sameLive_pruneStmts body
  | .elif _ body _ rest, flags, i + 1, block, block', flag => by
    intro found found' flagged reachable
    rw [← List.getElem?_tail] at flagged
    exact sameLive_pruneClauses rest flags.tail i block block' flag found found' flagged reachable
  | .else body _, flags, 0, block, block', flag => by
    intro found found' flagged reachable
    cases found
    cases found'
    rw [List.headD_eq_head?_getD, List.head?_eq_getElem?, flagged, Option.getD_some,
      liveBody_live reachable]
    exact sameLive_pruneStmts body
  | .else body _, flags, i + 1, block, block', flag => by
    intro found
    cases found

theorem sameLive_pruneHandlers : ∀ handlers : List ExceptHandler,
    SameLive o (.handlers handlers) (.handlers (pruneHandlers o handlers))
  | [] => .noHandlers
  | .mk _ _ body _ :: handlers =>
    .handlers (sameLive_pruneStmts body) (sameLive_pruneHandlers handlers)

theorem sameLive_pruneCases : ∀ (cases : List MatchCase) (flags : List BranchFlags) (i : Nat)
    (c c' : MatchCase) (flag : BranchFlags), cases[i]? = some c →
    (pruneCases o flags cases)[i]? = some c' → flags[i]? = some flag →
    flag.unreachable = false → SameLive o (.block c.body) (.block c'.body)
  | [], _, _, _, _, _ => by
    intro found
    cases found
  | .mk _ _ body _ :: cases, flags, 0, c, c', flag => by
    intro found found' flagged reachable
    cases found
    cases found'
    rw [List.headD_eq_head?_getD, List.head?_eq_getElem?, flagged, Option.getD_some,
      liveBody_live reachable]
    exact sameLive_pruneStmts body
  | .mk _ _ body _ :: cases, flags, i + 1, c, c', flag => by
    intro found found' flagged reachable
    rw [← List.getElem?_tail] at flagged
    exact sameLive_pruneCases cases flags.tail i c c' flag found found' flagged reachable

end

theorem sameLive_pruneModule (stmts : List Stmt) :
    SameLive o (.block stmts) (.block (pruneModule o stmts)) := by
  unfold pruneModule
  induction stmts with
  | nil => exact .nil
  | cons stmt stmts ih =>
    rw [splitModule]
    cases fails : assertWillAlwaysFail o stmt with
    | true =>
      cases stmt with
      | assert test msg range => exact .failing fails
      | _ => cases fails
    | false => exact .cons (sameLive_pruneStmt stmt) ih

end Pruning

section Emptied

variable {o : Options}

/-- What is left at an unreachable position is an empty block. -/
def Emptied (occ : Occurrence) : Prop :=
  occ.position.scope.unreachable = true → occ.part = .block []

theorem emptied_live {p : Position} {part : Part} (reachable : p.scope.unreachable = false) :
    Emptied ⟨p, part⟩ := by
  intro unreachable
  rw [reachable] at unreachable
  cases unreachable

theorem emptied_liveBody {p : Position} (reachable : p.scope.unreachable = false)
    (flags : BranchFlags) {body : List Stmt}
    (inside : ∀ q : Position, q.scope.unreachable = false →
      ∀ occ ∈ stmtsOccurrences o q body, Emptied occ) :
    ∀ occ ∈ (⟨.branch flags :: p, .block (liveBody flags body)⟩ : Occurrence)
      :: stmtsOccurrences o (.branch flags :: p) (liveBody flags body), Emptied occ := by
  have scope : Position.scope (.branch flags :: p) = p.scope.enterBranch flags :=
    Position.scope_branch p flags
  cases flagged : flags.unreachable with
  | true =>
    have empty : liveBody flags body = [] := by
      rw [liveBody, flagged]
      rfl
    rw [empty]
    intro occ mem
    obtain rfl := List.mem_singleton.mp mem
    exact fun _ => rfl
  | false =>
    have live : (Position.scope (.branch flags :: p)).unreachable = false := by
      rw [scope]
      exact Bool.or_eq_false_iff.mpr ⟨reachable, flagged⟩
    rw [liveBody_live flagged, List.forall_mem_cons]
    exact ⟨emptied_live live, inside _ live⟩

mutual

theorem emptied_pruneStmt : ∀ (stmt : Stmt) (p : Position), p.scope.unreachable = false →
    ∀ occ ∈ occurrences o p (pruneStmt o stmt), Emptied occ
  | .functionDef head body, p, live => by
    have inside := emptied_pruneStmts body (functionFrame p head (pruneStmts o body) :: p) live
    simp only [pruneStmt, occurrences, List.forall_mem_cons]
    exact ⟨emptied_live live, emptied_live live, inside⟩
  | .classDef head body, p, live => by
    have inside := emptied_pruneStmts body (.classDef :: p) live
    simp only [pruneStmt, occurrences, List.forall_mem_cons]
    exact ⟨emptied_live live, inside⟩
  | .while _ body orelse _, p, live | .for _ _ _ body orelse _, p, live => by
    simp only [pruneStmt, occurrences, List.forall_mem_append, List.forall_mem_cons]
    exact ⟨⟨emptied_live live, emptied_pruneStmts body p live⟩, emptied_live live,
      emptied_pruneStmts orelse p live⟩
  | .with _ _ body _, p, live => by
    simp only [pruneStmt, occurrences, List.forall_mem_cons]
    exact ⟨emptied_live live, emptied_pruneStmts body p live⟩
  | .try body handlers orelse finalbody _ _, p, live => by
    simp only [pruneStmt, occurrences, List.forall_mem_append, List.forall_mem_cons]
    exact ⟨⟨emptied_live live, emptied_pruneStmts body p live⟩, emptied_pruneHandlers handlers p live,
      ⟨emptied_live live, emptied_pruneStmts orelse p live⟩, emptied_live live,
      emptied_pruneStmts finalbody p live⟩
  | .if test body clauses _, p, live => by
    simp only [pruneStmt, occurrences, ifFlags_prune, List.forall_mem_append]
    exact ⟨emptied_liveBody live _ fun q live => emptied_pruneStmts body q live,
      emptied_pruneClauses clauses _ p live⟩
  | .match _ cases _, p, live => by
    simp only [pruneStmt, occurrences, caseFlags_congr new (pruneCases_heads cases _)]
    exact emptied_pruneCases cases _ p live
  | .return .., p, live | .delete .., p, live | .typeAlias .., p, live | .assign .., p, live
  | .augAssign .., p, live | .annAssign .., p, live | .raise .., p, live | .assert .., p, live
  | .import .., p, live | .importFrom .., p, live | .global .., p, live | .nonlocal .., p, live
  | .expr .., p, live | .pass .., p, live | .break .., p, live | .continue .., p, live
  | .ipyEscapeCommand .., p, live => by
    intro occ mem
    obtain rfl := List.mem_singleton.mp mem
    exact emptied_live live

theorem emptied_pruneStmts : ∀ (stmts : List Stmt) (p : Position), p.scope.unreachable = false →
    ∀ occ ∈ stmtsOccurrences o p (pruneStmts o stmts), Emptied occ
  | [], _, _ => fun _ mem => absurd mem List.not_mem_nil
  | stmt :: stmts, p, live => by
    simp only [pruneStmts, stmtsOccurrences, List.forall_mem_append]
    exact ⟨emptied_pruneStmt stmt p live, emptied_pruneStmts stmts p live⟩

theorem emptied_pruneClauses : ∀ (clauses : ElifElseClauses) (flags : List BranchFlags)
    (p : Position), p.scope.unreachable = false →
    ∀ occ ∈ clausesOccurrences o p flags (pruneClauses o flags clauses), Emptied occ
  | .nil, _, _, _ => fun _ mem => absurd mem List.not_mem_nil
  | .elif _ body _ rest, flags, p, live => by
    simp only [pruneClauses, clausesOccurrences, List.forall_mem_append]
    exact ⟨emptied_liveBody live _ fun q live => emptied_pruneStmts body q live,
      emptied_pruneClauses rest flags.tail p live⟩
  | .else body _, flags, p, live => by
    simp only [pruneClauses, clausesOccurrences]
    exact emptied_liveBody live _ fun q live => emptied_pruneStmts body q live

theorem emptied_pruneHandlers : ∀ (handlers : List ExceptHandler) (p : Position),
    p.scope.unreachable = false →
    ∀ occ ∈ handlersOccurrences o p (pruneHandlers o handlers), Emptied occ
  | [], _, _ => fun _ mem => absurd mem List.not_mem_nil
  | .mk _ _ body _ :: handlers, p, live => by
    simp only [pruneHandlers, handlersOccurrences, List.forall_mem_append, List.forall_mem_cons]
    exact ⟨⟨emptied_live live, emptied_pruneStmts body p live⟩, emptied_pruneHandlers handlers p live⟩

theorem emptied_pruneCases : ∀ (cases : List MatchCase) (flags : List BranchFlags)
    (p : Position), p.scope.unreachable = false →
    ∀ occ ∈ casesOccurrences o p flags (pruneCases o flags cases), Emptied occ
  | [], _, _, _ => fun _ mem => absurd mem List.not_mem_nil
  | .mk _ _ body _ :: cases, flags, p, live => by
    simp only [pruneCases, casesOccurrences, List.forall_mem_append]
    exact ⟨emptied_liveBody live _ fun q live => emptied_pruneStmts body q live,
      emptied_pruneCases cases flags.tail p live⟩

end

end Emptied

/-- The module without the code that is stripped or flagged unreachable has the same runs, and
nothing of it is flagged but empty blocks. -/
theorem pruneModule_runs_iff (o : Options) (major : componentFits o.pythonVersion.1 = true)
    (minor : componentFits o.pythonVersion.2 = true) (stmts : List Stmt) :
    (∀ vs out, Exec (mypyChoices o) [] (.block stmts) vs out ↔
      Exec (mypyChoices o) [] (.block (pruneModule o stmts)) vs out) ∧
    ∀ occ ∈ stmtsOccurrences o [] (pruneModule o stmts), Emptied occ := by
  have agree := mypyChoices_agree major minor
  have same : SameLive o (.block stmts) (.block (pruneModule o stmts)) :=
    sameLive_pruneModule stmts
  constructor
  · intro vs out
    constructor
    · intro run
      exact exec_sameLive agree run same
    · intro run
      exact exec_sameLive agree run same.symm
  · exact emptied_pruneStmts (splitModule o stmts).1 [] rfl

theorem pruneModule_runs_iff_checked :
    (∀ vs out, Exec (mypyChoices .default) [] (.block checkedImports) vs out ↔
      Exec (mypyChoices .default) [] (.block (pruneModule .default checkedImports)) vs out) ∧
    ∀ occ ∈ stmtsOccurrences .default [] (pruneModule .default checkedImports), Emptied occ :=
  pruneModule_runs_iff .default rfl rfl checkedImports

end AstSerialize
