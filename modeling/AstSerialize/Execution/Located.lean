import AstSerialize.Execution.Semantics
import AstSerialize.Serializer.Position

/-! Where runs get. What a run passes stands in the part of the module that is
written, in no block that is flagged unreachable. -/
namespace AstSerialize
open IfReachabilityAnalyzer

section Blocks

variable {o : Options} {choices : Choices}

/-- The block that is taken is not flagged, whatever the conditions are each time. -/
theorem selected_reachable (agree : choices.Agree o) {conditions : List Expr} {i : Nat}
    {flags : BranchFlags} (selects : choices.Selects conditions i)
    (flagged : (flagsFrom [] (conditions.map (inferConditionValue o)))[i]? = some flags) :
    flags.unreachable = false := by
  have earlier : ¬ trueBefore o conditions i := by
    rintro ⟨e, mem, isTrue⟩
    obtain ⟨j, before, rfl⟩ := List.mem_take_iff_getElem.mp mem
    have inside : j < i := Nat.lt_of_lt_of_le before (Nat.min_le_left _ _)
    have present : j < conditions.length := Nat.lt_of_lt_of_le before (Nat.min_le_right _ _)
    exact agree.inferredTrue _ isTrue
      (selects.before j _ inside (List.getElem?_eq_getElem present))
  by_contra unreachable
  rw [Bool.not_eq_false] at unreachable
  rcases Nat.lt_or_ge i conditions.length with inside | outside
  · rcases (condition_unreachable_iff inside flagged).mp unreachable with isFalse | isTrue
    · exact agree.inferredFalse _ isFalse (selects.here _ (List.getElem?_eq_getElem inside))
    · exact earlier isTrue
  · obtain rfl : i = conditions.length := Nat.le_antisymm selects.inside outside
    exact earlier ((else_unreachable_iff flagged).mp unreachable)

theorem Choices.Selects.flags (o : Options) {test : Expr} {clauses : ElifElseClauses} {i : Nat}
    (selects : choices.Selects (chain test clauses) i) :
    ∃ flags, (ifFlags o test clauses).all[i]? = some flags := by
  refine ⟨_, List.getElem?_eq_getElem ?_⟩
  rw [ifFlags_length]
  exact Nat.lt_succ_of_le selects.inside

theorem case_flags (o : Options) {cases' : List MatchCase} {i : Nat} {c : MatchCase}
    (found : cases'[i]? = some c) : ∃ flags, (new.caseFlags o cases')[i]? = some flags := by
  refine ⟨_, List.getElem?_eq_getElem ?_⟩
  rw [caseFlags_length]
  exact (List.getElem?_eq_some_iff.mp found).1

theorem takenCase_reachable (agree : choices.Agree o) {cases' : List MatchCase} {i : Nat}
    {c : MatchCase} {flags : BranchFlags} (found : cases'[i]? = some c)
    (passed : ∀ earlier ∈ cases'.take i, choices.Passes earlier) (taken : choices.Takes c)
    (flagged : (new.caseFlags o cases')[i]? = some flags) : flags.unreachable = false := by
  obtain ⟨inside, rfl⟩ := List.getElem?_eq_some_iff.mp found
  by_contra unreachable
  rw [Bool.not_eq_false, case_unreachable_iff inside new flagged] at unreachable
  rcases unreachable with start | isFalse | ⟨earlier, mem, closes⟩
  · cases start
  · cases guard : cases'[i].guard with
    | none =>
      rw [guard] at isFalse
      cases isFalse
    | some e =>
      rw [guard] at isFalse
      exact agree.inferredFalse e isFalse (taken.2 e guard)
  · obtain ⟨pattern, guard⟩ := (closes_iff o earlier).mp closes
    rcases passed earlier mem with unmatched | ⟨e, has, fails⟩
    · exact agree.irrefutable _ pattern unmatched
    · rcases guard with absent | ⟨e', present, isTrue⟩
      · rw [absent] at has
        cases has
      · rw [present] at has
        obtain rfl := Option.some.inj has
        exact agree.inferredTrue _ isTrue fails

end Blocks

/-- The frame that an enclosing block has for the serializer. -/
def Enclosure.Frames (o : Options) : Enclosure → Frame → Prop
  | .function _, frame => ∃ omittable, frame = .function omittable
  | .classDef _, frame => frame = .classDef
  | .clause conditions i, frame => ∃ flags, frame = .branch flags ∧
    (flagsFrom [] (conditions.map (inferConditionValue o)))[i]? = some flags
  | .case heads i, frame => ∃ flags cases', frame = .branch flags ∧
    cases'.map (·.head) = heads ∧ (new.caseFlags o cases')[i]? = some flags

def Event.part : Event → Part
  | .simple stmt => .simple stmt
  | .function head => .function head

/-- An occurrence that is not unreachable and stands where the run is. -/
structure Live (o : Options) (visit : Visit) (occ : Occurrence) : Prop where
  part : occ.part = visit.event.part
  frames : List.Forall₂ (Enclosure.Frames o) visit.context occ.position
  reachable : occ.position.scope.unreachable = false

section Occurrences

variable (o : Options)

def codeOccurrences (p : Position) : Code → List Occurrence
  | .stmt stmt => occurrences o p stmt
  | .block stmts | .calls stmts => stmtsOccurrences o p stmts
  | .loop _ body orelse => stmtsOccurrences o p body ++ stmtsOccurrences o p orelse
  | .guarded body handlers orelse =>
    stmtsOccurrences o p body ++ (handlersOccurrences o p handlers ++ stmtsOccurrences o p orelse)
  | .handlers handlers => handlersOccurrences o p handlers

variable {o} {p : Position}

/-- The flags of a clause stand at its place, and its block under them. -/
theorem clause_occurrences : ∀ (clauses : ElifElseClauses) (flags : List BranchFlags) (i : Nat)
    {block : List Stmt}, clauses.bodies[i]? = some block →
    ∀ occ ∈ stmtsOccurrences o (.branch (flags[i]?.getD ⟨false, false⟩) :: p) block,
      occ ∈ clausesOccurrences o p flags clauses
  | .nil, _, _, _, found => by cases found
  | .elif test body range rest, flags, 0, block, found => by
    intro occ mem
    cases found
    rw [← List.head?_eq_getElem?, ← List.headD_eq_head?_getD] at mem
    rw [clausesOccurrences, List.mem_append]
    exact .inl (List.mem_cons_of_mem _ mem)
  | .elif test body range rest, flags, i + 1, block, found => by
    intro occ mem
    rw [← List.getElem?_tail] at mem
    rw [clausesOccurrences, List.mem_append]
    exact .inr (clause_occurrences rest flags.tail i found occ mem)
  | .else body range, flags, 0, block, found => by
    intro occ mem
    cases found
    rw [← List.head?_eq_getElem?, ← List.headD_eq_head?_getD] at mem
    exact List.mem_cons_of_mem _ mem
  | .else body range, _, i + 1, _, found => by cases found

theorem clauseFlags_length (o : Options) : ∀ (clauses : ElifElseClauses)
    (a : IfReachabilityAnalyzer), (a.clauseFlags o clauses).1.length = clauses.bodies.length
  | .nil, _ => rfl
  | .elif _ _ _ rest, _ => congrArg (· + 1) (clauseFlags_length o rest _)
  | .else _ _, _ => rfl

theorem case_occurrences (cases' : List MatchCase) (flags : List BranchFlags) (i : Nat)
    {c : MatchCase} (found : cases'[i]? = some c) :
    ∀ occ ∈ stmtsOccurrences o (.branch (flags[i]?.getD ⟨false, false⟩) :: p) c.body,
      occ ∈ casesOccurrences o p flags cases' := by
  intro occ mem
  induction cases' generalizing flags i with
  | nil => cases found
  | cons first rest ih =>
    obtain ⟨pattern, guard, body, range⟩ := first
    rw [casesOccurrences, List.mem_append, List.mem_cons]
    cases i with
    | zero =>
      cases found
      rw [← List.head?_eq_getElem?, ← List.headD_eq_head?_getD] at mem
      exact .inl (.inr mem)
    | succ i =>
      apply Or.inr
      apply ih flags.tail i found
      rwa [List.getElem?_tail]

theorem handler_occurrences {handlers : List ExceptHandler} {handler : ExceptHandler}
    (mem : handler ∈ handlers) :
    ∀ occ ∈ stmtsOccurrences o p handler.body, occ ∈ handlersOccurrences o p handlers := by
  intro occ inside
  induction handlers with
  | nil => exact absurd mem List.not_mem_nil
  | cons first rest ih =>
    obtain ⟨type, name, body, range⟩ := first
    rw [handlersOccurrences, List.mem_append, List.mem_cons]
    rcases List.mem_cons.mp mem with rfl | mem
    · exact .inl (.inr inside)
    · exact .inr (ih mem)

end Occurrences

section Runs

variable {o : Options} {choices : Choices}

/-- Every visit is at a live occurrence. -/
def LiveIn (o : Options) (occs : List Occurrence) (vs : List Visit) : Prop :=
  ∀ visit ∈ vs, ∃ occ ∈ occs, Live o visit occ

theorem LiveIn.append {occs : List Occurrence} {vs ws : List Visit} (first : LiveIn o occs vs)
    (second : LiveIn o occs ws) : LiveIn o occs (vs ++ ws) :=
  List.forall_mem_append.mpr ⟨first, second⟩

theorem LiveIn.mono {occs occs' : List Occurrence} {vs : List Visit} (live : LiveIn o occs vs)
    (sub : ∀ occ ∈ occs, occ ∈ occs') : LiveIn o occs' vs := by
  intro visit mem
  obtain ⟨occ, inside, here⟩ := live visit mem
  exact ⟨occ, sub occ inside, here⟩

theorem LiveIn.nil {occs : List Occurrence} : LiveIn o occs [] := by
  intro visit mem
  exact absurd mem List.not_mem_nil

/-- The frames of a position that the run is in. -/
structure Stands (o : Options) (ctx : Context) (p : Position) : Prop where
  frames : List.Forall₂ (Enclosure.Frames o) ctx p
  reachable : p.scope.unreachable = false

variable {ctx : Context} {p : Position}

theorem Stands.function (stands : Stands o ctx p) (head : FunctionHead) (omittable : Bool) :
    Stands o (.function head :: ctx) (.function omittable :: p) where
  frames := .cons ⟨omittable, rfl⟩ stands.frames
  reachable := stands.reachable

theorem Stands.classDef (stands : Stands o ctx p) (head : ClassHead) :
    Stands o (.classDef head :: ctx) (.classDef :: p) where
  frames := .cons rfl stands.frames
  reachable := stands.reachable

theorem Stands.branch (stands : Stands o ctx p) {enclosure : Enclosure} {flags : BranchFlags}
    (frames : enclosure.Frames o (.branch flags)) (reachable : flags.unreachable = false) :
    Stands o (enclosure :: ctx) (.branch flags :: p) where
  frames := .cons frames stands.frames
  reachable := by
    rw [Position.scope_branch]
    exact Bool.or_eq_false_iff.mpr ⟨stands.reachable, reachable⟩

/-- What begins a statement is the first of its occurrences. -/
theorem visits_live (stands : Stands o ctx p) (stmt : Stmt) :
    LiveIn o (occurrences o p stmt) (visits ctx stmt) := by
  intro visit mem
  cases stmt with
  | functionDef head body =>
    obtain rfl := List.mem_singleton.mp mem
    exact ⟨_, List.mem_cons_self, rfl, stands.frames, stands.reachable⟩
  | classDef | «for» | «while» | «if» | «with» | «match» | «try» => cases mem
  | _ =>
    obtain rfl := List.mem_singleton.mp mem
    exact ⟨_, List.mem_cons_self, rfl, stands.frames, stands.reachable⟩

/-- The block of an `if` statement that is taken, at its position. -/
theorem taken_stands (agree : choices.Agree o) (stands : Stands o ctx p) {test : Expr}
    {body block : List Stmt} {clauses : ElifElseClauses} (range : TextRange) {i : Nat}
    (selects : choices.Selects (chain test clauses) i)
    (found : (ifBlocks body clauses)[i]? = some block) :
    ∃ flags : BranchFlags, Stands o (.clause (chain test clauses) i :: ctx) (.branch flags :: p) ∧
      ∀ occ ∈ stmtsOccurrences o (.branch flags :: p) block,
        occ ∈ occurrences o p (.if test body clauses range) := by
  obtain ⟨flags, flagged⟩ := selects.flags o
  have flagged' := flagged
  rw [ifFlags_all] at flagged'
  refine ⟨flags, stands.branch ⟨flags, rfl, flagged'⟩ (selected_reachable agree selects flagged'), ?_⟩
  intro occ mem
  rw [occurrences, List.mem_append]
  cases i with
  | zero =>
    cases found
    cases flagged
    exact .inl (List.mem_cons_of_mem _ mem)
  | succ i =>
    have present : i < (ifFlags o test clauses).clauses.length := by
      have bound := (List.getElem?_eq_some_iff.mp found).1
      rw [← Nat.succ_lt_succ_iff]
      exact (congrArg (i + 1 < · + 1) (clauseFlags_length o clauses _)).mpr bound
    rw [IfFlags.all, List.getElem?_cons_succ, List.getElem?_append_left present] at flagged
    apply Or.inr
    apply clause_occurrences clauses _ i found
    rw [flagged]
    exact mem

theorem takenCase_stands (agree : choices.Agree o) (stands : Stands o ctx p)
    {cases' : List MatchCase} {i : Nat} {c : MatchCase}
    (found : cases'[i]? = some c) (passed : ∀ earlier ∈ cases'.take i, choices.Passes earlier)
    (taken : choices.Takes c) :
    ∃ flags : BranchFlags, Stands o (.case (cases'.map (·.head)) i :: ctx) (.branch flags :: p) ∧
      ∀ occ ∈ stmtsOccurrences o (.branch flags :: p) c.body,
        occ ∈ casesOccurrences o p (new.caseFlags o cases') cases' := by
  obtain ⟨flags, flagged⟩ := case_flags o found
  have reachable := takenCase_reachable agree found passed taken flagged
  refine ⟨flags, stands.branch ⟨flags, cases', rfl, rfl, flagged⟩ reachable, ?_⟩
  intro occ mem
  apply case_occurrences cases' _ i found
  rw [flagged]
  exact mem

/-- Everything that a run passes is live: by induction on the run, with the position it is at. -/
theorem exec_live (agree : choices.Agree o) {code : Code} {vs : List Visit} {out : Outcome}
    (run : Exec choices ctx code vs out) (stands : Stands o ctx p) :
    LiveIn o (codeOccurrences o p code) vs := by
  induction run generalizing p with
  | stop | uncalled | nil | loopRaise | ifSkipped | matchPassed => exact .nil
  | raise | simple => exact visits_live stands _
  | @functionDef ctx head body vs _ ih =>
    apply LiveIn.append (visits_live stands _)
    apply (ih (stands.function head _)).mono
    intro occ mem
    exact List.mem_cons_of_mem _ (List.mem_cons_of_mem _ mem)
  | @classDef ctx head body vs out _ ih =>
    apply (ih (stands.classDef head)).mono
    intro occ mem
    exact List.mem_cons_of_mem _ mem
  | @ifTaken ctx test body clauses range i block vs out selects found _ ih =>
    obtain ⟨flags, inside, sub⟩ := taken_stands agree stands range selects found
    exact (ih inside).mono sub
  | matchTaken found passed taken _ ih =>
    obtain ⟨flags, inside, sub⟩ := takenCase_stands agree stands found passed taken
    exact (ih inside).mono sub
  | «while» _ ih | «for» _ ih =>
    apply (ih stands).mono
    intro occ mem
    simp only [codeOccurrences, occurrences, List.mem_append, List.mem_cons] at mem ⊢
    tauto
  | «with» _ ih | withTaken _ ih =>
    apply (ih stands).mono
    intro occ mem
    exact List.mem_cons_of_mem _ mem
  | «try» _ _ _ guarded final =>
    apply LiveIn.append
    · apply (guarded stands).mono
      intro occ mem
      simp only [codeOccurrences, occurrences, List.mem_append, List.mem_cons] at mem ⊢
      tauto
    · apply (final stands).mono
      intro occ mem
      simp only [codeOccurrences, occurrences, List.mem_append, List.mem_cons] at mem ⊢
      tauto
  | tryStopped _ ih =>
    apply (ih stands).mono
    intro occ mem
    simp only [codeOccurrences, occurrences, List.mem_append, List.mem_cons] at mem ⊢
    tauto
  | cons _ _ first rest =>
    apply LiveIn.append
    · exact (first stands).mono fun occ mem => List.mem_append_left _ mem
    · exact (rest stands).mono fun occ mem => List.mem_append_right _ mem
  | leave _ _ ih => exact (ih stands).mono fun occ mem => List.mem_append_left _ mem
  | called _ _ first rest => exact (first stands).append (rest stands)
  | loopEnd _ _ ih => exact (ih stands).mono fun occ mem => List.mem_append_right _ mem
  | loopBreak _ _ ih | loopLeave _ _ _ ih =>
    exact (ih stands).mono fun occ mem => List.mem_append_left _ mem
  | loopNext _ _ _ _ body rest =>
    exact .append ((body stands).mono fun occ mem => List.mem_append_left _ mem) (rest stands)
  | guardedElse _ _ body orelse =>
    apply LiveIn.append
    · exact (body stands).mono fun occ mem => List.mem_append_left _ mem
    · apply (orelse stands).mono
      exact fun occ mem => List.mem_append_right _ (List.mem_append_right _ mem)
  | caught _ _ body handlers =>
    apply LiveIn.append
    · exact (body stands).mono fun occ mem => List.mem_append_left _ mem
    · apply (handlers stands).mono
      exact fun occ mem => List.mem_append_right _ (List.mem_append_left _ mem)
  | uncaught _ _ ih => exact (ih stands).mono fun occ mem => List.mem_append_left _ mem
  | handled mem _ ih => exact (ih stands).mono (handler_occurrences mem)
  | handledNext mem _ _ here rest =>
    exact .append ((here stands).mono (handler_occurrences mem)) (rest stands)

end Runs

section Modules

variable {o : Options} {choices : Choices}

/-- A module runs as the part of it that is written. -/
theorem exec_splitModule (agree : choices.Agree o) {ctx : Context} {stmts : List Stmt}
    {vs : List Visit} {out : Outcome} (run : Exec choices ctx (.block stmts) vs out) :
    Exec choices ctx (.block (splitModule o stmts).1) vs out := by
  induction stmts generalizing vs with
  | nil => exact run
  | cons stmt stmts ih =>
    rw [splitModule]
    cases fails : assertWillAlwaysFail o stmt with
    | true => exact exec_assert agree stmts [] fails run
    | false =>
      cases run with
      | stop => exact .stop
      | cons first rest => exact .cons first (ih rest)
      | leave abnormal first => exact .leave abnormal first

/-- Whatever a run of a module passes stands in the part that is written, in the same blocks, none
of which is flagged unreachable. -/
theorem run_live (o : Options) (major : componentFits o.pythonVersion.1 = true)
    (minor : componentFits o.pythonVersion.2 = true) {stmts : List Stmt} {vs : List Visit}
    {out : Outcome} (run : Exec (mypyChoices o) [] (.block stmts) vs out) :
    ∀ visit ∈ vs, ∃ occ ∈ moduleOccurrences o stmts, Live o visit occ := by
  have agree := mypyChoices_agree major minor
  exact exec_live agree (exec_splitModule agree run) ⟨.nil, rfl⟩

/-- `if TYPE_CHECKING:` with an import in each branch. -/
def checkedImport : Stmt :=
  .import [⟨⟨"a", ⟨29, 30⟩⟩, none, ⟨29, 30⟩⟩] false ⟨22, 30⟩

def uncheckedClauses : ElifElseClauses :=
  .else [.import [⟨⟨"b", ⟨48, 49⟩⟩, none, ⟨48, 49⟩⟩] false ⟨41, 49⟩] ⟨31, 49⟩

def checkedImports : List Stmt :=
  [.if (.name "TYPE_CHECKING" ⟨3, 16⟩) [checkedImport] uncheckedClauses ⟨0, 49⟩]

def checkedContext : Context := [.clause [.name "TYPE_CHECKING" ⟨3, 16⟩] 0]

def checkedVisit : Visit := ⟨checkedContext, .simple checkedImport⟩

theorem checkedImports_exec : Exec (mypyChoices .default) [] (.block checkedImports)
    [checkedVisit] .normal := by
  have selects : (mypyChoices .default).Selects
      (chain (.name "TYPE_CHECKING" ⟨3, 16⟩) uncheckedClauses) 0 := by
    constructor
    · exact Nat.zero_le _
    · intro j e before
      exact absurd before (Nat.not_lt_zero j)
    · intro e found
      cases found
      exact ⟨worldOf .default, _, consistent_worldOf rfl, rfl, rfl⟩
  have first : Exec (mypyChoices .default) checkedContext (.stmt checkedImport)
      [checkedVisit] .normal := .simple rfl rfl
  have body : Exec (mypyChoices .default) checkedContext (.block [checkedImport])
      [checkedVisit] .normal := .cons first .nil
  exact .cons (.ifTaken selects rfl body) .nil

theorem run_live_checked :
    ∃ occ ∈ moduleOccurrences .default checkedImports, Live .default checkedVisit occ :=
  run_live .default rfl rfl checkedImports_exec checkedVisit List.mem_cons_self

end Modules

end AstSerialize
