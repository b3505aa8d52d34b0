import AstSerialize.Reachability.Soundness

/-! The analyzer of `if` chains and `match` statements: a state machine over the
conditions, and what its three bits say about the conditions seen so far. -/
namespace AstSerialize

structure BranchFlags where
  unreachable : Bool
  mypyOnly : Bool
  deriving DecidableEq, Repr

structure IfReachabilityAnalyzer where
  tailUnreachable : Bool
  seenMypyTrue : Bool
  seenMypyFalse : Bool
  deriving DecidableEq, Repr

namespace IfReachabilityAnalyzer

def new : IfReachabilityAnalyzer := ⟨false, false, false⟩

def conditionFlags (o : Options) (a : IfReachabilityAnalyzer) (expr : Expr) :
    BranchFlags × IfReachabilityAnalyzer :=
  let truth := inferConditionValue o expr
  let unreachable := a.tailUnreachable || isAlwaysOrMypyFalse truth
  let mypyOnly := !unreachable && !a.seenMypyTrue && truth = .mypyTrue
  (⟨unreachable, mypyOnly⟩,
    ⟨a.tailUnreachable || isAlwaysOrMypyTrue truth, a.seenMypyTrue || truth = .mypyTrue,
      a.seenMypyFalse || truth = .mypyFalse⟩)

def elseFlags (a : IfReachabilityAnalyzer) : BranchFlags :=
  let unreachable := a.tailUnreachable
  ⟨unreachable, !unreachable && a.seenMypyFalse && !a.seenMypyTrue⟩

def guardValue (o : Options) : Option Expr → TruthValue
  | none => .alwaysTrue
  | some guard => inferConditionValue o guard

def matchCaseFlags (o : Options) (a : IfReachabilityAnalyzer) (pattern : Pattern)
    (guard : Option Expr) : BranchFlags × IfReachabilityAnalyzer :=
  let patternTruth := inferPatternValue pattern
  let guardTruth := guardValue o guard
  let unreachable := a.tailUnreachable || isAlwaysOrMypyFalse patternTruth
    || isAlwaysOrMypyFalse guardTruth
  let mypyOnly := !unreachable && !a.seenMypyTrue && guardTruth = .mypyTrue
    && isAlwaysOrMypyTrue patternTruth
  (⟨unreachable, mypyOnly⟩,
    ⟨a.tailUnreachable || isAlwaysOrMypyTrue guardTruth && isAlwaysOrMypyTrue patternTruth,
      a.seenMypyTrue || guardTruth = .mypyTrue && isAlwaysOrMypyTrue patternTruth,
      a.seenMypyFalse⟩)

/-- The flags of the clauses in order, and those of the `else` that is not there. -/
def clauseFlags (o : Options) (a : IfReachabilityAnalyzer) :
    ElifElseClauses → List BranchFlags × Option BranchFlags
  | .nil => ([], some a.elseFlags)
  | .elif test _ _ rest =>
    let (flags, a) := a.conditionFlags o test
    let (others, synthetic) := clauseFlags o a rest
    (flags :: others, synthetic)
  | .else _ _ => ([a.elseFlags], none)

def caseFlags (o : Options) (a : IfReachabilityAnalyzer) : List MatchCase → List BranchFlags
  | [] => []
  | .mk pattern guard _ _ :: cases =>
    let (flags, a) := a.matchCaseFlags o pattern guard
    flags :: caseFlags o a cases

end IfReachabilityAnalyzer

open IfReachabilityAnalyzer

/-- The first part of `serialize_if_stmt`: main block, clauses, synthetic `else`. -/
structure IfFlags where
  main : BranchFlags
  clauses : List BranchFlags
  synthetic : Option BranchFlags

def ifFlags (o : Options) (test : Expr) (clauses : ElifElseClauses) : IfFlags :=
  let (main, a) := new.conditionFlags o test
  let (others, synthetic) := a.clauseFlags o clauses
  ⟨main, others, synthetic⟩

/-- The block that an `if` without `else` writes in its place. -/
def writesEmptyElse (flags : IfFlags) : Bool :=
  match flags.synthetic with
  | some synthetic => synthetic.unreachable
  | none => false

/-- Every block of the statement, an absent `else` included. -/
def IfFlags.all (flags : IfFlags) : List BranchFlags :=
  flags.main :: (flags.clauses ++ flags.synthetic.toList)

def ElifElseClauses.conditions : ElifElseClauses → List Expr
  | .elif test _ _ rest => test :: rest.conditions
  | _ => []

def ElifElseClauses.hasElse : ElifElseClauses → Bool
  | .nil => false
  | .elif _ _ _ rest => rest.hasElse
  | .else _ _ => true

/-- `Pattern::is_irrefutable`. -/
def Pattern.isIrrefutable : Pattern → Bool
  | .matchAs none _ _ => true
  | .matchAs (some pattern) _ _ => pattern.isIrrefutable
  | .matchOr patterns _ => anyIrrefutable patterns
  | _ => false
where
  anyIrrefutable : List Pattern → Bool
    | [] => false
    | pattern :: patterns => pattern.isIrrefutable || anyIrrefutable patterns

mutual

/-- The analysis knows fewer irrefutable patterns than the parser. -/
theorem isIrrefutable_of_alwaysTrue : ∀ pattern : Pattern,
    inferPatternValue pattern = .alwaysTrue → pattern.isIrrefutable = true
  | .matchAs none _ _, _ => rfl
  | .matchOr patterns _, h => by
    rw [inferPatternValue] at h
    split at h
    case isTrue any => exact anyIrrefutable_of_alwaysTrue patterns any
    case isFalse => cases h

theorem anyIrrefutable_of_alwaysTrue : ∀ patterns : List Pattern,
    anyAlwaysTrue patterns = true → Pattern.isIrrefutable.anyIrrefutable patterns = true
  | pattern :: patterns, h => by
    rw [anyAlwaysTrue, Bool.or_eq_true, decide_eq_true_eq] at h
    rw [Pattern.isIrrefutable.anyIrrefutable, Bool.or_eq_true]
    rcases h with here | later
    · exact .inl (isIrrefutable_of_alwaysTrue pattern here)
    · exact .inr (anyIrrefutable_of_alwaysTrue patterns later)

end

theorem inferPatternValue_cases (pattern : Pattern) :
    inferPatternValue pattern = .alwaysTrue ∨ inferPatternValue pattern = .unknown := by
  unfold inferPatternValue
  split
  · exact .inl rfl
  · split
    · exact .inl rfl
    · exact .inr rfl
  · exact .inr rfl

section Runs

/-! A run of the analyzer over truth values. `before` is what was seen so far. -/

/-- The state after the truth values seen so far. -/
def stateAfter (before : List TruthValue) : IfReachabilityAnalyzer :=
  ⟨before.any isAlwaysOrMypyTrue, before.any (· = .mypyTrue), before.any (· = .mypyFalse)⟩

def flagsAfter (before : List TruthValue) (truth : TruthValue) : BranchFlags :=
  let unreachable := before.any isAlwaysOrMypyTrue || isAlwaysOrMypyFalse truth
  ⟨unreachable, !unreachable && !before.any (· = .mypyTrue) && truth = .mypyTrue⟩

theorem conditionFlags_stateAfter (o : Options) (before : List TruthValue) (e : Expr) :
    (stateAfter before).conditionFlags o e = (flagsAfter before (inferConditionValue o e),
      stateAfter (before ++ [inferConditionValue o e])) := by
  simp [conditionFlags, stateAfter, flagsAfter]

/-- The blocks that follow the truth values seen so far, the `else` last. -/
def flagsFrom (before : List TruthValue) : List TruthValue → List BranchFlags
  | [] => [(stateAfter before).elseFlags]
  | truth :: truths => flagsAfter before truth :: flagsFrom (before ++ [truth]) truths

theorem clauseFlags_eq (o : Options) : ∀ (clauses : ElifElseClauses) (before : List TruthValue),
    ((stateAfter before).clauseFlags o clauses).1
        ++ ((stateAfter before).clauseFlags o clauses).2.toList
      = flagsFrom before (clauses.conditions.map (inferConditionValue o)) ∧
    ((stateAfter before).clauseFlags o clauses).2
      = if clauses.hasElse then none else
          some (stateAfter (before ++ clauses.conditions.map (inferConditionValue o))).elseFlags
  | .nil, before => by
    simp [clauseFlags, ElifElseClauses.conditions, ElifElseClauses.hasElse, flagsFrom]
  | .else _ _, before => by
    simp [clauseFlags, ElifElseClauses.conditions, ElifElseClauses.hasElse, flagsFrom]
  | .elif test _ _ rest, before => by
    have step := conditionFlags_stateAfter o before test
    obtain ⟨flags, synthetic⟩ := clauseFlags_eq o rest (before ++ [inferConditionValue o test])
    rw [List.append_assoc, List.singleton_append] at synthetic
    simp only [clauseFlags, step, ElifElseClauses.conditions, ElifElseClauses.hasElse,
      List.map_cons, flagsFrom, List.cons_append, flags, true_and]
    exact synthetic

theorem flagsFrom_length (before truths : List TruthValue) :
    (flagsFrom before truths).length = truths.length + 1 := by
  induction truths generalizing before with
  | nil => rfl
  | cons truth truths ih => rw [flagsFrom, List.length_cons, ih, List.length_cons]

theorem flagsFrom_getElem (before truths : List TruthValue) (i : Nat) (inside : i < truths.length) :
    (flagsFrom before truths)[i]? = some (flagsAfter (before ++ truths.take i) truths[i]) := by
  induction truths generalizing before i with
  | nil => exact absurd inside (Nat.not_lt_zero i)
  | cons truth truths ih =>
    cases i with
    | zero => simp [flagsFrom]
    | succ i =>
      rw [flagsFrom, List.getElem?_cons_succ, ih _ i (Nat.lt_of_succ_lt_succ inside)]
      simp

theorem flagsFrom_else (before truths : List TruthValue) :
    (flagsFrom before truths)[truths.length]? = some (stateAfter (before ++ truths)).elseFlags := by
  induction truths generalizing before with
  | nil => simp [flagsFrom]
  | cons truth truths ih =>
    rw [flagsFrom, List.length_cons, List.getElem?_cons_succ, ih]
    simp

end Runs

section Chains

/-- The conditions of an `if` statement, the first one included. -/
def chain (test : Expr) (clauses : ElifElseClauses) : List Expr := test :: clauses.conditions

variable {o : Options} {test : Expr} {clauses : ElifElseClauses}

theorem ifFlags_all (o : Options) (test : Expr) (clauses : ElifElseClauses) :
    (ifFlags o test clauses).all = flagsFrom [] ((chain test clauses).map (inferConditionValue o)) := by
  have start : new.conditionFlags o test = (flagsAfter [] (inferConditionValue o test),
      stateAfter [inferConditionValue o test]) := conditionFlags_stateAfter o [] test
  have rest := (clauseFlags_eq o clauses [inferConditionValue o test]).1
  simp only [IfFlags.all, ifFlags, start, rest, chain, List.map_cons, flagsFrom, List.nil_append]

theorem ifFlags_synthetic (o : Options) (test : Expr) (clauses : ElifElseClauses) :
    (ifFlags o test clauses).synthetic = if clauses.hasElse then none else
      some (stateAfter ((chain test clauses).map (inferConditionValue o))).elseFlags := by
  have start : new.conditionFlags o test = (flagsAfter [] (inferConditionValue o test),
      stateAfter [inferConditionValue o test]) := conditionFlags_stateAfter o [] test
  have rest := (clauseFlags_eq o clauses [inferConditionValue o test]).2
  simp only [ifFlags, start, rest, chain, List.map_cons, List.cons_append, List.nil_append]

theorem ifFlags_length (o : Options) (test : Expr) (clauses : ElifElseClauses) :
    (ifFlags o test clauses).all.length = (chain test clauses).length + 1 := by
  rw [ifFlags_all, flagsFrom_length, List.length_map]

/-- Some condition before the `i`-th is inferred true. -/
def trueBefore (o : Options) (conditions : List Expr) (i : Nat) : Prop :=
  ∃ e ∈ conditions.take i, isAlwaysOrMypyTrue (inferConditionValue o e) = true

theorem any_true_iff (o : Options) (conditions : List Expr) (i : Nat) :
    ((conditions.map (inferConditionValue o)).take i).any isAlwaysOrMypyTrue = true
      ↔ trueBefore o conditions i := by
  rw [← List.map_take, List.any_map, List.any_eq_true]
  rfl

theorem condition_unreachable_iff {conditions : List Expr} {i : Nat} {flags : BranchFlags}
    (inside : i < conditions.length)
    (flagged : (flagsFrom [] (conditions.map (inferConditionValue o)))[i]? = some flags) :
    flags.unreachable = true ↔
      isAlwaysOrMypyFalse (inferConditionValue o conditions[i]) = true
        ∨ trueBefore o conditions i := by
  have inside' : i < (conditions.map (inferConditionValue o)).length := by
    rwa [List.length_map]
  rw [flagsFrom_getElem [] _ i inside'] at flagged
  cases flagged
  simp only [flagsAfter, List.nil_append, List.getElem_map, Bool.or_eq_true, any_true_iff]
  exact or_comm

theorem else_unreachable_iff {conditions : List Expr} {flags : BranchFlags}
    (flagged : (flagsFrom [] (conditions.map (inferConditionValue o)))[conditions.length]?
      = some flags) :
    flags.unreachable = true ↔ trueBefore o conditions conditions.length := by
  have last := flagsFrom_else [] (conditions.map (inferConditionValue o))
  rw [List.length_map] at last
  rw [last] at flagged
  cases flagged
  have all := any_true_iff o conditions conditions.length
  rw [List.take_of_length_le (by rw [List.length_map])] at all
  exact all

theorem mypyOnly_reachable {before truths : List TruthValue} {flags : BranchFlags}
    (mem : flags ∈ flagsFrom before truths) (mypyOnly : flags.mypyOnly = true) :
    flags.unreachable = false := by
  induction truths generalizing before with
  | nil =>
    obtain rfl := List.mem_singleton.mp mem
    simp only [elseFlags, Bool.and_eq_true] at mypyOnly ⊢
    simpa using mypyOnly.1.1
  | cons truth truths ih =>
    rcases List.mem_cons.mp mem with rfl | mem
    · simp only [flagsAfter, Bool.and_eq_true] at mypyOnly ⊢
      simpa using mypyOnly.1.1
    · exact ih mem

/-- A block that is flagged shows that no condition before it is inferred true. -/
theorem no_true_before {before truths : List TruthValue} {flags : BranchFlags}
    (mem : flags ∈ flagsFrom before truths) (mypyOnly : flags.mypyOnly = true) :
    before.any isAlwaysOrMypyTrue = false := by
  have reachable := mypyOnly_reachable mem mypyOnly
  induction truths generalizing before with
  | nil =>
    obtain rfl := List.mem_singleton.mp mem
    exact reachable
  | cons truth truths ih =>
    rcases List.mem_cons.mp mem with rfl | mem
    · exact (Bool.or_eq_false_iff.mp reachable).1
    · have longer := ih mem
      rw [List.any_append, Bool.or_eq_false_iff] at longer
      exact longer.1

/-- Only one block of a run is flagged mypy-only. -/
theorem mypyOnly_unique (before truths : List TruthValue) :
    ((flagsFrom before truths).filter (·.mypyOnly)).length ≤ 1 := by
  induction truths generalizing before with
  | nil =>
    rw [flagsFrom]
    exact List.length_filter_le _ [(stateAfter before).elseFlags]
  | cons truth truths ih =>
    rw [flagsFrom, List.filter_cons]
    split
    case isTrue first =>
      have mypyTrue : truth = .mypyTrue := by
        simp only [flagsAfter, Bool.and_eq_true, decide_eq_true_eq] at first
        exact first.2
      have none : (flagsFrom (before ++ [truth]) truths).filter (·.mypyOnly) = [] := by
        rw [List.filter_eq_nil_iff]
        intro flags mem mypyOnly
        have clear := no_true_before mem mypyOnly
        rw [mypyTrue, List.any_append, Bool.or_eq_false_iff] at clear
        cases clear.2
      rw [none]
      exact Nat.le_refl 1
    case isFalse => exact ih _

theorem writesEmptyElse_iff (noElse : clauses.hasElse = false) :
    writesEmptyElse (ifFlags o test clauses) = true ↔
      trueBefore o (chain test clauses) (chain test clauses).length := by
  have all := any_true_iff o (chain test clauses) (chain test clauses).length
  rw [List.take_of_length_le (by rw [List.length_map])] at all
  rw [writesEmptyElse, ifFlags_synthetic, noElse]
  exact all

end Chains

section Valuations

/-- A valuation that agrees with the analysis; irrefutable patterns always match. -/
structure Valuation (o : Options) where
  holds : Expr → Bool
  matched : Pattern → Bool
  inferredTrue : ∀ e, isAlwaysOrMypyTrue (inferConditionValue o e) = true → holds e = true
  inferredFalse : ∀ e, isAlwaysOrMypyFalse (inferConditionValue o e) = true → holds e = false
  irrefutable : ∀ pattern, pattern.isIrrefutable = true → matched pattern = true

variable {o : Options} (v : Valuation o)

/-- The block an `if` statement executes: that of the first condition that holds, else the last. -/
def Valuation.executed (conditions : List Expr) : Nat := conditions.findIdx v.holds

theorem executed_reachable {conditions : List Expr} {flags : BranchFlags}
    (flagged : (flagsFrom [] (conditions.map (inferConditionValue o)))[v.executed conditions]?
      = some flags) : flags.unreachable = false := by
  have earlier : ¬ trueBefore o conditions (v.executed conditions) := by
    rintro ⟨e, mem, isTrue⟩
    obtain ⟨j, before, rfl⟩ := List.mem_take_iff_getElem.mp mem
    have fails := List.not_of_lt_findIdx (p := v.holds) (Nat.lt_of_lt_of_le before (Nat.min_le_left _ _))
    rw [v.inferredTrue _ isTrue] at fails
    cases fails
  by_contra unreachable
  rw [Bool.not_eq_false] at unreachable
  rcases Nat.lt_or_ge (v.executed conditions) conditions.length with inside | outside
  · rcases (condition_unreachable_iff inside flagged).mp unreachable with isFalse | isTrue
    · have holds : v.holds conditions[v.executed conditions] = true := List.findIdx_getElem
      rw [v.inferredFalse _ isFalse] at holds
      cases holds
    · exact earlier isTrue
  · have last : v.executed conditions = conditions.length :=
      Nat.le_antisymm List.findIdx_le_length outside
    rw [last] at flagged earlier
    exact earlier ((else_unreachable_iff flagged).mp unreachable)

/-- A world gives a valuation; a condition that raises selects no block and may have any value. -/
def World.valuation (w : World) (consistent : Consistent o w)
    (major : componentFits o.pythonVersion.1 = true)
    (minor : componentFits o.pythonVersion.2 = true) (matched : Pattern → Bool) : Valuation o where
  holds e := match w.eval e with
    | some value => value.truthy
    | none => isAlwaysOrMypyTrue (inferConditionValue o e)
  matched pattern := pattern.isIrrefutable || matched pattern
  inferredTrue e isTrue := by
    cases h : w.eval e with
    | none => exact isTrue
    | some value =>
      exact (soundAt_of_fits consistent e (versionFits_of_fits major minor e) value h).1 isTrue
  inferredFalse e isFalse := by
    cases h : w.eval e with
    | none => cases t : inferConditionValue o e <;> rw [t] at isFalse <;> first | rfl | cases isFalse
    | some value =>
      exact (soundAt_of_fits consistent e (versionFits_of_fits major minor e) value h).2 isFalse
  irrefutable pattern irrefutable := by rw [irrefutable, Bool.true_or]

/-- The block that an `if` statement executes in a world is reachable, where no condition raises. -/
theorem executed_in_world {w : World} (consistent : Consistent o w)
    (major : componentFits o.pythonVersion.1 = true)
    (minor : componentFits o.pythonVersion.2 = true) {conditions : List Expr} {flags : BranchFlags}
    (evaluates : ∀ e ∈ conditions, (w.eval e).isSome)
    (flagged : (flagsFrom [] (conditions.map (inferConditionValue o)))[
      conditions.findIdx fun e => (w.eval e).any (·.truthy)]? = some flags) :
    flags.unreachable = false := by
  let v := w.valuation consistent major minor fun _ => false
  have same : ∀ e ∈ conditions, v.holds e = (w.eval e).any (·.truthy) := by
    intro e mem
    obtain ⟨value, eval⟩ := Option.isSome_iff_exists.mp (evaluates e mem)
    simp only [v, World.valuation, eval, Option.any_some]
  have index : v.executed conditions
      = conditions.findIdx fun e => (w.eval e).any (·.truthy) := by
    apply Nat.le_antisymm
    · exact List.findIdx_le_findIdx fun e mem holds => (same e mem).trans holds
    · exact List.findIdx_le_findIdx fun e mem holds => (same e mem).symm.trans holds
  rw [← index] at flagged
  exact executed_reachable v flagged

end Valuations

section Matches

def MatchCase.pattern : MatchCase → Pattern
  | .mk pattern _ _ _ => pattern

def MatchCase.guard : MatchCase → Option Expr
  | .mk _ guard _ _ => guard

/-- Nothing gets past the case, as far as the analysis knows. -/
def MatchCase.closes (o : Options) (c : MatchCase) : Bool :=
  isAlwaysOrMypyTrue (guardValue o c.guard) && isAlwaysOrMypyTrue (inferPatternValue c.pattern)

/-- A case that closes has an irrefutable pattern and a guard that is absent or inferred true. -/
theorem closes_iff (o : Options) (c : MatchCase) : c.closes o = true ↔
    inferPatternValue c.pattern = .alwaysTrue ∧
      (c.guard = none ∨ ∃ guard, c.guard = some guard ∧
        isAlwaysOrMypyTrue (inferConditionValue o guard) = true) := by
  have pattern : isAlwaysOrMypyTrue (inferPatternValue c.pattern) = true ↔
      inferPatternValue c.pattern = .alwaysTrue := by
    rcases inferPatternValue_cases c.pattern with h | h <;> rw [h] <;> decide
  rw [MatchCase.closes, Bool.and_eq_true, pattern, and_comm]
  cases c.guard with
  | none => simp [guardValue, isAlwaysOrMypyTrue]
  | some guard => simp [guardValue]

theorem matchCaseFlags_closes (o : Options) (a : IfReachabilityAnalyzer) (c : MatchCase) :
    (a.matchCaseFlags o c.pattern c.guard).2.tailUnreachable = (a.tailUnreachable || c.closes o) :=
  rfl

theorem matchCaseFlags_unreachable (o : Options) (a : IfReachabilityAnalyzer) (c : MatchCase) :
    (a.matchCaseFlags o c.pattern c.guard).1.unreachable
      = (a.tailUnreachable || isAlwaysOrMypyFalse (guardValue o c.guard)) := by
  have never : isAlwaysOrMypyFalse (inferPatternValue c.pattern) = false := by
    rcases inferPatternValue_cases c.pattern with h | h <;> rw [h] <;> rfl
  simp only [matchCaseFlags, never, Bool.or_false]

theorem caseFlags_cons (o : Options) (a : IfReachabilityAnalyzer) (c : MatchCase)
    (cases' : List MatchCase) : a.caseFlags o (c :: cases')
      = (a.matchCaseFlags o c.pattern c.guard).1
        :: (a.matchCaseFlags o c.pattern c.guard).2.caseFlags o cases' := by
  cases c
  rfl

theorem caseFlags_length (o : Options) (a : IfReachabilityAnalyzer) (cases' : List MatchCase) :
    (a.caseFlags o cases').length = cases'.length := by
  induction cases' generalizing a with
  | nil => rfl
  | cons c cases' ih => rw [caseFlags_cons, List.length_cons, List.length_cons, ih]

theorem case_unreachable_iff {o : Options} {cases' : List MatchCase} {i : Nat} {flags : BranchFlags}
    (inside : i < cases'.length) (a : IfReachabilityAnalyzer)
    (flagged : (a.caseFlags o cases')[i]? = some flags) :
    flags.unreachable = true ↔ a.tailUnreachable = true ∨
      isAlwaysOrMypyFalse (guardValue o cases'[i].guard) = true ∨
        ∃ c ∈ cases'.take i, c.closes o = true := by
  induction cases' generalizing a i with
  | nil => exact absurd inside (Nat.not_lt_zero i)
  | cons c cases' ih =>
    rw [caseFlags_cons] at flagged
    cases i with
    | zero =>
      cases flagged
      rw [matchCaseFlags_unreachable, Bool.or_eq_true]
      simp
    | succ i =>
      rw [ih (Nat.lt_of_succ_lt_succ inside) _ flagged, matchCaseFlags_closes, Bool.or_eq_true,
        List.take_succ_cons, List.exists_mem_cons_iff]
      simp only [List.getElem_cons_succ]
      tauto

theorem case_mypyOnly_reachable {o : Options} {cases' : List MatchCase} {flags : BranchFlags}
    (a : IfReachabilityAnalyzer) (mem : flags ∈ a.caseFlags o cases')
    (mypyOnly : flags.mypyOnly = true) : flags.unreachable = false := by
  induction cases' generalizing a with
  | nil => exact absurd mem List.not_mem_nil
  | cons c cases' ih =>
    rw [caseFlags_cons] at mem
    rcases List.mem_cons.mp mem with rfl | mem
    · simp only [matchCaseFlags, Bool.and_eq_true] at mypyOnly ⊢
      simpa using mypyOnly.1.1.1
    · exact ih _ mem

variable {o : Options} (v : Valuation o)

def Valuation.guardHolds : Option Expr → Bool
  | none => true
  | some guard => v.holds guard

/-- The case a `match` statement executes, if any. -/
def Valuation.executedCase (cases' : List MatchCase) : Option Nat :=
  cases'.findIdx? fun c => v.matched c.pattern && v.guardHolds c.guard

theorem executedCase_reachable {cases' : List MatchCase} {i : Nat} {flags : BranchFlags}
    (executed : v.executedCase cases' = some i)
    (flagged : (new.caseFlags o cases')[i]? = some flags) : flags.unreachable = false := by
  obtain ⟨inside, selected, first⟩ := List.findIdx?_eq_some_iff_getElem.mp executed
  rw [Bool.and_eq_true] at selected
  by_contra unreachable
  rw [Bool.not_eq_false, case_unreachable_iff inside new flagged] at unreachable
  rcases unreachable with start | isFalse | ⟨c, mem, closes⟩
  · cases start
  · cases guard : cases'[i].guard with
    | none =>
      rw [guard] at isFalse
      cases isFalse
    | some e =>
      rw [guard] at isFalse
      have holds := selected.2
      rw [guard] at holds
      change v.holds e = true at holds
      rw [v.inferredFalse e isFalse] at holds
      cases holds
  · obtain ⟨j, before, rfl⟩ := List.mem_take_iff_getElem.mp mem
    have earlier := Nat.lt_of_lt_of_le before (Nat.min_le_left _ _)
    have passed := first j earlier
    obtain ⟨pattern, guard⟩ := (closes_iff o _).mp closes
    have matched := v.irrefutable _ (isIrrefutable_of_alwaysTrue _ pattern)
    have holds : v.guardHolds cases'[j].guard = true := by
      rcases guard with h | ⟨e, h, isTrue⟩
      · rw [h]
        rfl
      · rw [h]
        exact v.inferredTrue e isTrue
    rw [matched, holds] at passed
    exact passed rfl

end Matches

/-- What the flags of every `if` statement and every `match` statement mean. The patterns known
to be irrefutable are captures, wildcards and the or-patterns with such an alternative. -/
theorem branchFlags_correct (o : Options) :
    (∀ test clauses,
      (ifFlags o test clauses).all.length = (chain test clauses).length + 1 ∧
      (∀ (v : Valuation o) flags,
        (ifFlags o test clauses).all[v.executed (chain test clauses)]? = some flags →
          flags.unreachable = false) ∧
      (∀ i flags, (inside : i < (chain test clauses).length) →
        (ifFlags o test clauses).all[i]? = some flags →
          (flags.unreachable = true ↔
            isAlwaysOrMypyFalse (inferConditionValue o (chain test clauses)[i]) = true
              ∨ trueBefore o (chain test clauses) i)) ∧
      (∀ flags, (ifFlags o test clauses).all[(chain test clauses).length]? = some flags →
        (flags.unreachable = true ↔
          trueBefore o (chain test clauses) (chain test clauses).length)) ∧
      ((ifFlags o test clauses).all.filter (·.mypyOnly)).length ≤ 1 ∧
      (∀ flags ∈ (ifFlags o test clauses).all,
        flags.mypyOnly = true → flags.unreachable = false) ∧
      (clauses.hasElse = false → (writesEmptyElse (ifFlags o test clauses) = true ↔
        trueBefore o (chain test clauses) (chain test clauses).length))) ∧
    (∀ cases' : List MatchCase,
      (new.caseFlags o cases').length = cases'.length ∧
      (∀ (v : Valuation o) i flags, v.executedCase cases' = some i →
        (new.caseFlags o cases')[i]? = some flags → flags.unreachable = false) ∧
      (∀ i flags, (inside : i < cases'.length) → (new.caseFlags o cases')[i]? = some flags →
        (flags.unreachable = true ↔
          isAlwaysOrMypyFalse (guardValue o cases'[i].guard) = true ∨
          ∃ c ∈ cases'.take i, inferPatternValue c.pattern = .alwaysTrue ∧
            (c.guard = none ∨ ∃ guard, c.guard = some guard ∧
              isAlwaysOrMypyTrue (inferConditionValue o guard) = true))) ∧
      (∀ flags ∈ new.caseFlags o cases', flags.mypyOnly = true → flags.unreachable = false)) := by
  constructor
  · intro test clauses
    refine ⟨ifFlags_length o test clauses, ?_, ?_, ?_, ?_, ?_, writesEmptyElse_iff⟩
    · intro v flags flagged
      rw [ifFlags_all] at flagged
      exact executed_reachable v flagged
    · intro i flags inside flagged
      rw [ifFlags_all] at flagged
      exact condition_unreachable_iff inside flagged
    · intro flags flagged
      rw [ifFlags_all] at flagged
      exact else_unreachable_iff flagged
    · rw [ifFlags_all]
      exact mypyOnly_unique _ _
    · intro flags mem
      rw [ifFlags_all] at mem
      exact mypyOnly_reachable mem
  · intro cases'
    refine ⟨caseFlags_length o new cases', fun v i flags => executedCase_reachable v, ?_,
      fun flags => case_mypyOnly_reachable new⟩
    intro i flags inside flagged
    rw [case_unreachable_iff inside new flagged]
    simp only [closes_iff, new, Bool.false_eq_true, false_or]

/-- With every irrefutable pattern in place of the recognised ones the rule for cases is false:
after `case (_ as x) if TYPE_CHECKING:` nothing is reached, and the next case is not flagged. -/
theorem as_wildcard_not_closing :
    ¬ ∀ (o : Options) (cases' : List MatchCase) (i : Nat) (flags : BranchFlags),
      (inside : i < cases'.length) → (new.caseFlags o cases')[i]? = some flags →
        (flags.unreachable = true ↔
          isAlwaysOrMypyFalse (guardValue o cases'[i].guard) = true ∨
          ∃ c ∈ cases'.take i, c.pattern.isIrrefutable = true ∧
            (c.guard = none ∨ ∃ guard, c.guard = some guard ∧
              isAlwaysOrMypyTrue (inferConditionValue o guard) = true)) := by
  intro claim
  let closing : MatchCase := .mk
    (.matchAs (some (.matchAs none none ⟨21, 22⟩)) (some ⟨"x", ⟨26, 27⟩⟩) ⟨21, 27⟩)
    (some (.name "TYPE_CHECKING" ⟨32, 45⟩)) [.pass ⟨47, 51⟩] ⟨15, 51⟩
  let next : MatchCase := .mk (.matchAs none none ⟨61, 62⟩) none [.pass ⟨64, 68⟩] ⟨56, 68⟩
  have rule := claim Options.default [closing, next] 1 ⟨false, false⟩ (by decide) rfl
  have flagged := rule.mpr (.inr ⟨closing, List.mem_cons_self, rfl, .inr ⟨_, rfl, rfl⟩⟩)
  cases flagged

end AstSerialize
