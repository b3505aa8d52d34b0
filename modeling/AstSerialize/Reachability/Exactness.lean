import AstSerialize.Reachability.Verdict

/-! What the analysis can decide. Of a condition in which each open name occurs
once, it knows everything that holds in all worlds. -/
namespace AstSerialize
open Kleene

section Worlds

variable {o : Options} {w : World}

/-- Names are the same wherever they occur. -/
def atomKey : Expr → String ⊕ Expr
  | .name id _ => .inl id
  | expr => .inr expr

def keyVerdict (o : Options) : String ⊕ Expr → Verdict
  | .inl id => (checkNameTruthValue o id).verdict
  | .inr expr => atomVerdict o expr

/-- The condition over names and other expressions. -/
def keyed (expr : Expr) : Formula (String ⊕ Expr) := (condition expr).map atomKey

theorem atomVerdict_eq (o : Options) (expr : Expr) :
    atomVerdict o expr = keyVerdict o (atomKey expr) := by
  cases expr with
  | name id range => rfl
  | _ => rfl

theorem verdict_keyed (o : Options) (expr : Expr) :
    (inferConditionValue o expr).verdict = (keyed expr).verdict (keyVerdict o) := by
  rw [verdict_inferConditionValue, keyed, Formula.verdict_map]
  congr 1
  exact funext (atomVerdict_eq o)

theorem checkName_verdict (o : Options) (name : String) :
    (checkNameTruthValue o name).verdict = nameTruth o name := by
  unfold checkNameTruthValue nameTruth
  simp only [List.mem_cons, List.not_mem_nil, or_false]
  by_cases mypy : name = "MYPY" ∨ name = "TYPE_CHECKING"
  · rw [if_pos mypy, if_pos (mypy.elim Or.inl fun h => .inr (.inl h))]
    rfl
  · rw [if_neg mypy]
    rw [not_or] at mypy
    by_cases py2 : name = "PY2"
    · subst py2
      rfl
    · rw [if_neg py2, if_neg py2]
      by_cases py3 : name = "PY3"
      · subst py3
        rfl
      · have special : ¬ (name = "MYPY" ∨ name = "TYPE_CHECKING" ∨ name = "PY3") := by
          rintro (h | h | h)
          · exact mypy.1 h
          · exact mypy.2 h
          · exact py3 h
        rw [if_neg py3, if_neg special]
        split
        · rfl
        · split <;> rfl

/-- The value of a name or an expression; where evaluation raises it is what is known. -/
def keyValue (o : Options) (w : World) : String ⊕ Expr → Bool
  | .inl id => (w.name id).truthy
  | .inr expr => ((w.eval expr).map (·.truthy)).getD ((atomVerdict o expr).getD true)

theorem keyValue_extends (major : componentFits o.pythonVersion.1 = true)
    (minor : componentFits o.pythonVersion.2 = true) (consistent : Consistent o w) :
    Formula.Extends (keyVerdict o) (keyValue o w) := by
  intro key b known
  cases key with
  | inl id =>
    rw [keyVerdict, checkName_verdict] at known
    exact consistent.names id b known
  | inr expr =>
    rw [keyVerdict] at known
    rw [keyValue, known]
    cases eval : w.eval expr with
    | none => rfl
    | some value =>
      have sound := soundAt_of_fits consistent expr (versionFits_of_fits major minor expr) value eval
      have decided : (inferConditionValue o expr).verdict = some b := by
        rw [atomVerdict] at known
        split at known
        · cases known
        · exact known
      cases b with
      | true => exact sound.1 (verdict_eq_true.mp decided)
      | false => exact sound.2 (verdict_eq_false.mp decided)

theorem keyValue_atomKey (o : Options) (w : World) (expr : Expr) : keyValue o w (atomKey expr)
    = ((w.eval expr).map (·.truthy)).getD ((atomVerdict o expr).getD true) := by
  cases expr with
  | name id range => rfl
  | _ => rfl

/-- The value of the condition is that of its formula. -/
def Evaluates (o : Options) (w : World) (expr : Expr) : Prop :=
  ∃ value, w.eval expr = some value ∧ value.truthy = (keyed expr).holds (keyValue o w)

theorem evaluates_atom (o : Options) (w : World) {expr : Expr} (plain : plainCalls expr = true)
    (atom : condition expr = .atom expr) : Evaluates o w expr := by
  obtain ⟨value, eval⟩ := Option.isSome_iff_exists.mp (eval_isSome w expr plain)
  refine ⟨value, eval, ?_⟩
  rw [keyed, atom]
  change _ = keyValue o w (atomKey expr)
  rw [keyValue_atomKey, eval]
  rfl

mutual

theorem evaluates (o : Options) (w : World) : ∀ expr : Expr, plainCalls expr = true →
    Evaluates o w expr
  | .unaryOp .not operand range, plain => by
    obtain ⟨value, eval, truth⟩ := evaluates o w operand plain
    refine ⟨.bool !value.truthy, ?_, congrArg (!·) truth⟩
    rw [World.eval, eval]
    rfl
  | .boolOp op values range, plain => evaluates_values o w op values plain
  | .unaryOp .invert _ _, plain | .unaryOp .uAdd _ _, plain | .unaryOp .uSub _ _, plain
  | .named _ _ _, plain | .binOp _ _ _ _, plain | .lambda _ _ _, plain | .ifExp _ _ _ _, plain
  | .dict _ _, plain | .set _ _, plain | .listComp _ _ _, plain | .setComp _ _ _, plain
  | .dictComp _ _ _ _, plain | .generator _ _ _, plain | .await _ _, plain | .yield _ _, plain
  | .yieldFrom _ _, plain | .compare _ _ _ _, plain | .call _ _ _ _, plain | .fString _ _, plain
  | .tString _ _, plain | .stringLiteral _ _, plain | .bytesLiteral _ _, plain
  | .numberLiteral _ _, plain | .booleanLiteral _ _, plain | .noneLiteral _, plain
  | .ellipsisLiteral _, plain | .attribute _ _ _, plain | .subscript _ _ _, plain
  | .starred _ _, plain | .name _ _, plain | .list _ _ _, plain | .tuple _ _ _, plain
  | .slice _ _ _ _, plain | .ipyEscapeCommand _, plain => evaluates_atom o w plain rfl

/-- An operator stops at the first operand that decides. -/
theorem evaluates_values (o : Options) (w : World) (op : BoolOp) : ∀ values : List Expr,
    allPlainCalls values = true → ∃ value, w.evalBool op values = some value ∧
      value.truthy = (Formula.junction (op = .or) (Formula.mapAll atomKey (conditions values))).holds
        (keyValue o w)
  | [], _ => by
    cases op with
    | and => exact ⟨_, rfl, rfl⟩
    | or => exact ⟨_, rfl, rfl⟩
  | [value], plain => by
    rw [allPlainCalls, Bool.and_eq_true] at plain
    obtain ⟨result, eval, truth⟩ := evaluates o w value plain.1
    refine ⟨result, eval, ?_⟩
    rw [conditions, Formula.mapAll, Formula.holds_junction_cons, conditions, Formula.mapAll,
      Formula.holds_junction_nil, truth]
    change (keyed value).holds _ = if (keyed value).holds _ = _ then _ else _
    cases (keyed value).holds (keyValue o w) <;> cases op <;> rfl
  | value :: next :: values, plain => by
    rw [allPlainCalls, Bool.and_eq_true] at plain
    obtain ⟨result, eval, truth⟩ := evaluates o w value plain.1
    obtain ⟨later, evalRest, truthRest⟩ := evaluates_values o w op (next :: values) plain.2
    rw [World.evalBool_cons, eval, Option.bind_some, conditions, Formula.mapAll,
      Formula.holds_junction_cons]
    change ∃ _, _ ∧ _ = if (keyed value).holds _ = _ then _ else _
    rw [← truth]
    by_cases decides : result.truthy = decide (op = .or)
    · rw [if_pos decides, if_pos decides]
      exact ⟨result, rfl, decides⟩
    · rw [if_neg decides, if_neg decides]
      exact ⟨later, evalRest, truthRest⟩

end

end Worlds

section Exact

variable {o : Options}

/-- What is open in the condition are names, and no name is open twice. -/
structure ReadsOnce (o : Options) (expr : Expr) : Prop where
  once : ((keyed expr).opens (keyVerdict o)).Nodup
  names : ∀ key ∈ (keyed expr).opens (keyVerdict o), key.isLeft = true

/-- A world in which the names that the options leave open have the given values. -/
def worldWith (o : Options) (σ : String → Bool) : World :=
  { worldOf o with name := fun id => .other ((nameTruth o id).getD (σ id)) }

theorem consistent_worldWith (clear : contradictory o = false) (σ : String → Bool) :
    Consistent o (worldWith o σ) where
  names := by
    intro name b listed
    change (nameTruth o name).getD (σ name) = b
    rw [listed]
    rfl
  attributes := (consistent_worldOf clear).attributes
  version := (consistent_worldOf clear).version
  platform := (consistent_worldOf clear).platform

/-- Where each open name occurs once, the analysis knows whether a condition is true in all worlds
that agree with the options, and whether it is false in all of them. -/
theorem inferConditionValue_exact (o : Options) (major : componentFits o.pythonVersion.1 = true)
    (minor : componentFits o.pythonVersion.2 = true) (clear : contradictory o = false)
    (expr : Expr) (plain : plainCalls expr = true) (reads : ReadsOnce o expr) :
    (isAlwaysOrMypyTrue (inferConditionValue o expr) = true ↔
      ∀ w value, Consistent o w → World.eval w expr = some value → value.truthy = true) ∧
    (isAlwaysOrMypyFalse (inferConditionValue o expr) = true ↔
      ∀ w value, Consistent o w → World.eval w expr = some value → value.truthy = false) := by
  have exact (b : Bool) : (inferConditionValue o expr).verdict = some b ↔
      ∀ w value, Consistent o w → World.eval w expr = some value → value.truthy = b := by
    classical
    rw [verdict_keyed, Formula.verdict_eq_some_iff reads.once]
    constructor
    · intro all w value consistent eval
      obtain ⟨value', eval', truth⟩ := evaluates o w expr plain
      rw [eval] at eval'
      obtain rfl := Option.some.inj eval'
      exact truth.trans (all _ (keyValue_extends major minor consistent))
    · intro all σ extend
      have consistent := consistent_worldWith clear fun id => σ (.inl id)
      obtain ⟨value, eval, truth⟩ := evaluates o (worldWith o fun id => σ (.inl id)) expr plain
      rw [← all _ value consistent eval, truth]
      apply Formula.holds_congr extend (keyValue_extends major minor consistent)
      intro key mem
      cases key with
      | inr expr => cases reads.names _ mem
      | inl id =>
        change σ (.inl id) = (nameTruth o id).getD (σ (.inl id))
        cases known : nameTruth o id with
        | none => rfl
        | some b => exact extend (.inl id) b ((checkName_verdict o id).trans known)
  exact ⟨verdict_eq_true.symm.trans (exact true), verdict_eq_false.symm.trans (exact false)⟩

/-- `TYPE_CHECKING and DEBUG`. -/
def debugChecked : Expr :=
  .boolOp .and [.name "TYPE_CHECKING" ⟨0, 13⟩, .name "DEBUG" ⟨18, 23⟩] ⟨0, 23⟩

theorem inferConditionValue_exact_debug :
    (isAlwaysOrMypyTrue (inferConditionValue .default debugChecked) = true ↔
      ∀ w value, Consistent .default w → World.eval w debugChecked = some value →
        value.truthy = true) ∧
    (isAlwaysOrMypyFalse (inferConditionValue .default debugChecked) = true ↔
      ∀ w value, Consistent .default w → World.eval w debugChecked = some value →
        value.truthy = false) :=
  have opens : (keyed debugChecked).opens (keyVerdict .default) = [.inl "DEBUG"] := rfl
  inferConditionValue_exact .default rfl rfl rfl debugChecked rfl
    ⟨by rw [opens]; exact List.nodup_singleton _, by rw [opens]; decide⟩

/-- A name that occurs twice is taken for two. -/
example : inferConditionValue .default
    (.boolOp .or [.name "X" ⟨0, 1⟩, .unaryOp .not (.name "X" ⟨9, 10⟩) ⟨5, 10⟩] ⟨0, 10⟩)
      = .unknown := rfl

end Exact

end AstSerialize
