import AstSerialize.Reachability.Soundness
import AstSerialize.Logic.Kleene

/-! Conditions as formulas. As far as true and false go, the analysis is strong
Kleene logic over the conditions that are no `not`, `and` or `or`. -/
namespace AstSerialize
open Kleene

def TruthValue.verdict : TruthValue → Verdict
  | .alwaysTrue | .mypyTrue => some true
  | .alwaysFalse | .mypyFalse => some false
  | .unknown => none

theorem verdict_eq_true {truth : TruthValue} :
    truth.verdict = some true ↔ isAlwaysOrMypyTrue truth = true := by
  cases truth <;> decide

theorem verdict_eq_false {truth : TruthValue} :
    truth.verdict = some false ↔ isAlwaysOrMypyFalse truth = true := by
  cases truth <;> decide

theorem verdict_invert (truth : TruthValue) : truth.invert.verdict = truth.verdict.negate := by
  cases truth <;> rfl

section Junctions

variable {values : List TruthValue}

theorem mem_verdicts_true :
    some true ∈ values.map (·.verdict) ↔ .alwaysTrue ∈ values ∨ .mypyTrue ∈ values := by
  rw [List.mem_map]
  constructor
  · rintro ⟨truth, mem, eq⟩
    cases truth with
    | alwaysTrue => exact .inl mem
    | mypyTrue => exact .inr mem
    | alwaysFalse | mypyFalse | unknown => cases eq
  · rintro (mem | mem)
    · exact ⟨_, mem, rfl⟩
    · exact ⟨_, mem, rfl⟩

theorem mem_verdicts_false :
    some false ∈ values.map (·.verdict) ↔ .alwaysFalse ∈ values ∨ .mypyFalse ∈ values := by
  rw [List.mem_map]
  constructor
  · rintro ⟨truth, mem, eq⟩
    cases truth with
    | alwaysFalse => exact .inl mem
    | mypyFalse => exact .inr mem
    | alwaysTrue | mypyTrue | unknown => cases eq
  · rintro (mem | mem)
    · exact ⟨_, mem, rfl⟩
    · exact ⟨_, mem, rfl⟩

theorem verdicts_all_false : (∀ v ∈ values.map (·.verdict), v = some false) ↔
    .alwaysTrue ∉ values ∧ .mypyTrue ∉ values ∧ .unknown ∉ values := by
  rw [List.forall_mem_map]
  constructor
  · intro all
    refine ⟨fun mem => ?_, fun mem => ?_, fun mem => ?_⟩ <;> cases all _ mem
  · rintro ⟨noTrue, noMypy, noUnknown⟩ truth mem
    cases truth with
    | alwaysTrue => exact absurd mem noTrue
    | mypyTrue => exact absurd mem noMypy
    | unknown => exact absurd mem noUnknown
    | alwaysFalse | mypyFalse => rfl

theorem verdicts_all_true : (∀ v ∈ values.map (·.verdict), v = some true) ↔
    .alwaysFalse ∉ values ∧ .mypyFalse ∉ values ∧ .unknown ∉ values := by
  rw [List.forall_mem_map]
  constructor
  · intro all
    refine ⟨fun mem => ?_, fun mem => ?_, fun mem => ?_⟩ <;> cases all _ mem
  · rintro ⟨noFalse, noMypy, noUnknown⟩ truth mem
    cases truth with
    | alwaysFalse => exact absurd mem noFalse
    | mypyFalse => exact absurd mem noMypy
    | unknown => exact absurd mem noUnknown
    | alwaysTrue | mypyTrue => rfl

theorem verdict_combineBoolOp (op : BoolOp) (values : List TruthValue) :
    (combineBoolOp op values).verdict
      = Verdict.junction (op = .or) (values.map (·.verdict)) := by
  symm
  cases op with
  | or =>
    apply Verdict.junction_ext
    · change _ = some true ↔ some true ∈ _
      rw [mem_verdicts_true, combineBoolOp]
      grind [TruthValue.verdict]
    · change _ = some false ↔ ∀ v ∈ _, v = some false
      rw [verdicts_all_false, combineBoolOp]
      grind [TruthValue.verdict]
  | and =>
    apply Verdict.junction_ext
    · change _ = some false ↔ some false ∈ _
      rw [mem_verdicts_false, combineBoolOp]
      grind [TruthValue.verdict]
    · change _ = some true ↔ ∀ v ∈ _, v = some true
      rw [verdicts_all_true, combineBoolOp]
      grind [TruthValue.verdict]

end Junctions

mutual

/-- The formula of a condition. -/
def condition : Expr → Formula Expr
  | .unaryOp .not operand _ => .not (condition operand)
  | .boolOp op values _ => .junction (op = .or) (conditions values)
  | expr => .atom expr

def conditions : List Expr → List (Formula Expr)
  | [] => []
  | value :: values => condition value :: conditions values

end

def Expr.isJunction : Expr → Bool
  | .unaryOp .not _ _ | .boolOp _ _ _ => true
  | _ => false

/-- What the analysis says of a condition that is no formula of others. -/
def atomVerdict (o : Options) (expr : Expr) : Verdict :=
  if expr.isJunction then none else (inferConditionValue o expr).verdict

mutual

theorem verdict_inferConditionValue (o : Options) : ∀ expr : Expr,
    (inferConditionValue o expr).verdict = (condition expr).verdict (atomVerdict o)
  | .unaryOp .not operand range => by
    rw [inferConditionValue, verdict_invert, verdict_inferConditionValue o operand]
    rfl
  | .boolOp op values range => by
    rw [inferConditionValue, verdict_combineBoolOp, verdict_inferConditionValues o values]
    rfl
  | .unaryOp .invert _ _ | .unaryOp .uAdd _ _ | .unaryOp .uSub _ _ | .named _ _ _
  | .binOp _ _ _ _ | .lambda _ _ _ | .ifExp _ _ _ _ | .dict _ _ | .set _ _ | .listComp _ _ _
  | .setComp _ _ _ | .dictComp _ _ _ _ | .generator _ _ _ | .await _ _ | .yield _ _
  | .yieldFrom _ _ | .compare _ _ _ _ | .call _ _ _ _ | .fString _ _ | .tString _ _
  | .stringLiteral _ _ | .bytesLiteral _ _ | .numberLiteral _ _ | .booleanLiteral _ _
  | .noneLiteral _ | .ellipsisLiteral _ | .attribute _ _ _ | .subscript _ _ _ | .starred _ _
  | .name _ _ | .list _ _ _ | .tuple _ _ _ | .slice _ _ _ _ | .ipyEscapeCommand _ => rfl

theorem verdict_inferConditionValues (o : Options) : ∀ values : List Expr,
    (inferConditionValues o values).map (·.verdict)
      = Formula.verdicts (atomVerdict o) (conditions values)
  | [] => rfl
  | value :: values => by
    rw [inferConditionValues, List.map_cons, verdict_inferConditionValue o value,
      verdict_inferConditionValues o values]
    rfl

end

end AstSerialize
