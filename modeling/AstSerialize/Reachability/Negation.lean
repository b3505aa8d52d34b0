import AstSerialize.Reachability.Verdict
import AstSerialize.Reachability.Chain

/-! Negations pushed inwards. De Morgan's rules and the negation of comparisons
change no condition, as far as the analysis decides it. -/
namespace AstSerialize
open Kleene IfReachabilityAnalyzer

def negateCmpOp : CmpOp → CmpOp
  | .eq => .notEq
  | .notEq => .eq
  | .lt => .gtE
  | .ltE => .gt
  | .gt => .ltE
  | .gtE => .lt
  | .is => .isNot
  | .isNot => .is
  | .in => .notIn
  | .notIn => .in

def dualBoolOp : BoolOp → BoolOp
  | .and => .or
  | .or => .and

mutual

/-- The condition, or its negation, with `not` at no `not`, `and`, `or` and single comparison. -/
def pushNot (negated : Bool) : Expr → Expr
  | .unaryOp .not operand _ => pushNot (!negated) operand
  | .boolOp op values range =>
    .boolOp (if negated then dualBoolOp op else op) (pushNots negated values) range
  | .compare left [op] [right] range =>
    .compare left [if negated then negateCmpOp op else op] [right] range
  | expr => if negated then .unaryOp .not expr expr.range else expr

def pushNots (negated : Bool) : List Expr → List Expr
  | [] => []
  | value :: values => pushNot negated value :: pushNots negated values

end

section Comparisons

variable (o : Options)

theorem negate_standard (op : CmpOp) :
    isStandardComparison (negateCmpOp op) = isStandardComparison op := by
  cases op <;> rfl

theorem reverse_negate (op : CmpOp) :
    reverseCmpOp (negateCmpOp op) = negateCmpOp (reverseCmpOp op) := by
  cases op <;> rfl

theorem holdsOf_negate {op : CmpOp} (standard : isStandardComparison op = true)
    (order : Ordering) : holdsOf (negateCmpOp op) order = !holdsOf op order := by
  cases op <;> cases order <;> first | rfl | cases standard

theorem invert_ofBool (b : Bool) : (ofBool b).invert = ofBool !b := by
  cases b <;> rfl

theorem fixedComparison_negate {α : Type} [DecidableEq α] [LT α] [DecidableLT α]
    {order : Ordering} {left right : α} (orderOf : OrderOf order left right) {op : CmpOp}
    (standard : isStandardComparison op = true) :
    fixedComparison left (negateCmpOp op) right = (fixedComparison left op right).invert := by
  have standard' := (negate_standard op).trans standard
  rw [fixedComparison_eq orderOf op standard, fixedComparison_eq orderOf _ standard',
    holdsOf_negate standard, invert_ofBool]

theorem compareVersionSlice_negate (lo hi : Int) {op : CmpOp}
    (standard : isStandardComparison op = true) (target : List Int) :
    compareVersionSlice o lo hi (negateCmpOp op) target
      = (compareVersionSlice o lo hi op target).invert := by
  have ordering : (negateCmpOp op ≠ .eq ∧ negateCmpOp op ≠ .notEq) ↔ (op ≠ .eq ∧ op ≠ .notEq) := by
    cases op <;> decide
  unfold compareVersionSlice
  cases versionSlice o lo hi with
  | none => rfl
  | some version =>
    obtain ⟨order, -, orderOf⟩ := orders_ints version target
    simp only [ordering]
    split
    · exact fixedComparison_negate orderOf standard
    · rfl

theorem compareVersion_negate (index : SysVersionInfo) {op : CmpOp}
    (standard : isStandardComparison op = true) (thing : IntOrTuple) :
    compareVersion o index (negateCmpOp op) thing = (compareVersion o index op thing).invert := by
  cases index with
  | whole =>
    cases thing with
    | int value => rfl
    | tuple target => exact compareVersionSlice_negate o 0 2 standard target
  | slice lower upper =>
    cases thing with
    | int value => rfl
    | tuple target => exact compareVersionSlice_negate o _ _ standard target
  | index i =>
    cases thing with
    | tuple target => rfl
    | int value =>
      simp only [compareVersion]
      split
      · exact fixedComparison_negate (orderOf_int _ _) standard
      · rfl

variable (left right : Expr) (op : CmpOp) (range : TextRange)

theorem considerSysVersionInfo_negate :
    considerSysVersionInfo o (.compare left [negateCmpOp op] [right] range)
      = (considerSysVersionInfo o (.compare left [op] [right] range)).invert := by
  simp only [considerSysVersionInfo, negate_standard]
  cases standard : isStandardComparison op with
  | false => rfl
  | true =>
    simp only [if_true]
    split
    · exact compareVersion_negate o _ standard _
    · split
      · rw [reverse_negate]
        exact compareVersion_negate o _ (reverse_standard standard) _
      · rfl

theorem considerSysPlatform_negate :
    considerSysPlatform o (.compare left [negateCmpOp op] [right] range)
      = (considerSysPlatform o (.compare left [op] [right] range)).invert := by
  simp only [considerSysPlatform]
  cases isSysAttr "platform" left with
  | false => rfl
  | true =>
    simp only [if_true]
    cases op with
    | lt | ltE | gt | gtE | is | isNot => rfl
    | eq | notEq =>
      cases right with
      | stringLiteral parts range =>
        simp [negateCmpOp, fixedComparison, invert_ofBool]
      | _ => rfl
    | «in» | notIn =>
      simp only [negateCmpOp]
      cases stringLiteralContainerContains o.platform right with
      | none => rfl
      | some result => cases result <;> rfl

theorem infer_compare_negate :
    inferConditionValue o (.compare left [negateCmpOp op] [right] range)
      = (inferConditionValue o (.compare left [op] [right] range)).invert := by
  simp only [inferConditionValue, considerSysVersionInfo_negate, considerSysPlatform_negate]
  cases considerSysVersionInfo o (.compare left [op] [right] range) <;> rfl

end Comparisons

section Conditions

variable (o : Options)

/-- A verdict, or its negation. -/
def polar (negated : Bool) (v : Verdict) : Verdict := if negated then v.negate else v

theorem negate_negate (v : Verdict) : v.negate.negate = v := by
  cases v with
  | none => rfl
  | some b => cases b <;> rfl

theorem polar_not (negated : Bool) (v : Verdict) : polar (!negated) v = polar negated v.negate := by
  cases negated with
  | false => rfl
  | true => exact (negate_negate v).symm

theorem polar_junction (negated : Bool) (op : BoolOp) (vs : List Verdict) :
    Verdict.junction ((if negated then dualBoolOp op else op) = .or) (vs.map (polar negated))
      = polar negated (Verdict.junction (op = .or) vs) := by
  cases negated with
  | false =>
    have same : vs.map (polar false) = vs := List.map_id'' (fun _ => rfl) vs
    rw [same]
    rfl
  | true =>
    have dual : decide (dualBoolOp op = .or) = !decide (op = .or) := by
      cases op <;> rfl
    change Verdict.junction (decide (dualBoolOp op = .or)) (vs.map Verdict.negate) = _
    rw [dual, ← Verdict.negate_junction]
    rfl

theorem verdict_atom (negated : Bool) (expr : Expr) (range : TextRange) :
    (inferConditionValue o (if negated then .unaryOp .not expr range else expr)).verdict
      = polar negated (inferConditionValue o expr).verdict := by
  cases negated with
  | false => rfl
  | true => exact verdict_invert _

mutual

theorem verdict_pushNot (negated : Bool) : ∀ expr : Expr,
    (inferConditionValue o (pushNot negated expr)).verdict
      = polar negated (inferConditionValue o expr).verdict
  | .unaryOp .not operand range => by
    rw [pushNot, verdict_pushNot (!negated) operand, polar_not, ← verdict_invert]
    rfl
  | .boolOp op values range => by
    rw [pushNot, inferConditionValue, verdict_combineBoolOp, verdict_pushNots negated values,
      polar_junction, ← verdict_combineBoolOp]
    rfl
  | .compare left [op] [right] range => by
    cases negated with
    | false => rfl
    | true =>
      change (inferConditionValue o (.compare left [negateCmpOp op] [right] range)).verdict = _
      rw [infer_compare_negate]
      exact verdict_invert _
  | .compare _ [] _ _ | .compare _ [_] [] _ | .compare _ [_] (_ :: _ :: _) _
  | .compare _ (_ :: _ :: _) _ _
  | .unaryOp .invert _ _ | .unaryOp .uAdd _ _ | .unaryOp .uSub _ _ | .named _ _ _
  | .binOp _ _ _ _ | .lambda _ _ _ | .ifExp _ _ _ _ | .dict _ _ | .set _ _ | .listComp _ _ _
  | .setComp _ _ _ | .dictComp _ _ _ _ | .generator _ _ _ | .await _ _ | .yield _ _
  | .yieldFrom _ _ | .call _ _ _ _ | .fString _ _ | .tString _ _
  | .stringLiteral _ _ | .bytesLiteral _ _ | .numberLiteral _ _ | .booleanLiteral _ _
  | .noneLiteral _ | .ellipsisLiteral _ | .attribute _ _ _ | .subscript _ _ _ | .starred _ _
  | .name _ _ | .list _ _ _ | .tuple _ _ _ | .slice _ _ _ _ | .ipyEscapeCommand _ =>
    verdict_atom o negated _ _

theorem verdict_pushNots (negated : Bool) : ∀ values : List Expr,
    (inferConditionValues o (pushNots negated values)).map (·.verdict)
      = ((inferConditionValues o values).map (·.verdict)).map (polar negated)
  | [] => rfl
  | value :: values => by
    rw [pushNots, inferConditionValues, inferConditionValues, List.map_cons, List.map_cons,
      List.map_cons, verdict_pushNot negated value, verdict_pushNots negated values]

end

end Conditions

section Chains

variable {o : Options}

/-- The clauses with each condition in the other form. -/
def pushClauses : ElifElseClauses → ElifElseClauses
  | .nil => .nil
  | .elif test body range rest => .elif (pushNot false test) body range (pushClauses rest)
  | .else body range => .else body range

theorem pushClauses_conditions : ∀ clauses : ElifElseClauses,
    (pushClauses clauses).conditions = clauses.conditions.map (pushNot false)
  | .nil => rfl
  | .elif test _ _ rest => congrArg (pushNot false test :: ·) (pushClauses_conditions rest)
  | .else _ _ => rfl

/-- Which blocks of a chain are unreachable depends on the verdicts of its conditions. -/
theorem unreachable_congr {before before' truths truths' : List TruthValue}
    (seen : before.any isAlwaysOrMypyTrue = before'.any isAlwaysOrMypyTrue)
    (same : truths.map (·.verdict) = truths'.map (·.verdict)) :
    (flagsFrom before truths).map (·.unreachable)
      = (flagsFrom before' truths').map (·.unreachable) := by
  induction truths generalizing before before' truths' with
  | nil =>
    cases truths' with
    | nil => exact congrArg (· :: []) seen
    | cons truth' rest' => cases same
  | cons truth rest ih =>
    cases truths' with
    | nil => cases same
    | cons truth' rest' =>
      obtain ⟨first, later⟩ := List.cons.inj same
      have here : truth.verdict = truth'.verdict := first
      have isTrue : isAlwaysOrMypyTrue truth = isAlwaysOrMypyTrue truth' := by
        rw [Bool.eq_iff_iff, ← verdict_eq_true, ← verdict_eq_true, here]
      have isFalse : isAlwaysOrMypyFalse truth = isAlwaysOrMypyFalse truth' := by
        rw [Bool.eq_iff_iff, ← verdict_eq_false, ← verdict_eq_false, here]
      rw [flagsFrom, flagsFrom, List.map_cons, List.map_cons]
      congr 1
      · simp only [flagsAfter, seen, isFalse]
      · apply ih _ later
        simp only [List.any_append, List.any_cons, List.any_nil, seen, isTrue]

/-- Negations can be pushed inwards in every condition, and in all the conditions of a chain,
without a change to what is decided and to what is unreachable. -/
theorem pushNot_unreachable (o : Options) :
    (∀ expr, (inferConditionValue o (pushNot false expr)).verdict
      = (inferConditionValue o expr).verdict) ∧
    (∀ expr, (inferConditionValue o (pushNot true expr)).verdict
      = (inferConditionValue o expr).verdict.negate) ∧
    ∀ test clauses,
      (ifFlags o (pushNot false test) (pushClauses clauses)).all.map (·.unreachable)
        = (ifFlags o test clauses).all.map (·.unreachable) := by
  refine ⟨verdict_pushNot o false, verdict_pushNot o true, ?_⟩
  intro test clauses
  rw [ifFlags_all, ifFlags_all]
  apply unreachable_congr rfl
  rw [chain, chain, pushClauses_conditions, List.map_map, List.map_map]
  change List.map _ (List.map (pushNot false) (test :: clauses.conditions)) = _
  rw [List.map_map]
  apply List.map_congr_left
  intro expr _
  exact verdict_pushNot o false expr

end Chains

end AstSerialize
