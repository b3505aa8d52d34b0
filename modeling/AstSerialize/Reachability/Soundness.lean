import AstSerialize.Reachability.World
import Mathlib.Order.Compare
import Mathlib.Data.Int.Order.Basic

/-! Condition inference is sound in every consistent world as long as the
components of the version survive the cast to `i32`. -/
namespace AstSerialize

@[simp] theorem truthy_bool (b : Bool) : (PyValue.bool b).truthy = b := rfl

theorem agrees_unknown (value : PyValue) : Agrees .unknown value := by
  constructor <;> intro h <;> cases h

theorem agrees_ofBool (b : Bool) : Agrees (ofBool b) (.bool b) := by
  cases b
  · exact ⟨fun h => (by cases h), fun _ => rfl⟩
  · exact ⟨fun _ => rfl, fun h => (by cases h)⟩

theorem agrees_invert {truth : TruthValue} {value : PyValue} (agrees : Agrees truth value) :
    Agrees truth.invert (.bool !value.truthy) := by
  obtain ⟨positive, negative⟩ := agrees
  cases truth with
  | alwaysTrue | mypyTrue =>
    have holds := positive rfl
    exact ⟨fun h => (by cases h), fun _ => (by rw [truthy_bool, holds]; rfl)⟩
  | alwaysFalse | mypyFalse =>
    have fails := negative rfl
    exact ⟨fun _ => (by rw [truthy_bool, fails]; rfl), fun h => (by cases h)⟩
  | unknown => exact agrees_unknown _

section Names

theorem checkNameTruthValue_true {o : Options} {name : String}
    (isTrue : isAlwaysOrMypyTrue (checkNameTruthValue o name) = true) :
    nameTruth o name = some true := by
  unfold checkNameTruthValue at isTrue
  unfold nameTruth
  split at isTrue
  case isTrue special => rw [if_pos (by rcases special with rfl | rfl <;> simp)]
  case isFalse =>
    split at isTrue
    · cases isTrue
    case isFalse =>
      split at isTrue
      case isTrue special => rw [if_pos (by simp [special])]
      case isFalse =>
        split at isTrue
        case isTrue listed =>
          simp_all
        case isFalse => split at isTrue <;> cases isTrue

theorem checkNameTruthValue_false {o : Options} {name : String}
    (isFalse : isAlwaysOrMypyFalse (checkNameTruthValue o name) = true) :
    nameTruth o name = some false := by
  unfold checkNameTruthValue at isFalse
  unfold nameTruth
  split at isFalse
  · cases isFalse
  case isFalse =>
    split at isFalse
    case isTrue special =>
      subst name
      rfl
    case isFalse =>
      split at isFalse
      · cases isFalse
      case isFalse =>
        split at isFalse
        · cases isFalse
        case isFalse =>
          split at isFalse
          case isTrue listed => simp_all
          case isFalse => cases isFalse

theorem agrees_name {o : Options} {name : String} {value : PyValue}
    (told : ∀ b, nameTruth o name = some b → value.truthy = b) :
    Agrees (checkNameTruthValue o name) value :=
  ⟨fun h => told true (checkNameTruthValue_true h), fun h => told false (checkNameTruthValue_false h)⟩

end Names

section BoolOps

theorem combineBoolOp_or_true {values : List TruthValue}
    (h : isAlwaysOrMypyTrue (combineBoolOp .or values) = true) :
    ∃ truth ∈ values, isAlwaysOrMypyTrue truth = true := by
  simp only [combineBoolOp] at h
  split at h
  case isTrue has => exact ⟨_, has, rfl⟩
  case isFalse =>
    split at h
    case isTrue has => exact ⟨_, has, rfl⟩
    case isFalse =>
      split at h
      · cases h
      · split at h <;> cases h

theorem combineBoolOp_or_false {values : List TruthValue}
    (h : isAlwaysOrMypyFalse (combineBoolOp .or values) = true) :
    ∀ truth ∈ values, isAlwaysOrMypyFalse truth = true := by
  simp only [combineBoolOp] at h
  intro truth mem
  split at h
  · cases h
  case isFalse noTrue =>
    split at h
    · cases h
    case isFalse noMypyTrue =>
      have noUnknown : TruthValue.unknown ∉ values := by
        intro unknown
        simp [unknown, isAlwaysOrMypyFalse] at h
      cases truth with
      | alwaysTrue => exact absurd mem noTrue
      | mypyTrue => exact absurd mem noMypyTrue
      | alwaysFalse => rfl
      | mypyFalse => rfl
      | unknown => exact absurd mem noUnknown

theorem combineBoolOp_and_false {values : List TruthValue}
    (h : isAlwaysOrMypyFalse (combineBoolOp .and values) = true) :
    ∃ truth ∈ values, isAlwaysOrMypyFalse truth = true := by
  simp only [combineBoolOp] at h
  split at h
  case isTrue has => exact ⟨_, has, rfl⟩
  case isFalse =>
    split at h
    case isTrue has => exact ⟨_, has, rfl⟩
    case isFalse =>
      split at h
      · cases h
      · split at h <;> cases h

theorem combineBoolOp_and_true {values : List TruthValue}
    (h : isAlwaysOrMypyTrue (combineBoolOp .and values) = true) :
    ∀ truth ∈ values, isAlwaysOrMypyTrue truth = true := by
  simp only [combineBoolOp] at h
  intro truth mem
  split at h
  · cases h
  case isFalse noFalse =>
    split at h
    · cases h
    case isFalse noMypyFalse =>
      have noUnknown : TruthValue.unknown ∉ values := by
        intro unknown
        simp [unknown, isAlwaysOrMypyTrue] at h
      cases truth with
      | alwaysTrue => rfl
      | mypyTrue => rfl
      | alwaysFalse => exact absurd mem noFalse
      | mypyFalse => exact absurd mem noMypyFalse
      | unknown => exact absurd mem noUnknown

variable {o : Options} {w : World}

/-- An operand that decides the operator decides the whole, whatever comes before it. -/
theorem evalBool_decided (op : BoolOp) (values : List Expr) (e : Expr) (mem : e ∈ values)
    (decides : ∀ v, w.eval e = some v → v.truthy = decide (op = .or)) (value : PyValue)
    (h : w.evalBool op values = some value) : value.truthy = decide (op = .or) := by
  induction values with
  | nil => exact absurd mem List.not_mem_nil
  | cons first rest ih =>
    cases rest with
    | nil =>
      obtain rfl : e = first := List.mem_singleton.mp mem
      exact decides value h
    | cons next rest =>
      rw [World.evalBool_cons, Option.bind_eq_some_iff] at h
      obtain ⟨v, hv, h⟩ := h
      split at h
      case isTrue stops =>
        cases h
        exact stops
      case isFalse continues =>
        rcases List.mem_cons.mp mem with rfl | mem
        · exact absurd (decides v hv) continues
        · exact ih mem h

/-- Where no operand decides, the last one is the result. -/
theorem evalBool_undecided (op : BoolOp) (values : List Expr)
    (undecided : ∀ e ∈ values, ∀ v, w.eval e = some v → v.truthy = !decide (op = .or))
    (value : PyValue) (h : w.evalBool op values = some value) :
    value.truthy = !decide (op = .or) := by
  induction values with
  | nil =>
    cases h
    cases op <;> rfl
  | cons first rest ih =>
    cases rest with
    | nil => exact undecided first List.mem_cons_self value h
    | cons next rest =>
      rw [World.evalBool_cons, Option.bind_eq_some_iff] at h
      obtain ⟨v, hv, h⟩ := h
      have firstValue := undecided first List.mem_cons_self v hv
      rw [firstValue, if_neg (by cases op <;> decide)] at h
      exact ih (fun e he => undecided e (List.mem_cons_of_mem first he)) h

theorem mem_inferConditionValues {truth : TruthValue} {values : List Expr}
    (mem : truth ∈ inferConditionValues o values) :
    ∃ e ∈ values, inferConditionValue o e = truth := by
  induction values with
  | nil => exact absurd mem List.not_mem_nil
  | cons e values ih =>
    rw [inferConditionValues] at mem
    rcases List.mem_cons.mp mem with rfl | mem
    · exact ⟨e, List.mem_cons_self, rfl⟩
    · obtain ⟨d, hd, eq⟩ := ih mem
      exact ⟨d, List.mem_cons_of_mem e hd, eq⟩

theorem inferConditionValues_mem {e : Expr} {values : List Expr} (mem : e ∈ values) :
    inferConditionValue o e ∈ inferConditionValues o values := by
  induction values with
  | nil => exact absurd mem List.not_mem_nil
  | cons d values ih =>
    rw [inferConditionValues]
    rcases List.mem_cons.mp mem with rfl | mem
    · exact List.mem_cons_self
    · exact List.mem_cons_of_mem _ (ih mem)

theorem soundAt_boolOp (op : BoolOp) (values : List Expr) (range : TextRange)
    (sound : ∀ e ∈ values, SoundAt o w e) : SoundAt o w (.boolOp op values range) := by
  intro value h
  change w.evalBool op values = some value at h
  change Agrees (combineBoolOp op (inferConditionValues o values)) value
  cases op with
  | or =>
    constructor
    · intro isTrue
      obtain ⟨truth, mem, holds⟩ := combineBoolOp_or_true isTrue
      obtain ⟨e, he, rfl⟩ := mem_inferConditionValues mem
      exact evalBool_decided .or values e he (fun v hv => (sound e he v hv).1 holds) value h
    · intro isFalse
      have all := combineBoolOp_or_false isFalse
      exact evalBool_undecided .or values
        (fun e he v hv => (sound e he v hv).2 (all _ (inferConditionValues_mem he))) value h
  | and =>
    constructor
    · intro isTrue
      have all := combineBoolOp_and_true isTrue
      exact evalBool_undecided .and values
        (fun e he v hv => (sound e he v hv).1 (all _ (inferConditionValues_mem he))) value h
    · intro isFalse
      obtain ⟨truth, mem, fails⟩ := combineBoolOp_and_false isFalse
      obtain ⟨e, he, rfl⟩ := mem_inferConditionValues mem
      exact evalBool_decided .and values e he (fun v hv => (sound e he v hv).2 fails) value h

end BoolOps

section Comparisons

/-- The outcome of a comparison of ordered values. -/
structure OrderOf {α : Type} [LT α] (order : Ordering) (left right : α) : Prop where
  lt : order = .lt ↔ left < right
  eq : order = .eq ↔ left = right
  gt : order = .gt ↔ right < left

theorem orderOf_int (m n : Int) : OrderOf (compare m n) m n :=
  ⟨compare_lt_iff_lt, compare_eq_iff_eq, compare_gt_iff_gt⟩

theorem fixedComparison_eq {α : Type} [DecidableEq α] [LT α] [DecidableLT α] {order : Ordering}
    {left right : α} (h : OrderOf order left right) (op : CmpOp)
    (standard : isStandardComparison op = true) :
    fixedComparison left op right = ofBool (holdsOf op order) := by
  obtain ⟨lt, eq, gt⟩ := h
  cases op with
  | eq => simp only [fixedComparison, holdsOf, eq]
  | notEq => simp only [fixedComparison, holdsOf, ne_eq, eq]
  | lt => simp only [fixedComparison, holdsOf, lt]
  | ltE =>
    simp only [fixedComparison, holdsOf, ← lt, ← eq]
    cases order <;> rfl
  | gt => simp only [fixedComparison, holdsOf, gt]
  | gtE =>
    simp only [fixedComparison, holdsOf, ← gt, ← eq]
    cases order <;> rfl
  | is | isNot | «in» | notIn => cases standard

theorem fixedComparison_reverse {α : Type} [DecidableEq α] [LT α] [DecidableLT α] (left right : α)
    (op : CmpOp) (standard : isStandardComparison op = true) :
    fixedComparison left (reverseCmpOp op) right = fixedComparison right op left := by
  cases op with
  | is | isNot | «in» | notIn => cases standard
  | _ => simp only [reverseCmpOp, fixedComparison, eq_comm, ne_eq]

def intTuple (values : List Int) : PyValue := .tuple (values.map .int)

theorem orders_ints (xs ys : List Int) :
    ∃ order, PyValue.orders (xs.map .int) (ys.map .int) = some order ∧ OrderOf order xs ys := by
  induction xs generalizing ys with
  | nil =>
    cases ys with
    | nil => exact ⟨.eq, rfl, by constructor <;> simp⟩
    | cons y ys => exact ⟨.lt, rfl, by constructor <;> simp⟩
  | cons x xs ih =>
    cases ys with
    | nil => exact ⟨.gt, rfl, by constructor <;> simp⟩
    | cons y ys =>
      obtain ⟨order, h, rest⟩ := ih ys
      have head := orderOf_int x y
      simp only [List.map_cons, PyValue.orders, PyValue.order]
      cases hc : compare x y with
      | eq =>
        obtain rfl := head.eq.mp hc
        refine ⟨order, h, ?_⟩
        constructor <;> simp [rest.lt, rest.eq, rest.gt]
      | lt =>
        have less := head.lt.mp hc
        refine ⟨.lt, rfl, ?_⟩
        constructor <;> simp [List.cons_lt_cons_iff] <;> omega
      | gt =>
        have greater := head.gt.mp hc
        refine ⟨.gt, rfl, ?_⟩
        constructor <;> simp [List.cons_lt_cons_iff] <;> omega

theorem comparison_standard {op : CmpOp} (standard : isStandardComparison op = true)
    (left right : PyValue) : comparison op left right = (left.order right).map (holdsOf op) := by
  cases op <;> first | rfl | cases standard

theorem reverse_standard {op : CmpOp} (standard : isStandardComparison op = true) :
    isStandardComparison (reverseCmpOp op) = true := by
  cases op <;> first | rfl | cases standard

theorem reverse_reverse (op : CmpOp) : reverseCmpOp (reverseCmpOp op) = op := by
  cases op <;> rfl

/-- A comparison of two values and the mirrored one have the outcome of the analysis. -/
structure Decides (op : CmpOp) (left right : PyValue) (truth : TruthValue) (b : Bool) : Prop where
  truth : truth = ofBool b
  direct : comparison op left right = some b
  mirrored : comparison (reverseCmpOp op) right left = some b

theorem decides_of_order {α : Type} [DecidableEq α] [LT α] [DecidableLT α] {x y : α}
    {left right : PyValue} {order order' : Ordering} (op : CmpOp)
    (standard : isStandardComparison op = true)
    (direct : left.order right = some order) (orderOf : OrderOf order x y)
    (mirrored : right.order left = some order') (orderOf' : OrderOf order' y x) :
    Decides op left right (fixedComparison x op y) (holdsOf op order) := by
  have forth := fixedComparison_eq orderOf op standard
  have back := fixedComparison_eq orderOf' (reverseCmpOp op) (reverse_standard standard)
  rw [fixedComparison_reverse y x op standard, forth] at back
  have same : holdsOf (reverseCmpOp op) order' = holdsOf op order := by
    cases h : holdsOf op order <;> cases h' : holdsOf (reverseCmpOp op) order' <;>
      first | rfl | (rw [h, h'] at back; cases back)
  refine ⟨forth, ?_, ?_⟩
  · rw [comparison_standard standard, direct]
    rfl
  · rw [comparison_standard (reverse_standard standard), mirrored, ← same]
    rfl

theorem decides_ints (m n : Int) (op : CmpOp) (standard : isStandardComparison op = true) :
    ∃ b, Decides op (.int m) (.int n) (fixedComparison m op n) b :=
  ⟨_, decides_of_order op standard rfl (orderOf_int m n) rfl (orderOf_int n m)⟩

theorem decides_tuples (xs ys : List Int) (op : CmpOp)
    (standard : isStandardComparison op = true) :
    ∃ b, Decides op (intTuple xs) (intTuple ys) (fixedComparison xs op ys) b := by
  obtain ⟨order, h, orderOf⟩ := orders_ints xs ys
  obtain ⟨order', h', orderOf'⟩ := orders_ints ys xs
  exact ⟨_, decides_of_order op standard h orderOf h' orderOf'⟩

end Comparisons

section Versions

/-- The component survives the cast. -/
def componentFits (component : UInt32) : Bool := decide (component.toNat < 2147483648)

theorem castI32_of_fits {component : UInt32} (fits : componentFits component = true) :
    castI32 component = component.toNat := by
  have small : component.toNat < 2147483648 := of_decide_eq_true fits
  unfold castI32
  rw [Int.bmod_def]
  split <;> omega

theorem castI32_neg {component : UInt32} (large : componentFits component = false) :
    castI32 component < 0 := by
  have large : ¬ component.toNat < 2147483648 := of_decide_eq_false large
  have bound := component.toNat_lt
  unfold castI32
  rw [Int.bmod_def]
  split <;> omega

/-- The components that an access reads survive the cast. -/
def SysVersionInfo.fits (o : Options) : SysVersionInfo → Bool
  | .whole => componentFits o.pythonVersion.1 && componentFits o.pythonVersion.2
  | .index i => (decide (i ≠ 0) || componentFits o.pythonVersion.1)
      && (decide (i ≠ 1) || componentFits o.pythonVersion.2)
  | .slice lower upper => (decide (lower.getD 0 ≠ 0) || componentFits o.pythonVersion.1)
      && (decide (upper.getD 2 ≠ 2) || componentFits o.pythonVersion.2)

def versionTuple (o : Options) : PyValue :=
  .tuple [.int o.pythonVersion.1.toNat, .int o.pythonVersion.2.toNat]

variable {o : Options} {w : World}

theorem asI32_some {value : IntLiteral} {n : Int} (h : value.asI32 = some n) :
    ∃ word : UInt64, value = .small word ∧ n = word.toNat := by
  cases value with
  | small word =>
    rw [IntLiteral.asI32] at h
    split at h
    · exact ⟨word, rfl, (Option.some.inj h).symm⟩
    · cases h
  | big text => cases h

theorem exprToInt_some {e : Expr} {n : Int} (h : exprToInt e = some n) :
    ∃ (word : UInt64) (range : TextRange),
      e = .numberLiteral (.int (.small word)) range ∧ n = word.toNat := by
  unfold exprToInt at h
  split at h
  case h_1 value range =>
    obtain ⟨word, rfl, rfl⟩ := asI32_some h
    exact ⟨word, range, rfl, rfl⟩
  case h_2 => cases h

theorem eval_exprToInt {e : Expr} {n : Int} (h : exprToInt e = some n) :
    w.eval e = some (.int n) := by
  obtain ⟨word, range, rfl, rfl⟩ := exprToInt_some h
  rfl

theorem evalAll_exprsToInts {elts : List Expr} {values : List Int}
    (h : exprsToInts elts = some values) : w.evalAll elts = some (values.map .int) := by
  induction elts generalizing values with
  | nil =>
    cases h
    rfl
  | cons e elts ih =>
    simp only [exprsToInts, Option.bind_eq_bind, Option.bind_eq_some_iff] at h
    obtain ⟨value, hv, rest, hr, h⟩ := h
    cases h
    simp only [World.evalAll, eval_exprToInt hv, ih hr, Option.bind_eq_bind, Option.bind_some,
      List.map_cons]

/-- The value of what a version is compared with. -/
def IntOrTuple.value : IntOrTuple → PyValue
  | .int n => .int n
  | .tuple values => intTuple values

theorem eval_intOrTuple {e : Expr} {thing : IntOrTuple}
    (h : containsIntOrTupleOfInts e = some thing) : w.eval e = some thing.value := by
  unfold containsIntOrTupleOfInts at h
  split at h
  case h_1 value range =>
    obtain ⟨n, hn, rfl⟩ := Option.map_eq_some_iff.mp h
    exact eval_exprToInt (e := .numberLiteral (.int value) range) hn
  case h_2 elts _ _ =>
    obtain ⟨values, hv, rfl⟩ := Option.map_eq_some_iff.mp h
    change (w.evalAll elts).map PyValue.tuple = _
    rw [evalAll_exprsToInts hv]
    rfl
  case h_3 => cases h

theorem isSysAttr_some {name : String} {e : Expr} (h : isSysAttr name e = true) :
    ∃ range attr attrRange, e = .attribute (.name "sys" range) attr attrRange ∧ attr.id = name := by
  unfold isSysAttr at h
  split at h
  case h_1 base range attr attrRange =>
    simp only [Bool.and_eq_true, decide_eq_true_eq] at h
    obtain ⟨rfl, rfl⟩ := h
    exact ⟨range, attr, attrRange, rfl, rfl⟩
  case h_2 => cases h

theorem eval_versionInfo (consistent : Consistent o w) {e : Expr}
    (h : isSysAttr "version_info" e = true) : w.eval e = some (versionTuple o) := by
  obtain ⟨range, attr, attrRange, rfl, name⟩ := isSysAttr_some h
  change some (w.attr (.name "sys" range) attr.id) = _
  rw [name, consistent.version]
  rfl

theorem eval_platform (consistent : Consistent o w) {e : Expr}
    (h : isSysAttr "platform" e = true) : w.eval e = some (.str o.platform) := by
  obtain ⟨range, attr, attrRange, rfl, name⟩ := isSysAttr_some h
  change some (w.attr (.name "sys" range) attr.id) = _
  rw [name, consistent.platform]

/-- The forms that are recognized. -/
theorem containsSysVersionInfo_cases {e : Expr} {index : SysVersionInfo}
    (h : containsSysVersionInfo e = some index) :
    (index = .whole ∧ isSysAttr "version_info" e = true) ∨
    (∃ value slice range, e = .subscript value slice range ∧
      isSysAttr "version_info" value = true ∧
      ((∃ i, index = .index i ∧ exprToInt slice = some i) ∨
       (∃ lower upper step sliceRange lo hi, slice = .slice lower upper step sliceRange ∧
          index = .slice lo hi ∧ sliceBound lower = some lo ∧ sliceBound upper = some hi ∧
          (sliceBound step = some none ∨ sliceBound step = some (some 1))))) := by
  unfold containsSysVersionInfo at h
  split at h
  case h_1 value slice range =>
    split at h
    case isTrue sys =>
      refine .inr ⟨value, slice, range, rfl, sys, ?_⟩
      split at h
      case h_1 number sliceRange =>
        obtain ⟨i, hi, rfl⟩ := Option.map_eq_some_iff.mp h
        exact .inl ⟨i, rfl, hi⟩
      case h_2 lower upper step sliceRange =>
        simp only [Option.bind_eq_bind, Option.bind_eq_some_iff] at h
        obtain ⟨stride, hs, h⟩ := h
        split at h
        case isTrue one =>
          simp only [Option.bind_eq_some_iff] at h
          obtain ⟨lo, hlo, hi, hhi, h⟩ := h
          cases h
          refine .inr ⟨lower, upper, step, sliceRange, lo, hi, rfl, rfl, hlo, hhi, ?_⟩
          rcases one with rfl | rfl
          · exact .inl hs
          · exact .inr hs
        case isFalse => cases h
      case h_3 => cases h
    case isFalse => cases h
  case h_2 =>
    split at h
    case isTrue sys =>
      cases h
      exact .inl ⟨rfl, sys⟩
    case isFalse => cases h

theorem eval_index (consistent : Consistent o w) {value slice : Expr} {range : TextRange} {i : Int}
    (sys : isSysAttr "version_info" value = true) (index : exprToInt slice = some i)
    (low : 0 ≤ i) (high : i ≤ 1) : w.eval (.subscript value slice range)
      = some (.int (if i = 0 then o.pythonVersion.1 else o.pythonVersion.2).toNat) := by
  obtain ⟨word, sliceRange, rfl, rfl⟩ := exprToInt_some index
  simp only [World.eval_subscript, eval_versionInfo consistent sys, versionTuple,
    Option.bind_some, select]
  have either : word.toNat = 0 ∨ word.toNat = 1 := by omega
  rcases either with zero | one
  · rw [zero]
    rfl
  · rw [one]
    rfl

theorem eval_slice (consistent : Consistent o w) {value : Expr}
    {lower upper step : Option Expr} {range sliceRange : TextRange} {lo hi : Option Int}
    (sys : isSysAttr "version_info" value = true) (hlo : sliceBound lower = some lo)
    (hhi : sliceBound upper = some hi)
    (one : sliceBound step = some none ∨ sliceBound step = some (some 1)) :
    w.eval (.subscript value (.slice lower upper step sliceRange) range)
      = some (.tuple (([.int o.pythonVersion.1.toNat, .int o.pythonVersion.2.toNat].take
          (hi.getD 2).toNat).drop (lo.getD 0).toNat)) := by
  have stride : ∃ stride, sliceBound step = some stride ∧ (stride = none ∨ stride = some 1) := by
    rcases one with h | h
    · exact ⟨_, h, .inl rfl⟩
    · exact ⟨_, h, .inr rfl⟩
  obtain ⟨stride, hs, one⟩ := stride
  simp only [World.eval_subscript, eval_versionInfo consistent sys, versionTuple,
    Option.bind_eq_bind, Option.bind_some, select, hs, if_pos one, hlo, hhi, List.length_cons,
    List.length_nil, Option.getD_some]
  rfl

theorem versionSlice_some {lo hi : Int} {version : List Int}
    (h : versionSlice o lo hi = some version)
    (major : lo = 0 → castI32 o.pythonVersion.1 = o.pythonVersion.1.toNat)
    (minor : hi = 2 → castI32 o.pythonVersion.2 = o.pythonVersion.2.toNat) :
    .tuple (([.int o.pythonVersion.1.toNat, .int o.pythonVersion.2.toNat].take hi.toNat).drop
      lo.toNat) = intTuple version := by
  unfold versionSlice at h
  split at h
  · cases h
  split at h
  case isTrue first =>
    obtain ⟨rfl, rfl⟩ := first
    cases h
    rw [major rfl]
    rfl
  split at h
  case isTrue both =>
    obtain ⟨rfl, rfl⟩ := both
    cases h
    rw [major rfl, minor rfl]
    rfl
  split at h
  case isTrue second =>
    obtain ⟨rfl, rfl⟩ := second
    cases h
    rw [minor rfl]
    rfl
  · cases h

theorem compareVersionSlice_decides {lo hi : Int} {op : CmpOp} {target : List Int}
    (standard : isStandardComparison op = true)
    (known : compareVersionSlice o lo hi op target ≠ .unknown)
    (major : lo = 0 → castI32 o.pythonVersion.1 = o.pythonVersion.1.toNat)
    (minor : hi = 2 → castI32 o.pythonVersion.2 = o.pythonVersion.2.toNat) :
    ∃ b, Decides op (.tuple (([.int o.pythonVersion.1.toNat,
        .int o.pythonVersion.2.toNat].take hi.toNat).drop lo.toNat)) (intTuple target)
      (compareVersionSlice o lo hi op target) b := by
  unfold compareVersionSlice at known ⊢
  cases h : versionSlice o lo hi with
  | none => simp [h] at known
  | some version =>
    simp only [h] at known ⊢
    split at known
    case isTrue comparable =>
      rw [if_pos comparable, versionSlice_some h major minor]
      exact decides_tuples version target op standard
    case isFalse => exact absurd rfl known

theorem compareVersion_decides (consistent : Consistent o w) {e : Expr} {index : SysVersionInfo}
    {thing : IntOrTuple} {op : CmpOp} (h : containsSysVersionInfo e = some index)
    (fits : index.fits o = true) (standard : isStandardComparison op = true)
    (known : compareVersion o index op thing ≠ .unknown) :
    ∃ value b, w.eval e = some value ∧
      Decides op value thing.value (compareVersion o index op thing) b := by
  rcases containsSysVersionInfo_cases h with ⟨rfl, sys⟩ | ⟨value, slice, range, rfl, sys, form⟩
  · -- the whole tuple
    rw [SysVersionInfo.fits, Bool.and_eq_true] at fits
    cases thing with
    | int n => exact absurd rfl known
    | tuple target =>
      change compareVersionSlice o 0 2 op target ≠ .unknown at known
      obtain ⟨b, decides⟩ := compareVersionSlice_decides standard known
        (fun _ => castI32_of_fits fits.1) (fun _ => castI32_of_fits fits.2)
      exact ⟨_, b, eval_versionInfo consistent sys, decides⟩
  · rcases form with ⟨i, rfl, index⟩ | ⟨lower, upper, step, sliceRange, lo, hi, rfl, rfl, hlo, hhi, one⟩
    · simp only [SysVersionInfo.fits, Bool.and_eq_true, Bool.or_eq_true, decide_eq_true_eq] at fits
      cases thing with
      | tuple target => exact absurd rfl known
      | int n =>
        simp only [compareVersion] at known ⊢
        split at known
        case isFalse => exact absurd rfl known
        case isTrue inside =>
          rw [if_pos inside]
          have cast : castI32 (if i = 0 then o.pythonVersion.1 else o.pythonVersion.2)
              = (if i = 0 then o.pythonVersion.1 else o.pythonVersion.2).toNat := by
            split
            case isTrue zero => exact castI32_of_fits (fits.1.resolve_left (not_not_intro zero))
            case isFalse nonzero =>
              exact castI32_of_fits (fits.2.resolve_left (not_not_intro (by omega)))
          obtain ⟨b, decides⟩ := decides_ints
            ((if i = 0 then o.pythonVersion.1 else o.pythonVersion.2).toNat : Int) n op standard
          rw [cast]
          exact ⟨_, b, eval_index consistent sys index inside.1 inside.2, decides⟩
    · simp only [SysVersionInfo.fits, Bool.and_eq_true, Bool.or_eq_true, decide_eq_true_eq] at fits
      cases thing with
      | int n => exact absurd rfl known
      | tuple target =>
        change compareVersionSlice o (lo.getD 0) (hi.getD 2) op target ≠ .unknown at known
        obtain ⟨b, decides⟩ := compareVersionSlice_decides standard known
          (fun zero => castI32_of_fits (fits.1.resolve_left (not_not_intro zero)))
          (fun two => castI32_of_fits (fits.2.resolve_left (not_not_intro two)))
        exact ⟨_, b, eval_slice consistent sys hlo hhi one, decides⟩

theorem eval_compare {left right : Expr} {op : CmpOp} {comparators : List Expr} {range : TextRange}
    {x y : PyValue} {b : Bool} (hx : w.eval left = some x) (hy : w.eval right = some y)
    (h : comparison op x y = some b) :
    w.eval (.compare left [op] (right :: comparators) range) = some (.bool b) := by
  simp only [World.eval_compare_cons, hx, hy, h, Option.bind_some]

/-- Every version access that the analysis can meet in the expression fits. -/
def compareFits (o : Options) : Expr → Bool
  | .compare left _ (right :: _) _ => (containsSysVersionInfo left).all (·.fits o)
      && (containsSysVersionInfo right).all (·.fits o)
  | _ => true

theorem considerSysVersionInfo_sound (consistent : Consistent o w) (e : Expr)
    (fits : compareFits o e = true) (value : PyValue) (h : w.eval e = some value) :
    Agrees (considerSysVersionInfo o e) value := by
  unfold considerSysVersionInfo
  split
  case h_2 => exact agrees_unknown _
  case h_1 left op right comparators range =>
    rw [compareFits, Bool.and_eq_true] at fits
    split
    case isFalse => exact agrees_unknown _
    case isTrue standard =>
      split
      case h_1 index thing access target =>
        by_cases known : compareVersion o index op thing = .unknown
        · rw [known]
          exact agrees_unknown _
        · rw [access] at fits
          obtain ⟨x, b, hx, decides⟩ := compareVersion_decides consistent access fits.1 standard known
          rw [eval_compare hx (eval_intOrTuple target) decides.direct] at h
          cases h
          rw [decides.truth]
          exact agrees_ofBool b
      case h_2 =>
        split
        case h_2 => exact agrees_unknown _
        case h_1 index thing access target =>
          by_cases known : compareVersion o index (reverseCmpOp op) thing = .unknown
          · rw [known]
            exact agrees_unknown _
          · rw [access] at fits
            obtain ⟨x, b, hx, decides⟩ := compareVersion_decides consistent access fits.2
              (reverse_standard standard) known
            have mirrored := decides.mirrored
            rw [reverse_reverse] at mirrored
            rw [eval_compare (eval_intOrTuple target) hx mirrored] at h
            cases h
            rw [decides.truth]
            exact agrees_ofBool b

end Versions

section Platforms

variable {o : Options} {w : World}

theorem orderOf_string_eq (s t : String) : compare s t = .eq ↔ s = t := Std.compare_eq_iff_eq

theorem stringItemsContain_some {text : String} {elts : List Expr} {b : Bool}
    (h : stringItemsContain text elts = some b) :
    ∃ values, w.evalAll elts = some values ∧ PyValue.memberOf (.str text) values = some b := by
  induction elts generalizing b with
  | nil =>
    cases h
    exact ⟨[], rfl, rfl⟩
  | cons e elts ih =>
    unfold stringItemsContain at h
    split at h
    case h_1 heq => cases heq
    case h_3 => cases h
    case h_2 parts range items heq =>
      cases heq
      obtain ⟨rest, hr, rfl⟩ := Option.map_eq_some_iff.mp h
      obtain ⟨values, hv, member⟩ := ih hr
      refine ⟨.str (concatText parts) :: values, ?_, ?_⟩
      · simp only [World.evalAll_cons, World.eval_stringLiteral, hv, Option.bind_some]
      · have same : (compare text (concatText parts) = .eq) = (concatText parts = text) :=
          propext ((orderOf_string_eq _ _).trans eq_comm)
        simp only [PyValue.memberOf, PyValue.order, member, Option.bind_eq_bind, Option.bind_some,
          same]

theorem stringContainer_some {text : String} {e : Expr} {b : Bool}
    (h : stringLiteralContainerContains text e = some b) :
    ∃ container, w.eval e = some container ∧
      container.elements.bind (PyValue.memberOf (.str text)) = some b := by
  unfold stringLiteralContainerContains at h
  split at h
  case h_1 elts _ _ =>
    obtain ⟨values, hv, member⟩ := stringItemsContain_some (w := w) h
    exact ⟨.tuple values, congrArg (Option.map PyValue.tuple) hv, member⟩
  case h_2 elts _ _ =>
    obtain ⟨values, hv, member⟩ := stringItemsContain_some (w := w) h
    exact ⟨.list values, congrArg (Option.map PyValue.list) hv, member⟩
  case h_3 elts _ =>
    obtain ⟨values, hv, member⟩ := stringItemsContain_some (w := w) h
    exact ⟨.set values, congrArg (Option.map PyValue.set) hv, member⟩
  case h_4 => cases h

theorem considerSysPlatform_sound (consistent : Consistent o w) (e : Expr) (value : PyValue)
    (h : w.eval e = some value) : Agrees (considerSysPlatform o e) value := by
  unfold considerSysPlatform
  split
  case h_3 => exact agrees_unknown _
  case h_1 left op right comparators range =>
    split
    case isFalse => exact agrees_unknown _
    case isTrue sys =>
      have platform := eval_platform consistent sys
      split
      case isTrue equality =>
        split
        case h_2 => exact agrees_unknown _
        case h_1 parts partsRange =>
          have outcome : comparison op (.str o.platform) (.str (concatText parts))
              = some (holdsOf op (compare o.platform (concatText parts))) := by
            rcases equality with rfl | rfl <;> rfl
          have same : fixedComparison o.platform op (concatText parts)
              = ofBool (holdsOf op (compare o.platform (concatText parts))) := by
            rcases equality with rfl | rfl <;>
              simp only [fixedComparison, holdsOf, orderOf_string_eq, ne_eq]
          rw [eval_compare platform rfl outcome] at h
          cases h
          rw [same]
          exact agrees_ofBool _
      case isFalse =>
        split
        case isFalse => exact agrees_unknown _
        case isTrue membership =>
          split
          case h_2 => exact agrees_unknown _
          case h_1 result contains =>
            obtain ⟨container, hc, member⟩ := stringContainer_some (w := w) contains
            have outcome : comparison op (.str o.platform) container
                = some (if op = .notIn then !result else result) := by
              rcases membership with rfl | rfl <;> simp [comparison, member]
            rw [eval_compare platform hc outcome] at h
            cases h
            exact agrees_ofBool _
  case h_2 receiver attr attrRange parts partsRange keywords range =>
    split
    case isFalse => exact agrees_unknown _
    case isTrue method =>
      simp only [Bool.and_eq_true, decide_eq_true_eq] at method
      simp only [World.eval, eval_platform consistent method.1, method.2, decide_true,
        Option.bind_eq_bind, Option.bind_some] at h
      split at h
      · cases h
        exact agrees_ofBool _
      · cases h

end Platforms

section Conditions

variable {o : Options} {w : World}

mutual

/-- Every version access in a condition position fits. -/
def versionFits (o : Options) : Expr → Bool
  | .unaryOp .not operand _ => versionFits o operand
  | .boolOp _ values _ => versionsFit o values
  | e => compareFits o e

def versionsFit (o : Options) : List Expr → Bool
  | [] => true
  | value :: values => versionFits o value && versionsFit o values

end

/-- The last branch of `infer_condition_value`. -/
theorem soundAt_considered (consistent : Consistent o w) {e : Expr}
    (last : inferConditionValue o e = if considerSysVersionInfo o e ≠ .unknown
      then considerSysVersionInfo o e else considerSysPlatform o e)
    (fits : compareFits o e = true) : SoundAt o w e := by
  intro value h
  rw [last]
  split
  · exact considerSysVersionInfo_sound consistent e fits value h
  · exact considerSysPlatform_sound consistent e value h

mutual

/-- By recursion on the condition; only `not`, `and` and `or` have conditions inside. -/
theorem soundAt_of_fits (consistent : Consistent o w) :
    ∀ e : Expr, versionFits o e = true → SoundAt o w e
  | .unaryOp .not operand _, fits => by
    intro value h
    obtain ⟨v, hv, rfl⟩ := Option.map_eq_some_iff.mp h
    exact agrees_invert (soundAt_of_fits consistent operand fits v hv)
  | .boolOp op values range, fits =>
    soundAt_boolOp op values range (soundAt_of_allFit consistent values fits)
  | .booleanLiteral true _, _ => by
    intro value h
    cases h
    change Agrees (if "True" ∈ o.alwaysTrue then .alwaysTrue else .unknown) _
    split
    · exact agrees_ofBool true
    · exact agrees_unknown _
  | .booleanLiteral false _, _ => by
    intro value h
    cases h
    change Agrees (if "False" ∈ o.alwaysFalse then .alwaysFalse else .unknown) _
    split
    · exact agrees_ofBool false
    · exact agrees_unknown _
  | .name id _, _ => by
    intro value h
    cases h
    exact agrees_name (consistent.names id)
  | .attribute inner attr _, _ => by
    intro value h
    cases h
    exact agrees_name (consistent.attributes inner attr.id)
  | .unaryOp .invert _ _, fits | .unaryOp .uAdd _ _, fits | .unaryOp .uSub _ _, fits
  | .named _ _ _, fits | .binOp _ _ _ _, fits | .lambda _ _ _, fits | .ifExp _ _ _ _, fits
  | .dict _ _, fits | .set _ _, fits | .listComp _ _ _, fits | .setComp _ _ _, fits
  | .dictComp _ _ _ _, fits | .generator _ _ _, fits | .await _ _, fits | .yield _ _, fits
  | .yieldFrom _ _, fits | .compare _ _ _ _, fits | .call _ _ _ _, fits | .fString _ _, fits
  | .tString _ _, fits | .stringLiteral _ _, fits | .bytesLiteral _ _, fits
  | .numberLiteral _ _, fits | .noneLiteral _, fits | .ellipsisLiteral _, fits
  | .subscript _ _ _, fits | .starred _ _, fits | .list _ _ _, fits | .tuple _ _ _, fits
  | .slice _ _ _ _, fits | .ipyEscapeCommand _, fits => soundAt_considered consistent rfl fits

theorem soundAt_of_allFit (consistent : Consistent o w) :
    ∀ values : List Expr, versionsFit o values = true → ∀ e ∈ values, SoundAt o w e
  | [], _, _, mem => absurd mem List.not_mem_nil
  | value :: values, fits, e, mem => by
    rw [versionsFit, Bool.and_eq_true] at fits
    rcases List.mem_cons.mp mem with here | mem
    · rw [here]
      exact soundAt_of_fits consistent value fits.1
    · exact soundAt_of_allFit consistent values fits.2 e mem

end

end Conditions

section Casts

variable {o : Options} {w : World}

theorem compareFits_of_fits (major : componentFits o.pythonVersion.1 = true)
    (minor : componentFits o.pythonVersion.2 = true) (e : Expr) : compareFits o e = true := by
  have every : ∀ index : SysVersionInfo, index.fits o = true := by
    intro index
    cases index <;> simp [SysVersionInfo.fits, major, minor]
  have all : ∀ index : Option SysVersionInfo, index.all (·.fits o) = true := by
    intro index
    cases index with
    | none => rfl
    | some index => exact every index
  unfold compareFits
  split
  · rw [all, all]
    rfl
  · rfl

mutual

theorem versionFits_of_fits (major : componentFits o.pythonVersion.1 = true)
    (minor : componentFits o.pythonVersion.2 = true) : ∀ e : Expr, versionFits o e = true
  | .unaryOp .not operand _ => versionFits_of_fits major minor operand
  | .boolOp _ values _ => versionsFit_of_fits major minor values
  | .unaryOp .invert _ _ | .unaryOp .uAdd _ _ | .unaryOp .uSub _ _ | .booleanLiteral _ _
  | .name _ _ | .attribute _ _ _ | .named _ _ _ | .binOp _ _ _ _ | .lambda _ _ _ | .ifExp _ _ _ _
  | .dict _ _ | .set _ _ | .listComp _ _ _ | .setComp _ _ _ | .dictComp _ _ _ _ | .generator _ _ _
  | .await _ _ | .yield _ _ | .yieldFrom _ _ | .compare _ _ _ _ | .call _ _ _ _ | .fString _ _
  | .tString _ _ | .stringLiteral _ _ | .bytesLiteral _ _ | .numberLiteral _ _ | .noneLiteral _
  | .ellipsisLiteral _ | .subscript _ _ _ | .starred _ _ | .list _ _ _ | .tuple _ _ _
  | .slice _ _ _ _ | .ipyEscapeCommand _ => compareFits_of_fits major minor _

theorem versionsFit_of_fits (major : componentFits o.pythonVersion.1 = true)
    (minor : componentFits o.pythonVersion.2 = true) :
    ∀ values : List Expr, versionsFit o values = true
  | [] => rfl
  | value :: values => by
    rw [versionsFit, versionFits_of_fits major minor value,
      versionsFit_of_fits major minor values]
    rfl

end

/-- `sys.version_info[i]`. -/
def versionComponent (i : UInt64) : Expr :=
  .subscript (.attribute (.name "sys" ⟨0, 3⟩) ⟨"version_info", ⟨4, 16⟩⟩ ⟨0, 16⟩)
    (.numberLiteral (.int (.small i)) ⟨17, 18⟩) ⟨0, 19⟩

/-- `sys.version_info[i] >= 0`, which holds whatever the version is. -/
def versionAtLeastZero (i : UInt64) : Expr :=
  .compare (versionComponent i) [.gtE] [.numberLiteral (.int (.small 0)) ⟨23, 24⟩] ⟨0, 24⟩

theorem eval_versionAtLeastZero (consistent : Consistent o w) (i : UInt64)
    (inside : i.toNat = 0 ∨ i.toNat = 1) :
    w.eval (versionAtLeastZero i) = some (.bool true) := by
  have index : exprToInt (.numberLiteral (.int (.small i)) ⟨17, 18⟩) = some (i.toNat : Int) :=
    if_pos (by omega)
  have left : w.eval (versionComponent i) = some (.int (if (i.toNat : Int) = 0
      then o.pythonVersion.1 else o.pythonVersion.2).toNat) :=
    eval_index consistent rfl index (by omega) (by omega)
  refine eval_compare left rfl ?_
  have order := orderOf_int ((if (i.toNat : Int) = 0 then o.pythonVersion.1
    else o.pythonVersion.2).toNat : Int) 0
  have notLess : ¬ ((if (i.toNat : Int) = 0 then o.pythonVersion.1
    else o.pythonVersion.2).toNat : Int) < 0 := by omega
  rw [← order.lt] at notLess
  exact congrArg some (decide_eq_true notLess)

/-- A component that does not survive the cast misleads the analysis. -/
theorem infer_versionAtLeastZero (i : UInt64) (inside : i.toNat = 0 ∨ i.toNat = 1)
    (large : componentFits (if (i.toNat : Int) = 0 then o.pythonVersion.1
      else o.pythonVersion.2) = false) :
    inferConditionValue o (versionAtLeastZero i) = .alwaysFalse := by
  have negative := castI32_neg large
  have index : (IntLiteral.small i).asI32 = some (i.toNat : Int) := if_pos (by omega)
  have zero : (IntLiteral.small 0).asI32 = some 0 := rfl
  have range : (0 : Int) ≤ i.toNat ∧ (i.toNat : Int) ≤ 1 := by omega
  have notGreater : ¬ (0 < castI32 (if (i.toNat : Int) = 0 then o.pythonVersion.1
      else o.pythonVersion.2) ∨ castI32 (if (i.toNat : Int) = 0 then o.pythonVersion.1
      else o.pythonVersion.2) = 0) := by omega
  have outcome : considerSysVersionInfo o (versionAtLeastZero i) = .alwaysFalse := by
    simp only [considerSysVersionInfo, versionAtLeastZero, versionComponent, isStandardComparison,
      if_true, containsSysVersionInfo, isSysAttr, decide_true, Bool.and_self, exprToInt, index, Option.map_some,
      containsIntOrTupleOfInts, zero, compareVersion, if_pos range, fixedComparison, notGreater,
      decide_false, ofBool, Bool.false_eq_true, if_false]
  change (if considerSysVersionInfo o (versionAtLeastZero i) ≠ .unknown
    then considerSysVersionInfo o (versionAtLeastZero i)
    else considerSysPlatform o (versionAtLeastZero i)) = _
  rw [outcome]
  rfl

/-- A world in which everything the options leave open is true. -/
def worldOf (o : Options) : World where
  name id := .other ((nameTruth o id).getD true)
  attr value id :=
    if isSysAttr "version_info" (.attribute value ⟨id, ⟨0, 0⟩⟩ ⟨0, 0⟩) then versionTuple o
    else if isSysAttr "platform" (.attribute value ⟨id, ⟨0, 0⟩⟩ ⟨0, 0⟩) then .str o.platform
    else .other ((nameTruth o id).getD true)
  other _ := .other true

/-- The user's lists contradict the version or the platform, so no world is consistent. -/
def contradictory (o : Options) : Bool :=
  nameTruth o "version_info" = some false || nameTruth o "platform" = some (decide (o.platform = ""))

theorem isSysAttr_id {value : Expr} {attr : Identifier} {range : TextRange} {name : String}
    (h : isSysAttr name (.attribute value attr range) = true) : attr.id = name := by
  obtain ⟨_, _, _, eq, id⟩ := isSysAttr_some h
  cases eq
  exact id

theorem truthy_platform (o : Options) : (PyValue.str o.platform).truthy = !decide (o.platform = "") :=
  decide_not

theorem not_contradictory_of_consistent (consistent : Consistent o w) : contradictory o = false := by
  have version := consistent.attributes (.name "sys" ⟨0, 0⟩) "version_info" false
  have platform := consistent.attributes (.name "sys" ⟨0, 0⟩) "platform" (decide (o.platform = ""))
  rw [consistent.version] at version
  rw [consistent.platform, truthy_platform] at platform
  rw [contradictory, Bool.or_eq_false_iff, decide_eq_false_iff_not, decide_eq_false_iff_not]
  constructor
  · intro listed
    cases version listed
  · intro listed
    have clash := platform listed
    cases h : decide (o.platform = "") <;> rw [h] at clash <;> cases clash

theorem consistent_worldOf (clear : contradictory o = false) : Consistent o (worldOf o) := by
  rw [contradictory, Bool.or_eq_false_iff, decide_eq_false_iff_not, decide_eq_false_iff_not] at clear
  refine ⟨?_, ?_, fun _ => rfl, fun _ => rfl⟩
  · intro name b listed
    change (nameTruth o name).getD true = b
    rw [listed]
    rfl
  · intro value name b listed
    simp only [worldOf]
    split
    case isTrue version =>
      obtain rfl := isSysAttr_id version
      cases b
      · exact absurd listed clear.1
      · rfl
    case isFalse =>
      split
      case isTrue platform =>
        obtain rfl := isSysAttr_id platform
        rw [truthy_platform]
        cases h : decide (o.platform = "") <;> cases b <;>
          first | rfl | exact absurd (listed.trans (congrArg some h.symm)) clear.2
      case isFalse =>
        change (nameTruth o name).getD true = b
        rw [listed]
        rfl

theorem misled_of_large (consistent : Consistent o w) (i : UInt64)
    (inside : i.toNat = 0 ∨ i.toNat = 1)
    (large : componentFits (if (i.toNat : Int) = 0 then o.pythonVersion.1
      else o.pythonVersion.2) = false) : ¬ SoundAt o w (versionAtLeastZero i) := by
  intro sound
  have agrees := sound _ (eval_versionAtLeastZero consistent i inside)
  rw [infer_versionAtLeastZero i inside large] at agrees
  cases agrees.2 rfl

end Casts

section Evaluation

mutual

/-- No `startswith` is called with keywords where its value matters. -/
def plainCalls : Expr → Bool
  | .unaryOp .not operand _ => plainCalls operand
  | .boolOp _ values _ | .tuple values _ _ | .list values _ _ | .set values _ =>
    allPlainCalls values
  | .compare left [_] (right :: _) _ => plainCalls left && plainCalls right
  | .subscript value _ _ => plainCalls value
  | .call (.attribute value attr _) [arg] keywords _ =>
    plainCalls value && plainCalls arg && (keywords.isEmpty || attr.id ≠ "startswith")
  | _ => true

def allPlainCalls : List Expr → Bool
  | [] => true
  | value :: values => plainCalls value && allPlainCalls values

end

variable (w : World)

mutual

/-- Nothing else raises. -/
theorem eval_isSome : ∀ e : Expr, plainCalls e = true → (w.eval e).isSome = true
  | .unaryOp .not operand _, plain => by
    have inner := eval_isSome operand plain
    simp only [World.eval, Option.isSome_map, inner]
  | .boolOp op values _, plain => evalBool_isSome op values plain
  | .tuple elts _ _, plain | .list elts _ _, plain | .set elts _, plain => by
    have inner := evalAll_isSome elts plain
    simp only [World.eval, Option.isSome_map, inner]
  | .compare left [op] (right :: comparators) range, plain => by
    rw [plainCalls, Bool.and_eq_true] at plain
    obtain ⟨x, hx⟩ := Option.isSome_iff_exists.mp (eval_isSome left plain.1)
    obtain ⟨y, hy⟩ := Option.isSome_iff_exists.mp (eval_isSome right plain.2)
    simp only [World.eval, hx, hy, Option.bind_eq_bind, Option.bind_some]
    split <;> rfl
  | .subscript value slice range, plain => by
    obtain ⟨x, hx⟩ := Option.isSome_iff_exists.mp (eval_isSome value plain)
    simp only [World.eval, hx, Option.bind_eq_bind, Option.bind_some]
    split <;> rfl
  | .call func [arg] keywords range, plain => by
    cases func with
    | «attribute» value attr attrRange =>
      simp only [plainCalls, Bool.and_eq_true, Bool.or_eq_true, decide_eq_true_eq] at plain
      obtain ⟨⟨plainValue, plainArg⟩, method⟩ := plain
      obtain ⟨x, hx⟩ := Option.isSome_iff_exists.mp (eval_isSome value plainValue)
      obtain ⟨y, hy⟩ := Option.isSome_iff_exists.mp (eval_isSome arg plainArg)
      simp only [World.eval, hx, hy, Option.bind_eq_bind, Option.bind_some]
      split
      case h_1 named =>
        rw [decide_eq_true_eq] at named
        rw [if_pos (method.resolve_right (not_not_intro named))]
        rfl
      case h_2 => rfl
    | _ => rfl
  | .call _ [] _ _, _ | .call _ (_ :: _ :: _) _ _, _ | .compare _ [] _ _, _
  | .compare _ [_] [] _, _ | .compare _ (_ :: _ :: _) _ _, _
  | .numberLiteral (.int (.small _)) _, _ | .numberLiteral (.int (.big _)) _, _
  | .numberLiteral (.float _) _, _ | .numberLiteral (.complex _ _) _, _
  | .unaryOp .invert _ _, _ | .unaryOp .uAdd _ _, _ | .unaryOp .uSub _ _, _
  | .booleanLiteral _ _, _ | .name _ _, _ | .attribute _ _ _, _ | .named _ _ _, _
  | .binOp _ _ _ _, _ | .lambda _ _ _, _ | .ifExp _ _ _ _, _ | .dict _ _, _
  | .listComp _ _ _, _ | .setComp _ _ _, _ | .dictComp _ _ _ _, _ | .generator _ _ _, _
  | .await _ _, _ | .yield _ _, _ | .yieldFrom _ _, _ | .fString _ _, _ | .tString _ _, _
  | .stringLiteral _ _, _ | .bytesLiteral _ _, _ | .noneLiteral _, _ | .ellipsisLiteral _, _
  | .starred _ _, _ | .slice _ _ _ _, _ | .ipyEscapeCommand _, _ => rfl

theorem evalBool_isSome (op : BoolOp) : ∀ values : List Expr, allPlainCalls values = true →
    (w.evalBool op values).isSome = true
  | [], _ => rfl
  | [value], plain => by
    rw [allPlainCalls, Bool.and_eq_true] at plain
    exact eval_isSome value plain.1
  | value :: next :: values, plain => by
    rw [allPlainCalls, Bool.and_eq_true] at plain
    obtain ⟨x, hx⟩ := Option.isSome_iff_exists.mp (eval_isSome value plain.1)
    have rest := evalBool_isSome op (next :: values) plain.2
    simp only [World.evalBool, hx, Option.bind_eq_bind, Option.bind_some]
    split
    · rfl
    · exact rest

theorem evalAll_isSome : ∀ values : List Expr, allPlainCalls values = true →
    (w.evalAll values).isSome = true
  | [], _ => rfl
  | value :: values, plain => by
    rw [allPlainCalls, Bool.and_eq_true] at plain
    obtain ⟨x, hx⟩ := Option.isSome_iff_exists.mp (eval_isSome value plain.1)
    obtain ⟨xs, hxs⟩ := Option.isSome_iff_exists.mp (evalAll_isSome values plain.2)
    simp only [World.evalAll, hx, hxs, Option.bind_eq_bind, Option.bind_some]
    rfl

end

end Evaluation

/-- Inference is sound for the options exactly when the version survives the cast to `i32` or no
world is consistent with them; a condition that reads no oversized component is always judged
soundly; and evaluation raises on nothing but `startswith` with keywords. -/
theorem inferConditionValue_sound_iff (o : Options) :
    ((∀ w e, Consistent o w → SoundAt o w e) ↔
      (componentFits o.pythonVersion.1 = true ∧ componentFits o.pythonVersion.2 = true)
        ∨ contradictory o = true) ∧
    (∀ w e, Consistent o w → versionFits o e = true → SoundAt o w e) ∧
    (∀ (w : World) (e : Expr), plainCalls e = true → (w.eval e).isSome = true) := by
  refine ⟨⟨?_, ?_⟩, fun w e consistent fits => soundAt_of_fits consistent e fits, eval_isSome⟩
  · intro sound
    by_contra neither
    rw [not_or, not_and_or, Bool.not_eq_true, Bool.not_eq_true, Bool.not_eq_true] at neither
    obtain ⟨large, clear⟩ := neither
    have consistent := consistent_worldOf clear
    rcases large with major | minor
    · exact misled_of_large consistent 0 (.inl rfl) major (sound _ _ consistent)
    · exact misled_of_large consistent 1 (.inr rfl) minor (sound _ _ consistent)
  · intro condition w e consistent
    rcases condition with ⟨major, minor⟩ | clash
    · exact soundAt_of_fits consistent e (versionFits_of_fits major minor e)
    · rw [not_contradictory_of_consistent consistent] at clash
      cases clash

/-- The default options have worlds, and inference is sound in each of them. -/
theorem inferConditionValue_sound_default :
    Consistent Options.default (worldOf Options.default) ∧
    ∀ w e, Consistent Options.default w → SoundAt Options.default w e :=
  ⟨consistent_worldOf (by decide),
    (inferConditionValue_sound_iff Options.default).1.mpr (.inl ⟨by decide, by decide⟩)⟩

/-- The first version whose major component does not survive the cast. -/
def oversizedOptions : Options := { Options.default with pythonVersion := (2147483648, 0) }

/-- `sys.version_info[0] >= 0` holds and is judged always false. -/
theorem oversized_version_misjudged :
    Consistent oversizedOptions (worldOf oversizedOptions) ∧
    ¬ SoundAt oversizedOptions (worldOf oversizedOptions) (versionAtLeastZero 0) :=
  have consistent : Consistent oversizedOptions (worldOf oversizedOptions) :=
    consistent_worldOf (by decide)
  ⟨consistent, misled_of_large consistent 0 (.inl rfl) (by decide)⟩

end AstSerialize
