import AstSerialize.Reachability.Infer
import Mathlib.Data.List.Basic

/-! Nested `and` and `or`. Each operator orders the truth values and gives the
greatest of its operands, so their grouping, their order and their repetition do
not matter. -/
namespace AstSerialize

/-- The order of an operator: the operand of the highest rank wins. The two orders are no mirror
images of each other. -/
def BoolOp.rank : BoolOp → TruthValue → Nat
  | .or, .mypyFalse => 0
  | .or, .alwaysFalse => 1
  | .or, .unknown => 2
  | .or, .mypyTrue => 3
  | .or, .alwaysTrue => 4
  | .and, .alwaysTrue => 0
  | .and, .mypyTrue => 1
  | .and, .unknown => 2
  | .and, .mypyFalse => 3
  | .and, .alwaysFalse => 4

structure Greatest (op : BoolOp) (values : List TruthValue) (v : TruthValue) : Prop where
  mem : v ∈ values
  upper : ∀ w ∈ values, op.rank w ≤ op.rank v

theorem BoolOp.rank_injective (op : BoolOp) (v w : TruthValue) (same : op.rank v = op.rank w) :
    v = w := by
  cases op <;> cases v <;> cases w <;> simp_all [rank]

theorem Greatest.unique {op : BoolOp} {values : List TruthValue} {v w : TruthValue}
    (hv : Greatest op values v) (hw : Greatest op values w) : v = w := by
  apply op.rank_injective
  have below := hw.upper v hv.mem
  have above := hv.upper w hw.mem
  omega

/-- Only the values that occur matter. -/
theorem Greatest.congr {op : BoolOp} {values values' : List TruthValue} {v : TruthValue}
    (greatest : Greatest op values v) (same : ∀ w, w ∈ values ↔ w ∈ values') :
    Greatest op values' v where
  mem := (same v).mp greatest.mem
  upper := fun w mem => greatest.upper w ((same w).mpr mem)

/-- The greatest value of a group stands for the group. -/
theorem Greatest.expand {op : BoolOp} {pre inner post : List TruthValue} {v w : TruthValue}
    (group : Greatest op inner v) (greatest : Greatest op (pre ++ v :: post) w) :
    Greatest op (pre ++ inner ++ post) w where
  mem := by
    have mem := greatest.mem
    have inGroup := group.mem
    simp only [List.mem_append, List.mem_cons] at mem ⊢
    rcases mem with mem | rfl | mem
    · exact .inl (.inl mem)
    · exact .inl (.inr inGroup)
    · exact .inr mem
  upper := by
    intro u mem
    simp only [List.mem_append] at mem
    rcases mem with (mem | mem) | mem
    · exact greatest.upper u (by simp [mem])
    · have inside := group.upper u mem
      have outside := greatest.upper v (by simp)
      omega
    · exact greatest.upper u (by simp [mem])

theorem combineBoolOp_greatest (op : BoolOp) (values : List TruthValue) (some : values ≠ []) :
    Greatest op values (combineBoolOp op values) := by
  obtain ⟨v, mem⟩ := List.exists_mem_of_ne_nil values some
  cases op with
  | or =>
    constructor
    · unfold combineBoolOp
      cases v <;> simp only [mem] <;> split_ifs <;> simp_all
    · intro w mem
      unfold combineBoolOp
      cases w <;> simp only [mem] <;> split_ifs <;> simp_all [BoolOp.rank]
  | and =>
    constructor
    · unfold combineBoolOp
      cases v <;> simp only [mem] <;> split_ifs <;> simp_all
    · intro w mem
      unfold combineBoolOp
      cases w <;> simp only [mem] <;> split_ifs <;> simp_all [BoolOp.rank]

theorem combineBoolOp_eq {op : BoolOp} {values : List TruthValue} {v : TruthValue}
    (greatest : Greatest op values v) : combineBoolOp op values = v :=
  (combineBoolOp_greatest op values (List.ne_nil_of_mem greatest.mem)).unique greatest

theorem combineBoolOp_congr (op : BoolOp) {values values' : List TruthValue} (some : values ≠ [])
    (same : ∀ w, w ∈ values ↔ w ∈ values') : combineBoolOp op values = combineBoolOp op values' :=
  (combineBoolOp_eq ((combineBoolOp_greatest op values some).congr same)).symm

theorem combineBoolOp_flatten (op : BoolOp) (pre inner post : List TruthValue)
    (some : inner ≠ []) :
    combineBoolOp op (pre ++ combineBoolOp op inner :: post)
      = combineBoolOp op (pre ++ inner ++ post) := by
  symm
  apply combineBoolOp_eq
  exact (combineBoolOp_greatest op inner some).expand
    (combineBoolOp_greatest op (pre ++ combineBoolOp op inner :: post) (by simp))

section Values

/-- Truth values in nested groups of two. -/
inductive Grouping where
  | value (v : TruthValue)
  | group (left right : Grouping)
  deriving DecidableEq, Repr

def Grouping.leaves : Grouping → List TruthValue
  | .value v => [v]
  | .group left right => left.leaves ++ right.leaves

/-- The value of a grouping, by one operator on two operands at a time. -/
def Grouping.combine (op : BoolOp) : Grouping → TruthValue
  | .value v => v
  | .group left right => combineBoolOp op [left.combine op, right.combine op]

theorem Grouping.combine_greatest (op : BoolOp) (g : Grouping) :
    Greatest op g.leaves (g.combine op) := by
  induction g with
  | value v => exact ⟨by simp [leaves, combine], by simp [leaves, combine]⟩
  | group left right ihLeft ihRight =>
    have both : Greatest op ([] ++ left.combine op :: [right.combine op])
        (combineBoolOp op [left.combine op, right.combine op]) :=
      combineBoolOp_greatest op [left.combine op, right.combine op] (by simp)
    have first := ihLeft.expand both
    have all : Greatest op (left.leaves ++ right.leaves ++ [])
        (combineBoolOp op [left.combine op, right.combine op]) := ihRight.expand first
    simpa [leaves, combine] using all

end Values

section Conditions

/-- Conditions that differ in how the operands of `and` and of `or` are grouped, ordered and
repeated, anywhere under `not`, `and` and `or`. -/
inductive Regrouped : Expr → Expr → Prop
  | refl (e : Expr) : Regrouped e e
  | symm {e e' : Expr} (h : Regrouped e e') : Regrouped e' e
  | trans {e e' e'' : Expr} (h : Regrouped e e') (h' : Regrouped e' e'') : Regrouped e e''
  | flatten (op : BoolOp) (pre inner post : List Expr) (own range range' : TextRange)
      (operands : 2 ≤ inner.length) :
      Regrouped (.boolOp op (pre ++ .boolOp op inner own :: post) range)
        (.boolOp op (pre ++ inner ++ post) range')
  | reorder (op : BoolOp) {values values' : List Expr} (range range' : TextRange)
      (perm : values.Perm values') :
      Regrouped (.boolOp op values range) (.boolOp op values' range')
  | duplicate (op : BoolOp) {value : Expr} {values : List Expr} (range range' : TextRange)
      (mem : value ∈ values) :
      Regrouped (.boolOp op values range) (.boolOp op (value :: values) range')
  | not {e e' : Expr} (range range' : TextRange) (h : Regrouped e e') :
      Regrouped (.unaryOp .not e range) (.unaryOp .not e' range')
  | operand (op : BoolOp) (pre post : List Expr) {e e' : Expr} (range range' : TextRange)
      (h : Regrouped e e') :
      Regrouped (.boolOp op (pre ++ e :: post) range) (.boolOp op (pre ++ e' :: post) range')

variable (o : Options)

theorem inferConditionValues_eq_map (values : List Expr) :
    inferConditionValues o values = values.map (inferConditionValue o) := by
  induction values with
  | nil => rfl
  | cons value values ih => simp [inferConditionValues, ih]

theorem inferConditionValue_boolOp (op : BoolOp) (values : List Expr) (range : TextRange) :
    inferConditionValue o (.boolOp op values range)
      = combineBoolOp op (values.map (inferConditionValue o)) := by
  simp [inferConditionValue, inferConditionValues_eq_map]

theorem inferConditionValue_of_regrouped {e e' : Expr} (h : Regrouped e e') :
    inferConditionValue o e = inferConditionValue o e' := by
  induction h with
  | refl e => rfl
  | symm h ih => exact ih.symm
  | trans h h' ih ih' => exact ih.trans ih'
  | flatten op pre inner post own range range' operands =>
    have some : inner.map (inferConditionValue o) ≠ [] := by
      intro none
      simp [List.map_eq_nil_iff.mp none] at operands
    simp only [inferConditionValue_boolOp, List.map_append, List.map_cons]
    exact combineBoolOp_flatten op _ _ _ some
  | reorder op range range' perm =>
    rename_i values values'
    simp only [inferConditionValue_boolOp]
    cases values with
    | nil => simp [perm.nil_eq]
    | cons value values =>
      exact combineBoolOp_congr op (by simp) fun w => (perm.map _).mem_iff
  | duplicate op range range' mem =>
    rename_i value values
    have mapped := List.mem_map_of_mem (f := inferConditionValue o) mem
    simp only [inferConditionValue_boolOp, List.map_cons]
    apply combineBoolOp_congr op (List.ne_nil_of_mem mapped)
    intro w
    constructor
    · exact List.mem_cons_of_mem _
    · intro mem
      rcases List.mem_cons.mp mem with rfl | mem
      · exact mapped
      · exact mem
  | not range range' h ih => simp [inferConditionValue, ih]
  | operand op pre post range range' h ih => simp [inferConditionValue_boolOp, ih]

/-- Grouping does not matter: neither to the value of a condition nor to that of a list. -/
theorem inferConditionValue_regrouped :
    (∀ (o : Options) (e e' : Expr), Regrouped e e' →
      inferConditionValue o e = inferConditionValue o e') ∧
    ∀ (op : BoolOp) (values : List TruthValue) (g : Grouping), 2 ≤ values.length →
      g.leaves.Perm values → combineBoolOp op values = g.combine op := by
  refine ⟨fun o e e' h => inferConditionValue_of_regrouped o h, ?_⟩
  intro op values g several perm
  exact combineBoolOp_eq ((g.combine_greatest op).congr fun w => perm.mem_iff)

/-- `PY3 and (MYPY and debug)` and `debug and PY3 and MYPY`. -/
theorem inferConditionValue_regrouped_flags :
    inferConditionValue .default
        (.boolOp .and [.name "PY3" ⟨0, 3⟩,
          .boolOp .and [.name "MYPY" ⟨9, 13⟩, .name "debug" ⟨18, 23⟩] ⟨9, 23⟩] ⟨0, 24⟩)
      = inferConditionValue .default
        (.boolOp .and [.name "debug" ⟨18, 23⟩, .name "PY3" ⟨0, 3⟩, .name "MYPY" ⟨9, 13⟩] ⟨0, 24⟩) ∧
    combineBoolOp .or [.mypyFalse, .unknown, .alwaysFalse]
      = (Grouping.group (.value .unknown) (.group (.value .alwaysFalse) (.value .mypyFalse))).combine
        .or := by
  refine ⟨inferConditionValue_regrouped.1 _ _ _ ?_, inferConditionValue_regrouped.2 _ _ _ ?_ ?_⟩
  · have flat := Regrouped.flatten .and [.name "PY3" ⟨0, 3⟩]
      [.name "MYPY" ⟨9, 13⟩, .name "debug" ⟨18, 23⟩] [] ⟨9, 23⟩ ⟨0, 24⟩ ⟨0, 24⟩ (by decide)
    have order : [Expr.name "PY3" ⟨0, 3⟩, .name "MYPY" ⟨9, 13⟩, .name "debug" ⟨18, 23⟩].Perm
        [.name "debug" ⟨18, 23⟩, .name "PY3" ⟨0, 3⟩, .name "MYPY" ⟨9, 13⟩] :=
      List.perm_append_singleton _ [_, _]
    exact flat.trans (.reorder .and _ _ order)
  · decide
  · decide

end Conditions

end AstSerialize
