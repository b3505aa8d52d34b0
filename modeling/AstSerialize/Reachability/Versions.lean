import AstSerialize.Reachability.Soundness

/-! Comparisons with `sys.version_info`: they are decided as Python compares the
selected part of the version, and exactly where the selection is supported. -/
namespace AstSerialize

section Accesses

/-- `sys.version_info`, and what is behind it in brackets. -/
inductive VersionAccess where
  | whole
  | index (i : Expr)
  | slice (lower upper : Option Expr)

inductive IsAccess : Expr → VersionAccess → Prop
  | whole (base attr own : TextRange) :
    IsAccess (.attribute (.name "sys" base) ⟨"version_info", attr⟩ own) .whole
  | index {value i : Expr} (own : TextRange) (h : IsAccess value .whole)
    (noSlice : ∀ lower upper step range, i ≠ .slice lower upper step range) :
    IsAccess (.subscript value i own) (.index i)
  | slice {value : Expr} {step : Option Expr} (lower upper : Option Expr) (own range : TextRange)
    (h : IsAccess value .whole)
    (one : step = none ∨ ∃ r, step = some (.numberLiteral (.int (.small 1)) r)) :
    IsAccess (.subscript value (.slice lower upper step range) own) (.slice lower upper)

/-- An integer literal below `2^31`. -/
inductive IsLiteral : Expr → Int → Prop
  | mk (word : UInt64) (range : TextRange) (small : word.toNat < 2 ^ 31) :
    IsLiteral (.numberLiteral (.int (.small word)) range) word.toNat

/-- A literal that versions are compared with. -/
inductive IsTarget : Expr → IntOrTuple → Prop
  | int {e : Expr} {n : Int} (h : IsLiteral e n) : IsTarget e (.int n)
  | tuple {elts : List Expr} {ns : List Int} (parenthesized : Bool) (range : TextRange)
    (h : List.Forall₂ IsLiteral elts ns) : IsTarget (.tuple elts parenthesized range) (.tuple ns)

/-- The value of an integer literal of any size below `2^64`. -/
def literalValue : Expr → Option Nat
  | .numberLiteral (.int (.small word)) _ => some word.toNat
  | _ => none

/-- A bound of a slice, absent or a literal. -/
def boundValue (absent : Nat) : Option Expr → Option Nat
  | none => some absent
  | some bound => literalValue bound

/-- The component or the slice of the version that an access selects. -/
def VersionAccess.selected (major minor : Int) : VersionAccess → Option IntOrTuple
  | .whole => some (.tuple [major, minor])
  | .index i =>
    match literalValue i with
    | some 0 => some (.int major)
    | some 1 => some (.int minor)
    | _ => none
  | .slice lower upper =>
    match boundValue 0 lower, boundValue 2 upper with
    | some lo, some hi =>
      if lo < hi ∧ hi ≤ 2 then some (.tuple (([major, minor].take hi).drop lo)) else none
    | _, _ => none

/-- A component is compared with an integer, and a slice with a tuple as long. A shorter tuple is
compared by order only. -/
def CmpOp.supports (op : CmpOp) : IntOrTuple → IntOrTuple → Bool
  | .int _, .int _ => true
  | .tuple xs, .tuple ys =>
    ys.length = xs.length || (ys.length < xs.length && op ≠ .eq && op ≠ .notEq)
  | _, _ => false

/-- What is compared with the literal, where the comparison is supported. -/
def VersionAccess.operand (o : Options) (op : CmpOp) (target : IntOrTuple)
    (access : VersionAccess) : Option IntOrTuple :=
  (access.selected o.pythonVersion.1.toNat o.pythonVersion.2.toNat).filter (op.supports · target)

end Accesses

section Recognition

theorem exprToInt_eq (e : Expr) :
    exprToInt e = (literalValue e).bind fun n => if n < 2 ^ 31 then some (n : Int) else none := by
  unfold exprToInt literalValue
  split
  · rename_i value range
    cases value <;> rfl
  · rename_i other
    split
    · rename_i word range
      exact absurd rfl (other (.small word) range)
    · rfl

theorem isSysAttr_whole {e : Expr} (h : IsAccess e .whole) : isSysAttr "version_info" e = true := by
  cases h
  simp [isSysAttr]

/-- The bounds that the analysis reads. -/
def VersionAccess.recognized : VersionAccess → Option SysVersionInfo
  | .whole => some .whole
  | .index i => (exprToInt i).map .index
  | .slice lower upper => do
    let lo ← sliceBound lower
    let hi ← sliceBound upper
    some (.slice lo hi)

theorem containsSysVersionInfo_access {e : Expr} {access : VersionAccess} (h : IsAccess e access) :
    containsSysVersionInfo e = access.recognized := by
  cases h with
  | whole base attr own => rfl
  | index own h noSlice =>
    rename_i value i
    simp only [containsSysVersionInfo, isSysAttr_whole h, if_true, VersionAccess.recognized]
    cases i with
    | slice lower upper step range => exact absurd rfl (noSlice lower upper step range)
    | numberLiteral number range => rfl
    | _ => rfl
  | slice lower upper own range h one =>
    simp only [containsSysVersionInfo, isSysAttr_whole h, if_true, VersionAccess.recognized]
    rcases one with rfl | ⟨r, rfl⟩
    · simp [sliceBound]
    · simp [sliceBound, exprToInt, IntLiteral.asI32]

theorem asI32_small {word : UInt64} (small : word.toNat < 2 ^ 31) :
    (IntLiteral.small word).asI32 = some (word.toNat : Int) := if_pos small

theorem exprToInt_literal {e : Expr} {n : Int} (h : IsLiteral e n) : exprToInt e = some n := by
  cases h with
  | mk word range small => exact asI32_small small

theorem exprsToInts_literals {elts : List Expr} {ns : List Int}
    (h : List.Forall₂ IsLiteral elts ns) : exprsToInts elts = some ns := by
  induction h with
  | nil => rfl
  | cons head tail ih => simp [exprsToInts, exprToInt_literal head, ih]

theorem containsIntOrTupleOfInts_target {e : Expr} {target : IntOrTuple} (h : IsTarget e target) :
    containsIntOrTupleOfInts e = some target := by
  cases h with
  | int h =>
    cases h with
    | mk word range small => simp [containsIntOrTupleOfInts, asI32_small small]
  | tuple parenthesized range h => simp [containsIntOrTupleOfInts, exprsToInts_literals h]

theorem containsSysVersionInfo_target {e : Expr} {target : IntOrTuple} (h : IsTarget e target) :
    containsSysVersionInfo e = none := by
  cases h with
  | int h => cases h; rfl
  | tuple parenthesized range h => rfl

end Recognition

section Comparison

variable {o : Options} {op : CmpOp}

/-- Both components of the configured version survive the cast to `i32`. -/
def Options.versionFits (o : Options) : Prop :=
  o.pythonVersion.1.toNat < 2 ^ 31 ∧ o.pythonVersion.2.toNat < 2 ^ 31

theorem castI32_small {component : UInt32} (small : component.toNat < 2 ^ 31) :
    castI32 component = component.toNat :=
  castI32_of_fits (decide_eq_true (by omega))

/-- What the analysis makes of the operand that Python would compare, if there is one. -/
structure Verdict (op : CmpOp) (target : IntOrTuple) (operand : Option IntOrTuple)
    (truth : TruthValue) : Prop where
  decided : ∀ s, operand = some s → ∃ b, Decides op s.value target.value truth b
  unknown : operand = none → truth = .unknown

theorem verdict_unknown (op : CmpOp) (target : IntOrTuple) : Verdict op target none .unknown :=
  ⟨by simp, fun _ => rfl⟩

theorem versionSlice_eq (fits : o.versionFits) (lo hi : Nat) :
    versionSlice o lo hi = if lo < hi ∧ hi ≤ 2 then
      some (([(o.pythonVersion.1.toNat : Int), (o.pythonVersion.2.toNat : Int)].take hi).drop lo)
    else none := by
  have major := castI32_small fits.1
  have minor := castI32_small fits.2
  unfold versionSlice
  by_cases inside : lo < hi ∧ hi ≤ 2
  · obtain ⟨rfl, rfl⟩ | ⟨rfl, rfl⟩ | ⟨rfl, rfl⟩ :
        (lo = 0 ∧ hi = 1) ∨ (lo = 0 ∧ hi = 2) ∨ (lo = 1 ∧ hi = 2) := by omega
    · simp [major]
    · simp [major, minor]
    · simp [minor]
  · rw [if_neg inside, if_pos (by omega)]

theorem compareVersionSlice_verdict (standard : isStandardComparison op = true)
    (o : Options) (lo hi : Int) (target : List Int) :
    Verdict op (.tuple target)
      (((versionSlice o lo hi).map .tuple).filter (op.supports · (.tuple target)))
      (compareVersionSlice o lo hi op target) := by
  unfold compareVersionSlice
  cases versionSlice o lo hi with
  | none => exact verdict_unknown _ _
  | some version =>
    have same : op.supports (.tuple version) (.tuple target) = true ↔
        version.length = target.length
          ∨ (version.length > target.length ∧ op ≠ .eq ∧ op ≠ .notEq) := by
      simp only [CmpOp.supports, Bool.or_eq_true, Bool.and_eq_true, decide_eq_true_eq, and_assoc,
        gt_iff_lt, eq_comm (a := version.length)]
    by_cases supported : op.supports (.tuple version) (.tuple target) = true
    · simp only [if_pos (same.mp supported)]
      constructor
      · intro s hs
        simp only [Option.map_some, Option.filter_some, supported, if_true, Option.some.injEq] at hs
        subst hs
        exact decides_tuples version target op standard
      · simp [supported]
    · simp only [if_neg fun h => supported (same.mpr h)]
      have filtered : ((some version).map IntOrTuple.tuple).filter (op.supports · (.tuple target))
          = none := by
        simp [Option.filter, supported]
      rw [filtered]
      exact verdict_unknown op (.tuple target)

theorem sliceBound_eq {absent : Nat} (small : absent < 2 ^ 31) (bound : Option Expr) :
    (sliceBound bound).map (·.getD absent)
      = (boundValue absent bound).bind fun n => if n < 2 ^ 31 then some (n : Int) else none := by
  cases bound with
  | none =>
    rw [boundValue, Option.bind_some, if_pos small]
    rfl
  | some e =>
    rw [boundValue, ← exprToInt_eq, sliceBound, Option.map_map]
    cases exprToInt e <;> rfl

theorem sliceBound_some {absent : Nat} (small : absent < 2 ^ 31) {bound : Option Expr}
    {value : Option Int} (h : sliceBound bound = some value) :
    ∃ n : Nat, boundValue absent bound = some n ∧ value.getD absent = n := by
  have eq := sliceBound_eq small bound
  rw [h, Option.map_some] at eq
  obtain ⟨n, hn, found⟩ := Option.bind_eq_some_iff.mp eq.symm
  split at found
  · exact ⟨n, hn, (Option.some.inj found).symm⟩
  · cases found

theorem sliceBound_none {absent : Nat} (small : absent < 2 ^ 31) {bound : Option Expr}
    (h : sliceBound bound = none) {n : Nat} (value : boundValue absent bound = some n) : 2 < n := by
  have eq := sliceBound_eq small bound
  rw [h, value, Option.map_none, Option.bind_some] at eq
  split at eq
  · cases eq
  · omega

/-- A bound that is not read selects nothing. -/
theorem selected_unread {lower upper : Option Expr} (major minor : Int)
    (unread : sliceBound lower = none ∨ sliceBound upper = none) :
    (VersionAccess.slice lower upper).selected major minor = none := by
  simp only [VersionAccess.selected]
  split
  · rename_i lo hi hlo hhi
    apply if_neg
    rintro ⟨less, most⟩
    rcases unread with unread | unread
    · have large := sliceBound_none (by decide) unread hlo
      omega
    · have large := sliceBound_none (by decide) unread hhi
      omega
  · rfl

theorem recognized_slice {lower upper : Option Expr} {index : SysVersionInfo}
    (h : (VersionAccess.slice lower upper).recognized = some index) :
    ∃ lo hi, sliceBound lower = some lo ∧ sliceBound upper = some hi ∧ index = .slice lo hi := by
  simp only [VersionAccess.recognized, Option.bind_eq_bind, Option.bind_eq_some_iff,
    Option.some.injEq] at h
  obtain ⟨lo, hlo, hi, hhi, rfl⟩ := h
  exact ⟨lo, hi, hlo, hhi, rfl⟩

/-- The part of the comparison behind the recognition of both operands. -/
def VersionAccess.outcome (o : Options) (op : CmpOp) (target : IntOrTuple)
    (access : VersionAccess) : TruthValue :=
  match access.recognized with
  | some found => compareVersion o found op target
  | none => .unknown

theorem verdict_of_supported {access : VersionAccess} {target s : IntOrTuple}
    (selected : access.selected o.pythonVersion.1.toNat o.pythonVersion.2.toNat = some s)
    (supported : op.supports s target = true)
    (decides : ∃ b, Decides op s.value target.value (access.outcome o op target) b) :
    Verdict op target (access.operand o op target) (access.outcome o op target) := by
  have operand : access.operand o op target = some s := by
    simp [VersionAccess.operand, selected, Option.filter, supported]
  rw [operand]
  refine ⟨?_, by simp⟩
  intro s' same
  cases same
  exact decides

theorem verdict_of_unsupported {access : VersionAccess} {target : IntOrTuple}
    (unsupported : ∀ s, access.selected o.pythonVersion.1.toNat o.pythonVersion.2.toNat = some s →
      op.supports s target = false)
    (unknown : access.outcome o op target = .unknown) :
    Verdict op target (access.operand o op target) (access.outcome o op target) := by
  have operand : access.operand o op target = none := by
    unfold VersionAccess.operand
    cases selected : access.selected o.pythonVersion.1.toNat o.pythonVersion.2.toNat with
    | none => rfl
    | some s => simp [Option.filter, unsupported s selected]
  rw [operand, unknown]
  exact verdict_unknown op target

theorem outcome_slice (standard : isStandardComparison op = true) (fits : o.versionFits)
    (lower upper : Option Expr) (target : List Int) :
    Verdict op (.tuple target) ((VersionAccess.slice lower upper).operand o op (.tuple target))
      ((VersionAccess.slice lower upper).outcome o op (.tuple target)) := by
  cases read : (VersionAccess.slice lower upper).recognized with
  | none =>
    have unread : sliceBound lower = none ∨ sliceBound upper = none := by
      cases hlo : sliceBound lower <;> cases hhi : sliceBound upper <;>
        simp_all [VersionAccess.recognized]
    apply verdict_of_unsupported
    · simp [selected_unread _ _ unread]
    · simp [VersionAccess.outcome, read]
  | some index =>
    obtain ⟨lo, hi, hlo, hhi, rfl⟩ := recognized_slice read
    obtain ⟨n, hn, loEq⟩ := sliceBound_some (by decide : 0 < 2 ^ 31) hlo
    obtain ⟨m, hm, hiEq⟩ := sliceBound_some (by decide : 2 < 2 ^ 31) hhi
    have selected : (VersionAccess.slice lower upper).selected o.pythonVersion.1.toNat
        o.pythonVersion.2.toNat = (versionSlice o n m).map .tuple := by
      simp only [VersionAccess.selected, hn, hm, versionSlice_eq fits]
      split <;> rfl
    have verdict := compareVersionSlice_verdict standard o n m target
    simpa [VersionAccess.operand, VersionAccess.outcome, read, selected, compareVersion, ← loEq,
      ← hiEq] using verdict

theorem literalValue_small {i : Expr} {n : Nat} (value : literalValue i = some n)
    (small : n < 2 ^ 31) : exprToInt i = some (n : Int) := by
  rw [exprToInt_eq, value, Option.bind_some, if_pos small]

theorem outcome_index (standard : isStandardComparison op = true) (fits : o.versionFits) (i : Expr)
    (target : Int) :
    Verdict op (.int target) ((VersionAccess.index i).operand o op (.int target))
      ((VersionAccess.index i).outcome o op (.int target)) := by
  have major := castI32_small fits.1
  have minor := castI32_small fits.2
  by_cases zero : literalValue i = some 0
  · have read := literalValue_small zero (by decide)
    apply verdict_of_supported (s := .int o.pythonVersion.1.toNat)
    · simp [VersionAccess.selected, zero]
    · rfl
    · simpa [VersionAccess.outcome, VersionAccess.recognized, read, compareVersion, major,
        IntOrTuple.value] using decides_ints _ target op standard
  by_cases one : literalValue i = some 1
  · have read := literalValue_small one (by decide)
    apply verdict_of_supported (s := .int o.pythonVersion.2.toNat)
    · simp [VersionAccess.selected, one]
    · rfl
    · simpa [VersionAccess.outcome, VersionAccess.recognized, read, compareVersion, minor,
        IntOrTuple.value] using decides_ints _ target op standard
  · apply verdict_of_unsupported
    · intro s selected
      simp [VersionAccess.selected] at selected
    · -- any other index is outside of the two components
      unfold VersionAccess.outcome
      cases read : exprToInt i with
      | none => simp [VersionAccess.recognized, read]
      | some n =>
        simp only [VersionAccess.recognized, read, Option.map_some, compareVersion]
        apply if_neg
        intro inside
        obtain ⟨word, range, rfl, rfl⟩ := exprToInt_some read
        have cases : word.toNat = 0 ∨ word.toNat = 1 := by omega
        simp only [literalValue, Option.some.injEq] at zero one
        omega

theorem outcome_verdict (standard : isStandardComparison op = true) (fits : o.versionFits)
    (access : VersionAccess) (target : IntOrTuple) :
    Verdict op target (access.operand o op target) (access.outcome o op target) := by
  cases access with
  | whole =>
    cases target with
    | int n => exact verdict_of_unsupported (by simp [VersionAccess.selected, CmpOp.supports]) rfl
    | tuple ns =>
      have verdict := compareVersionSlice_verdict standard o (0 : Nat) (2 : Nat) ns
      rw [versionSlice_eq fits] at verdict
      exact verdict
  | index i =>
    cases target with
    | int n => exact outcome_index standard fits i n
    | tuple ns =>
      apply verdict_of_unsupported
      · intro s selected
        simp only [VersionAccess.selected] at selected
        split at selected <;> cases selected <;> rfl
      · simp only [VersionAccess.outcome, VersionAccess.recognized]
        cases exprToInt i <;> rfl
  | slice lower upper =>
    cases target with
    | int n =>
      apply verdict_of_unsupported
      · intro s selected
        simp only [VersionAccess.selected] at selected
        split at selected
        · split at selected <;> cases selected
          rfl
        · cases selected
      · unfold VersionAccess.outcome
        cases read : (VersionAccess.slice lower upper).recognized with
        | none => rfl
        | some found =>
          obtain ⟨lo, hi, _, _, rfl⟩ := recognized_slice read
          rfl
    | tuple ns => exact outcome_slice standard fits lower upper ns

end Comparison

section Exact

variable {o : Options} {access : VersionAccess} {target : IntOrTuple} {left right : Expr}

theorem considerSysVersionInfo_left (isAccess : IsAccess left access) (isTarget : IsTarget right target)
    (op : CmpOp) (standard : isStandardComparison op = true) (range : TextRange) :
    considerSysVersionInfo o (.compare left [op] [right] range) = access.outcome o op target := by
  simp only [considerSysVersionInfo, standard, if_true, containsSysVersionInfo_access isAccess,
    containsIntOrTupleOfInts_target isTarget, containsSysVersionInfo_target isTarget]
  unfold VersionAccess.outcome
  cases access.recognized <;> rfl

theorem considerSysVersionInfo_right (isAccess : IsAccess left access)
    (isTarget : IsTarget right target) (op : CmpOp) (standard : isStandardComparison op = true)
    (range : TextRange) :
    considerSysVersionInfo o (.compare right [op] [left] range)
      = access.outcome o (reverseCmpOp op) target := by
  simp only [considerSysVersionInfo, standard, if_true, containsSysVersionInfo_target isTarget,
    containsSysVersionInfo_access isAccess, containsIntOrTupleOfInts_target isTarget]
  unfold VersionAccess.outcome
  cases access.recognized <;> rfl

/-- A comparison of an access with a literal, in both orders: decided as Python decides it where
the selection is supported, and not at all elsewhere. -/
structure VersionExact (o : Options) (op : CmpOp) (access : VersionAccess) (target : IntOrTuple)
    (left right : Expr) (range : TextRange) : Prop where
  decided : ∀ s, access.operand o op target = some s →
    ∃ b, comparison op s.value target.value = some b ∧
      considerSysVersionInfo o (.compare left [op] [right] range) = ofBool b
  decidedReversed : ∀ s, access.operand o op target = some s →
    ∃ b, comparison op target.value s.value = some b ∧
      considerSysVersionInfo o (.compare right [op] [left] range) = ofBool b
  unknown : access.operand o op target = none →
    considerSysVersionInfo o (.compare left [op] [right] range) = .unknown ∧
      considerSysVersionInfo o (.compare right [op] [left] range) = .unknown
  mirrored : considerSysVersionInfo o (.compare right [reverseCmpOp op] [left] range)
    = considerSysVersionInfo o (.compare left [op] [right] range)

theorem supports_reverse (op : CmpOp) (s t : IntOrTuple) :
    (reverseCmpOp op).supports s t = op.supports s t := by
  cases s <;> cases t <;> cases op <;> rfl

theorem considerSysVersionInfo_exact (o : Options) (fits : o.versionFits) (op : CmpOp)
    (standard : isStandardComparison op = true) (isAccess : IsAccess left access)
    (isTarget : IsTarget right target) (range : TextRange) :
    VersionExact o op access target left right range := by
  have forth := considerSysVersionInfo_left (o := o) isAccess isTarget op standard range
  have back := considerSysVersionInfo_right (o := o) isAccess isTarget op standard range
  have verdict := outcome_verdict standard fits access target
  have reversed := outcome_verdict (reverse_standard standard) fits access target
  have same : access.operand o (reverseCmpOp op) target = access.operand o op target := by
    simp only [VersionAccess.operand, supports_reverse]
  rw [same] at reversed
  constructor
  · intro s selected
    obtain ⟨b, decides⟩ := verdict.decided s selected
    exact ⟨b, decides.direct, forth.trans decides.truth⟩
  · intro s selected
    obtain ⟨b, decides⟩ := reversed.decided s selected
    have mirrored := decides.mirrored
    rw [reverse_reverse] at mirrored
    exact ⟨b, mirrored, back.trans decides.truth⟩
  · intro missing
    exact ⟨forth.trans (verdict.unknown missing), back.trans (reversed.unknown missing)⟩
  · rw [considerSysVersionInfo_right isAccess isTarget _ (reverse_standard standard),
      reverse_reverse, forth]

/-- `sys.version_info[:2] > (3,)` with version 3.12, where the tuple is shorter. -/
theorem considerSysVersionInfo_exact_shorter :
    ∃ b, comparison .gt (intTuple [3, 12]) (intTuple [3]) = some b ∧
      considerSysVersionInfo .default
        (.compare (.subscript (.attribute (.name "sys" ⟨0, 3⟩) ⟨"version_info", ⟨4, 16⟩⟩ ⟨0, 16⟩)
            (.slice none (some (.numberLiteral (.int (.small 2)) ⟨18, 19⟩)) none ⟨17, 19⟩) ⟨0, 20⟩)
          [.gt] [.tuple [.numberLiteral (.int (.small 3)) ⟨24, 25⟩] true ⟨23, 27⟩] ⟨0, 27⟩)
        = ofBool b :=
  (considerSysVersionInfo_exact .default ⟨by decide, by decide⟩ .gt rfl
    (.slice none (some (.numberLiteral (.int (.small 2)) ⟨18, 19⟩)) _ _ (.whole _ _ _) (.inl rfl))
    (.tuple true ⟨23, 27⟩ (.cons (.mk 3 ⟨24, 25⟩ (by decide)) .nil)) ⟨0, 27⟩).decided
    (.tuple [3, 12]) rfl

end Exact

end AstSerialize
