import Mathlib.Data.Bool.Basic
import Mathlib.Data.List.Basic
import Mathlib.Data.List.Forall2
import Mathlib.Data.List.Nodup
import Mathlib.Tactic.ByContra

/-! Strong Kleene logic. A verdict is a truth value or open; the verdict of a
formula is what is known of it when some of its atoms are open. -/
namespace Kleene

abbrev Verdict := Option Bool

namespace Verdict

/-- More is known. -/
def Refines (v w : Verdict) : Prop := ∀ b, v = some b → w = some b

theorem Refines.refl (v : Verdict) : Refines v v := fun _ known => known

theorem open_refines (w : Verdict) : Refines none w := by
  intro b known
  cases known

def negate (v : Verdict) : Verdict := v.map (!·)

theorem negate_eq_some {v : Verdict} {b : Bool} : v.negate = some b ↔ v = some !b := by
  cases v with
  | none => exact ⟨fun h => (nomatch h), fun h => (nomatch h)⟩
  | some c => cases b <;> cases c <;> decide

theorem Refines.negate {v w : Verdict} (refines : Refines v w) : Refines v.negate w.negate := by
  intro b known
  exact negate_eq_some.mpr (refines _ (negate_eq_some.mp known))

/-- The junction whose operands the value `d` decides: a disjunction for `true`, a conjunction for
`false`. -/
def junction (d : Bool) (vs : List Verdict) : Verdict :=
  if some d ∈ vs then some d else if vs.all (· = some !d) then some !d else none

theorem junction_decided {d : Bool} {vs : List Verdict} :
    junction d vs = some d ↔ some d ∈ vs := by
  unfold junction
  split
  case isTrue decided => exact ⟨fun _ => decided, fun _ => rfl⟩
  case isFalse undecided =>
    refine ⟨fun h => ?_, fun mem => absurd mem undecided⟩
    split at h <;> cases d <;> cases h

theorem junction_other {d : Bool} {vs : List Verdict} :
    junction d vs = some !d ↔ ∀ v ∈ vs, v = some !d := by
  unfold junction
  split
  case isTrue decided =>
    constructor
    · intro h
      cases d <;> cases h
    · intro all
      have clash := all _ decided
      cases d <;> cases clash
  case isFalse =>
    have decided : vs.all (· = some !d) = true ↔ ∀ v ∈ vs, v = some !d := by
      simp only [List.all_eq_true, decide_eq_true_eq]
    split
    case isTrue all => exact ⟨fun _ => decided.mp all, fun _ => rfl⟩
    case isFalse other =>
      constructor
      · intro h
        cases h
      · intro all
        exact absurd (decided.mpr all) other

/-- A junction is known by what decides it. -/
theorem junction_ext {d : Bool} {vs : List Verdict} {v : Verdict}
    (decided : v = some d ↔ some d ∈ vs) (other : v = some (!d) ↔ ∀ w ∈ vs, w = some !d) :
    junction d vs = v := by
  apply Option.ext
  intro b
  rcases Bool.eq_or_eq_not b d with rfl | rfl
  · exact junction_decided.trans decided.symm
  · exact junction_other.trans other.symm

theorem junction_mono {d : Bool} {vs ws : List Verdict} (refines : List.Forall₂ Refines vs ws) :
    Refines (junction d vs) (junction d ws) := by
  intro b known
  rcases Bool.eq_or_eq_not b d with rfl | rfl
  · rw [junction_decided] at known ⊢
    induction refines with
    | nil => exact known
    | cons here _ ih =>
      rcases List.mem_cons.mp known with first | later
      · rw [← here _ first.symm]
        exact List.mem_cons_self
      · exact List.mem_cons_of_mem _ (ih later)
  · rw [junction_other] at known ⊢
    induction refines with
    | nil => exact known
    | cons here _ ih =>
      obtain ⟨first, rest⟩ := List.forall_mem_cons.mp known
      exact List.forall_mem_cons.mpr ⟨here _ first, ih rest⟩

/-- De Morgan. -/
theorem negate_junction (d : Bool) (vs : List Verdict) :
    (junction d vs).negate = junction (!d) (vs.map negate) := by
  symm
  apply junction_ext
  · rw [negate_eq_some, Bool.not_not, junction_decided, List.mem_map]
    constructor
    · intro mem
      exact ⟨_, mem, by cases d <;> rfl⟩
    · rintro ⟨v, mem, eq⟩
      rw [negate_eq_some, Bool.not_not] at eq
      exact eq ▸ mem
  · rw [negate_eq_some, Bool.not_not, Bool.not_not, junction_other, List.forall_mem_map]
    apply forall₂_congr
    intro v _
    rw [negate_eq_some]

end Verdict

open Verdict

inductive Formula (α : Type) where
  | atom (a : α)
  | not (f : Formula α)
  | junction (d : Bool) (fs : List (Formula α))

namespace Formula

variable {α : Type}

mutual

/-- What is known of a formula when the atoms have the verdicts `ρ`. -/
def verdict (ρ : α → Verdict) : Formula α → Verdict
  | .atom a => ρ a
  | .not f => (f.verdict ρ).negate
  | .junction d fs => Verdict.junction d (verdicts ρ fs)

def verdicts (ρ : α → Verdict) : List (Formula α) → List Verdict
  | [] => []
  | f :: fs => f.verdict ρ :: verdicts ρ fs

end

mutual

/-- The truth value of a formula. -/
def holds (σ : α → Bool) : Formula α → Bool
  | .atom a => σ a
  | .not f => !f.holds σ
  | .junction d fs => if anyHolds σ d fs then d else !d

/-- Some formula of the list has the value `d`. -/
def anyHolds (σ : α → Bool) (d : Bool) : List (Formula α) → Bool
  | [] => false
  | f :: fs => f.holds σ == d || anyHolds σ d fs

end

mutual

/-- The occurrences of atoms that are open. -/
def opens (ρ : α → Verdict) : Formula α → List α
  | .atom a => if ρ a = none then [a] else []
  | .not f => f.opens ρ
  | .junction _ fs => allOpens ρ fs

def allOpens (ρ : α → Verdict) : List (Formula α) → List α
  | [] => []
  | f :: fs => f.opens ρ ++ allOpens ρ fs

end

mutual

/-- The formula with other atoms. -/
def map {β : Type} (g : α → β) : Formula α → Formula β
  | .atom a => .atom (g a)
  | .not f => .not (f.map g)
  | .junction d fs => .junction d (mapAll g fs)

def mapAll {β : Type} (g : α → β) : List (Formula α) → List (Formula β)
  | [] => []
  | f :: fs => f.map g :: mapAll g fs

end

mutual

theorem verdict_map {β : Type} (g : α → β) (ρ : β → Verdict) : ∀ f : Formula α,
    (f.map g).verdict ρ = f.verdict fun a => ρ (g a)
  | .atom _ => rfl
  | .not f => congrArg negate (verdict_map g ρ f)
  | .junction d fs => congrArg (Verdict.junction d) (verdicts_map g ρ fs)

theorem verdicts_map {β : Type} (g : α → β) (ρ : β → Verdict) : ∀ fs : List (Formula α),
    verdicts ρ (mapAll g fs) = verdicts (fun a => ρ (g a)) fs
  | [] => rfl
  | f :: fs => by rw [mapAll, verdicts, verdicts, verdict_map g ρ f, verdicts_map g ρ fs]

end

variable {ρ ρ' : α → Verdict} {σ σ' : α → Bool}

theorem mem_verdicts {v : Verdict} {fs : List (Formula α)} :
    v ∈ verdicts ρ fs ↔ ∃ f ∈ fs, f.verdict ρ = v := by
  induction fs with
  | nil => simp [verdicts]
  | cons f fs ih => simp [verdicts, ih, eq_comm]

theorem anyHolds_iff {d : Bool} {fs : List (Formula α)} :
    anyHolds σ d fs = true ↔ ∃ f ∈ fs, f.holds σ = d := by
  induction fs with
  | nil => simp [anyHolds]
  | cons f fs ih => simp [anyHolds, ih]

@[simp] theorem holds_junction_nil (d : Bool) : (junction d []).holds σ = !d := rfl

theorem holds_junction_cons (d : Bool) (f : Formula α) (fs : List (Formula α)) :
    (junction d (f :: fs)).holds σ = if f.holds σ = d then d else (junction d fs).holds σ := by
  simp only [holds, anyHolds, Bool.or_eq_true, beq_iff_eq]
  split
  case isTrue any =>
    split
    case isTrue => rfl
    case isFalse other => rw [if_pos (any.resolve_left other)]
  case isFalse none =>
    rw [not_or] at none
    rw [if_neg none.1, if_neg none.2]

theorem holds_decided {d : Bool} {fs : List (Formula α)} :
    (junction d fs).holds σ = d ↔ ∃ f ∈ fs, f.holds σ = d := by
  rw [← anyHolds_iff, holds]
  split
  case isTrue any => exact ⟨fun _ => any, fun _ => rfl⟩
  case isFalse none =>
    refine ⟨fun h => ?_, fun any => absurd any none⟩
    cases d <;> cases h

theorem holds_other {d : Bool} {fs : List (Formula α)} :
    (junction d fs).holds σ = (!d) ↔ ∀ f ∈ fs, f.holds σ = !d := by
  rw [Bool.eq_not_iff, Ne, holds_decided]
  constructor
  · intro none f mem
    exact Bool.eq_not_of_ne fun decided => none ⟨f, mem, decided⟩
  · rintro all ⟨f, mem, decided⟩
    exact Bool.not_ne_self d ((all f mem).symm.trans decided)

mutual

theorem verdict_mono (refines : ∀ a, Refines (ρ a) (ρ' a)) : ∀ f : Formula α,
    Refines (f.verdict ρ) (f.verdict ρ')
  | .atom a => refines a
  | .not f => (verdict_mono refines f).negate
  | .junction _ fs => junction_mono (verdicts_mono refines fs)

theorem verdicts_mono (refines : ∀ a, Refines (ρ a) (ρ' a)) : ∀ fs : List (Formula α),
    List.Forall₂ Refines (verdicts ρ fs) (verdicts ρ' fs)
  | [] => .nil
  | f :: fs => .cons (verdict_mono refines f) (verdicts_mono refines fs)

end

/-- The values agree with what is known. -/
def Extends (ρ : α → Verdict) (σ : α → Bool) : Prop := ∀ a b, ρ a = some b → σ a = b

mutual

/-- What is known of a formula is true of it. -/
theorem holds_of_verdict (extend : Extends ρ σ) : ∀ (f : Formula α) (b : Bool),
    f.verdict ρ = some b → f.holds σ = b
  | .atom a, b => extend a b
  | .not f, b => by
    intro known
    rw [verdict, negate_eq_some] at known
    rw [holds, holds_of_verdict extend f _ known, Bool.not_not]
  | .junction d fs, b => by
    intro known
    rcases Bool.eq_or_eq_not b d with rfl | rfl
    · rw [verdict, junction_decided, mem_verdicts] at known
      obtain ⟨f, mem, eq⟩ := known
      exact holds_decided.mpr ⟨f, mem, holds_of_verdicts extend fs f mem _ eq⟩
    · rw [verdict, junction_other] at known
      apply holds_other.mpr
      intro f mem
      exact holds_of_verdicts extend fs f mem _ (known _ (mem_verdicts.mpr ⟨f, mem, rfl⟩))

theorem holds_of_verdicts (extend : Extends ρ σ) : ∀ (fs : List (Formula α)), ∀ f ∈ fs,
    ∀ b : Bool, f.verdict ρ = some b → f.holds σ = b
  | [] => fun _ mem => absurd mem List.not_mem_nil
  | f :: fs => List.forall_mem_cons.mpr
    ⟨holds_of_verdict extend f, holds_of_verdicts extend fs⟩

end

mutual

/-- A formula depends on its open atoms. -/
theorem holds_congr (extend : Extends ρ σ) (extend' : Extends ρ σ') : ∀ f : Formula α,
    (∀ a ∈ f.opens ρ, σ a = σ' a) → f.holds σ = f.holds σ'
  | .atom a => by
    intro same
    rw [opens] at same
    cases known : ρ a with
    | none =>
      rw [if_pos known] at same
      exact same a (List.mem_singleton.mpr rfl)
    | some b => exact (extend a b known).trans (extend' a b known).symm
  | .not f => fun same => congrArg (!·) (holds_congr extend extend' f same)
  | .junction d fs => by
    intro same
    rw [holds, holds, anyHolds_congr extend extend' d fs same]

theorem anyHolds_congr (extend : Extends ρ σ) (extend' : Extends ρ σ') (d : Bool) :
    ∀ fs : List (Formula α), (∀ a ∈ allOpens ρ fs, σ a = σ' a) →
      anyHolds σ d fs = anyHolds σ' d fs
  | [] => fun _ => rfl
  | f :: fs => by
    intro same
    rw [allOpens, List.forall_mem_append] at same
    rw [anyHolds, anyHolds, holds_congr extend extend' f same.1,
      anyHolds_congr extend extend' d fs same.2]

end

/-- The values with others for the open atoms. -/
structure Adjusts (ρ : α → Verdict) (atoms : List α) (σ σ' : α → Bool) : Prop where
  extend : Extends ρ σ'
  elsewhere : ∀ a, a ∉ atoms → σ' a = σ a

theorem Adjusts.mono {atoms atoms' : List α} (adjusts : Adjusts ρ atoms σ σ')
    (sub : ∀ a ∈ atoms, a ∈ atoms') : Adjusts ρ atoms' σ σ' where
  extend := adjusts.extend
  elsewhere := fun a outside => adjusts.elsewhere a fun mem => outside (sub a mem)

mutual

/-- An open formula in which no open atom occurs twice can have either value. -/
theorem exists_holds [DecidableEq α] : ∀ (f : Formula α), (f.opens ρ).Nodup → f.verdict ρ = none →
    ∀ (b : Bool) (σ : α → Bool), Extends ρ σ → ∃ σ', Adjusts ρ (f.opens ρ) σ σ' ∧ f.holds σ' = b
  | .atom a => by
    intro _ unknown b σ extend
    rw [verdict] at unknown
    rw [opens, if_pos unknown]
    refine ⟨fun x => if x = a then b else σ x, ⟨?_, ?_⟩, ?_⟩
    · intro x c known
      by_cases same : x = a
      · rw [same, unknown] at known
        cases known
      · exact (if_neg same).trans (extend x c known)
    · intro x outside
      exact if_neg fun same => outside (List.mem_singleton.mpr same)
    · rw [holds, if_pos rfl]
  | .not f => by
    intro nodup unknown b σ extend
    have inner : f.verdict ρ = none := Option.map_eq_none_iff.mp unknown
    obtain ⟨σ', adjusts, value⟩ := exists_holds f nodup inner (!b) σ extend
    exact ⟨σ', adjusts, by rw [holds, value, Bool.not_not]⟩
  | .junction d fs => by
    intro nodup unknown b σ extend
    have undecided : some d ∉ verdicts ρ fs := by
      intro mem
      rw [verdict, junction_decided.mpr mem] at unknown
      cases unknown
    rcases Bool.eq_or_eq_not b d with rfl | rfl
    · have other : ¬ ∀ v ∈ verdicts ρ fs, v = some !b := by
        intro all
        rw [verdict, junction_other.mpr all] at unknown
        cases unknown
      obtain ⟨f, mem, σ', adjusts, value⟩ := exists_anyHolds fs nodup b undecided other σ extend
      exact ⟨σ', adjusts, holds_decided.mpr ⟨f, mem, value⟩⟩
    · obtain ⟨σ', adjusts, values⟩ := exists_allHold fs nodup d undecided σ extend
      exact ⟨σ', adjusts, holds_other.mpr values⟩

theorem exists_anyHolds [DecidableEq α] : ∀ (fs : List (Formula α)), (allOpens ρ fs).Nodup →
    ∀ d : Bool, some d ∉ verdicts ρ fs → (¬ ∀ v ∈ verdicts ρ fs, v = some !d) →
    ∀ σ : α → Bool, Extends ρ σ →
      ∃ f ∈ fs, ∃ σ', Adjusts ρ (allOpens ρ fs) σ σ' ∧ f.holds σ' = d
  | [] => fun _ _ _ other => absurd (fun _ mem => absurd mem List.not_mem_nil) other
  | f :: fs => by
    intro nodup d undecided other σ extend
    rw [allOpens, List.nodup_append] at nodup
    rw [verdicts, List.mem_cons, not_or] at undecided
    cases known : f.verdict ρ with
    | none =>
      obtain ⟨σ', adjusts, value⟩ := exists_holds f nodup.1 known d σ extend
      exact ⟨f, List.mem_cons_self, σ', adjusts.mono fun a mem => List.mem_append_left _ mem, value⟩
    | some b =>
      have first : f.verdict ρ = some !d := by
        rcases Bool.eq_or_eq_not b d with rfl | rfl
        · exact absurd known.symm undecided.1
        · exact known
      have rest : ¬ ∀ v ∈ verdicts ρ fs, v = some !d := by
        intro all
        exact other (List.forall_mem_cons.mpr ⟨first, all⟩)
      obtain ⟨g, mem, σ', adjusts, value⟩ :=
        exists_anyHolds fs nodup.2.1 d undecided.2 rest σ extend
      exact ⟨g, List.mem_cons_of_mem _ mem, σ',
        adjusts.mono fun a mem => List.mem_append_right _ mem, value⟩

theorem exists_allHold [DecidableEq α] : ∀ (fs : List (Formula α)), (allOpens ρ fs).Nodup →
    ∀ d : Bool, some d ∉ verdicts ρ fs → ∀ σ : α → Bool, Extends ρ σ →
      ∃ σ', Adjusts ρ (allOpens ρ fs) σ σ' ∧ ∀ f ∈ fs, f.holds σ' = !d
  | [] => fun _ _ _ σ extend => ⟨σ, ⟨extend, fun _ _ => rfl⟩, fun _ mem => absurd mem List.not_mem_nil⟩
  | f :: fs => by
    intro nodup d undecided σ extend
    rw [allOpens, List.nodup_append] at nodup
    obtain ⟨nodupFirst, nodupRest, disjoint⟩ := nodup
    rw [verdicts, List.mem_cons, not_or] at undecided
    obtain ⟨σ₁, first, value⟩ : ∃ σ₁, Adjusts ρ (f.opens ρ) σ σ₁ ∧ f.holds σ₁ = !d := by
      cases known : f.verdict ρ with
      | none => exact exists_holds f nodupFirst known _ σ extend
      | some b =>
        refine ⟨σ, ⟨extend, fun _ _ => rfl⟩, ?_⟩
        rw [holds_of_verdict extend f b known]
        apply Bool.eq_not_of_ne
        rintro rfl
        exact undecided.1 known.symm
    obtain ⟨σ₂, rest, values⟩ := exists_allHold fs nodupRest d undecided.2 σ₁ first.extend
    refine ⟨σ₂, ⟨rest.extend, ?_⟩, List.forall_mem_cons.mpr ⟨?_, values⟩⟩
    · intro a outside
      rw [allOpens, List.mem_append, not_or] at outside
      rw [rest.elsewhere a outside.2, first.elsewhere a outside.1]
    · rw [← value]
      apply holds_congr rest.extend first.extend
      intro a mem
      exact rest.elsewhere a fun later => disjoint a mem a later rfl

end

/-- Where no open atom occurs twice, a verdict is exactly what all values agree on. -/
theorem verdict_eq_some_iff [DecidableEq α] {f : Formula α} (nodup : (f.opens ρ).Nodup) (b : Bool) :
    f.verdict ρ = some b ↔ ∀ σ, Extends ρ σ → f.holds σ = b := by
  constructor
  · intro known σ extend
    exact holds_of_verdict extend f b known
  · intro all
    have start : Extends ρ fun a => (ρ a).getD true := by
      intro a c known
      exact congrArg (·.getD true) known
    cases known : f.verdict ρ with
    | none =>
      obtain ⟨σ, adjusts, value⟩ := exists_holds f nodup known (!b) _ start
      exact absurd ((all σ adjusts.extend).symm.trans value).symm (Bool.not_ne_self b)
    | some c => rw [← all _ start, holds_of_verdict start f c known]

end Formula

end Kleene
