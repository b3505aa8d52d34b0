import Mathlib.Data.List.Basic
import Mathlib.Logic.Function.Iterate
import Mathlib.Order.WellFounded

/-! Mutual recursion as one step. A call consults the calls that it makes and no
others; if no call makes calls without end, the step has one solution, and enough
unrollings of it compute the solution. -/
namespace Coding

/-- The bodies of recursive functions, over a type of their calls. -/
structure Recursion (κ α : Type) where
  callees : κ → List κ
  step : (κ → α) → κ → α
  consults : ∀ f g k, (∀ callee ∈ callees k, f callee = g callee) → step f k = step g k

namespace Recursion

variable {κ α : Type} (r : Recursion κ α)

def Calls (callee caller : κ) : Prop := callee ∈ r.callees caller

/-- No chain of calls is infinite. -/
def Terminates : Prop := WellFounded r.Calls

def Solves (f : κ → α) : Prop := ∀ k, f k = r.step f k

variable {r}

/-- A measure that every call decreases. -/
theorem terminates_of_measure {μ : Type} {lt : μ → μ → Prop} (wf : WellFounded lt) (measure : κ → μ)
    (decreases : ∀ caller, ∀ callee ∈ r.callees caller, lt (measure callee) (measure caller)) :
    r.Terminates := by
  apply Subrelation.wf (r := InvImage lt measure)
  · intro callee caller called
    exact decreases caller callee called
  · exact InvImage.wf measure wf

theorem Solves.unique (terminates : r.Terminates) {f g : κ → α} (solves : r.Solves f)
    (solves' : r.Solves g) : f = g := by
  funext k
  induction k using terminates.induction with
  | _ k ih =>
    rw [solves k, solves' k]
    exact r.consults f g k ih

/-- A bound for finitely many calls. -/
theorem exists_bound (calls : List κ) (P : Nat → κ → Prop)
    (mono : ∀ n m k, n ≤ m → P n k → P m k) (each : ∀ k ∈ calls, ∃ n, P n k) :
    ∃ n, ∀ k ∈ calls, P n k := by
  induction calls with
  | nil => exact ⟨0, fun k mem => absurd mem List.not_mem_nil⟩
  | cons call calls ih =>
    rw [List.forall_mem_cons] at each
    obtain ⟨n, first⟩ := each.1
    obtain ⟨m, others⟩ := ih each.2
    refine ⟨max n m, ?_⟩
    rw [List.forall_mem_cons]
    constructor
    · exact mono n _ call (Nat.le_max_left n m) first
    · intro k mem
      exact mono m _ k (Nat.le_max_right n m) (others k mem)

/-- After some number of unrollings a call does not reach what is below them. -/
theorem Solves.unrolls (terminates : r.Terminates) {f : κ → α} (solves : r.Solves f) (k : κ) :
    ∃ n, ∀ m, n ≤ m → ∀ below, r.step^[m] below k = f k := by
  induction k using terminates.induction with
  | _ k ih =>
    obtain ⟨n, bound⟩ := exists_bound (r.callees k)
      (fun n k => ∀ m, n ≤ m → ∀ below, r.step^[m] below k = f k)
      (fun n m k le from_n l from_m => from_n l (Nat.le_trans le from_m)) ih
    refine ⟨n + 1, fun m le below => ?_⟩
    obtain ⟨m, rfl⟩ := Nat.exists_eq_add_of_le' le
    rw [← Nat.add_assoc, Function.iterate_succ_apply', solves k]
    apply r.consults
    intro callee called
    exact bound callee called (m + n) (Nat.le_add_left n m) below

end Recursion

end Coding
