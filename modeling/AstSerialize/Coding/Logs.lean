import Mathlib.Algebra.Group.Defs
import AstSerialize.Coding.Emits

/-! Actions that add to a log. What an action adds does not depend on what is in
the log already, and neither does whether it fails. -/
namespace Coding

variable {σ V β A : Type} [AddMonoid A]

/-- Where a log goes when `e` is added to it, if the action does not fail. -/
def adds (ok : Bool) (e : A) (a : A) : Option A := if ok then some (a + e) else none

theorem adds_zero : adds true (0 : A) = some := by
  funext a
  simp [adds]

theorem adds_kleisli (p q : Bool) (e e' : A) :
    (adds p e >=> adds q e') = adds (p && q) (e + e') := by
  funext a
  cases p <;> cases q <;> simp [adds, Bind.kleisliRight, add_assoc]

/-- The action emits `w` and adds `e` to the log, which `ι` puts into the view; unless `ok` holds
it fails. -/
def Logs (P : Port σ V β) (ι : A → V) (m : StateT σ Option Unit) (ok : Bool) (e : A)
    (w : List β) : Prop :=
  Threads P ι m (adds ok e) w

namespace Logs

variable {P : Port σ V β} {ι κ : A → V} {m : StateT σ Option Unit}
  {k : Unit → StateT σ Option Unit} {p q : Bool} {e e' : A} {w : List β} {ws : List (List β)}

theorem congr {w' : List β} (h : Logs P ι m p e w) (eq : w = w') : Logs P ι m p e w' := eq ▸ h

theorem quiet (h : ∀ a, Emits P m (ι a) w (ι a)) : Logs P ι m true 0 w := by
  rw [Logs, adds_zero]
  exact .still h

theorem adding (h : ∀ a, Emits P m (ι a) w (ι (a + e))) : Logs P ι m true e w := h

theorem fails (h : ∀ a, Panics P m (ι a)) : Logs P ι m false e w := h

theorem emits (h : Logs P ι m true e w) (a : A) : Emits P m (ι a) w (ι (a + e)) :=
  Threads.emits h rfl

theorem panics (h : Logs P ι m false e w) (a : A) : Panics P m (ι a) :=
  Threads.panics h rfl

theorem bind {w₁ w₂ : List β} (first : Logs P ι m p e w₁) (next : Logs P ι (k ()) q e' w₂) :
    Logs P ι (m >>= k) (p && q) (e + e') (w₁ ++ w₂) := by
  rw [Logs, ← adds_kleisli]
  exact Threads.bind first next

/-- The form of `bind` that walks along an output listed field by field. -/
theorem step (first : Logs P ι m p e w) (next : Logs P ι (k ()) q e' ws.flatten) :
    Logs P ι (m >>= k) (p && q) (e + e') (w :: ws).flatten := by
  rw [List.flatten_cons]
  exact first.bind next

theorem last (h : Logs P ι m p e w) : Logs P ι m p e [w].flatten := by
  rwa [List.flatten_singleton]

theorem pass (first : ∀ a, Emits P m (ι a) w (ι a)) (next : Logs P ι (k ()) q e' ws.flatten) :
    Logs P ι (m >>= k) q e' (w :: ws).flatten := by
  have both := (quiet first).step next
  rwa [Bool.true_and, zero_add] at both

/-- A first step that may fail and leaves the log alone. -/
theorem guard (first : Logs P ι m p 0 w) (next : Logs P ι (k ()) q e' ws.flatten) :
    Logs P ι (m >>= k) (p && q) e' (w :: ws).flatten := by
  have both := first.step next
  rwa [zero_add] at both

theorem guarded (first : Logs P ι m p e w) (next : Logs P ι (k ()) q 0 ws.flatten) :
    Logs P ι (m >>= k) (p && q) e (w :: ws).flatten := by
  have both := first.step next
  rwa [add_zero] at both

theorem close (first : Logs P ι m p e w) (rest : ∀ a, Emits P (k ()) (ι a) ws.flatten (ι a)) :
    Logs P ι (m >>= k) p e (w :: ws).flatten := by
  have both := first.step (quiet rest)
  rwa [Bool.and_true, add_zero] at both

theorem skip (first : ∀ a, Emits P m (ι a) [] (ι a)) (next : Logs P ι (k ()) q e' w) :
    Logs P ι (m >>= k) q e' w := by
  have both := (quiet first).bind next
  rwa [Bool.true_and, zero_add] at both

/-- Reading a value that the rest of the view determines. -/
theorem read {α : Type} {f : σ → α} {g : V → α} {x : α} {k : α → StateT σ Option Unit}
    (sees : ∀ s, f s = g (P.view s)) (same : ∀ a, g (ι a) = x) (next : Logs P ι (k x) p e w) :
    Logs P ι ((f <$> get) >>= k) p e w := by
  intro a
  rw [← same a] at next
  cases p with
  | true => exact .read sees (next.emits a)
  | false => exact .read sees (next.panics a)

/-- An action between two updates that change the rest of the view and change it back. -/
theorem within {enter leave : StateT σ Option Unit} (h : Logs P κ m p e w)
    (enters : ∀ a, Emits P enter (ι a) [] (κ a)) (leaves : ∀ a, Emits P leave (κ a) [] (ι a)) :
    Logs P ι (do enter; m; leave) p e w := by
  intro a
  cases p with
  | false => exact .after (enters a) (h.panics a).bind
  | true =>
    have inside := (h.emits a).bind (k := fun _ => leave) (leaves _)
    rw [List.append_nil] at inside
    exact .skip (enters a) inside

end Logs

end Coding
