import Mathlib.Algebra.Group.Defs
import AstSerialize.Coding.Emits

/-! What actions add to a measure of their state, if they return. Whether they
do is left open, so nothing has to be known about where they fail. -/
namespace Coding

variable {σ A : Type} [AddMonoid A]

/-- From a state of the kind `I` the action, if it returns, leaves a state of the kind `J` and has
added `a` to the measure. -/
def Gains (f : σ → A) (I : σ → Prop) (m : StateT σ Option Unit) (a : A) (J : σ → Prop) : Prop :=
  ∀ s s', I s → m.run s = some ((), s') → J s' ∧ f s' = f s + a

namespace Gains

variable {f : σ → A} {I J K : σ → Prop} {m : StateT σ Option Unit}
  {k : Unit → StateT σ Option Unit} {a b : A}

theorem pure : Gains f I (Pure.pure ()) 0 I := by
  intro s s' kind run
  cases run
  exact ⟨kind, (add_zero _).symm⟩

theorem fails (never : ∀ s, m.run s = none) : Gains f I m a J := by
  intro s s' _ run
  rw [never s] at run
  cases run

theorem bind (first : Gains f I m a J) (next : Gains f J (k ()) b K) :
    Gains f I (m >>= k) (a + b) K := by
  intro s s' kind run
  rw [StateT.run_bind, Option.bind_eq_bind, Option.bind_eq_some_iff] at run
  obtain ⟨⟨⟨⟩, t⟩, run₁, run₂⟩ := run
  obtain ⟨kind, here⟩ := first s t kind run₁
  obtain ⟨kind, there⟩ := next t s' kind run₂
  exact ⟨kind, by rw [there, here, add_assoc]⟩

theorem congr (h : Gains f I m a J) (eq : a = b) : Gains f I m b J := eq ▸ h

/-- A first action that adds nothing. -/
theorem pass (first : Gains f I m 0 J) (next : Gains f J (k ()) a K) : Gains f I (m >>= k) a K :=
  (first.bind next).congr (zero_add a)

/-- A first action after which nothing is added. -/
theorem close (first : Gains f I m a J) (rest : Gains f J (k ()) 0 K) : Gains f I (m >>= k) a K :=
  (first.bind rest).congr (add_zero a)

theorem read {α : Type} {g : σ → α} {k : α → StateT σ Option Unit}
    (next : ∀ s, I s → Gains f I (k (g s)) a J) : Gains f I ((g <$> get) >>= k) a J :=
  fun s s' kind run => next s kind s s' kind run

theorem modify {g : σ → σ} (moves : ∀ s, I s → J (g s)) (adds : ∀ s, f (g s) = f s + a) :
    Gains f I (modify g) a J := by
  intro s s' kind run
  cases run
  exact ⟨moves s kind, adds s⟩

end Gains

end Coding
