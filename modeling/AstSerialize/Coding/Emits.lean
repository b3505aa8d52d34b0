import Mathlib.Data.List.Basic

/-! Actions that append to an output and move a visible part of their state.
The state may hold more than the port shows; the rest is unconstrained. The
rules follow the shape of a program, so a proof about an action is laid out as
the action is. -/
namespace Coding

/-- What an observer sees of a state: a view of it and the output written so far. -/
structure Port (σ V β : Type) where
  view : σ → V
  out : σ → List β

variable {σ V β α : Type}

/-- From every state with view `v` the action returns, appends exactly `w` and leaves view `v'`. -/
def Emits (P : Port σ V β) (m : StateT σ Option Unit) (v : V) (w : List β) (v' : V) : Prop :=
  ∀ s, P.view s = v → ∃ s', m.run s = some ((), s') ∧ P.view s' = v' ∧ P.out s' = P.out s ++ w

namespace Emits

variable {P : Port σ V β} {m : StateT σ Option Unit} {v v₁ v₂ : V} {w : List β}
  {ws : List (List β)}

theorem pure : Emits P (Pure.pure ()) v [] v := by
  intro s hs
  exact ⟨s, rfl, hs, (List.append_nil _).symm⟩

theorem bind {k : Unit → StateT σ Option Unit} {w₁ w₂ : List β}
    (first : Emits P m v w₁ v₁) (next : Emits P (k ()) v₁ w₂ v₂) :
    Emits P (m >>= k) v (w₁ ++ w₂) v₂ := by
  intro s hs
  obtain ⟨s₁, run₁, view₁, out₁⟩ := first s hs
  obtain ⟨s₂, run₂, view₂, out₂⟩ := next s₁ view₁
  refine ⟨s₂, ?_, view₂, ?_⟩
  · rw [StateT.run_bind, run₁]
    exact run₂
  · rw [out₂, out₁, List.append_assoc]

/-- The form of `bind` that walks along an output listed field by field. -/
theorem step {k : Unit → StateT σ Option Unit}
    (first : Emits P m v w v₁) (next : Emits P (k ()) v₁ ws.flatten v₂) :
    Emits P (m >>= k) v (w :: ws).flatten v₂ := by
  rw [List.flatten_cons]
  exact first.bind next

theorem last (h : Emits P m v w v₁) : Emits P m v [w].flatten v₁ := by
  rwa [List.flatten_cons, List.flatten_nil, List.append_nil]

/-- A first action that writes several fields of the listing. -/
theorem steps {k : Unit → StateT σ Option Unit} {fields : List (List β)}
    (first : Emits P m v fields.flatten v₁) (next : Emits P (k ()) v₁ ws.flatten v₂) :
    Emits P (m >>= k) v (fields ++ ws).flatten v₂ := by
  rw [List.flatten_append]
  exact first.bind next

/-- An empty field of the listing is not written. -/
theorem blank (h : Emits P m v ws.flatten v₁) : Emits P m v ([] :: ws).flatten v₁ := h

/-- A step that writes nothing leaves no field in the listing. -/
theorem skip {k : Unit → StateT σ Option Unit}
    (first : Emits P m v [] v₁) (next : Emits P (k ()) v₁ w v₂) :
    Emits P (m >>= k) v w v₂ := first.bind next

theorem congr {w' : List β} (h : Emits P m v w v₁) (eq : w = w') : Emits P m v w' v₁ := eq ▸ h

/-- Reading a value that the view determines. -/
theorem read {f : σ → α} {g : V → α} {k : α → StateT σ Option Unit}
    (sees : ∀ s, f s = g (P.view s)) (next : Emits P (k (g v)) v w v₁) :
    Emits P ((f <$> get) >>= k) v w v₁ := by
  intro s hs
  obtain ⟨s', run, view, out⟩ := next s hs
  refine ⟨s', ?_, view, out⟩
  rw [← run, ← hs, ← sees]
  rfl

/-- An update whose effect on the view is known and that leaves the output alone. -/
theorem modify {f : σ → σ} (moves : ∀ s, P.view s = v → P.view (f s) = v₁)
    (quiet : ∀ s, P.out (f s) = P.out s) :
    Emits P (modify f) v [] v₁ := by
  intro s hs
  exact ⟨f s, rfl, moves s hs, by rw [quiet, List.append_nil]⟩

end Emits

/-- An action seen through a coarser view: `f` forgets part of the view. -/
theorem Emits.coarsen {U : Type} (P : Port σ V β) {Q : Port σ U β} {m : StateT σ Option Unit}
    {u u' : U} {w : List β} (f : V → U) (factor : ∀ s, Q.view s = f (P.view s))
    (same : ∀ s, Q.out s = P.out s)
    (h : ∀ v, f v = u → ∃ v', f v' = u' ∧ Emits P m v w v') : Emits Q m u w u' := by
  intro s hs
  obtain ⟨v', hv', emits⟩ := h (P.view s) (by rw [← factor, hs])
  obtain ⟨s', run, view, out⟩ := emits s rfl
  refine ⟨s', run, ?_, ?_⟩
  · rw [factor, view, hv']
  · rw [same, same, out]

/-- From every state with view `v` the action fails. -/
def Panics (P : Port σ V β) (m : StateT σ Option Unit) (v : V) : Prop :=
  ∀ s, P.view s = v → m.run s = none

namespace Panics

variable {P : Port σ V β} {m : StateT σ Option Unit} {v v₁ : V} {w : List β}
  {k : Unit → StateT σ Option Unit}

theorem bind (first : Panics P m v) : Panics P (m >>= k) v := by
  intro s hs
  rw [StateT.run_bind, first s hs]
  rfl

theorem after (first : Emits P m v w v₁) (next : Panics P (k ()) v₁) : Panics P (m >>= k) v := by
  intro s hs
  obtain ⟨s₁, run₁, view₁, -⟩ := first s hs
  rw [StateT.run_bind, run₁]
  exact next s₁ view₁

theorem read {f : σ → α} {g : V → α} {k : α → StateT σ Option Unit}
    (sees : ∀ s, f s = g (P.view s)) (next : Panics P (k (g v)) v) :
    Panics P ((f <$> get) >>= k) v := by
  intro s hs
  rw [← next s hs, ← hs, ← sees]
  rfl

end Panics

theorem kleisli_some {S : Type} (f : S → Option S) : (f >=> some) = f :=
  funext fun b => bind_pure (f b)

/-- An action that also moves a flag: it emits `w` when `f` says where the flag goes, and it fails
when `f` does not. `ι` puts the flag into the view. -/
def Threads {S : Type} (P : Port σ V β) (ι : S → V) (m : StateT σ Option Unit)
    (f : S → Option S) (w : List β) : Prop :=
  ∀ b, match f b with
    | some b' => Emits P m (ι b) w (ι b')
    | none => Panics P m (ι b)

namespace Threads

variable {S : Type} {P : Port σ V β} {ι : S → V} {m : StateT σ Option Unit}
  {k : Unit → StateT σ Option Unit} {f g : S → Option S} {w : List β} {ws fields : List (List β)}

theorem emits (h : Threads P ι m f w) {b b' : S} (goes : f b = some b') :
    Emits P m (ι b) w (ι b') := by
  have at_b := h b
  rwa [goes] at at_b

theorem panics (h : Threads P ι m f w) {b : S} (no : f b = none) : Panics P m (ι b) := by
  have at_b := h b
  rwa [no] at at_b

theorem congr {w' : List β} (h : Threads P ι m f w) (eq : w = w') : Threads P ι m f w' := eq ▸ h

/-- An action that leaves the flag alone. -/
theorem still (h : ∀ b, Emits P m (ι b) w (ι b)) : Threads P ι m some w := h

theorem bind {w₁ w₂ : List β} (first : Threads P ι m f w₁) (next : Threads P ι (k ()) g w₂) :
    Threads P ι (m >>= k) (f >=> g) (w₁ ++ w₂) := by
  intro b
  cases goes : f b with
  | none =>
    simpa [Bind.kleisliRight, goes] using (first.panics goes).bind
  | some b₁ =>
    cases goes₂ : g b₁ with
    | none =>
      simpa [Bind.kleisliRight, goes, goes₂] using Panics.after (first.emits goes) (next.panics goes₂)
    | some b₂ =>
      simpa [Bind.kleisliRight, goes, goes₂] using (first.emits goes).bind (next.emits goes₂)

/-- The form of `bind` that walks along an output listed field by field. -/
theorem step (first : Threads P ι m f w) (next : Threads P ι (k ()) g ws.flatten) :
    Threads P ι (m >>= k) (f >=> g) (w :: ws).flatten := by
  simpa using first.bind next

theorem last (h : Threads P ι m f w) : Threads P ι m f [w].flatten := by
  simpa using h

/-- A first step that leaves the flag alone. -/
theorem pass (first : ∀ b, Emits P m (ι b) w (ι b)) (next : Threads P ι (k ()) g ws.flatten) :
    Threads P ι (m >>= k) g (w :: ws).flatten := (still first).step next

/-- A first step after which the flag stays as it is. -/
theorem close (first : Threads P ι m f w) (rest : ∀ b, Emits P (k ()) (ι b) ws.flatten (ι b)) :
    Threads P ι (m >>= k) f (w :: ws).flatten := by
  have both := first.step (still rest)
  rwa [kleisli_some] at both

/-- A first action that writes several fields of the listing, after which the flag stays. -/
theorem closes (first : Threads P ι m f fields.flatten)
    (rest : ∀ b, Emits P (k ()) (ι b) ws.flatten (ι b)) :
    Threads P ι (m >>= k) f (fields ++ ws).flatten := by
  have both := first.close rest
  rwa [List.flatten_cons, ← List.flatten_append] at both

/-- A first step that writes nothing leaves no field in the listing. -/
theorem skip (first : ∀ b, Emits P m (ι b) [] (ι b)) (next : Threads P ι (k ()) g w) :
    Threads P ι (m >>= k) g w := (still first).bind next

end Threads

end Coding
