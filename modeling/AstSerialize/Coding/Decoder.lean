import Mathlib.Data.List.Basic

/-! Decoders of self-delimiting codes over an arbitrary alphabet.
A decoder takes a prefix off a stream; `Reads` says that it takes exactly one
code word, whatever follows it. Unique decodability and prefix-freeness are
consequences of `Reads` alone. -/
namespace Coding

/-- A decoder consumes a prefix of the stream or fails. -/
abbrev Decoder (β : Type) (α : Type) := StateT (List β) Option α

/-- On every stream that begins with `w`, the decoder returns `a` and leaves what follows `w`. -/
def Reads {β α : Type} (d : Decoder β α) (w : List β) (a : α) : Prop :=
  ∀ r, d.run (w ++ r) = some (a, r)

section Rules

variable {β α γ : Type}

theorem Reads.pure (a : α) : Reads (Pure.pure a : Decoder β α) [] a := fun _ => rfl

theorem Reads.bind {d : Decoder β α} {k : α → Decoder β γ} {w₁ w₂ : List β} {a : α} {b : γ}
    (first : Reads d w₁ a) (next : Reads (k a) w₂ b) : Reads (d >>= k) (w₁ ++ w₂) b := by
  intro r
  rw [List.append_assoc, StateT.run_bind, first (w₂ ++ r)]
  exact next r

/-- The form of `bind` that walks along a code word listed field by field. -/
theorem Reads.step {d : Decoder β α} {k : α → Decoder β γ} {w : List β} {ws : List (List β)}
    {a : α} {b : γ} (first : Reads d w a) (next : Reads (k a) ws.flatten b) :
    Reads (d >>= k) (w :: ws).flatten b := by
  rw [List.flatten_cons]
  exact first.bind next

theorem Reads.done (a : α) : Reads (Pure.pure a : Decoder β α) ([] : List (List β)).flatten a :=
  Reads.pure a

/-- A last field, which determines what is returned. -/
theorem Reads.returns {d : Decoder β α} {k : α → Decoder β γ} {w : List β} {a : α} {b : γ}
    (h : Reads d w a) (returned : k a = Pure.pure b) : Reads (d >>= k) w b := by
  intro r
  rw [StateT.run_bind, h r]
  change (k a).run r = some (b, r)
  rw [returned]
  rfl

theorem Reads.map {d : Decoder β α} {w : List β} {a : α} (f : α → γ) (h : Reads d w a) :
    Reads (f <$> d) w (f a) := by
  intro r
  rw [StateT.run_map, h r]
  rfl

theorem Reads.run_eq {d : Decoder β α} {w : List β} {a : α} (h : Reads d w a) (r : List β) :
    d (w ++ r) = some (a, r) := h r

/-- Two values with a common code word are equal. -/
theorem Reads.unique {d : Decoder β α} {w : List β} {a b : α}
    (ha : Reads d w a) (hb : Reads d w b) : a = b := by
  have h := (ha []).symm.trans (hb [])
  exact congrArg Prod.fst (Option.some.inj h)

/-- Code words of different values are not prefixes of each other. -/
theorem Reads.prefix_free {d : Decoder β α} {w₁ w₂ : List β} {a b : α}
    (ha : Reads d w₁ a) (hb : Reads d w₂ b) (ne : a ≠ b) : ¬ w₁ <+: w₂ := by
  rintro ⟨t, rfl⟩
  have h : some (a, t) = some (b, []) := by
    rw [← ha t, ← hb [], List.append_nil]
  exact ne (congrArg Prod.fst (Option.some.inj h))

end Rules

section Primitives

variable {β α : Type}

/-- Take one symbol. -/
def item : Decoder β β
  | [] => none
  | b :: r => some (b, r)

theorem reads_item (b : β) : Reads item [b] b := fun _ => rfl

/-- Take the given symbol and fail on any other. -/
def expect [DecidableEq β] (b : β) : Decoder β Unit
  | [] => none
  | x :: r => if x = b then some ((), r) else none

theorem reads_expect [DecidableEq β] (b : β) : Reads (expect b) [b] () := by
  intro r
  exact if_pos rfl

/-- Take a fixed number of symbols. -/
def takeN (n : Nat) : Decoder β (List β) := fun s =>
  if n ≤ s.length then some (s.take n, s.drop n) else none

theorem reads_takeN (w : List β) : Reads (takeN w.length) w w := by
  intro r
  have short : w.length ≤ (w ++ r).length := by simp
  change (if w.length ≤ (w ++ r).length then _ else _) = _
  rw [if_pos short, List.take_left, List.drop_left]

/-- Repeat a decoder a fixed number of times. -/
def times (d : Decoder β α) : Nat → Decoder β (List α)
  | 0 => pure []
  | n + 1 => do
    let a ← d
    let as ← times d n
    pure (a :: as)

end Primitives

section Recursion

/-! Recursive codes. The argument of the family bounds the nesting; a word never
nests deeper than it is long, so the length of the stream is always enough. -/

variable {β α γ τ : Type}

/-- Each decoder of the family reads the word, once the bound covers the word's length. -/
def Decodes (d : Nat → Decoder β α) (w : List β) (a : α) : Prop :=
  ∀ n, w.length ≤ n → Reads (d n) w a

namespace Decodes

theorem const {d : Decoder β α} {w : List β} {a : α} (h : Reads d w a) :
    Decodes (fun _ => d) w a := fun _ _ => h

theorem bind {d : Nat → Decoder β α} {k : Nat → α → Decoder β γ} {w₁ w₂ : List β} {a : α} {b : γ}
    (first : Decodes d w₁ a) (next : Decodes (fun n => k n a) w₂ b) :
    Decodes (fun n => d n >>= k n) (w₁ ++ w₂) b := by
  intro n covers
  rw [List.length_append] at covers
  exact (first n (by omega)).bind (next n (by omega))

/-- The form of `bind` that walks along a code word listed field by field. -/
theorem step {d : Nat → Decoder β α} {k : Nat → α → Decoder β γ} {w : List β} {ws : List (List β)}
    {a : α} {b : γ} (first : Decodes d w a) (next : Decodes (fun n => k n a) ws.flatten b) :
    Decodes (fun n => d n >>= k n) (w :: ws).flatten b := by
  rw [List.flatten_cons]
  exact first.bind next

theorem done (a : α) : Decodes (fun _ => (Pure.pure a : Decoder β α)) ([] : List (List β)).flatten a :=
  const (.pure a)

theorem last {d : Nat → Decoder β α} {w : List β} {a : α} (h : Decodes d w a) :
    Decodes d [w].flatten a := by
  rwa [List.flatten_singleton]

theorem map {d : Nat → Decoder β α} {w : List β} {a : α} (f : α → γ) (h : Decodes d w a) :
    Decodes (fun n => f <$> d n) w (f a) := fun n covers => (h n covers).map f

/-- A node: the head is read at this level, and the rest may nest one level less. -/
theorem node {d : Nat → Decoder β α} {head : Decoder β τ} {body : Nat → τ → Decoder β α}
    {w : List β} {ws : List (List β)} {t : τ} {a : α}
    (unfold : ∀ n, d (n + 1) = head >>= body n) (first : Reads head w t) (long : w ≠ [])
    (rest : Decodes (fun n => body n t) ws.flatten a) : Decodes d (w :: ws).flatten a := by
  intro n covers
  have positive := List.length_pos_iff.mpr long
  rw [List.flatten_cons, List.length_append] at covers
  obtain ⟨m, rfl⟩ : ∃ m, n = m + 1 := ⟨n - 1, by omega⟩
  rw [unfold, List.flatten_cons]
  exact first.bind (rest m (by omega))

theorem nil {d : Nat → Decoder β α} : Decodes (fun n => times (d n) 0) [] [] := const (.pure [])

theorem cons {d : Nat → Decoder β α} {k : Nat} {w ws : List β} {a : α} {as : List α}
    (head : Decodes d w a) (tail : Decodes (fun n => times (d n) k) ws as) :
    Decodes (fun n => times (d n) (k + 1)) (w ++ ws) (a :: as) := by
  refine head.bind ?_
  rw [← List.append_nil ws]
  exact tail.bind (const (.pure _))

/-- A list of fields, of each of which the decoder reads the part `f`. -/
theorem column {d : Decoder β α} {encs : List γ → List β} (enc : γ → List β) (f : γ → α)
    (nil : encs [] = []) (cons : ∀ c cs, encs (c :: cs) = enc c ++ encs cs)
    (each : ∀ c, Reads d (enc c) (f c)) (cs : List γ) :
    Decodes (fun _ => times d cs.length) (encs cs) (cs.map f) := by
  induction cs with
  | nil =>
    rw [nil]
    exact .nil
  | cons c cs ih =>
    rw [cons]
    exact .cons (.const (each c)) ih

/-- A list of words of one code. -/
theorem all {d : Decoder β α} {enc : α → List β} {encs : List α → List β} (nil : encs [] = [])
    (cons : ∀ a as, encs (a :: as) = enc a ++ encs as) (each : ∀ a, Reads d (enc a) a)
    (as : List α) : Decodes (fun _ => times d as.length) (encs as) as := by
  have whole := column enc id nil cons each as
  rwa [List.map_id] at whole

end Decodes

/-- The decoder that takes its bound from the stream. -/
def bounded (d : Nat → Decoder β α) : Decoder β α := fun s => d s.length s

theorem Decodes.bounded {d : Nat → Decoder β α} {w : List β} {a : α} (h : Decodes d w a) :
    Reads (bounded d) w a := by
  intro r
  exact h (w ++ r).length (by rw [List.length_append]; omega) r

end Recursion

end Coding
