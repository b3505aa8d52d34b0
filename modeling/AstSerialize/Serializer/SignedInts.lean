import AstSerialize.Serializer.TypeFlags
import AstSerialize.Serializer.File

/-! Signed integer literals in types. A unary plus is read in the outermost place
only. -/
namespace AstSerialize
open Coding

inductive Sign where
  | plus
  | minus
  deriving DecidableEq, Repr

def Sign.op : Sign → UnaryOp
  | .plus => .uAdd
  | .minus => .uSub

/-- Unary plus and minus, nested around an integer literal. -/
inductive SignedLiteral where
  | literal (n : IntLiteral) (range : TextRange)
  | signed (sign : Sign) (operand : SignedLiteral) (range : TextRange)
  deriving DecidableEq, Repr

namespace SignedLiteral

def expr : SignedLiteral → Expr
  | .literal n range => .numberLiteral (.int n) range
  | .signed sign operand range => .unaryOp sign.op operand.expr range

def range : SignedLiteral → TextRange
  | .literal _ range | .signed _ _ range => range

/-- The arithmetic value, unless the literal is larger than the largest `i64`. -/
def value : SignedLiteral → Option Int
  | .literal (.small n) _ => if n.toNat < 2 ^ 63 then some n.toNat else none
  | .literal (.big _) _ => none
  | .signed .plus operand _ => operand.value
  | .signed .minus operand _ => operand.value.map fun v => -v

/-- A raw integer with the value, or an invalid type where the literal is too large. -/
def exactType (c : Config) (e : SignedLiteral) : WType c.cacheVersion :=
  match e.value with
  | some v => .raw (utf8 "builtins.int") (.int v) (c.location e.range)
  | none => toWireInvalid c none none none e.range

/-- Every negation negates a value whose negative is an `i64`. -/
def NoOverflow : SignedLiteral → Prop
  | .literal _ _ => True
  | .signed .plus operand _ => operand.NoOverflow
  | .signed .minus operand _ =>
    (∀ v, extractIntLiteralValue operand.expr = some v → (-v).toInt = -v.toInt) ∧ operand.NoOverflow

def onlyMinus : SignedLiteral → Bool
  | .literal _ _ => true
  | .signed .plus _ _ => false
  | .signed .minus operand _ => operand.onlyMinus

/-- No plus stands below another sign. -/
def plusOutermost : SignedLiteral → Bool
  | .literal _ _ => true
  | .signed _ operand _ => operand.onlyMinus

end SignedLiteral

section Values

theorem toInt_small {n : UInt64} (small : n.toNat < 2 ^ 63) : n.toInt64.toInt = n.toNat := by
  have read : n.toInt64.toInt = n.toBitVec.toInt := rfl
  rw [read, BitVec.toInt_eq_toNat_of_lt]
  · simp
  · simp
    omega

theorem toInt_neg {v : Int64} (bound : -(2 ^ 63 - 1) ≤ v.toInt) : (-v).toInt = -v.toInt := by
  have upper := v.toInt_lt
  rw [Int64.toInt_neg, Int.bmod_def]
  split <;> omega

open SignedLiteral

/-- What is extracted is the value, and its negative is an `i64` too. -/
theorem extractIntLiteralValue_value {e : SignedLiteral} {v : Int64}
    (extracted : extractIntLiteralValue e.expr = some v) :
    e.value = some v.toInt ∧ -(2 ^ 63 - 1) ≤ v.toInt := by
  induction e generalizing v with
  | literal n range =>
    cases n with
    | small n =>
      simp only [expr, extractIntLiteralValue, IntLiteral.asI64] at extracted
      split at extracted
      case isTrue small =>
        cases extracted
        have read := toInt_small small
        have bound : value (.literal (.small n) range) = some (n.toNat : Int) := if_pos small
        refine ⟨by rw [bound, read], ?_⟩
        omega
      case isFalse => cases extracted
    | big text => cases extracted
  | signed sign operand range ih =>
    cases sign with
    | plus => cases extracted
    | minus =>
      obtain ⟨w, inner, rfl⟩ := Option.map_eq_some_iff.mp extracted
      obtain ⟨valueEq, lower⟩ := ih inner
      have upper := w.toInt_lt
      rw [toInt_neg lower]
      refine ⟨by simp [value, valueEq], ?_⟩
      omega

/-- A literal under minus signs alone is read unless it is too large. -/
theorem extractIntLiteralValue_onlyMinus {e : SignedLiteral} (only : e.onlyMinus = true)
    (missing : extractIntLiteralValue e.expr = none) : e.value = none := by
  induction e with
  | literal n range =>
    cases n with
    | small n =>
      simp only [expr, extractIntLiteralValue, IntLiteral.asI64] at missing
      split at missing
      case isTrue => cases missing
      case isFalse large => exact if_neg large
    | big text => rfl
  | signed sign operand range ih =>
    cases sign with
    | plus => cases only
    | minus => simp [value, ih only (Option.map_eq_none_iff.mp missing)]

theorem extractIntLiteralValue_mixed {e : SignedLiteral} (mixed : e.onlyMinus = false) :
    extractIntLiteralValue e.expr = none := by
  induction e with
  | literal n range => cases mixed
  | signed sign operand range ih =>
    cases sign with
    | plus => rfl
    | minus => exact Option.map_eq_none_iff.mpr (ih mixed)

theorem noOverflow (e : SignedLiteral) : e.NoOverflow := by
  induction e with
  | literal n range => trivial
  | signed sign operand range ih =>
    cases sign with
    | plus => exact ih
    | minus => exact ⟨fun v found => toInt_neg (extractIntLiteralValue_value found).2, ih⟩

end Values

section Exact

open SignedLiteral

theorem WritesType.unique {c : Config} {s : Serializer} {m : SerM Unit}
    {tree tree' : WType c.cacheVersion} (h : WritesType s m tree) (h' : WritesType s m tree') :
    tree = tree' := by
  obtain ⟨s₁, run, out, -, -⟩ := h
  obtain ⟨s₂, run', out', -, -⟩ := h'
  rw [run] at run'
  cases run'
  rw [out] at out'
  have first := reads_type tree
  rw [List.append_cancel_left out'] at first
  exact first.unique (reads_type tree')

/-- What the caller reads: it skips the plus itself. -/
def SignedLiteral.read : SignedLiteral → Option Int64
  | .literal n range => extractIntLiteralValue (SignedLiteral.literal n range).expr
  | .signed .plus operand _ => extractIntLiteralValue operand.expr
  | .signed .minus operand range =>
    extractIntLiteralValue (SignedLiteral.signed .minus operand range).expr

theorem serializeType_signed (c : Config) (e : SignedLiteral) (s : Serializer) :
    WritesType s (serializeType c e.expr) (toWireInt c e.read e.range) := by
  have written := writesType_of_emits (emits_type (c := c) s.tracked s.hasSurrogates e.expr)
  cases e with
  | literal n range => exact written
  | signed sign operand range => cases sign <;> exact written

theorem read_value {e : SignedLiteral} {v : Int64} (read : e.read = some v) :
    e.value = some v.toInt := by
  cases e with
  | literal n range => exact (extractIntLiteralValue_value read).1
  | signed sign operand range =>
    cases sign with
    | plus => exact (extractIntLiteralValue_value (e := operand) read).1
    | minus => exact (extractIntLiteralValue_value read).1

theorem read_outermost {e : SignedLiteral} (outermost : e.plusOutermost = true)
    (missing : e.read = none) : e.value = none := by
  cases e with
  | literal n range => exact extractIntLiteralValue_onlyMinus rfl missing
  | signed sign operand range =>
    cases sign with
    | plus => exact extractIntLiteralValue_onlyMinus (e := operand) outermost missing
    | minus =>
      have inner := extractIntLiteralValue_onlyMinus outermost (Option.map_eq_none_iff.mp missing)
      simp [value, inner]

theorem read_mixed {e : SignedLiteral} (mixed : e.plusOutermost = false) : e.read = none := by
  cases e with
  | literal n range => cases mixed
  | signed sign operand range =>
    have inner := extractIntLiteralValue_mixed (e := operand) mixed
    cases sign with
    | plus => exact inner
    | minus => exact Option.map_eq_none_iff.mpr inner

/-- The type of the exact value is written from every state, and nothing overflows on the way. -/
structure SignedIntExact (c : Config) (e : SignedLiteral) : Prop where
  written : ∀ s, WritesType s (serializeType c e.expr) (e.exactType c)
  noOverflow : e.NoOverflow

theorem signedIntExact_of_read {c : Config} {e : SignedLiteral}
    (same : toWireInt c e.read e.range = e.exactType c) : SignedIntExact c e where
  written := fun s => same ▸ serializeType_signed c e s
  noOverflow := noOverflow e

/-- A value that is there and not read is written as an invalid type. -/
theorem not_exact_of_unread {c : Config} {e : SignedLiteral} {v : Int} (value : e.value = some v)
    (missing : e.read = none) : ¬ SignedIntExact c e := by
  intro exact
  have same := (exact.written Serializer.initial).unique (serializeType_signed c e _)
  simp [exactType, value, missing, toWireInt, toWireInvalid] at same

/-- The exact type is written exactly for the literals that are too large and for those where no
plus stands below another sign. -/
theorem signedIntExact_iff (c : Config) (e : SignedLiteral) :
    SignedIntExact c e ↔ e.value = none ∨ e.plusOutermost = true := by
  constructor
  · intro exact
    cases valueEq : e.value with
    | none => exact .inl rfl
    | some v =>
      right
      by_contra mixed
      have unread := read_mixed (Bool.eq_false_iff.mpr mixed)
      exact not_exact_of_unread valueEq unread exact
  · intro condition
    apply signedIntExact_of_read
    cases read : e.read with
    | some v => simp [toWireInt, exactType, read_value read]
    | none =>
      have valueEq : e.value = none := by
        rcases condition with none | outermost
        · exact none
        · exact read_outermost outermost read
      simp [toWireInt, exactType, valueEq]

/-- `-+5`. -/
def minusPlusFive : SignedLiteral :=
  .signed .minus (.signed .plus (.literal (.small 5) ⟨2, 3⟩) ⟨1, 3⟩) ⟨0, 3⟩

theorem minusPlusFive_not_exact : ¬ ∀ (c : Config) (e : SignedLiteral), SignedIntExact c e := by
  intro all
  exact not_exact_of_unread (v := -5) rfl rfl (all (.plain "-+5".toList) minusPlusFive)

end Exact

end AstSerialize
