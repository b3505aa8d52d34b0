import AstSerialize.Coding.Decoder
import Mathlib.Data.Nat.Digits.Lemmas
import Mathlib.Tactic.IntervalCases
import Mathlib.Tactic.Ring

/-! The integer code of `write_int`, twice. `writeIntBytes` is the function of
the serializer on 64-bit integers, with its shifts, tags and casts. `encodeInt`
is the code it computes, as arithmetic on all integers. Every length, line and
literal of the stream goes through this code. -/
namespace AstSerialize
open Coding

/-- `MIN_SHORT_INT`. -/
def minShortInt : Int64 := -10
def minTwoBytesInt : Int64 := -100
def maxTwoBytesInt : Int64 := 16283
def minFourBytesInt : Int64 := -10000
def maxFourBytesInt : Int64 := 536860911
def twoBytesIntBit : Int64 := 1
def fourBytesIntTrailer : Int64 := 3
def longIntTrailer : UInt8 := 15

/-- `to_le_bytes` of a `w`-byte word. -/
def leBytes : Nat → Nat → List UInt8
  | 0, _ => []
  | w + 1, n => UInt8.ofNat (n % 256) :: leBytes w (n / 256)

def ofLeBytes (bs : List UInt8) : Nat := bs.foldr (fun b acc => b.toNat + 256 * acc) 0

@[simp] theorem leBytes_length (w n : Nat) : (leBytes w n).length = w := by
  induction w generalizing n with
  | zero => rfl
  | succ w ih => simp [leBytes, ih]

theorem ofLeBytes_leBytes (w n : Nat) (fits : n < 256 ^ w) : ofLeBytes (leBytes w n) = n := by
  induction w generalizing n with
  | zero =>
    have : n = 0 := by simpa using fits
    subst n
    rfl
  | succ w ih =>
    have high : n / 256 < 256 ^ w := by
      rw [pow_succ] at fits
      exact Nat.div_lt_of_lt_mul (by omega)
    have tail : ofLeBytes (leBytes w (n / 256)) = n / 256 := ih _ high
    have low : (UInt8.ofNat (n % 256)).toNat = n % 256 := by
      rw [UInt8.toNat_ofNat']
      omega
    change (UInt8.ofNat (n % 256)).toNat + 256 * ofLeBytes (leBytes w (n / 256)) = n
    rw [low, tail]
    omega

theorem take_leBytes (w k n : Nat) : (leBytes w n).take k = leBytes (min k w) n := by
  induction w generalizing k n with
  | zero => simp [leBytes]
  | succ w ih =>
    cases k with
    | zero => simp [leBytes]
    | succ k =>
      rw [Nat.succ_min_succ]
      simp [leBytes, ih]

theorem leBytes_getD (w k n : Nat) (h : k < w) :
    ((leBytes w n).getD k 0).toNat = n / 256 ^ k % 256 := by
  induction w generalizing k n with
  | zero => omega
  | succ w ih =>
    cases k with
    | zero =>
      simp only [leBytes, List.getD_cons_zero, pow_zero, Nat.div_one, UInt8.toNat_ofNat']
      omega
    | succ k =>
      rw [leBytes, List.getD_cons_succ, ih k _ (by omega), Nat.div_div_eq_div_mul, pow_succ,
        Nat.mul_comm]

/-- The loop that drops high zero bytes but keeps at least one byte. -/
def trimLen (bytes : List UInt8) : Nat → Nat
  | 0 => 0
  | 1 => 1
  | n + 2 => if bytes.getD (n + 1) 0 = 0 then trimLen bytes (n + 1) else n + 2

theorem trimLen_le (bytes : List UInt8) (n : Nat) : trimLen bytes n ≤ n := by
  induction n using trimLen.induct bytes with
  | case1 => exact Nat.le_refl 0
  | case2 => exact Nat.le_refl 1
  | case3 n zero ih =>
    rw [trimLen, if_pos zero]
    omega
  | case4 n nonzero => rw [trimLen, if_neg nonzero]

/-- The argument of the recursive call: byte count and sign. -/
def longHeader (n : Nat) (neg : Bool) : Int64 :=
  (Int64.ofNat n <<< 1) ||| (if neg then 1 else 0)

/-- The condition of the 1-byte branch. -/
def isShort (i : Int64) : Prop := minShortInt ≤ i ∧ i < 128 + minShortInt

instance (i : Int64) : Decidable (isShort i) := inferInstanceAs (Decidable (_ ∧ _))

theorem longHeader_short (n : Nat) (neg : Bool) (h : n ≤ 8) : isShort (longHeader n neg) := by
  interval_cases n <;> cases neg <;> decide

theorem longHeader_toInt (n : Nat) (neg : Bool) (h : n ≤ 8) :
    (longHeader n neg).toInt = 2 * n + (if neg then 1 else 0) := by
  interval_cases n <;> cases neg <;> decide

/-- The bytes `Serializer::write_int` appends. -/
def writeIntBytes (i : Int64) : List UInt8 :=
  if isShort i then
    [((i - minShortInt) <<< 1).toUInt64.toUInt8]
  else if minTwoBytesInt ≤ i ∧ i ≤ maxTwoBytesInt then
    let x := (((i - minTwoBytesInt) <<< 2) ||| twoBytesIntBit).toUInt64.toUInt16
    leBytes 2 x.toNat
  else if minFourBytesInt ≤ i ∧ i ≤ maxFourBytesInt then
    let x := (((i - minFourBytesInt) <<< 3) ||| fourBytesIntTrailer).toUInt64.toUInt32
    leBytes 4 x.toNat
  else
    let neg := decide (i < 0)
    -- `wrapping_abs` maps `i64::MIN` to itself, which as `u64` is its absolute value
    let absval := if neg then i.abs.toUInt64 else i.toUInt64
    let bytes := leBytes 8 absval.toNat
    let n := trimLen bytes bytes.length
    longIntTrailer :: (writeIntBytes (longHeader n neg) ++ bytes.take n)
termination_by if isShort i then 0 else 1
decreasing_by
  rename_i notShort _ _
  have count : trimLen (leBytes 8 absval.toNat) (leBytes 8 absval.toNat).length ≤ 8 :=
    Nat.le_trans (trimLen_le _ _) (Nat.le_of_eq (leBytes_length 8 _))
  rw [if_neg notShort, if_pos (longHeader_short _ _ count)]
  exact Nat.zero_lt_one

/-- Bytes in base 256 without high zeros. -/
def byteLength (n : Nat) : Nat := (Nat.digits 256 n).length

/-- The integer code on all of `Int`. The first argument bounds the nesting of long headers. -/
def encodeIntAux : Nat → Int → List UInt8
  | fuel, i =>
    if -10 ≤ i ∧ i < 118 then leBytes 1 (2 * (i + 10)).toNat
    else if -100 ≤ i ∧ i ≤ 16283 then leBytes 2 (4 * (i + 100) + 1).toNat
    else if -10000 ≤ i ∧ i ≤ 536860911 then leBytes 4 (8 * (i + 10000) + 3).toNat
    else match fuel with
      | 0 => []
      | fuel + 1 =>
        let n := byteLength i.natAbs
        longIntTrailer :: (encodeIntAux fuel (2 * n + if i < 0 then 1 else 0) ++ leBytes n i.natAbs)

def encodeInt (i : Int) : List UInt8 := encodeIntAux i.natAbs i

def decodeIntAux : Nat → Decoder UInt8 Int
  | 0 => fun _ => none
  | fuel + 1 => do
    let b ← item
    if b.toNat % 2 = 0 then pure ((b.toNat / 2 : Nat) - 10)
    else if b.toNat % 4 = 1 then do
      let high ← takeN 1
      pure (((b.toNat + 256 * ofLeBytes high) / 4 : Nat) - 100)
    else if b.toNat % 8 = 3 then do
      let high ← takeN 3
      pure (((b.toNat + 256 * ofLeBytes high) / 8 : Nat) - 10000)
    else if b = longIntTrailer then do
      let header ← decodeIntAux fuel
      let digits ← takeN (header / 2).toNat
      pure (if header % 2 = 1 then -(ofLeBytes digits : Int) else ofLeBytes digits)
    else fun _ => none

/-- A code word has at least as many bytes as nested headers, so the stream bounds the nesting. -/
def decodeInt : Decoder UInt8 Int := fun bs => decodeIntAux bs.length bs

end AstSerialize
