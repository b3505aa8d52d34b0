import AstSerialize.Wire.Int

/-! The integer code is uniquely decodable, and `writeIntBytes` computes it. -/
namespace AstSerialize
open Coding

theorem byteLength_pos {n : Nat} (h : n ≠ 0) : 1 ≤ byteLength n := by
  unfold byteLength
  have := Nat.digits_ne_nil_iff_ne_zero (b := 256).mpr h
  exact List.length_pos_iff.mpr this

theorem lt_pow_byteLength (n : Nat) : n < 256 ^ byteLength n :=
  Nat.lt_base_pow_length_digits (by decide)

theorem byteLength_le_iff (n k : Nat) : byteLength n ≤ k ↔ n < 256 ^ k :=
  Nat.digits_length_le_iff (by decide) n

theorem trimLen_leBytes (w k n : Nat) (hk : 1 ≤ k) (hw : k ≤ w) (pos : n ≠ 0) (fits : n < 256 ^ k) :
    trimLen (leBytes w n) k = byteLength n := by
  induction k, hk using Nat.le_induction with
  | base =>
    have upper := (byteLength_le_iff n 1).mpr fits
    have lower := byteLength_pos pos
    change 1 = _
    omega
  | succ k hk ih =>
    obtain ⟨j, rfl⟩ : ∃ j, k = j + 1 := ⟨k - 1, by omega⟩
    have top : ((leBytes w n).getD (j + 1) 0).toNat = n / 256 ^ (j + 1) := by
      rw [leBytes_getD w (j + 1) n (by omega), Nat.mod_eq_of_lt]
      rw [pow_succ] at fits
      exact Nat.div_lt_of_lt_mul fits
    by_cases zero : n < 256 ^ (j + 1)
    · have high : (leBytes w n).getD (j + 1) 0 = 0 := by
        apply UInt8.toNat_inj.mp
        rw [top, Nat.div_eq_of_lt zero]
        rfl
      rw [trimLen, if_pos high]
      exact ih (by omega) zero
    · have high : (leBytes w n).getD (j + 1) 0 ≠ 0 := by
        intro h
        rw [h] at top
        have := Nat.div_pos (Nat.le_of_not_lt zero) (by positivity)
        simp at top
        omega
      have upper := (byteLength_le_iff n (j + 1 + 1)).mpr fits
      have lower : ¬ byteLength n ≤ j + 1 := fun h => zero ((byteLength_le_iff n (j + 1)).mp h)
      rw [trimLen, if_neg high]
      omega

theorem two_byteLength_lt (n : Nat) (large : 5 ≤ n) : 2 * byteLength n + 1 < n := by
  have half : byteLength n ≤ n / 2 - 1 := by
    rw [byteLength_le_iff]
    calc n < 2 ^ n := Nat.lt_two_pow_self
      _ ≤ 2 ^ (8 * (n / 2 - 1)) := Nat.pow_le_pow_right (by decide) (by omega)
      _ = 256 ^ (n / 2 - 1) := pow_mul 2 8 _
  omega

theorem byte_toNat (n : Nat) : (UInt8.ofNat (n % 256)).toNat = n % 256 := by
  rw [UInt8.toNat_ofNat']
  omega

theorem reads_leBytes (w n : Nat) : Reads (takeN w) (leBytes w n) (leBytes w n) := by
  simpa using reads_takeN (leBytes w n)

/-- The low byte and the bytes after it carry the whole word. -/
theorem le_word (w n : Nat) (fits : n < 256 ^ (w + 1)) :
    (UInt8.ofNat (n % 256)).toNat + 256 * ofLeBytes (leBytes w (n / 256)) = n :=
  ofLeBytes_leBytes (w + 1) n fits

theorem reads_one_byte (f : Nat) (i : Int) (low : -10 ≤ i) (high : i < 118) :
    Reads (decodeIntAux (f + 1)) (leBytes 1 (2 * (i + 10)).toNat) i := by
  obtain ⟨k, hk⟩ : ∃ k : Nat, i + 10 = k := ⟨(i + 10).toNat, by omega⟩
  have word : (2 * (i + 10)).toNat = 2 * k := by omega
  have byte := byte_toNat (2 * k)
  rw [word]
  refine (reads_item _).bind ?_
  have even : (UInt8.ofNat (2 * k % 256)).toNat % 2 = 0 := by omega
  rw [if_pos even]
  have value : (((UInt8.ofNat (2 * k % 256)).toNat / 2 : Nat) : Int) - 10 = i := by omega
  rw [value]
  exact .pure i

theorem reads_two_bytes (f : Nat) (i : Int) (low : -100 ≤ i) (high : i ≤ 16283) :
    Reads (decodeIntAux (f + 1)) (leBytes 2 (4 * (i + 100) + 1).toNat) i := by
  obtain ⟨k, hk⟩ : ∃ k : Nat, i + 100 = k := ⟨(i + 100).toNat, by omega⟩
  have word : (4 * (i + 100) + 1).toNat = 4 * k + 1 := by omega
  have byte := byte_toNat (4 * k + 1)
  rw [word]
  refine (reads_item _).bind ?_
  have odd : (UInt8.ofNat ((4 * k + 1) % 256)).toNat % 2 ≠ 0 := by omega
  have tag : (UInt8.ofNat ((4 * k + 1) % 256)).toNat % 4 = 1 := by omega
  rw [if_neg odd, if_pos tag]
  have value : (((4 * k + 1) / 4 : Nat) : Int) - 100 = i := by omega
  apply (reads_leBytes 1 ((4 * k + 1) / 256)).returns
  rw [le_word 1 (4 * k + 1) (by omega), value]

theorem reads_four_bytes (f : Nat) (i : Int) (low : -10000 ≤ i) (high : i ≤ 536860911) :
    Reads (decodeIntAux (f + 1)) (leBytes 4 (8 * (i + 10000) + 3).toNat) i := by
  obtain ⟨k, hk⟩ : ∃ k : Nat, i + 10000 = k := ⟨(i + 10000).toNat, by omega⟩
  have word : (8 * (i + 10000) + 3).toNat = 8 * k + 3 := by omega
  have byte := byte_toNat (8 * k + 3)
  rw [word]
  refine (reads_item _).bind ?_
  have odd : (UInt8.ofNat ((8 * k + 3) % 256)).toNat % 2 ≠ 0 := by omega
  have notTwo : (UInt8.ofNat ((8 * k + 3) % 256)).toNat % 4 ≠ 1 := by omega
  have tag : (UInt8.ofNat ((8 * k + 3) % 256)).toNat % 8 = 3 := by omega
  rw [if_neg odd, if_neg notTwo, if_pos tag]
  have value : (((8 * k + 3) / 8 : Nat) : Int) - 10000 = i := by omega
  apply (reads_leBytes 3 ((8 * k + 3) / 256)).returns
  rw [le_word 3 (8 * k + 3) (by omega), value]

/-- The long format: the header is read by the decoder itself, then as many bytes as it says. -/
theorem reads_long (f n v : Nat) (neg : Bool) (header : List UInt8) (fits : v < 256 ^ n)
    (readsHeader : Reads (decodeIntAux f) header (2 * n + if neg then 1 else 0)) :
    Reads (decodeIntAux (f + 1)) (longIntTrailer :: (header ++ leBytes n v))
      (if neg then -(v : Int) else v) := by
  refine (reads_item longIntTrailer).bind ?_
  rw [if_neg (by decide), if_neg (by decide), if_neg (by decide), if_pos rfl]
  refine readsHeader.bind ?_
  have count : ((2 * (n : Int) + if neg then 1 else 0) / 2).toNat = n := by
    cases neg
    · simp
    · simp only [if_true]
      omega
  have sign : (2 * (n : Int) + if neg then 1 else 0) % 2 = 1 ↔ neg = true := by
    cases neg
    · simp only [Bool.false_eq_true, if_false, iff_false]
      omega
    · simp only [if_true, iff_true]
      omega
  rw [count]
  apply (reads_leBytes n v).returns
  simp only [sign, ofLeBytes_leBytes n v fits]

theorem encodeIntAux_length (g : Nat) (i : Int) (h : i.natAbs ≤ g) :
    1 ≤ (encodeIntAux g i).length := by
  unfold encodeIntAux
  split
  · simp
  · split
    · simp
    · split
      · simp
      · cases g with
        | zero => omega
        | succ g => simp

/-- Induction on the bound on the nesting of headers; the header of a long word is smaller. -/
theorem reads_decodeIntAux (g : Nat) : ∀ (i : Int) (f : Nat), i.natAbs ≤ g →
    (encodeIntAux g i).length ≤ f → Reads (decodeIntAux f) (encodeIntAux g i) i := by
  induction g with
  | zero =>
    intro i f small long
    obtain rfl : i = 0 := by omega
    obtain ⟨f, rfl⟩ : ∃ f', f = f' + 1 := ⟨f - 1, by
      have := encodeIntAux_length 0 0 (by omega)
      omega⟩
    exact reads_one_byte f 0 (by omega) (by omega)
  | succ g ih =>
    intro i f small long
    obtain ⟨f, rfl⟩ : ∃ f', f = f' + 1 := ⟨f - 1, by
      have := encodeIntAux_length (g + 1) i small
      omega⟩
    unfold encodeIntAux at long ⊢
    by_cases short : -10 ≤ i ∧ i < 118
    · rw [if_pos short]
      exact reads_one_byte f i short.1 short.2
    · by_cases two : -100 ≤ i ∧ i ≤ 16283
      · rw [if_neg short, if_pos two]
        exact reads_two_bytes f i two.1 two.2
      · by_cases four : -10000 ≤ i ∧ i ≤ 536860911
        · rw [if_neg short, if_neg two, if_pos four]
          exact reads_four_bytes f i four.1 four.2
        · rw [if_neg short, if_neg two, if_neg four] at long ⊢
          dsimp only at long ⊢
          have size := two_byteLength_lt i.natAbs (by omega)
          have bound : (encodeIntAux g
              (2 * ↑(byteLength i.natAbs) + if i < 0 then 1 else 0)).length ≤ f := by
            simp only [List.length_cons, List.length_append, leBytes_length] at long
            omega
          have header := ih (2 * ↑(byteLength i.natAbs) + if i < 0 then 1 else 0) f
            (by split <;> omega) bound
          have word := reads_long f (byteLength i.natAbs) i.natAbs (decide (i < 0)) _
            (lt_pow_byteLength _) (by simpa using header)
          have value : (if decide (i < 0) = true then -(i.natAbs : Int) else i.natAbs) = i := by
            by_cases neg : i < 0
            · simp only [neg, decide_true, if_true]
              omega
            · simp only [neg, decide_false, Bool.false_eq_true, if_false]
              omega
          rw [value] at word
          exact word

theorem reads_encodeInt (i : Int) : Reads decodeInt (encodeInt i) i := by
  intro r
  have long : (encodeInt i).length ≤ (encodeInt i ++ r).length := by simp
  exact reads_decodeIntAux i.natAbs i _ (Nat.le_refl _) long r

theorem shiftLeft_toNat (x s : Int64) (k e : Nat) (hx : x.toBitVec.toNat = k)
    (hs : s.toBitVec.smod 64 = BitVec.ofNat 64 e) (he : e < 64) (fits : k * 2 ^ e < 2 ^ 64) :
    (x <<< s).toBitVec.toNat = k * 2 ^ e := by
  rw [Int64.toBitVec_shiftLeft, hs, BitVec.shiftLeft_eq', BitVec.toNat_shiftLeft, hx,
    BitVec.toNat_ofNat, Nat.mod_eq_of_lt (show e < 2 ^ 64 by omega), Nat.shiftLeft_eq,
    Nat.mod_eq_of_lt fits]

theorem tagged_shift (x s t : Int64) (k e tag : Nat) (hx : x.toBitVec.toNat = k)
    (hs : s.toBitVec.smod 64 = BitVec.ofNat 64 e) (ht : t.toBitVec.toNat = tag)
    (small : tag < 2 ^ e) (he : e < 64) (fits : k * 2 ^ e < 2 ^ 64) :
    ((x <<< s) ||| t).toUInt64.toNat = k * 2 ^ e + tag := by
  change ((x <<< s) ||| t).toBitVec.toNat = _
  rw [Int64.toBitVec_or, BitVec.toNat_or, shiftLeft_toNat x s k e hx hs he fits, ht,
    ← Nat.shiftLeft_eq, ← Nat.shiftLeft_add_eq_or_of_lt small]

theorem toBitVec_toNat (x : Int64) (k : Nat) (h : x.toInt = k) : x.toBitVec.toNat = k := by
  have upper := Int64.toInt_lt x
  have toInt : x.toBitVec.toInt = k := h
  rw [BitVec.toInt_eq_toNat_cond] at toInt
  split at toInt <;> omega

theorem biased (i m : Int64) (k : Nat) (h : i.toInt - m.toInt = k) (fits : k < 2 ^ 63) :
    (i - m).toInt = k := by
  rw [Int64.toInt_sub, h]
  exact Int.bmod_eq_of_le (by omega) (by omega)

theorem isShort_iff (i : Int64) : isShort i ↔ -10 ≤ i.toInt ∧ i.toInt < 118 := by
  unfold isShort
  rw [Int64.le_iff_toInt_le, Int64.lt_iff_toInt_lt]
  rfl

theorem isTwo_iff (i : Int64) :
    minTwoBytesInt ≤ i ∧ i ≤ maxTwoBytesInt ↔ -100 ≤ i.toInt ∧ i.toInt ≤ 16283 := by
  rw [Int64.le_iff_toInt_le, Int64.le_iff_toInt_le]
  rfl

theorem isFour_iff (i : Int64) :
    minFourBytesInt ≤ i ∧ i ≤ maxFourBytesInt ↔ -10000 ≤ i.toInt ∧ i.toInt ≤ 536860911 := by
  rw [Int64.le_iff_toInt_le, Int64.le_iff_toInt_le]
  rfl

/-- The cast to `u8` loses no bits. -/
theorem short_word (i : Int64) (low : -10 ≤ i.toInt) (high : i.toInt < 118) :
    ((i - minShortInt) <<< 1).toUInt64.toUInt8.toNat = (2 * (i.toInt + 10)).toNat := by
  obtain ⟨k, hk⟩ : ∃ k : Nat, i.toInt + 10 = k := ⟨(i.toInt + 10).toNat, by omega⟩
  have bias : i.toInt - minShortInt.toInt = k := hk
  have word := shiftLeft_toNat (i - minShortInt) 1 k 1
    (toBitVec_toNat _ k (biased i minShortInt k bias (by omega))) rfl (by decide) (by omega)
  rw [UInt64.toNat_toUInt8]
  change ((i - minShortInt) <<< 1).toBitVec.toNat % 2 ^ 8 = _
  omega

/-- The cast to `u16` loses no bits. -/
theorem two_word (i : Int64) (low : -100 ≤ i.toInt) (high : i.toInt ≤ 16283) :
    (((i - minTwoBytesInt) <<< 2) ||| twoBytesIntBit).toUInt64.toUInt16.toNat
      = (4 * (i.toInt + 100) + 1).toNat := by
  obtain ⟨k, hk⟩ : ∃ k : Nat, i.toInt + 100 = k := ⟨(i.toInt + 100).toNat, by omega⟩
  have bias : i.toInt - minTwoBytesInt.toInt = k := hk
  have word := tagged_shift (i - minTwoBytesInt) 2 twoBytesIntBit k 2 1
    (toBitVec_toNat _ k (biased i minTwoBytesInt k bias (by omega))) rfl rfl (by decide)
    (by decide) (by omega)
  rw [UInt64.toNat_toUInt16, word]
  omega

/-- The cast to `u32` loses no bits. -/
theorem four_word (i : Int64) (low : -10000 ≤ i.toInt) (high : i.toInt ≤ 536860911) :
    (((i - minFourBytesInt) <<< 3) ||| fourBytesIntTrailer).toUInt64.toUInt32.toNat
      = (8 * (i.toInt + 10000) + 3).toNat := by
  obtain ⟨k, hk⟩ : ∃ k : Nat, i.toInt + 10000 = k := ⟨(i.toInt + 10000).toNat, by omega⟩
  have bias : i.toInt - minFourBytesInt.toInt = k := hk
  have word := tagged_shift (i - minFourBytesInt) 3 fourBytesIntTrailer k 3 3
    (toBitVec_toNat _ k (biased i minFourBytesInt k bias (by omega))) rfl rfl (by decide)
    (by decide) (by omega)
  rw [UInt64.toNat_toUInt32, word]
  omega

theorem lt_zero_iff (i : Int64) : i < 0 ↔ i.toInt < 0 := Int64.lt_iff_toInt_lt

/-- Also at `i64::MIN`, where the absolute value wraps. -/
theorem absval_toNat (i : Int64) :
    (if decide (i < 0) = true then i.abs.toUInt64 else i.toUInt64).toNat = i.toInt.natAbs := by
  have signed : i.toInt = i.toBitVec.toInt := rfl
  have bound := i.toBitVec.isLt
  simp only [decide_eq_true_eq, lt_zero_iff]
  split
  case isTrue neg =>
    change i.abs.toBitVec.toNat = _
    have msb : i.toBitVec.msb = true := BitVec.msb_eq_toInt.trans (decide_eq_true neg)
    rw [Int64.toBitVec_abs, BitVec.toNat_abs, if_pos msb]
    rw [signed, BitVec.toInt_eq_msb_cond, if_pos msb]
    omega
  case isFalse nonneg =>
    change i.toBitVec.toNat = _
    rw [toBitVec_toNat i i.toInt.natAbs (by omega)]

theorem natAbs_lt (i : Int64) : i.toInt.natAbs < 256 ^ 8 := by
  have low := Int64.le_toInt i
  have high := Int64.toInt_lt i
  omega

theorem writeIntBytes_short (i : Int64) (h : isShort i) :
    writeIntBytes i = leBytes 1 (2 * (i.toInt + 10)).toNat := by
  obtain ⟨low, high⟩ := (isShort_iff i).mp h
  have word := short_word i low high
  rw [writeIntBytes, if_pos h]
  refine congrArg (fun b => [b]) (UInt8.toNat_inj.mp ?_)
  rw [word, byte_toNat, Nat.mod_eq_of_lt (by omega)]

theorem encodeInt_short (f : Nat) (i : Int) (low : -10 ≤ i) (high : i < 118) :
    encodeIntAux f i = leBytes 1 (2 * (i + 10)).toNat := by
  unfold encodeIntAux
  exact if_pos ⟨low, high⟩

theorem writeIntBytes_header (n : Nat) (neg : Bool) (h : n ≤ 8) (f : Nat) :
    writeIntBytes (longHeader n neg) = encodeIntAux f (2 * n + if neg then 1 else 0) := by
  have value := longHeader_toInt n neg h
  rw [writeIntBytes_short _ (longHeader_short n neg h), value, encodeInt_short]
  · split <;> omega
  · split <;> omega

/-- The long branch, down to its recursive call. -/
theorem writeIntBytes_long (i : Int64) (notShort : ¬ isShort i)
    (notTwo : ¬ (minTwoBytesInt ≤ i ∧ i ≤ maxTwoBytesInt))
    (notFour : ¬ (minFourBytesInt ≤ i ∧ i ≤ maxFourBytesInt)) :
    writeIntBytes i = longIntTrailer ::
      (writeIntBytes (longHeader (byteLength i.toInt.natAbs) (decide (i < 0)))
        ++ leBytes (byteLength i.toInt.natAbs) i.toInt.natAbs) := by
  have nonzero : i.toInt.natAbs ≠ 0 := by
    rw [isShort_iff] at notShort
    omega
  have small := (byteLength_le_iff i.toInt.natAbs 8).mpr (natAbs_lt i)
  rw [writeIntBytes, if_neg notShort, if_neg notTwo, if_neg notFour]
  simp only [absval_toNat, leBytes_length]
  rw [trimLen_leBytes 8 8 _ (by decide) (Nat.le_refl 8) nonzero (natAbs_lt i), take_leBytes,
    Nat.min_eq_left small]

/-- The serializer's function on `i64` computes the integer code. -/
theorem writeIntBytes_eq (i : Int64) : writeIntBytes i = encodeInt i.toInt := by
  by_cases short : isShort i
  · obtain ⟨low, high⟩ := (isShort_iff i).mp short
    rw [writeIntBytes_short i short, encodeInt, encodeInt_short _ _ low high]
  · have notShort := short
    rw [isShort_iff] at notShort
    unfold encodeInt encodeIntAux
    rw [if_neg notShort]
    by_cases two : minTwoBytesInt ≤ i ∧ i ≤ maxTwoBytesInt
    · obtain ⟨low, high⟩ := (isTwo_iff i).mp two
      rw [writeIntBytes, if_neg short, if_pos two, if_pos ⟨low, high⟩]
      exact congrArg (leBytes 2) (two_word i low high)
    · have notTwo := two
      rw [isTwo_iff] at notTwo
      rw [if_neg notTwo]
      by_cases four : minFourBytesInt ≤ i ∧ i ≤ maxFourBytesInt
      · obtain ⟨low, high⟩ := (isFour_iff i).mp four
        rw [writeIntBytes, if_neg short, if_neg two, if_pos four, if_pos ⟨low, high⟩]
        exact congrArg (leBytes 4) (four_word i low high)
      · have notFour := four
        rw [isFour_iff] at notFour
        have small := (byteLength_le_iff i.toInt.natAbs 8).mpr (natAbs_lt i)
        obtain ⟨f, hf⟩ : ∃ f, i.toInt.natAbs = f + 1 := ⟨i.toInt.natAbs - 1, by omega⟩
        rw [if_neg notFour, writeIntBytes_long i short two four,
          writeIntBytes_header _ _ small f]
        simp only [hf, decide_eq_true_eq, lt_zero_iff]

/-- `write_int` read back: the decoder of the whole stream at 64-bit integers. -/
def decodeInt64 : Decoder UInt8 Int64 := Int64.ofInt <$> decodeInt

theorem reads_writeIntBytes (i : Int64) : Reads decodeInt64 (writeIntBytes i) i := by
  have word := (reads_encodeInt i.toInt).map Int64.ofInt
  rwa [← writeIntBytes_eq, Int64.ofInt_toInt] at word

/-- The four formats of `write_int`. -/
inductive IntFormat where
  | oneByte
  | twoBytes
  | fourBytes
  | long
  deriving DecidableEq, Repr

def intFormat (i : Int64) : IntFormat :=
  if isShort i then .oneByte
  else if minTwoBytesInt ≤ i ∧ i ≤ maxTwoBytesInt then .twoBytes
  else if minFourBytesInt ≤ i ∧ i ≤ maxFourBytesInt then .fourBytes
  else .long

/-- What the low bits of a first byte say: `0`, `01`, `011` or `0x0F`. -/
def lowBitsTag (b : UInt8) : Option IntFormat :=
  if b.toNat % 2 = 0 then some .oneByte
  else if b.toNat % 4 = 1 then some .twoBytes
  else if b.toNat % 8 = 3 then some .fourBytes
  else if b = longIntTrailer then some .long
  else none

/-- What each format writes, with every value exact. -/
def IntFormat.Writes (i : Int64) : IntFormat → Prop
  | .oneByte => ∃ b : UInt8, (b.toNat : Int) = 2 * (i.toInt + 10) ∧ writeIntBytes i = [b]
  | .twoBytes => ∃ x : UInt16, (x.toNat : Int) = 4 * (i.toInt + 100) + 1 ∧
      writeIntBytes i = leBytes 2 x.toNat
  | .fourBytes => ∃ x : UInt32, (x.toNat : Int) = 8 * (i.toInt + 10000) + 3 ∧
      writeIntBytes i = leBytes 4 x.toNat
  | .long => ∃ n : Nat, 1 ≤ n ∧ n ≤ 8 ∧ i.toInt.natAbs < 256 ^ n ∧
      256 ^ (n - 1) ≤ i.toInt.natAbs ∧
      writeIntBytes i = longIntTrailer ::
        (writeIntBytes (longHeader n (decide (i < 0))) ++ leBytes n i.toInt.natAbs)

theorem intFormat_writes (i : Int64) : (intFormat i).Writes i := by
  unfold intFormat
  split
  case isTrue short =>
    obtain ⟨low, high⟩ := (isShort_iff i).mp short
    have word := short_word i low high
    refine ⟨((i - minShortInt) <<< 1).toUInt64.toUInt8, by omega, ?_⟩
    rw [writeIntBytes, if_pos short]
  case isFalse short =>
    split
    case isTrue two =>
      obtain ⟨low, high⟩ := (isTwo_iff i).mp two
      have word := two_word i low high
      refine ⟨(((i - minTwoBytesInt) <<< 2) ||| twoBytesIntBit).toUInt64.toUInt16, by omega, ?_⟩
      rw [writeIntBytes, if_neg short, if_pos two]
    case isFalse two =>
      split
      case isTrue four =>
        obtain ⟨low, high⟩ := (isFour_iff i).mp four
        have word := four_word i low high
        refine ⟨(((i - minFourBytesInt) <<< 3) ||| fourBytesIntTrailer).toUInt64.toUInt32,
          by omega, ?_⟩
        rw [writeIntBytes, if_neg short, if_neg two, if_pos four]
      case isFalse four =>
        have nonzero : i.toInt.natAbs ≠ 0 := by
          have := short
          rw [isShort_iff] at this
          omega
        have lower := byteLength_pos nonzero
        refine ⟨byteLength i.toInt.natAbs, lower,
          (byteLength_le_iff _ 8).mpr (natAbs_lt i), lt_pow_byteLength _, ?_,
          writeIntBytes_long i short two four⟩
        -- one byte fewer would not hold the value
        by_contra below
        have := (byteLength_le_iff _ _).mpr (Nat.lt_of_not_le below)
        omega

theorem lowBitsTag_leBytes (w n : Nat) (h : 1 ≤ w) : ∃ b rest, leBytes w n = b :: rest ∧
    b.toNat = n % 256 := by
  obtain ⟨k, rfl⟩ : ∃ k, w = k + 1 := ⟨w - 1, by omega⟩
  exact ⟨_, _, rfl, byte_toNat n⟩

/-- The first byte tells the format. -/
theorem intFormat_head (i : Int64) :
    ∃ b rest, writeIntBytes i = b :: rest ∧ lowBitsTag b = some (intFormat i) := by
  have writes := intFormat_writes i
  cases format : intFormat i with
  | oneByte =>
    rw [format] at writes
    obtain ⟨b, value, bytes⟩ := writes
    exact ⟨b, [], bytes, by rw [lowBitsTag, if_pos (by omega)]⟩
  | twoBytes =>
    rw [format] at writes
    obtain ⟨x, value, bytes⟩ := writes
    obtain ⟨b, rest, word, low⟩ := lowBitsTag_leBytes 2 x.toNat (by decide)
    exact ⟨b, rest, bytes.trans word, by rw [lowBitsTag, if_neg (by omega), if_pos (by omega)]⟩
  | fourBytes =>
    rw [format] at writes
    obtain ⟨x, value, bytes⟩ := writes
    obtain ⟨b, rest, word, low⟩ := lowBitsTag_leBytes 4 x.toNat (by decide)
    exact ⟨b, rest, bytes.trans word, by
      rw [lowBitsTag, if_neg (by omega), if_neg (by omega), if_pos (by omega)]⟩
  | long =>
    rw [format] at writes
    obtain ⟨n, _, _, _, _, bytes⟩ := writes
    exact ⟨_, _, bytes, rfl⟩

/-- `write_int` is a uniquely decodable code of `i64`: one decoder undoes it on every stream, no
word is a prefix of another, the first byte tells the format, and every format is exact. -/
theorem writeIntBytes_uniquely_decodable :
    (∃ d : Decoder UInt8 Int64, ∀ i r, d (writeIntBytes i ++ r) = some (i, r)) ∧
    (∀ i j, i ≠ j → ¬ writeIntBytes i <+: writeIntBytes j) ∧
    (∀ i, ∃ b rest, writeIntBytes i = b :: rest ∧ lowBitsTag b = some (intFormat i)) ∧
    (∀ i, (intFormat i).Writes i) := by
  refine ⟨⟨decodeInt64, fun i => (reads_writeIntBytes i).run_eq⟩, ?_, intFormat_head,
    intFormat_writes⟩
  intro i j ne
  exact (reads_writeIntBytes i).prefix_free (reads_writeIntBytes j) ne

end AstSerialize
