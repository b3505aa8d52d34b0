import Mathlib.Algebra.GroupWithZero.Nat
import Mathlib.Data.List.Basic
import Mathlib.Data.List.DropRight

/-! Byte offsets into a text given as its code points. Cutting a text at a byte
offset rounds down to a character boundary; at a boundary the cut is exact. -/
namespace Coding.Utf8

/-- Bytes of the UTF-8 form. -/
def byteLen (s : List Char) : Nat := (s.map Char.utf8Size).sum

@[simp] theorem byteLen_nil : byteLen [] = 0 := rfl

@[simp] theorem byteLen_cons (c : Char) (s : List Char) :
    byteLen (c :: s) = c.utf8Size + byteLen s := rfl

@[simp] theorem byteLen_append (s t : List Char) : byteLen (s ++ t) = byteLen s + byteLen t := by
  simp [byteLen]

theorem length_le_byteLen (s : List Char) : s.length ≤ byteLen s := by
  induction s with
  | nil => exact Nat.le_refl 0
  | cons c s ih =>
    have := c.utf8Size_pos
    simp only [List.length_cons, byteLen_cons]
    omega

/-- `char::is_ascii`. -/
def isAscii (c : Char) : Bool := decide (c.val ≤ 127)

theorem isAscii_iff (c : Char) : isAscii c = true ↔ c.utf8Size = 1 := by
  rw [isAscii, decide_eq_true_eq, Char.utf8Size_eq_one_iff]

theorem byteLen_eq_length (s : List Char) (ascii : ∀ c ∈ s, isAscii c = true) :
    byteLen s = s.length := by
  induction s with
  | nil => rfl
  | cons c s ih =>
    have one := (isAscii_iff c).mp (ascii c List.mem_cons_self)
    have rest := ih fun d hd => ascii d (List.mem_cons_of_mem c hd)
    rw [byteLen_cons, List.length_cons, one, rest, Nat.add_comm]

/-- The characters that end at or before byte `n`. -/
def takeBytes : Nat → List Char → List Char
  | _, [] => []
  | n, c :: s => if c.utf8Size ≤ n then c :: takeBytes (n - c.utf8Size) s else []

/-- The characters that start at or after byte `n`. -/
def dropBytes : Nat → List Char → List Char
  | _, [] => []
  | 0, s => s
  | n + 1, c :: s => dropBytes (n + 1 - c.utf8Size) s

@[simp] theorem dropBytes_zero (s : List Char) : dropBytes 0 s = s := by
  cases s <;> rfl

theorem takeBytes_append (n : Nat) (s t : List Char) :
    takeBytes (byteLen s + n) (s ++ t) = s ++ takeBytes n t := by
  induction s with
  | nil => simp
  | cons c s ih =>
    have fits : c.utf8Size ≤ byteLen (c :: s) + n := by
      rw [byteLen_cons]
      omega
    have left : byteLen (c :: s) + n - c.utf8Size = byteLen s + n := by
      rw [byteLen_cons]
      omega
    rw [List.cons_append, takeBytes, if_pos fits, left, ih, List.cons_append]

@[simp] theorem takeBytes_zero (s : List Char) : takeBytes 0 s = [] := by
  cases s with
  | nil => rfl
  | cons c s =>
    have := c.utf8Size_pos
    rw [takeBytes, if_neg (by omega)]

@[simp] theorem takeBytes_byteLen (s t : List Char) : takeBytes (byteLen s) (s ++ t) = s := by
  simpa using takeBytes_append 0 s t

@[simp] theorem dropBytes_byteLen (s t : List Char) : dropBytes (byteLen s) (s ++ t) = t := by
  induction s with
  | nil => simp
  | cons c s ih =>
    have := c.utf8Size_pos
    obtain ⟨n, hn⟩ : ∃ n, byteLen (c :: s) = n + 1 := ⟨byteLen (c :: s) - 1, by
      rw [byteLen_cons]
      omega⟩
    have left : n + 1 - c.utf8Size = byteLen s := by
      rw [byteLen_cons] at hn
      omega
    rw [hn, List.cons_append, dropBytes, left, ih]

theorem takeBytes_isPrefix (n : Nat) (s : List Char) : takeBytes n s <+: s := by
  induction s generalizing n with
  | nil => exact List.nil_prefix
  | cons c s ih =>
    rw [takeBytes]
    split
    · exact (List.cons_prefix_cons).mpr ⟨rfl, ih _⟩
    · exact List.nil_prefix

theorem takeBytes_idem (n : Nat) (s : List Char) :
    takeBytes (byteLen (takeBytes n s)) s = takeBytes n s := by
  obtain ⟨rest, split⟩ := takeBytes_isPrefix n s
  have exact := takeBytes_byteLen (takeBytes n s) rest
  rwa [split] at exact

/-- A cut past the end is a cut at the end. -/
theorem takeBytes_min (n : Nat) (s : List Char) :
    takeBytes (min n (byteLen s)) s = takeBytes n s := by
  rcases Nat.le_total n (byteLen s) with small | large
  · rw [Nat.min_eq_left small]
  · obtain ⟨more, rfl⟩ := Nat.exists_eq_add_of_le large
    have past := takeBytes_append more s []
    have exact := takeBytes_append 0 s []
    simp only [List.append_nil, takeBytes, Nat.add_zero] at past exact
    rw [Nat.min_eq_right large, past, exact]

theorem byteLen_takeBytes_le (n : Nat) (s : List Char) : byteLen (takeBytes n s) ≤ n := by
  induction s generalizing n with
  | nil => exact Nat.zero_le n
  | cons c s ih =>
    rw [takeBytes]
    split
    case isTrue fits =>
      have := ih (n - c.utf8Size)
      rw [byteLen_cons]
      omega
    case isFalse => exact Nat.zero_le n

/-- The cut holds as many characters as bytes exactly when the first `n` characters are ASCII. -/
theorem takeBytes_length_eq_iff (n : Nat) (s : List Char) :
    (takeBytes n s).length = n ↔ n ≤ s.length ∧ ∀ c ∈ s.take n, isAscii c = true := by
  induction s generalizing n with
  | nil =>
    simp only [takeBytes, List.length_nil, List.take_nil, List.not_mem_nil, false_imp_iff,
      implies_true, and_true]
    omega
  | cons c s ih =>
    cases n with
    | zero => simp
    | succ n =>
      have pos := c.utf8Size_pos
      rw [takeBytes, List.take_succ_cons, List.forall_mem_cons, isAscii_iff, List.length_cons]
      by_cases one : c.utf8Size = 1
      · rw [one, if_pos (by omega), Nat.add_sub_cancel, List.length_cons]
        simp only [Nat.add_right_cancel_iff, Nat.add_le_add_iff_right, true_and]
        exact ih n
      · have short : (if c.utf8Size ≤ n + 1 then c :: takeBytes (n + 1 - c.utf8Size) s
            else []).length < n + 1 := by
          split
          · have chars := length_le_byteLen (takeBytes (n + 1 - c.utf8Size) s)
            have bytes := byteLen_takeBytes_le (n + 1 - c.utf8Size) s
            rw [List.length_cons]
            omega
          · exact Nat.succ_pos n
        simp only [one, false_and, and_false, iff_false]
        omega

/-- `str::is_char_boundary`. -/
def isCharBoundary : List Char → Nat → Bool
  | _, 0 => true
  | [], _ + 1 => false
  | c :: s, n + 1 => decide (c.utf8Size ≤ n + 1) && isCharBoundary s (n + 1 - c.utf8Size)

theorem isCharBoundary_iff (s : List Char) (n : Nat) :
    isCharBoundary s n = true ↔ byteLen (takeBytes n s) = n := by
  induction s generalizing n with
  | nil => cases n <;> simp [isCharBoundary, takeBytes]
  | cons c s ih =>
    cases n with
    | zero => simp [isCharBoundary]
    | succ n =>
      rw [isCharBoundary, takeBytes, Bool.and_eq_true, decide_eq_true_eq, ih]
      split
      · rw [byteLen_cons]
        omega
      · rw [byteLen_nil]
        omega

/-- Between two cuts that differ by one byte lies at most one boundary. -/
theorem takeBytes_succ (s : List Char) (n : Nat)
    (inside : isCharBoundary s (n + 1) = false) : takeBytes (n + 1) s = takeBytes n s := by
  induction s generalizing n with
  | nil => rfl
  | cons c s ih =>
    have pos := c.utf8Size_pos
    rw [isCharBoundary, Bool.and_eq_false_iff, decide_eq_false_iff_not] at inside
    rw [takeBytes, takeBytes]
    by_cases fits : c.utf8Size ≤ n + 1
    · have next := inside.resolve_left (not_not_intro fits)
      by_cases full : c.utf8Size ≤ n
      · have shift : n + 1 - c.utf8Size = n - c.utf8Size + 1 := by omega
        rw [shift] at next ⊢
        rw [if_pos fits, if_pos full, ih _ next]
      · have edge : n + 1 - c.utf8Size = 0 := by omega
        rw [edge] at next
        cases s <;> simp [isCharBoundary] at next
    · rw [if_neg fits, if_neg (by omega)]

end Coding.Utf8
