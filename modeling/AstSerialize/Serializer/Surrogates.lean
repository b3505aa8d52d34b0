import AstSerialize.Serializer.File
import Mathlib.Data.List.DropRight

/-! Escapes of surrogates in the text of a literal, and how the scan of
`check_surrogate_codepoint` finds them. -/
namespace AstSerialize

section Escapes

/-- The backslashes at the end pair up, so that a further one is not escaped. -/
def Unescaped (pre : List Char) : Prop := (pre.rtakeWhile (· = '\\')).length % 2 = 0

instance (pre : List Char) : Decidable (Unescaped pre) := inferInstanceAs (Decidable (_ = 0))

/-- The number of digits that belong to an escape with the letter. -/
def escapeSize (letter : Char) : Option Nat :=
  if letter = 'u' then some 4 else if letter = 'U' then some 8 else none

/-- Somewhere in the text a code point escape begins, with `post` after its letter. -/
def EscapeAt (text : List Char) (size : Nat) (post : List Char) : Prop :=
  ∃ pre letter, text = pre ++ '\\' :: letter :: post ∧ Unescaped pre
    ∧ escapeSize letter = some size

def StartsWithHex (size : Nat) (post : List Char) : Prop :=
  size ≤ post.length ∧ ∀ d ∈ post.take size, (hexDigit d).isSome

/-- Every code point escape has its digits. -/
def WellEscaped (text : List Char) : Prop :=
  ∀ size post, EscapeAt text size post → StartsWithHex size post

/-- The number that hexadecimal digits are read as. -/
def hexValue (digits : List Char) : Nat :=
  digits.foldl (fun n d => 16 * n + (hexDigit d).getD 0) 0

def HasSurrogateEscape (text : List Char) : Prop :=
  ∃ size post, EscapeAt text size post ∧ StartsWithHex size post
    ∧ isSurrogate (hexValue (post.take size)) = true

theorem unescaped_nil : Unescaped [] := rfl

theorem unescaped_concat_other (pre : List Char) {c : Char} (other : c ≠ '\\') :
    Unescaped (pre ++ [c]) := by
  rw [Unescaped, List.rtakeWhile_concat_neg _ _ _ (by simpa using other)]
  rfl

theorem not_unescaped_backslash : ¬ Unescaped ['\\'] := by
  decide

theorem unescaped_pair (c : Char) : Unescaped ['\\', c] := by
  by_cases backslash : c = '\\'
  · rw [backslash]
    rfl
  · exact unescaped_concat_other ['\\'] backslash

/-- Behind an even number of backslashes the count starts again. -/
theorem unescaped_append {pre : List Char} (even : Unescaped pre) (rest : List Char) :
    Unescaped (pre ++ rest) ↔ Unescaped rest := by
  suffices h : (pre ++ rest).rtakeWhile (· = '\\') = rest.rtakeWhile (· = '\\')
      ∨ (pre ++ rest).rtakeWhile (· = '\\') = pre.rtakeWhile (· = '\\') ++ rest ∧
        rest.rtakeWhile (· = '\\') = rest by
    rcases h with same | ⟨longer, all⟩
    · rw [Unescaped, Unescaped, same]
    · rw [Unescaped] at even
      rw [Unescaped, Unescaped, longer, all, List.length_append]
      omega
  induction rest using List.reverseRecOn with
  | nil =>
    right
    simp
  | append_singleton rest c ih =>
    rw [← List.append_assoc]
    by_cases backslash : c = '\\'
    · rw [List.rtakeWhile_concat_pos _ _ _ (by simpa using backslash),
        List.rtakeWhile_concat_pos _ _ _ (by simpa using backslash)]
      rcases ih with same | ⟨longer, all⟩
      · left
        rw [same]
      · right
        rw [longer, all, List.append_assoc]
        exact ⟨rfl, rfl⟩
    · left
      rw [List.rtakeWhile_concat_neg _ _ _ (by simpa using backslash),
        List.rtakeWhile_concat_neg _ _ _ (by simpa using backslash)]

/-- A character that is no backslash begins no escape. -/
theorem escapeAt_other {c : Char} (other : c ≠ '\\') {text : List Char} {size : Nat}
    {post : List Char} : EscapeAt (c :: text) size post ↔ EscapeAt text size post := by
  have alone : Unescaped [c] := unescaped_concat_other [] other
  constructor
  · rintro ⟨pre, letter, split, even, digits⟩
    cases pre with
    | nil =>
      rw [List.nil_append, List.cons.injEq] at split
      exact absurd split.1 other
    | cons d pre =>
      rw [List.cons_append, List.cons.injEq] at split
      obtain ⟨rfl, rest⟩ := split
      exact ⟨pre, letter, rest, (unescaped_append alone pre).mp even, digits⟩
  · rintro ⟨pre, letter, rfl, even, digits⟩
    exact ⟨c :: pre, letter, rfl, (unescaped_append alone pre).mpr even, digits⟩

/-- A backslash takes the next character with it. -/
theorem escapeAt_pair {c : Char} {text : List Char} {size : Nat} {post : List Char} :
    EscapeAt ('\\' :: c :: text) size post
      ↔ (escapeSize c = some size ∧ post = text) ∨ EscapeAt text size post := by
  constructor
  · rintro ⟨pre, letter, split, even, digits⟩
    match pre with
    | [] =>
      simp only [List.nil_append, List.cons.injEq, true_and] at split
      obtain ⟨rfl, rfl⟩ := split
      exact .inl ⟨digits, rfl⟩
    | [d] =>
      simp only [List.cons_append, List.nil_append, List.cons.injEq] at split
      rw [← split.1] at even
      exact absurd even not_unescaped_backslash
    | d :: d' :: pre =>
      simp only [List.cons_append, List.cons.injEq] at split
      obtain ⟨rfl, rfl, rest⟩ := split
      exact .inr ⟨pre, letter, rest, (unescaped_append (unescaped_pair c) pre).mp even, digits⟩
  · rintro (⟨digits, rfl⟩ | ⟨pre, letter, rfl, even, digits⟩)
    · exact ⟨[], c, rfl, unescaped_nil, digits⟩
    · exact ⟨'\\' :: c :: pre, letter, rfl,
        (unescaped_append (unescaped_pair c) pre).mpr even, digits⟩

theorem not_escapeAt_short {text : List Char} (short : text.length < 2) {size : Nat}
    {post : List Char} : ¬ EscapeAt text size post := by
  rintro ⟨pre, letter, rfl, -, -⟩
  simp only [List.length_append, List.length_cons] at short
  omega

end Escapes

section Digits

theorem hexValue_from (digits : List Char) (n : Nat) :
    digits.foldl (fun n d => 16 * n + (hexDigit d).getD 0) n
      = n * 16 ^ digits.length + hexValue digits := by
  induction digits generalizing n with
  | nil => simp [hexValue]
  | cons d digits ih =>
    rw [hexValue, List.foldl_cons, List.foldl_cons, ih, ih, List.length_cons, pow_succ]
    ring

theorem hexValue_cons (d : Char) (digits : List Char) :
    hexValue (d :: digits) = (hexDigit d).getD 0 * 16 ^ digits.length + hexValue digits := by
  rw [hexValue, List.foldl_cons, hexValue_from, Nat.mul_zero, Nat.zero_add]

theorem startsWithHex_succ (size : Nat) (d : Char) (post : List Char) :
    StartsWithHex (size + 1) (d :: post) ↔ (hexDigit d).isSome ∧ StartsWithHex size post := by
  simp only [StartsWithHex, List.length_cons, Nat.add_le_add_iff_right, List.take_succ_cons,
    List.forall_mem_cons]
  exact ⟨fun h => ⟨h.2.1, h.1, h.2.2⟩, fun h => ⟨h.2.1, h.1, h.2.2⟩⟩

theorem parseInt_eq_some {size : Nat} {post : List Char} (hex : StartsWithHex size post) :
    parseInt size post = some (hexValue (post.take size)) := by
  induction size generalizing post with
  | zero => rfl
  | succ size ih =>
    cases post with
    | nil => exact absurd hex.1 (Nat.not_succ_le_zero size)
    | cons d post =>
      rw [startsWithHex_succ] at hex
      obtain ⟨digit, read⟩ := Option.isSome_iff_exists.mp hex.1
      have length : (post.take size).length = size := List.length_take_of_le hex.2.1
      rw [parseInt, read, ih hex.2, List.take_succ_cons, hexValue_cons, length, read]
      rfl

theorem parseInt_eq_none {size : Nat} {post : List Char} (other : ¬ StartsWithHex size post) :
    parseInt size post = none := by
  induction size generalizing post with
  | zero => exact absurd ⟨Nat.zero_le _, by simp⟩ other
  | succ size ih =>
    cases post with
    | nil => rfl
    | cons d post =>
      rw [startsWithHex_succ] at other
      cases read : hexDigit d with
      | none => simp [parseInt, read]
      | some digit =>
        rw [read] at other
        have rest := ih fun hex => other ⟨rfl, hex⟩
        simp [parseInt, read, rest]

theorem startsWithHex_of_parseInt {size ord : Nat} {post : List Char}
    (read : parseInt size post = some ord) :
    StartsWithHex size post ∧ ord = hexValue (post.take size) := by
  by_cases hex : StartsWithHex size post
  · rw [parseInt_eq_some hex, Option.some.injEq] at read
    exact ⟨hex, read.symm⟩
  · rw [parseInt_eq_none hex] at read
    cases read

theorem digits_not_backslash {size ord : Nat} {post : List Char}
    (read : parseInt size post = some ord) : ∀ d ∈ post.take size, d ≠ '\\' := by
  rintro d mem rfl
  have digit := (startsWithHex_of_parseInt read).1.2 _ mem
  have none : hexDigit '\\' = none := by decide
  rw [none] at digit
  cases digit

end Digits

section Scan

/-- What the result of a scan says of the text. -/
def Scanned (text : List Char) : Option Bool → Prop
  | some true => HasSurrogateEscape text
  | some false => WellEscaped text ∧ ¬ HasSurrogateEscape text
  | none => ¬ WellEscaped text

theorem Scanned.same {text text' : List Char} {result : Option Bool}
    (scanned : Scanned text result) (well : WellEscaped text ↔ WellEscaped text')
    (has : HasSurrogateEscape text ↔ HasSurrogateEscape text') : Scanned text' result := by
  match result with
  | some true => exact has.mp scanned
  | some false => exact ⟨well.mp scanned.1, fun h => scanned.2 (has.mpr h)⟩
  | none => exact fun h => scanned (well.mpr h)

theorem Scanned.congr {text text' : List Char} {result : Option Bool}
    (scanned : Scanned text result)
    (escapes : ∀ size post, EscapeAt text size post ↔ EscapeAt text' size post) :
    Scanned text' result := by
  apply scanned.same
  · simp only [WellEscaped, escapes]
  · simp only [HasSurrogateEscape, escapes]

theorem scanned_short {text : List Char} (short : text.length < 2) :
    Scanned text (some false) := by
  constructor
  · intro size post escape
    exact absurd escape (not_escapeAt_short short)
  · rintro ⟨size, post, escape, -⟩
    exact not_escapeAt_short short escape

section Letter

variable {letter : Char} {size ord : Nat} {text : List Char} {result : Option Bool}

theorem escapeAt_letter (digits : escapeSize letter = some size) :
    EscapeAt ('\\' :: letter :: text) size text :=
  escapeAt_pair.mpr (.inl ⟨digits, rfl⟩)

theorem scanned_malformed (digits : escapeSize letter = some size)
    (read : parseInt size text = none) : Scanned ('\\' :: letter :: text) none := by
  intro well
  have hex := well size text (escapeAt_letter digits)
  rw [parseInt_eq_some hex] at read
  cases read

theorem scanned_surrogate (digits : escapeSize letter = some size)
    (read : parseInt size text = some ord) (surrogate : isSurrogate ord = true) :
    Scanned ('\\' :: letter :: text) (some true) := by
  obtain ⟨hex, rfl⟩ := startsWithHex_of_parseInt read
  exact ⟨size, text, escapeAt_letter digits, hex, surrogate⟩

/-- Behind an escape of another code point the scan goes on. -/
theorem scanned_plain (digits : escapeSize letter = some size)
    (read : parseInt size text = some ord) (plain : ¬ isSurrogate ord = true)
    (scanned : Scanned text result) : Scanned ('\\' :: letter :: text) result := by
  obtain ⟨hex, rfl⟩ := startsWithHex_of_parseInt read
  have inside : ∀ size' post, EscapeAt ('\\' :: letter :: text) size' post →
      (size' = size ∧ post = text) ∨ EscapeAt text size' post := by
    intro size' post escape
    rcases escapeAt_pair.mp escape with ⟨digits', rfl⟩ | later
    · rw [digits, Option.some.injEq] at digits'
      exact .inl ⟨digits'.symm, rfl⟩
    · exact .inr later
  have well : WellEscaped ('\\' :: letter :: text) ↔ WellEscaped text := by
    constructor
    · intro h size' post escape
      exact h size' post (escapeAt_pair.mpr (.inr escape))
    · intro h size' post escape
      rcases inside size' post escape with ⟨rfl, rfl⟩ | later
      · exact hex
      · exact h size' post later
  have has : HasSurrogateEscape ('\\' :: letter :: text) ↔ HasSurrogateEscape text := by
    constructor
    · rintro ⟨size', post, escape, hex', surrogate⟩
      rcases inside size' post escape with ⟨rfl, rfl⟩ | later
      · exact absurd surrogate plain
      · exact ⟨size', post, later, hex', surrogate⟩
    · rintro ⟨size', post, escape, found⟩
      exact ⟨size', post, escapeAt_pair.mpr (.inr escape), found⟩
  exact scanned.same well.symm has.symm

end Letter

theorem char_not_surrogate (c : Char) : isSurrogate c.toNat = false := by
  have valid : c.toNat < 0xd800 ∨ 0xdfff < c.toNat ∧ c.toNat < 0x110000 := c.valid
  simp only [isSurrogate, Bool.and_eq_false_iff, decide_eq_false_iff_not, not_le]
  omega

/-- The scan of a text, behind digits that were already read. -/
theorem scanSurrogates_scanned (skip : Nat) (text : List Char)
    (behind : ∀ d ∈ text.take skip, d ≠ '\\') : Scanned text (scanSurrogates skip text) := by
  fun_induction scanSurrogates skip text with
  | case1 => exact scanned_short (by decide)
  | case2 skip c chars ih =>
    rw [List.take_succ_cons, List.forall_mem_cons] at behind
    exact (ih behind.2).congr fun _ _ => (escapeAt_other behind.1).symm
  | case3 chars ord read surrogate => exact scanned_surrogate rfl read surrogate
  | case4 chars ord read plain ih =>
    exact scanned_plain rfl read plain (ih (digits_not_backslash read))
  | case5 chars read => exact scanned_malformed rfl read
  | case6 chars ord read surrogate => exact scanned_surrogate rfl read surrogate
  | case7 chars ord read plain ih =>
    exact scanned_plain rfl read plain (ih (digits_not_backslash read))
  | case8 chars read => exact scanned_malformed rfl read
  | case9 c chars notShort notLong ih =>
    have noDigits : escapeSize c = none := by
      rw [escapeSize, if_neg notShort, if_neg notLong]
    apply (ih (by simp)).congr
    intro size post
    simp [escapeAt_pair, noDigits]
  | case10 c chars _ _ _ surrogate =>
    rw [char_not_surrogate] at surrogate
    cases surrogate
  | case11 c chars _ _ single _ ih =>
    by_cases backslash : c = '\\'
    · -- a backslash at the end of the text
      cases chars with
      | nil => exact scanned_short (by simp)
      | cons d chars => exact (single d chars backslash rfl).elim
    · exact (ih (by simp)).congr fun _ _ => (escapeAt_other backslash).symm

theorem hasSurrogateEscape_of_scan {text : List Char} (found : scanSurrogates 0 text = some true) :
    HasSurrogateEscape text := by
  have scanned := scanSurrogates_scanned 0 text (by simp)
  rw [found] at scanned
  exact scanned

theorem scan_wellEscaped {text : List Char} (well : WellEscaped text) :
    ∃ found, scanSurrogates 0 text = some found ∧ (found = true ↔ HasSurrogateEscape text) := by
  have scanned := scanSurrogates_scanned 0 text (by simp)
  match result : scanSurrogates 0 text with
  | none =>
    rw [result] at scanned
    exact absurd well scanned
  | some true =>
    rw [result] at scanned
    exact ⟨true, rfl, fun _ => scanned, fun _ => rfl⟩
  | some false =>
    rw [result] at scanned
    refine ⟨false, rfl, ?_, ?_⟩
    · intro impossible
      cases impossible
    · intro has
      exact absurd has scanned.2

theorem scan_false_iff (text : List Char) :
    scanSurrogates 0 text = some false ↔ WellEscaped text ∧ ¬ HasSurrogateEscape text := by
  have scanned := scanSurrogates_scanned 0 text (by simp)
  constructor
  · intro result
    rw [result] at scanned
    exact scanned
  · rintro ⟨well, without⟩
    obtain ⟨found, result, has⟩ := scan_wellEscaped well
    cases found with
    | true => exact absurd (has.mp rfl) without
    | false => exact result

end Scan

section Check

/-- What the parser promises of the text and the value of a literal that is not raw. -/
structure AcceptedLiteral (text : List Char) (raw : Bool) (value : String) : Prop where
  escapes : raw = false → WellEscaped text
  decoded : raw = false → HasSurrogateEscape text → '\uFFFD' ∈ value.toList

variable (c : Config) (raw : Bool) (value : String) (range : TextRange)

/-- The check returns, and it sets the flag exactly for an escaped surrogate. -/
def CheckCorrect (s : Serializer) : Prop :=
  ∃ s', (checkSurrogateCodepoint c value range).run s = some ((), s') ∧
    (s'.hasSurrogates = true ↔ raw = false ∧ HasSurrogateEscape (c.textAt range))

variable {c raw value range}

/-- The check, started from a cleared flag. -/
theorem checkSurrogateCodepoint_run {s : Serializer} (fresh : s.hasSurrogates = false) :
    (checkSurrogateCodepoint c value range).run s
      = (surrogatesAfterLiteral c value range false).map
          fun found => ((), { s with hasSurrogates := found }) := by
  have same : s = { s with hasSurrogates := false } := by
    rw [← fresh]
  unfold checkSurrogateCodepoint surrogatesAfterLiteral
  split
  · simp only [map_eq_pure_bind, bind_assoc, pure_bind, StateT.run_bind, StateT.run_get, fresh,
      Option.pure_def, Option.bind_eq_bind, Option.bind_some, Bool.false_eq_true, if_false]
    match scanSurrogates 0 (c.textAt range) with
    | some true => rfl
    | some false => exact congrArg (fun s => some ((), s)) same
    | none => rfl
  · exact congrArg (fun s => some ((), s)) same

theorem surrogatesAfterLiteral_plain (plain : '\uFFFD' ∉ value.toList) (seen : Bool) :
    surrogatesAfterLiteral c value range seen = some seen := by
  rw [surrogatesAfterLiteral, if_neg (by simpa using plain)]

theorem surrogatesAfterLiteral_replaced (replaced : '\uFFFD' ∈ value.toList) :
    surrogatesAfterLiteral c value range false = scanSurrogates 0 (c.textAt range) := by
  rw [surrogatesAfterLiteral, if_pos (by simpa using replaced)]
  rfl

/-- The check is right about a literal exactly if the literal is not raw, or has no replacement
character, or has nothing that reads as a broken or a surrogate escape. -/
theorem checkSurrogateCodepoint_correct_iff
    (accepted : AcceptedLiteral (c.textAt range) raw value) {s : Serializer}
    (fresh : s.hasSurrogates = false) :
    CheckCorrect c raw value range s ↔
      raw = false ∨ '\uFFFD' ∉ value.toList ∨
        (WellEscaped (c.textAt range) ∧ ¬ HasSurrogateEscape (c.textAt range)) := by
  rw [CheckCorrect, checkSurrogateCodepoint_run fresh]
  by_cases replaced : '\uFFFD' ∈ value.toList
  · rw [surrogatesAfterLiteral_replaced replaced]
    cases raw with
    | false =>
      obtain ⟨found, result, has⟩ := scan_wellEscaped (accepted.escapes rfl)
      rw [result]
      simp [has]
    | true =>
      rw [← scan_false_iff]
      cases result : scanSurrogates 0 (c.textAt range) with
      | none => simp [replaced]
      | some found => cases found <;> simp [replaced]
  · rw [surrogatesAfterLiteral_plain replaced]
    have without : ¬ (raw = false ∧ HasSurrogateEscape (c.textAt range)) := by
      rintro ⟨escaped, has⟩
      exact replaced (accepted.decoded escaped has)
    simp [replaced, without]

/-- A raw literal with an escape of another code point next to a replacement character. -/
theorem check_correct_raw :
    CheckCorrect (.plain "r'\\u0041\uFFFD'".toList) true "\\u0041\uFFFD" ⟨0, 12⟩
      Serializer.initial := by
  have accepted : AcceptedLiteral ((Config.plain "r'\\u0041\uFFFD'".toList).textAt ⟨0, 12⟩) true
      "\\u0041\uFFFD" := by
    constructor <;> intro escaped <;> cases escaped
  apply (checkSurrogateCodepoint_correct_iff accepted rfl).mpr
  right
  right
  rw [← scan_false_iff]
  decide

/-- In a raw literal with a replacement character, `\uZ` reaches `unreachable!()`, and the text of a
surrogate escape sets the flag. -/
theorem raw_literal_misread :
    (checkSurrogateCodepoint (.plain "r'\\uZ\uFFFD'".toList) "\\uZ\uFFFD" ⟨0, 9⟩).run
      Serializer.initial = none ∧
    ¬ CheckCorrect (.plain "r'\\uZ\uFFFD'".toList) true "\\uZ\uFFFD" ⟨0, 9⟩
      Serializer.initial ∧
    ¬ CheckCorrect (.plain "r'\\ud800\uFFFD'".toList) true "\\ud800\uFFFD" ⟨0, 12⟩
      Serializer.initial := by
  have broken : surrogatesAfterLiteral (.plain "r'\\uZ\uFFFD'".toList) "\\uZ\uFFFD" ⟨0, 9⟩ false
      = none := by decide
  have flagged : surrogatesAfterLiteral (.plain "r'\\ud800\uFFFD'".toList) "\\ud800\uFFFD"
      ⟨0, 12⟩ false = some true := by decide
  refine ⟨?_, ?_, ?_⟩
  · rw [checkSurrogateCodepoint_run rfl, broken]
    rfl
  · rintro ⟨s', run, -⟩
    rw [checkSurrogateCodepoint_run rfl, broken] at run
    cases run
  · rintro ⟨s', run, correct⟩
    rw [checkSurrogateCodepoint_run rfl, flagged] at run
    cases run
    exact absurd (correct.mp rfl).1 (by decide)

end Check

end AstSerialize
