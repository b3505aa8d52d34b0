import AstSerialize.Serializer.Types

/-! The text of a bytes literal: what Python's `repr` prints between the quotes,
and what its escapes mean. -/
namespace AstSerialize
open Coding

section Python

/-- A double quote, when there are single quotes and no double ones. -/
def reprQuote (bs : Bytes) : UInt8 := if 39 ∈ bs ∧ 34 ∉ bs then 34 else 39

/-- The lowercase digit of a value below 16. -/
def reprDigit (value : UInt8) : UInt8 := if value < 10 then 48 + value else 87 + value

def reprByte (quote b : UInt8) : Bytes :=
  if b = quote ∨ b = 92 then [92, b]
  else if b = 9 then [92, 116]
  else if b = 10 then [92, 110]
  else if b = 13 then [92, 114]
  else if b < 32 ∨ 127 ≤ b then [92, 120, reprDigit (b / 16), reprDigit (b % 16)]
  else [b]

/-- `repr` of a bytes object: its body in quotes, behind the letter `b`. -/
def bytesRepr (bs : Bytes) : Bytes :=
  98 :: reprQuote bs :: (bs.flatMap (reprByte (reprQuote bs)) ++ [reprQuote bs])

def digitValue (c : UInt8) : Option UInt8 :=
  if 48 ≤ c ∧ c ≤ 57 then some (c - 48)
  else if 97 ≤ c ∧ c ≤ 102 then some (c - 87)
  else if 65 ≤ c ∧ c ≤ 70 then some (c - 55)
  else none

/-- The byte that a backslash and a character stand for. -/
def unescapeByte (c : UInt8) : Option UInt8 :=
  if c = 92 ∨ c = 39 then some c
  else if c = 110 then some 10
  else if c = 114 then some 13
  else if c = 116 then some 9
  else none

/-- The bytes that the body of a literal stands for. -/
def unescape : Bytes → Option Bytes
  | [] => some []
  | c :: text =>
    if c = 92 then
      match text with
      | 120 :: high :: low :: text => do
        let high ← digitValue high
        let low ← digitValue low
        let bs ← unescape text
        some ((high * 16 + low) :: bs)
      | c :: text => do
        let b ← unescapeByte c
        let bs ← unescape text
        some (b :: bs)
      | [] => none
    else (unescape text).map (c :: ·)

end Python

section Bytes

/-- A property of every byte, checked for each. -/
theorem byte_cases {p : UInt8 → Prop} (all : ∀ n : Fin 256, p (.ofFin n)) (b : UInt8) : p b :=
  all b.toFin

theorem hexDigits : utf8 "0123456789abcdef"
    = [48, 49, 50, 51, 52, 53, 54, 55, 56, 57, 97, 98, 99, 100, 101, 102] := by decide

theorem hexDigits_get (b : UInt8) :
    ((utf8 "0123456789abcdef")[(b >>> 4).toNat]?).toList
        ++ ((utf8 "0123456789abcdef")[(b &&& 0xf).toNat]?).toList
      = [reprDigit (b / 16), reprDigit (b % 16)] := by
  rw [hexDigits]
  revert b
  apply byte_cases
  decide +kernel

theorem digitValue_reprDigit (b : UInt8) :
    digitValue (reprDigit (b / 16)) = some (b / 16) ∧ digitValue (reprDigit (b % 16)) = some (b % 16)
      ∧ b / 16 * 16 + b % 16 = b := by
  revert b
  apply byte_cases
  decide +kernel

/-- Printable ASCII. -/
def Printable (b : UInt8) : Prop := 32 ≤ b ∧ b ≤ 126

instance (b : UInt8) : Decidable (Printable b) := inferInstanceAs (Decidable (_ ∧ _))

theorem escapedByte_printable (escapeQuote : Bool) (b : UInt8) :
    ∀ c ∈ escapedByte escapeQuote b, Printable c := by
  have all : (escapedByte escapeQuote b).all (decide <| Printable ·) = true := by
    revert b
    apply byte_cases
    cases escapeQuote <;> decide +kernel
  simpa [List.all_eq_true] using all

/-- Only the quotes are escaped depending on the rest of the text. -/
theorem escapedByte_eq_reprByte (b : UInt8) :
    escapedByte true b = reprByte 39 b ∧ (b ≠ 39 → escapedByte false b = reprByte 39 b) ∧
      (b ≠ 34 → escapedByte false b = reprByte 34 b) := by
  revert b
  apply byte_cases
  decide +kernel

theorem unescape_plain {b : UInt8} (plain : b ≠ 92) (text : Bytes) :
    unescape (b :: text) = (unescape text).map (b :: ·) := by
  rw [unescape.eq_def]
  change (if b = 92 then _ else _) = _
  rw [if_neg plain]

theorem unescape_pair {c b : UInt8} (noHex : c ≠ 120) (value : unescapeByte c = some b)
    (text : Bytes) : unescape (92 :: c :: text) = (unescape text).map (b :: ·) := by
  rw [unescape.eq_def]
  change (if (92 : UInt8) = 92 then _ else _) = _
  rw [if_pos rfl]
  split
  · rename_i same
    exact absurd (List.cons.inj same).1 noHex
  · rename_i same
    obtain ⟨rfl, rfl⟩ := List.cons.inj same
    rw [value]
    cases unescape text <;> rfl
  · rename_i same
    cases same

theorem unescape_hex (b : UInt8) (text : Bytes) :
    unescape ([92, 120, reprDigit (b / 16), reprDigit (b % 16)] ++ text)
      = (unescape text).map (b :: ·) := by
  obtain ⟨high, low, whole⟩ := digitValue_reprDigit b
  simp [unescape, high, low, whole]
  cases unescape text <;> rfl

theorem unescape_escapedByte (escapeQuote : Bool) (b : UInt8) (text : Bytes) :
    unescape (escapedByte escapeQuote b ++ text) = (unescape text).map (b :: ·) := by
  unfold escapedByte
  split_ifs with isReturn newline tab backslash quote printable
  · subst isReturn
    exact unescape_pair (c := 114) (by decide) rfl text
  · subst newline
    exact unescape_pair (c := 110) (by decide) rfl text
  · subst tab
    exact unescape_pair (c := 116) (by decide) rfl text
  · subst backslash
    exact unescape_pair (c := 92) (by decide) rfl text
  · obtain ⟨rfl, _⟩ := quote
    exact unescape_pair (c := 39) (by decide) rfl text
  · exact unescape_plain backslash text
  · rw [List.append_assoc (utf8 "\\x"), hexDigits_get]
    exact unescape_hex b text

theorem any_any_eq (value : List Bytes) (quote : UInt8) :
    (value.any fun part => part.any (· = quote)) = decide (quote ∈ value.flatten) := by
  rw [Bool.eq_iff_iff]
  simp

theorem flatMap_parts (f : UInt8 → Bytes) (value : List Bytes) :
    (value.flatMap fun part => part.flatMap f) = value.flatten.flatMap f := by
  induction value with
  | nil => rfl
  | cons part parts ih => simp [ih]

/-- The parts of a literal are escaped as their concatenation. -/
theorem serializeBytesToEscapedString_flatten (value : List Bytes) :
    serializeBytesToEscapedString value = value.flatten.flatMap
      (escapedByte (decide (39 ∈ value.flatten) && decide (34 ∈ value.flatten))) := by
  simp only [serializeBytesToEscapedString, any_any_eq, flatMap_parts]

theorem escaped_eq_repr (bs : Bytes) :
    bs.flatMap (escapedByte (decide (39 ∈ bs) && decide (34 ∈ bs)))
      = bs.flatMap (reprByte (reprQuote bs)) := by
  apply List.flatMap_congr
  intro b mem
  obtain ⟨both, noSingle, noDouble⟩ := escapedByte_eq_reprByte b
  by_cases single : 39 ∈ bs
  · by_cases double : 34 ∈ bs
    · simpa [reprQuote, single, double] using both
    · simpa [reprQuote, single, double] using noDouble fun h => double (h ▸ mem)
  · simpa [reprQuote, single] using noSingle fun h => single (h ▸ mem)

theorem unescape_escaped (escapeQuote : Bool) (bs : Bytes) :
    unescape (bs.flatMap (escapedByte escapeQuote)) = some bs := by
  induction bs with
  | nil => rfl
  | cons b bs ih => rw [List.flatMap_cons, unescape_escapedByte, ih, Option.map_some]

/-- The text is printable and what `repr` prints between the quotes, it stands for the bytes of the
literal, and no other bytes have it. -/
theorem serializeBytesToEscapedString_repr (value : List Bytes) :
    (∀ c ∈ serializeBytesToEscapedString value, Printable c) ∧
    bytesRepr value.flatten = 98 :: reprQuote value.flatten ::
      (serializeBytesToEscapedString value ++ [reprQuote value.flatten]) ∧
    unescape (serializeBytesToEscapedString value) = some value.flatten ∧
    ∀ value', serializeBytesToEscapedString value = serializeBytesToEscapedString value' ↔
      value.flatten = value'.flatten := by
  refine ⟨?_, ?_, ?_, ?_⟩
  · intro c mem
    rw [serializeBytesToEscapedString_flatten] at mem
    obtain ⟨b, _, mem⟩ := List.mem_flatMap.mp mem
    exact escapedByte_printable _ b c mem
  · rw [serializeBytesToEscapedString_flatten, escaped_eq_repr, bytesRepr]
  · rw [serializeBytesToEscapedString_flatten, unescape_escaped]
  · intro value'
    simp only [serializeBytesToEscapedString_flatten]
    constructor
    · intro same
      have texts := congrArg unescape same
      rw [unescape_escaped, unescape_escaped] at texts
      exact Option.some.inj texts
    · intro same
      rw [same]

end Bytes

end AstSerialize
