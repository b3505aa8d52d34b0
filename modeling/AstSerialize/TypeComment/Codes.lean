import AstSerialize.TypeComment.Parts

/-! The error codes of an ignore: which texts list codes, and which codes a list
gives. -/
namespace AstSerialize

section Codes

variable (alphanumeric : Alphanumeric)

structure ErrorCode where
  text : List Char
  nonempty : text ≠ []
  chars : ∀ c ∈ text, errorCodeChar alphanumeric c = true

/-- A possibly empty code with blanks around it. -/
def CodeText (text : List Char) : Prop := ∀ c ∈ trimText text, errorCodeChar alphanumeric c = true

/-- One list in brackets. -/
def CodeList (tail : List Char) : Prop :=
  ∃ a b texts, Spaces a ∧ Spaces b ∧ (∀ text ∈ texts, CodeText alphanumeric text) ∧
    tail = a ++ ('[' :: [','].intercalate texts ++ [']']) ++ b

def codesIn (inner : List Char) : Option (List String) :=
  let errorCodes := ((inner.splitOn ',').map trimText).filter fun code => !code.isEmpty
  if errorCodes.all fun code => code.all (errorCodeChar alphanumeric) then
    some (errorCodes.map .ofList)
  else none

def codesOf (trimmed : List Char) : Option (List String) :=
  if trimmed.head? = some '[' then
    if trimmed.getLast? ≠ some ']' then none else codesIn alphanumeric (trimmed.drop 1).dropLast
  else if !trimmed.isEmpty then none
  else some []

def IsErrorCode (code : String) : Prop :=
  code.toList ≠ [] ∧ ∀ c ∈ code.toList, errorCodeChar alphanumeric c = true

end Codes

section Facts

variable {alphanumeric : Alphanumeric}

theorem errorCodeChar_ascii {c : Char} (ascii : c.toNat < 128) :
    errorCodeChar alphanumeric c = (c.isAlphanum || c = '_' || c = '-' || c = ':') := by
  rw [errorCodeChar, alphanumeric.ascii c ascii]

theorem errorCodeChar_solid {c : Char} (code : errorCodeChar alphanumeric c = true) :
    isWhitespace c = false := by
  simp only [errorCodeChar, Bool.or_eq_true, decide_eq_true_eq] at code
  rcases code with ((letter | rfl) | rfl) | rfl
  · exact alphanumeric.visible c letter
  · rfl
  · rfl
  · rfl

theorem ErrorCode.not_mem (code : ErrorCode alphanumeric) {c : Char}
    (sep : c ∈ ['#', ',', '[', ']']) : c ∉ code.text := by
  have other : errorCodeChar alphanumeric c = false := by
    revert c
    simp only [List.forall_mem_cons]
    refine ⟨?_, ?_, ?_, ?_, by simp⟩ <;> exact errorCodeChar_ascii (by decide)
  intro mem
  rw [code.chars c mem] at other
  cases other

/-- All characters are solid, so no blanks are at the ends. -/
theorem trim_solid {text : List Char} (solid : ∀ c ∈ text, isWhitespace c = false) :
    trimText text = text := by
  cases text with
  | nil => rfl
  | cons c text =>
    have start : trimTextStart (c :: text) = c :: text :=
      Coding.trimStart_solid (solid c List.mem_cons_self) text
    rcases List.eq_nil_or_concat (c :: text) with none | ⟨before, last, whole⟩
    · cases none
    · have stop : trimTextEnd (c :: text) = c :: text := by
        rw [whole, List.concat_eq_append] at solid ⊢
        exact Coding.trimEnd_solid (solid last (by simp)) before
      rw [trimText, Coding.trim]
      exact (congrArg trimTextEnd start).trans stop

theorem ErrorCode.trimmed (code : ErrorCode alphanumeric) : trimText code.text = code.text :=
  trim_solid fun c mem => errorCodeChar_solid (code.chars c mem)

theorem parseErrorCodes_codesOf (tail : List Char) :
    parseErrorCodes alphanumeric tail
      = codesOf alphanumeric (trimTextEnd ((trimTextStart tail).takeWhile (· ≠ '#'))) := by rfl

/-- Without a hash the blanks at both ends go, and the rest is read. -/
theorem parseErrorCodes_eq {tail : List Char} (part : '#' ∉ tail) :
    parseErrorCodes alphanumeric (trimTextEnd tail) = codesOf alphanumeric (trimText tail) := by
  have start : trimTextStart (trimTextEnd tail) = trimText tail := Coding.trimStart_trimEnd tail
  have kept : (trimText tail).takeWhile (· ≠ '#') = trimText tail := by
    rw [List.takeWhile_eq_self_iff]
    intro c mem
    obtain ⟨a, b, -, -, split⟩ := Coding.trim_split (p := isWhitespace) tail
    have other : c ≠ '#' := by
      rintro rfl
      apply part
      rw [split]
      simp [mem]
    simpa using other
  have stop : trimTextEnd (trimText tail) = trimText tail :=
    List.rdropWhile_idempotent isWhitespace (trimTextStart tail)
  rw [parseErrorCodes_codesOf, start, kept, stop]

theorem codesOf_brackets (inner : List Char) :
    codesOf alphanumeric ('[' :: inner ++ [']']) = codesIn alphanumeric inner := by
  have first : ('[' :: inner ++ [']']).head? = some '[' := by rfl
  have last : ('[' :: inner ++ [']']).getLast? = some ']' := List.getLast?_concat
  have within : (('[' :: inner ++ [']']).drop 1).dropLast = inner := List.dropLast_concat
  rw [codesOf, if_pos first, if_neg (not_not.mpr last), within]

/-- A text that starts with the one bracket and ends with the other has both. -/
theorem brackets_split {text : List Char} (first : text.head? = some '[')
    (last : text.getLast? = some ']') : ∃ inner, text = '[' :: inner ++ [']'] := by
  cases text with
  | nil => cases first
  | cons c text =>
    obtain rfl : c = '[' := Option.some.inj first
    rcases List.eq_nil_or_concat text with rfl | ⟨inner, d, rfl⟩
    · cases last
    · rw [List.concat_eq_append, ← List.cons_append, List.getLast?_concat] at last
      obtain rfl : d = ']' := Option.some.inj last
      exact ⟨inner, by simp⟩

theorem codesIn_isSome_iff (inner : List Char) :
    (codesIn alphanumeric inner).isSome = true ↔
      ∀ text ∈ inner.splitOn ',', CodeText alphanumeric text := by
  have all : (((inner.splitOn ',').map trimText).filter fun code => !code.isEmpty).all
      (fun code => code.all (errorCodeChar alphanumeric)) = true ↔
      ∀ text ∈ inner.splitOn ',', CodeText alphanumeric text := by
    simp only [List.all_eq_true, List.mem_filter, List.mem_map, CodeText]
    constructor
    · intro all text mem c inside
      refine all (trimText text) ⟨⟨text, mem, rfl⟩, ?_⟩ c inside
      simp [List.ne_nil_of_mem inside]
    · rintro all code ⟨⟨text, mem, rfl⟩, -⟩ c inside
      exact all text mem c inside
  rw [← all, codesIn]
  split
  case isTrue valid => simp [valid]
  case isFalse invalid => simp [invalid]

theorem codesIn_codes {inner : List Char} {codes : List String}
    (found : codesIn alphanumeric inner = some codes) :
    ∀ code ∈ codes, IsErrorCode alphanumeric code := by
  simp only [codesIn] at found
  split at found
  case isTrue valid =>
    obtain rfl := Option.some.inj found
    intro code mem
    obtain ⟨text, kept, rfl⟩ := List.mem_map.mp mem
    have chars := List.all_eq_true.mp valid text kept
    have some : text ≠ [] := by simpa using (List.mem_filter.mp kept).2
    rw [IsErrorCode, String.toList_ofList]
    exact ⟨some, List.all_eq_true.mp chars⟩
  case isFalse => cases found

theorem parseErrorCodes_codes {tail : List Char} {codes : List String}
    (found : parseErrorCodes alphanumeric tail = some codes) :
    ∀ code ∈ codes, IsErrorCode alphanumeric code := by
  rw [parseErrorCodes_codesOf, codesOf] at found
  split at found
  · split at found
    · cases found
    · exact codesIn_codes found
  · split at found
    · cases found
    · obtain rfl := Option.some.inj found
      simp

/-- Text that is no list is no ignore. -/
theorem parseErrorCodes_stray {tail : List Char} (part : '#' ∉ tail) (visible : ¬ Spaces tail)
    (stray : ¬ CodeList alphanumeric tail) :
    parseErrorCodes alphanumeric (trimTextEnd tail) = none := by
  rw [parseErrorCodes_eq part]
  obtain ⟨a, b, ha, hb, split⟩ := Coding.trim_split (p := isWhitespace) tail
  unfold codesOf
  split
  case isTrue first =>
    split
    · rfl
    case isFalse last =>
      obtain ⟨inner, brackets⟩ := brackets_split first (not_not.mp last)
      have within : (('[' :: inner ++ [']']).drop 1).dropLast = inner := List.dropLast_concat
      rw [brackets, within, ← Option.not_isSome_iff_eq_none, codesIn_isSome_iff]
      intro texts
      refine stray ⟨a, b, inner.splitOn ',', ha, hb, texts, ?_⟩
      rw [List.intercalate_splitOn]
      exact brackets ▸ split
  case isFalse =>
    split
    · rfl
    case isFalse nothing =>
      have none : trimText tail = [] := by simpa using nothing
      exact absurd (Coding.trim_eq_nil_iff.mp none) visible

end Facts

end AstSerialize
