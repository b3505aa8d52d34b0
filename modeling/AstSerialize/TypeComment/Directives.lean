import AstSerialize.Text.Chars

/-! `parse_type_comments_full`: the directives of a comment, between its hashes. -/
namespace AstSerialize

/-- `char::is_alphanumeric`. Its tables stay abstract outside of ASCII. -/
structure Alphanumeric where
  test : Char → Bool
  ascii : ∀ c : Char, c.toNat < 128 → test c = c.isAlphanum
  visible : ∀ c, test c = true → isWhitespace c = false

inductive TypeComment where
  | typeIgnore (codes : List String)
  | mypyIgnore (codes : List String)
  | typeAnnotationText (text : String)
  | invalidIgnore (isMypy : Bool)
  deriving DecidableEq, Repr

section Parse

variable (alphanumeric : Alphanumeric)

/-- The characters of an error code. -/
def errorCodeChar (c : Char) : Bool := alphanumeric.test c || c = '_' || c = '-' || c = ':'

def parseErrorCodes (afterIgnore : List Char) : Option (List String) :=
  let beforeHash := (trimTextStart afterIgnore).takeWhile (· ≠ '#')
  let trimmed := trimTextEnd beforeHash
  if trimmed.head? = some '[' then
    if trimmed.getLast? ≠ some ']' then none
    else
      let codesStr := (trimmed.drop 1).dropLast
      let errorCodes := ((codesStr.splitOn ',').map trimText).filter fun code => !code.isEmpty
      if errorCodes.all fun code => code.all (errorCodeChar alphanumeric) then
        some (errorCodes.map .ofList)
      else none
  -- something invalid like `# type: ignore xyz`
  else if !trimmed.isEmpty then none
  else some []

/-- What may stand behind the word `ignore`. -/
def endsIgnore : List Char → Bool
  | [] => true
  | c :: _ => isWhitespace c || c = '['

def parseCommentPart (part : List Char) : Option TypeComment :=
  let trimmed := trimText part
  let mypyComment := "mypy:".toList.isPrefixOf trimmed
  if !"type:".toList.isPrefixOf trimmed && !mypyComment then none
  else
    let afterType := trimTextStart (trimmed.drop "type:".length)
    if "ignore".toList.isPrefixOf afterType && endsIgnore (afterType.drop "ignore".length) then
      match parseErrorCodes alphanumeric (afterType.drop "ignore".length) with
      | none => some (.invalidIgnore mypyComment)
      | some errorCodes =>
        if mypyComment then some (.mypyIgnore errorCodes) else some (.typeIgnore errorCodes)
    -- `mypy: enable` has no meaning here, and is not an invalid ignore
    else if mypyComment then none
    else some (.typeAnnotationText (.ofList afterType))

/-- The loop over the parts. A blank part makes it ignore the next one. -/
def parseParts (skipCommented : Bool) : Bool → List (List Char) → List TypeComment
  | _, [] => []
  | ignoreNext, part :: parts =>
    if trimText part = [] then parseParts skipCommented true parts
    else if ignoreNext then parseParts skipCommented false parts
    else match parseCommentPart alphanumeric part with
      | some parsed => parsed :: parseParts skipCommented false parts
      | none => if skipCommented then [] else parseParts skipCommented false parts

/-- The parts between the hashes; without a hash in front there are none. -/
def hashParts : List Char → List (List Char)
  | '#' :: comment => comment.splitOn '#'
  | _ => []

/-- No directives are `None`. -/
def someDirectives : List TypeComment → Option (List TypeComment)
  | [] => none
  | parts => some parts

def parseTypeCommentsFull (comment : List Char) (skipCommented : Bool) :
    Option (List TypeComment) :=
  someDirectives (parseParts alphanumeric skipCommented false (hashParts comment))

end Parse

/-- The tables inside of ASCII alone. -/
def Alphanumeric.basic : Alphanumeric where
  test := Char.isAlphanum
  ascii := by
    intro c _
    rfl
  visible := by
    intro c letter
    have range : 0x30 ≤ c.toNat ∧ c.toNat ≤ 0x7A := by
      have bounds : '0'.val.toNat = 0x30 ∧ '9'.val.toNat = 0x39 ∧ 'A'.val.toNat = 0x41 ∧
          'Z'.val.toNat = 0x5A ∧ 'a'.val.toNat = 0x61 ∧ 'z'.val.toNat = 0x7A := by decide
      delta Char.isAlphanum Char.isAlpha Char.isUpper Char.isLower Char.isDigit at letter
      simp only [Bool.or_eq_true, Bool.and_eq_true, decide_eq_true_eq, ge_iff_le,
        UInt32.le_iff_toNat_le] at letter
      simp only [Char.toNat]
      omega
    have other : ¬ (isWhitespace c = true) := by
      simp only [isWhitespace, Bool.or_eq_true, Bool.and_eq_true, decide_eq_true_eq]
      omega
    simpa using other

end AstSerialize
