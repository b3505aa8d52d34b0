import AstSerialize.Serializer.Types

/-! The parts of expressions that are not expressions themselves: surrogates in
literals, numbers, operators, argument kinds and f-string texts. -/
namespace AstSerialize
open Coding

section Surrogates

def isSurrogate (ord : Nat) : Bool := 0xd800 ≤ ord && ord ≤ 0xdfff

/-- `char::to_digit(16)`. -/
def hexDigit (c : Char) : Option Nat :=
  if '0' ≤ c ∧ c ≤ '9' then some (c.toNat - '0'.toNat)
  else if 'a' ≤ c ∧ c ≤ 'f' then some (c.toNat - 'a'.toNat + 10)
  else if 'A' ≤ c ∧ c ≤ 'F' then some (c.toNat - 'A'.toNat + 10)
  else none

/-- The value of the next `size` digits; anything else is `unreachable!()`. -/
def parseInt : Nat → List Char → Option Nat
  | 0, _ => some 0
  | _ + 1, [] => none
  | size + 1, c :: chars => do
    let d ← hexDigit c
    let rest ← parseInt size chars
    pure (d * 16 ^ size + rest)

/-- Whether the text of a literal has a surrogate, escaped or not. The first argument counts the
characters that `parse_int` has already taken. -/
def scanSurrogates : Nat → List Char → Option Bool
  | _, [] => some false
  | skip + 1, _ :: chars => scanSurrogates skip chars
  | 0, '\\' :: 'u' :: chars =>
    match parseInt 4 chars with
    | some ord => if isSurrogate ord then some true else scanSurrogates 4 chars
    | none => none
  | 0, '\\' :: 'U' :: chars =>
    match parseInt 8 chars with
    | some ord => if isSurrogate ord then some true else scanSurrogates 8 chars
    | none => none
  | 0, '\\' :: _ :: chars => scanSurrogates 0 chars
  | 0, c :: chars => if isSurrogate c.toNat then some true else scanSurrogates 0 chars

def Config.textAt (c : Config) (range : TextRange) : List Char :=
  slice c.source.text range.start range.stop

def noteSurrogates : Option Bool → SerM Unit
  | some true => modify fun s => { s with hasSurrogates := true }
  | some false => pure ()
  | none => panic

def checkSurrogateCodepoint (c : Config) (parsedValue : String) (range : TextRange) : SerM Unit :=
  if parsedValue.toList.contains '\uFFFD' then do
    if ← (·.hasSurrogates) <$> get then pure ()
    else noteSurrogates (scanSurrogates 0 (c.textAt range))
  else pure ()

/-- The flag after a literal, unless the literal makes the scan panic. -/
def surrogatesAfterLiteral (c : Config) (parsedValue : String) (range : TextRange) (seen : Bool) :
    Option Bool :=
  if parsedValue.toList.contains '\uFFFD' then
    if seen then some true else scanSurrogates 0 (c.textAt range)
  else some seen

def surrogatesAfterParts (c : Config) : List StringLiteral → Bool → Option Bool
  | [], seen => some seen
  | part :: parts, seen =>
    (surrogatesAfterLiteral c part.value part.range seen).bind (surrogatesAfterParts c parts)

end Surrogates

section Values

/-- The discriminants of the operators. -/
def Operator.toInt : Operator → Int
  | .add => 0
  | .sub => 1
  | .mult => 2
  | .matMult => 3
  | .div => 4
  | .mod => 5
  | .pow => 6
  | .lShift => 7
  | .rShift => 8
  | .bitOr => 9
  | .bitXor => 10
  | .bitAnd => 11
  | .floorDiv => 12

def Operator.asStr : Operator → String
  | .add => "+"
  | .sub => "-"
  | .mult => "*"
  | .matMult => "@"
  | .div => "/"
  | .mod => "%"
  | .pow => "**"
  | .lShift => "<<"
  | .rShift => ">>"
  | .bitOr => "|"
  | .bitXor => "^"
  | .bitAnd => "&"
  | .floorDiv => "//"

def UnaryOp.toInt : UnaryOp → Int
  | .invert => 0
  | .not => 1
  | .uAdd => 2
  | .uSub => 3

def BoolOp.toInt : BoolOp → Int
  | .and => 0
  | .or => 1

def CmpOp.toInt : CmpOp → Int
  | .eq => 0
  | .notEq => 1
  | .lt => 2
  | .ltE => 3
  | .gt => 4
  | .gtE => 5
  | .is => 6
  | .isNot => 7
  | .in => 8
  | .notIn => 9

def argPos : Int := 0
def argOpt : Int := 1
def argStar : Int := 2
def argNamed : Int := 3
def argStar2 : Int := 4
def argNamedOpt : Int := 5

/-- The kind of a positional argument of a call. -/
def argKind : Expr → Int
  | .starred _ _ => argStar
  | _ => argPos

def keywordKind (keyword : Keyword) : Int :=
  if keyword.arg.isNone then argStar2 else argNamed

def Identifier.bytes (name : Identifier) : Bytes := utf8 name.id

def keywordName (keyword : Keyword) : Option Bytes := keyword.arg.map Identifier.bytes

/-- A name that starts with two underscores and does not end with two. -/
def argumentElideName (name : String) : Bool :=
  ['_', '_'].isPrefixOf name.toList && !(['_', '_'].isSuffixOf name.toList)

/-- `!s` and its siblings. -/
def fStringConversion : ConversionFlag → Option Bytes
  | .none => none
  | .str => some (utf8 "!s")
  | .repr => some (utf8 "!r")
  | .ascii => some (utf8 "!a")

/-- In t-strings the conversion has no exclamation mark. -/
def tStringConversion : ConversionFlag → Option Bytes
  | .none => none
  | .str => some (utf8 "s")
  | .repr => some (utf8 "r")
  | .ascii => some (utf8 "a")

/-- A debug item without conversion and format gets `!r`. -/
def debugConversion (debugText : Option DebugText) (conversion : ConversionFlag)
    (formatSpec : Option FormatSpec) : ConversionFlag :=
  if debugText.isSome ∧ conversion = .none ∧ formatSpec.isNone then .repr else conversion

/-- One item more for each debug text. -/
def elementCount : List InterpolatedStringElement → Nat
  | [] => 0
  | .literal _ _ :: elements => elementCount elements + 1
  | .interpolation _ debugText _ _ :: elements =>
    elementCount elements + 1 + if debugText.isSome then 1 else 0

/-- The text of a debug item. -/
def debugBytes (c : Config) (debugText : DebugText) (range : TextRange) : Bytes :=
  (debugText.leading.toList ++ c.textAt range ++ debugText.trailing.toList).flatMap
    String.utf8EncodeChar

end Values

end AstSerialize
