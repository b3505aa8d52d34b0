import AstSerialize.Coding.Emits
import AstSerialize.Relocate
import AstSerialize.Wire.Stmt

/-! The serializer: what it is given, the state it moves, and its writers. A
panic is `none`. -/
namespace AstSerialize
open Coding

inductive ParsedTypeComment where
  | regular (type : Expr)
  | function (args : List Expr) (ret : Expr)
  | invalid (message : String)

inductive TokenKind where
  | colon
  | comment
  | other
  deriving DecidableEq, Repr

structure Token where
  kind : TokenKind
  range : TextRange
  deriving DecidableEq, Repr

structure SyntaxError where
  line : Nat
  column : Nat
  message : String
  blocker : Bool
  deriving DecidableEq, Repr

inductive ImportStatement where
  | import (name : String) (relative : Int) (asName : Option String) (range : TextRange)
      (flags : UInt8)
  | importFrom (module : String) (relative : Int) (names : List (String × Option String))
      (range : TextRange) (flags : UInt8)
  | importAll (module : String) (relative : Int) (range : TextRange) (flags : UInt8)
  deriving DecidableEq, Repr

/-- The fields of the serializer that it only reads. The remaining one, `skip_function_bodies`, is
a parameter of the functions that depend on it. -/
structure Config where
  source : SourceText
  tokens : Option (List Token)
  typeComments : Nat → Option ParsedTypeComment
  options : Options
  locationOverride : Option (UInt32 × UInt32 × UInt32 × UInt32)
  parser : ExprParser

/-- The fields of the serializer that it writes. -/
structure Serializer where
  bytes : Bytes
  imports : List ImportStatement
  inClass : Bool
  inFunction : Bool
  currentUnreachable : Bool
  currentMypyOnly : Bool
  topLevelGetattr : Bool
  isEvaluated : Bool
  extraErrors : List SyntaxError
  skippedLines : List Nat
  usesTemplateStrings : Bool
  hasSurrogates : Bool

abbrev SerM := StateT Serializer Option

def Config.cacheVersion (c : Config) : Nat := c.options.cacheVersion

/-- Subtraction of one from a `usize`, which wraps. -/
def usizePred (n : Nat) : Nat := if n = 0 then 2 ^ 64 - 1 else n - 1

def panic : SerM Unit := fun _ => none

def extendBytes (w : Bytes) : SerM Unit := modify fun s => { s with bytes := s.bytes ++ w }

def writeTag (t : Tag) : SerM Unit := extendBytes (encTag t)

def writeEndTag : SerM Unit := writeTag .end

/-- `write_int` with its argument as an integer; on `i64` this is `writeIntBytes`. -/
def writeInt (i : Int) : SerM Unit := extendBytes (encodeInt i)

def writeTaggedInt (i : Int) : SerM Unit := do
  writeTag .literalInt
  writeInt i

def writeUsize (n : Nat) : SerM Unit := writeInt n

def writeBytes (b : Bytes) : SerM Unit := do
  writeTag .literalStr
  writeUsize b.length
  extendBytes b

def writeBool (b : Bool) : SerM Unit := extendBytes (encTag (if b then .literalTrue else .literalFalse))

/-- An optional string, with the tag of `None` in its place. -/
def writeBytesOrNone : Option Bytes → SerM Unit
  | some b => writeBytes b
  | none => writeTag .literalNone

def writeLocation (c : Config) (range : TextRange) : SerM Unit := do
  writeTag .location
  match c.locationOverride with
  | some (line, column, endLine, endColumn) =>
    writeInt line.toNat
    writeInt column.toNat
    writeInt ((endLine.toNat : Int) - line.toNat)
    writeInt ((endColumn.toNat : Int) - column.toNat)
  | none =>
    let loc := if c.source.isAllAscii then c.source.asciiLocation range
      else c.source.convertedLocation range
    writeInt loc.line
    writeInt loc.column
    writeInt loc.endLine
    writeInt loc.endColumn

/-- The 1-based line of an offset. -/
def Config.lineOf (c : Config) (offset : Nat) : Nat := (c.source.lineColumn offset).line

def skipLines (c : Config) (start stop : TextRange) : SerM Unit :=
  let stLine := c.lineOf start.start
  let endLine := c.lineOf stop.stop
  modify fun s =>
    { s with skippedLines := s.skippedLines ++ List.range' stLine (endLine + 1 - stLine) }

def addError (c : Config) (error : String) (range : TextRange) (blocker : Bool) : SerM Unit :=
  let stLoc := c.source.lineColumn range.start
  let stColumn := c.source.convertColumnToCodepoint stLoc.line stLoc.column
  modify fun s =>
    { s with extraErrors := s.extraErrors ++ [⟨stLoc.line, usizePred stColumn, error, blocker⟩] }

end AstSerialize
