import AstSerialize.Text.LineIndex

/-! `parse_func_type_comment`, on the tokens that the vendored parser collects. -/
namespace AstSerialize.SignatureComment
open Coding.Utf8

/-- The kinds of tokens that matter to the split of a comment. -/
inductive TokenKind where
  | lpar
  | rpar
  | lsqb
  | rsqb
  | lbrace
  | rbrace
  | comma
  | star
  | doubleStar
  | rarrow
  | newline
  | other
  deriving DecidableEq, Repr

def TokenKind.isStar : TokenKind → Bool
  | .star | .doubleStar => true
  | _ => false

structure Token where
  kind : TokenKind
  range : TextRange
  deriving DecidableEq, Repr

/-- The nesting of `TokenIterWithContext` behind a token. -/
def nestingAfter (nesting : Nat) : TokenKind → Nat
  | .lpar | .lbrace | .lsqb => nesting + 1
  | .rpar | .rbrace | .rsqb => nesting - 1
  | .newline => 0
  | .comma | .star | .doubleStar | .rarrow | .other => nesting

/-- Where the next token starts. -/
def peekStart (tokens : List Token) : Option Nat := tokens.head?.map (·.range.start)

/-- `comment[start..stop].to_string()`. -/
def cut (comment : List Char) (start stop : Nat) : String := .ofList (slice comment start stop)

/-- The loop over the arguments, with the tokens that are left and the nesting behind those before,
the range of the current argument, whether a star of it was stripped, and the arguments so far.
It leaves the tokens behind the closing parenthesis. -/
def parseArguments (comment : List Char) : List Token → Nat → Nat → Nat → Bool → List String →
    Option (List String × List Token)
  | [], _, _, _, _, _ => none
  | token :: tokens, before, argStart, argEnd, starStripped, argTypes =>
    let nesting := nestingAfter before token.kind
    if token.kind = .comma ∧ nesting = 1 then do
      let start ← peekStart tokens
      parseArguments comment tokens nesting start start false
        (argTypes ++ [cut comment argStart argEnd])
    else if token.kind.isStar = true ∧ nesting = 1 then
      if starStripped then none
      else if argStart = token.range.start then do
        let start ← peekStart tokens
        parseArguments comment tokens nesting start start true argTypes
      else parseArguments comment tokens nesting argStart argEnd starStripped argTypes
    else if token.kind = .rpar ∧ nesting = 0 then
      -- an empty range is that of a trailing comma, or of no arguments at all
      some (if argEnd ≠ argStart then argTypes ++ [cut comment argStart argEnd] else argTypes,
        tokens)
    else parseArguments comment tokens nesting argStart token.range.stop starStripped argTypes

/-- The types of the arguments and the type of the result, as texts. -/
def parseFuncTypeComment (lex : String → List Token) (comment : String) :
    Option (List String × String) :=
  match lex comment with
  | ⟨.lpar, _⟩ :: tokens => do
    let start ← peekStart tokens
    let (argTypes, tokens) ← parseArguments comment.toList tokens 1 start start false []
    match tokens with
    | ⟨.rarrow, _⟩ :: tokens => do
      let start ← peekStart tokens
      pure (argTypes, .ofList (dropBytes start comment.toList))
    | _ => none
  | _ => none

end AstSerialize.SignatureComment
