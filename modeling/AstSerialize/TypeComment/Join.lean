import AstSerialize.TypeComment.Split

/-! Comments that are joined from arguments and a result are split into them again. -/
namespace AstSerialize.SignatureComment
open Coding.Utf8

section Joined

/-- The brackets of an argument match, and outside of them there is no comma and no star. Inside the
parentheses of a comment the lexer ends no line. -/
def Enclosed : Nat → List Lexeme → Prop
  | depth, [] => depth = 0
  | depth, l :: ls =>
    match l.kind with
    | .lpar | .lsqb | .lbrace => Enclosed (depth + 1) ls
    | .rpar | .rsqb | .rbrace => 0 < depth ∧ Enclosed (depth - 1) ls
    | .comma | .star | .doubleStar => 0 < depth ∧ Enclosed depth ls
    | .newline => False
    | .rarrow | .other => Enclosed depth ls

/-- The stars before an argument. -/
inductive Stars where
  | none
  | one (space : List Char)
  | two (space : List Char)

def Stars.lexemes : Stars → List Lexeme
  | .none => []
  | .one space => [⟨space, .star, ['*']⟩]
  | .two space => [⟨space, .doubleStar, ['*', '*']⟩]

structure Argument where
  stars : Stars
  body : List Lexeme
  enclosed : Enclosed 0 body
  present : body ≠ []
  visible : ∀ l ∈ body, l.text ≠ []

def Argument.lexemes (a : Argument) : List Lexeme := a.stars.lexemes ++ a.body

/-- Arguments with commas between them, and possibly one behind the last. -/
inductive Joins : List Argument → List Lexeme → Prop
  | none : Joins [] []
  | last (a : Argument) : Joins [a] a.lexemes
  | cons (a : Argument) (space : List Char) {as : List Argument} {ls : List Lexeme}
    (rest : Joins as ls) : Joins (a :: as) (a.lexemes ++ ⟨space, .comma, [',']⟩ :: ls)

/-- `(`, the arguments, `) ->` and the result, with any space before the tokens. -/
def joinedComment (first second third : List Char) (inner ret : List Lexeme) : List Lexeme :=
  ⟨first, .lpar, ['(']⟩ :: inner
    ++ ⟨second, .rpar, [')']⟩ :: ⟨third, .rarrow, ['-', '>']⟩ :: ret

end Joined

section Arguments

/-- The nesting behind a token of an argument is one more than what is open in the argument. -/
theorem Enclosed.step {depth : Nat} {l : Lexeme} {ls : List Lexeme}
    (enclosed : Enclosed depth (l :: ls)) :
    ∃ inside, nestingAfter (depth + 1) l.kind = inside + 1 ∧ Enclosed inside ls ∧
      (l.kind = .comma ∨ l.kind.isStar = true → inside ≠ 0) := by
  obtain ⟨space, kind, text⟩ := l
  cases kind with
  | lpar | lsqb | lbrace => exact ⟨depth + 1, rfl, enclosed, by simp [TokenKind.isStar]⟩
  | rpar | rsqb | rbrace =>
    have opened : 0 < depth := enclosed.1
    have same : nestingAfter (depth + 1) .rpar = depth - 1 + 1 := by
      rw [nestingAfter]
      omega
    exact ⟨depth - 1, same, enclosed.2, by simp [TokenKind.isStar]⟩
  | comma | star | doubleStar =>
    have opened : 0 < depth := enclosed.1
    exact ⟨depth, rfl, enclosed.2, fun _ => opened.ne'⟩
  | newline => exact enclosed.elim
  | rarrow | other => exact ⟨depth, rfl, enclosed, by simp [TokenKind.isStar]⟩

/-- More tokens before the first comma. -/
def Arguments.prepend (ls : List Lexeme) (a : Arguments) : Arguments :=
  { a with first := ls ++ a.first }

theorem splitArguments_enclosed {depth : Nat} {body : List Lexeme} (enclosed : Enclosed depth body)
    (rest : List Lexeme) :
    splitArguments (depth + 1) (body ++ rest)
      = (splitArguments 1 rest).map (Arguments.prepend body) := by
  induction body generalizing depth with
  | nil =>
    obtain rfl : depth = 0 := enclosed
    exact Option.map_id'.symm
  | cons l body ih =>
    obtain ⟨inside, nesting, enclosed, deep⟩ := enclosed.step
    have notComma : ¬ (l.kind = .comma ∧ inside + 1 = 1) := by
      rintro ⟨comma, outside⟩
      exact deep (.inl comma) (Nat.succ.inj outside)
    have notClosing : ¬ (l.kind = .rpar ∧ inside + 1 = 0) := by
      rintro ⟨-, closed⟩
      exact Nat.succ_ne_zero _ closed
    rw [List.cons_append, splitArguments, nesting, if_neg notComma, if_neg notClosing, ih enclosed, Option.map_map]
    rfl

theorem run_enclosed {depth : Nat} {body : List Lexeme} (enclosed : Enclosed depth body)
    (tokens : List Lexeme) (starStripped : Bool) :
    Span.run (depth + 1) ⟨tokens, [], starStripped⟩ body
      = some ⟨tokens ++ body, [], starStripped⟩ := by
  induction body generalizing depth tokens with
  | nil => simp [Span.run]
  | cons l body ih =>
    obtain ⟨inside, nesting, enclosed, deep⟩ := enclosed.step
    have notStar : ¬ (l.kind.isStar = true ∧ inside + 1 = 1) := by
      rintro ⟨star, outside⟩
      exact deep (.inr star) (Nat.succ.inj outside)
    rw [Span.run, nesting, Span.step, if_neg notStar, Option.bind_some, List.append_nil,
      ih enclosed, List.append_assoc]
    rfl

theorem splitArguments_stars (stars : Stars) (rest : List Lexeme) :
    splitArguments 1 (stars.lexemes ++ rest)
      = (splitArguments 1 rest).map (Arguments.prepend stars.lexemes) := by
  cases stars with
  | none => exact Option.map_id'.symm
  | one | two =>
    simp [Stars.lexemes, splitArguments, nestingAfter]
    rfl

/-- The type of an argument has all of its tokens behind the stars. -/
theorem segment_argument (a : Argument) : segment a.lexemes = some a.body := by
  have body := run_enclosed a.enclosed []
  rw [segment, Argument.lexemes]
  cases a.stars with
  | none => simp [Stars.lexemes, Span.empty, body]
  | one | two =>
    simp [Stars.lexemes, Span.empty, Span.run, Span.step, nestingAfter, TokenKind.isStar, body]

theorem splitArguments_argument (a : Argument) (rest : List Lexeme) :
    splitArguments 1 (a.lexemes ++ rest)
      = (splitArguments 1 rest).map (Arguments.prepend a.lexemes) := by
  have body := splitArguments_enclosed a.enclosed rest
  rw [Nat.zero_add] at body
  rw [Argument.lexemes, List.append_assoc, splitArguments_stars, body, Option.map_map]
  congr 1
  funext others
  simp [Arguments.prepend]

theorem argument_visible (a : Argument) : ∀ l ∈ a.lexemes, l.text ≠ [] := by
  rw [Argument.lexemes, List.forall_mem_append]
  refine ⟨?_, a.visible⟩
  cases a.stars <;> simp [Stars.lexemes]

/-- What the joined arguments split into. -/
structure SplitsInto (as : List Argument) (ls rest : List Lexeme) (a : Arguments) : Prop where
  found : splitArguments 1 ls = some a
  rest : a.rest = rest
  visible : ∀ argument ∈ a.all, ∀ l ∈ argument, l.text ≠ []
  segments : ∃ segments, a.all.mapM segment = some segments ∧ segments ≠ [] ∧
    listed segments = as.map (·.body)

theorem joins_split {as : List Argument} {inner : List Lexeme} (joins : Joins as inner)
    (space : List Char) (rest : List Lexeme) :
    ∃ a, SplitsInto as (inner ++ ⟨space, .rpar, [')']⟩ :: rest) rest a := by
  have closing : splitArguments 1 (⟨space, .rpar, [')']⟩ :: rest) = some ⟨[], [], rest⟩ := rfl
  induction joins with
  | none =>
    refine ⟨⟨[], [], rest⟩, closing, rfl, ?_, [[]], rfl, by simp, rfl⟩
    simp [Arguments.all]
  | last a =>
    refine ⟨⟨a.lexemes, [], rest⟩, ?_, rfl, ?_, [a.body], ?_, by simp, ?_⟩
    · rw [splitArguments_argument, closing]
      simp [Arguments.prepend]
    · simpa [Arguments.all] using argument_visible a
    · simp [Arguments.all, segment_argument]
    · simp [listed, a.present]
  | cons a space' joins ih =>
    obtain ⟨others, split⟩ := ih
    obtain ⟨segments, types, more, bodies⟩ := split.segments
    refine ⟨⟨a.lexemes, others.all, others.rest⟩, ?_, split.rest, ?_, a.body :: segments, ?_,
      by simp, ?_⟩
    · rw [List.append_assoc, splitArguments_argument, List.cons_append, splitArguments]
      simp [nestingAfter, split.found, Arguments.prepend]
    · rw [Arguments.all, List.forall_mem_cons]
      exact ⟨argument_visible a, split.visible⟩
    · rw [Arguments.all, List.mapM_cons, segment_argument, Option.bind_eq_bind, Option.bind_some,
        types]
      rfl
    · rw [listed_cons more, bodies]
      rfl

end Arguments

section Inverse

/-- The splitter returns the texts of the arguments and of the result that a comment was joined
from. -/
theorem parseFuncTypeComment_joined (lex : String → List Token) {as : List Argument}
    {inner : List Lexeme} (joins : Joins as inner) (first second third trailing : List Char)
    (result : Lexeme) (more : List Lexeme)
    (lexed : lex (.ofList (spell (joinedComment first second third inner (result :: more))
        ++ trailing))
      = place 0 (joinedComment first second third inner (result :: more))) :
    parseFuncTypeComment lex (.ofList (spell (joinedComment first second third inner
        (result :: more)) ++ trailing))
      = some (as.map fun a => .ofList (textOf a.body),
          .ofList (textOf (result :: more) ++ trailing)) := by
  obtain ⟨a, split⟩ := joins_split joins second (⟨third, .rarrow, ['-', '>']⟩ :: result :: more)
  obtain ⟨segments, types, -, bodies⟩ := split.segments
  have visible : ∀ a', commentArguments (joinedComment first second third inner (result :: more))
      = some a' → ∀ argument ∈ a'.all, ∀ l ∈ argument, l.text ≠ [] := by
    intro a' found
    rw [joinedComment, List.cons_append, commentArguments, split.found] at found
    cases found
    exact split.visible
  have parts : splitComment (joinedComment first second third inner (result :: more))
      = some (as.map (·.body), result :: more) := by
    rw [joinedComment, List.cons_append, splitComment, split.found]
    simp [types, split.rest, bodies]
  rw [parseFuncTypeComment_eq lex lexed visible, parts]
  simp

/-- `dict[str, int]`. -/
def dictArgument : Argument where
  stars := .none
  body := [⟨[], .other, "dict".toList⟩, ⟨[], .lsqb, "[".toList⟩, ⟨[], .other, "str".toList⟩,
    ⟨[], .comma, ",".toList⟩, ⟨[' '], .other, "int".toList⟩, ⟨[], .rsqb, "]".toList⟩]
  enclosed := by simp [Enclosed]
  present := by simp
  visible := by decide

/-- ` *str`. -/
def starArgument : Argument where
  stars := .one [' ']
  body := [⟨[], .other, "str".toList⟩]
  enclosed := rfl
  present := by simp
  visible := by decide

/-- The tokens of `(dict[str, int], *str) -> None`, with the end of the line. -/
def dictTokens : List Token :=
  [⟨.lpar, ⟨0, 1⟩⟩, ⟨.other, ⟨1, 5⟩⟩, ⟨.lsqb, ⟨5, 6⟩⟩, ⟨.other, ⟨6, 9⟩⟩, ⟨.comma, ⟨9, 10⟩⟩,
    ⟨.other, ⟨11, 14⟩⟩, ⟨.rsqb, ⟨14, 15⟩⟩, ⟨.comma, ⟨15, 16⟩⟩, ⟨.star, ⟨17, 18⟩⟩,
    ⟨.other, ⟨18, 21⟩⟩, ⟨.rpar, ⟨21, 22⟩⟩, ⟨.rarrow, ⟨23, 25⟩⟩, ⟨.other, ⟨26, 30⟩⟩,
    ⟨.newline, ⟨30, 30⟩⟩]

theorem parseFuncTypeComment_dict :
    parseFuncTypeComment (fun _ => dictTokens) "(dict[str, int], *str) -> None"
      = some (["dict[str, int]", "str"], "None") := by
  have joins : Joins [dictArgument, starArgument] (dictArgument.lexemes
      ++ ⟨[], .comma, [',']⟩ :: starArgument.lexemes) := .cons _ _ (.last _)
  exact parseFuncTypeComment_joined (fun _ => dictTokens) joins [] [] [' '] []
    ⟨[' '], .other, "None".toList⟩ [⟨[], .newline, []⟩] (by decide)

end Inverse

end AstSerialize.SignatureComment
