import AstSerialize.Serializer.Stmt
import AstSerialize.TypeComment.Segments

/-! How `extract_type_comments_and_ignores` records an annotation, and which
annotations it takes for types of functions. -/
namespace AstSerialize.SignatureComment
open Coding.Utf8

section Record

/-- The vendored parser in expression mode with the tokens it collects, given with their texts. On
one line only tokens at the end are empty, and nothing that ends in a star is an expression. -/
structure CommentParser where
  parser : ExprParser
  lexemes : List Char → List Lexeme
  trailing : List Char → List Char
  spelled : ∀ text, spell (lexemes text) ++ trailing text = text
  solid : ∀ text, '\n' ∉ text → '\r' ∉ text →
    (lexemes text).Pairwise fun l l' => l.text = [] → l'.text = []
  closing : ∀ text, ∀ l ∈ lexemes text, l.kind = .rpar → l.text ≠ []
  stars : ∀ text, ∀ l ∈ lexemes text, l.kind.isStar = true → l.text.getLast? = some '*'
  dangling : ∀ text, '#' ∉ text → text.getLast? = some '*' →
    parser.parseUnchecked (.ofList text) = none

def CommentParser.lex (p : CommentParser) (text : String) : List Token :=
  place 0 (p.lexemes text.toList)

def functionCommentToExpr (parser : ExprParser) (argTypes : List String) (retType : String) :
    Option (List Expr × Expr) := do
  let parsedArgTypes ← argTypes.mapM fun argType => parser.parseUnchecked ("(" ++ argType ++ ")")
  let parsedRetType ← parser.parseUnchecked ("(" ++ retType ++ ")")
  pure (parsedArgTypes, parsedRetType)

def syntaxErrorIn (text : String) : String :=
  "Syntax error in type comment \"" ++ text ++ "\""

/-- What is recorded for an annotation: a type, the types of a function, or an error. -/
def recordTypeComment (p : CommentParser) (text : String) : ParsedTypeComment :=
  if text = "" then .invalid "Syntax error in type comment \"\""
  else
    match p.parser.parseUnchecked ("(" ++ text ++ ")") with
    | some type => .regular type
    | none =>
      match (parseFuncTypeComment p.lex text).bind fun (argTypes, retType) =>
        functionCommentToExpr p.parser argTypes retType with
      | some (parsedArgTypes, parsedRetType) => .function parsedArgTypes parsedRetType
      | none => .invalid (syntaxErrorIn text)

end Record

section Correct

/-- The text behind `# type:`, up to the end of its part of the comment. -/
structure AnnotationText where
  text : List Char
  part : '#' ∉ text
  line : '\n' ∉ text ∧ '\r' ∉ text

def AnnotationText.source (a : AnnotationText) : String := .ofList a.text

variable (p : CommentParser)

/-- A text that is an expression. -/
def Valid (text : List Char) : Prop :=
  text ≠ [] ∧ (p.parser.parseUnchecked (.ofList text)).isSome

/-- A text that is one inside of parentheses. -/
def Accepted (text : List Char) : Prop :=
  (p.parser.parseUnchecked ("(" ++ .ofList text ++ ")")).isSome

/-- The text of the result. -/
def resultText (a : AnnotationText) (ret : List Lexeme) : List Char := textOf ret ++ p.trailing a.text

/-- The annotation is `(`, arguments, `) ->` and a result, where each argument behind at most one
star and the result are expressions. -/
def WellFormed (a : AnnotationText) : Prop :=
  ∃ arguments ret, commentParts (p.lexemes a.text) = some (arguments, ret) ∧
    (∀ argument ∈ listed arguments, bodyOf argument ≠ [] ∧ Valid p (textOf (bodyOf argument))) ∧
    Valid p (resultText p a ret)

/-- The error is reported for the function or the assignment that has the comment. -/
structure Reported (error : String) (comment : ParsedTypeComment) : Prop where
  function : ∀ inClass n, (applyFuncComment inClass n (some comment)).2.2 = [error]
  assignment : ∀ (c : Config) range, c.assignComment range = some comment →
    ∃ rest, serializeAssignType c range = do
      addError c error range false
      rest

/-- Only a well-formed annotation is recorded as that of a function, and any other one that is no
type is recorded and reported as an error. -/
structure AnnotationCorrect (a : AnnotationText) : Prop where
  function : ∀ args ret, recordTypeComment p a.source = .function args ret → WellFormed p a
  invalid : (a.text = [] ∨ ¬ Accepted p a.text) → ¬ WellFormed p a →
    recordTypeComment p a.source = .invalid (syntaxErrorIn a.source) ∧
    Reported (syntaxErrorIn a.source) (recordTypeComment p a.source)

/-- The annotation is no type, and its parts are all accepted inside of parentheses. -/
structure Taken (a : AnnotationText) (arguments segments : List (List Lexeme)) (ret : List Lexeme) :
    Prop where
  present : a.text ≠ []
  notRegular : ¬ Accepted p a.text
  parts : commentParts (p.lexemes a.text) = some (arguments, ret)
  result : ret ≠ []
  split : arguments.mapM segment = some segments
  accepted : ∀ segment ∈ listed segments, Accepted p (textOf segment)
  acceptedResult : Accepted p (resultText p a ret)

/-- What is wrong with a comment that is taken for that of a function: there is nothing before a
comma, an argument ends in a star or is one, there is no result, or a part is an expression only
inside of the parentheses that are put around it. -/
inductive Flaw (a : AnnotationText) (arguments segments : List (List Lexeme)) (ret : List Lexeme) : Prop
  | empty (missing : [] ∈ listed arguments)
  | star {argument : List Lexeme} {l : Lexeme} (mem : argument ∈ arguments)
    (last : argument.getLast? = some l) (star : l.kind.isStar = true)
  | noResult (missing : resultText p a ret = [])
  | argument {segment : List Lexeme} (mem : segment ∈ listed segments)
    (bare : p.parser.parseUnchecked (.ofList (textOf segment)) = none)
  | result (bare : p.parser.parseUnchecked (.ofList (resultText p a ret)) = none)

def Flawed (a : AnnotationText) : Prop :=
  ∃ arguments segments ret, Taken p a arguments segments ret ∧ Flaw p a arguments segments ret

end Correct

section Recorded

variable (p : CommentParser) (a : AnnotationText)

theorem commentArguments_mem {args : Arguments}
    (found : commentArguments (p.lexemes a.text) = some args) :
    ∀ argument ∈ args.all, ∀ l ∈ argument, l ∈ p.lexemes a.text ∧ l.text ≠ [] := by
  have solid := p.solid a.text a.line.1 a.line.2
  have closing := p.closing a.text
  unfold commentArguments at found
  split at found
  case h_1 space text ls tokens =>
    rw [tokens] at solid closing ⊢
    rw [List.pairwise_cons] at solid
    rw [List.forall_mem_cons] at closing
    intro argument mem l mem'
    have inside := splitArguments_mem found solid.2 closing.2 argument mem l mem'
    exact ⟨List.mem_cons_of_mem _ inside.1, inside.2⟩
  case h_2 => cases found

theorem parseFuncTypeComment_parts :
    parseFuncTypeComment p.lex a.source
      = (splitComment (p.lexemes a.text)).map fun split =>
        (split.1.map fun segment => .ofList (textOf segment), .ofList (resultText p a split.2)) := by
  have spelled := p.spelled a.text
  have lexed : p.lex (.ofList (spell (p.lexemes a.text) ++ p.trailing a.text))
      = place 0 (p.lexemes a.text) := by
    rw [spelled, CommentParser.lex, String.toList_ofList]
  have parsed := parseFuncTypeComment_eq p.lex lexed fun args found argument mem l mem' =>
    (commentArguments_mem p a found argument mem l mem').2
  rwa [spelled] at parsed

theorem functionCommentToExpr_isSome (parser : ExprParser) (argTypes : List String)
    (retType : String) :
    (functionCommentToExpr parser argTypes retType).isSome
      ↔ (∀ argType ∈ argTypes, (parser.parseUnchecked ("(" ++ argType ++ ")")).isSome) ∧
        (parser.parseUnchecked ("(" ++ retType ++ ")")).isSome := by
  rw [← mapM_isSome_iff, functionCommentToExpr]
  cases argTypes.mapM fun argType => parser.parseUnchecked ("(" ++ argType ++ ")") with
  | none => simp
  | some args => cases parser.parseUnchecked ("(" ++ retType ++ ")") <;> simp

theorem source_eq_empty : a.source = "" ↔ a.text = [] := by
  rw [AnnotationText.source, ← String.toList_inj, String.toList_ofList]
  rfl

theorem splitComment_some {ls : List Lexeme} {types : List (List Lexeme)} {ret : List Lexeme} :
    splitComment ls = some (types, ret)
      ↔ ∃ arguments segments, commentParts ls = some (arguments, ret) ∧ ret ≠ [] ∧
        arguments.mapM segment = some segments ∧ types = listed segments := by
  rw [splitComment_eq]
  constructor
  · intro found
    simp only [Option.bind_eq_some_iff] at found
    obtain ⟨⟨arguments, ret'⟩, parts, segments, split, found⟩ := found
    split at found
    · cases found
    case isFalse result =>
      cases found
      exact ⟨arguments, segments, parts, result, split, rfl⟩
  · rintro ⟨arguments, segments, parts, result, split, rfl⟩
    simp [parts, split, result]

/-- Exactly the annotations whose parts are accepted are recorded for functions. -/
theorem recordTypeComment_function_iff :
    (∃ args ret, recordTypeComment p a.source = .function args ret)
      ↔ ∃ arguments segments ret, Taken p a arguments segments ret := by
  unfold recordTypeComment
  simp only [source_eq_empty, parseFuncTypeComment_parts]
  constructor
  · rintro ⟨args, ret, recorded⟩
    split at recorded
    · cases recorded
    case isFalse present =>
      split at recorded
      · cases recorded
      case h_2 rejected =>
        split at recorded
        case h_1 parsedArgTypes parsedRetType taken =>
          simp only [Option.bind_eq_some_iff, Option.map_eq_some_iff] at taken
          obtain ⟨_, ⟨⟨types, result⟩, found, rfl⟩, parsed⟩ := taken
          obtain ⟨arguments, segments, parts, some_result, split, rfl⟩ := splitComment_some.mp found
          have accepted := (functionCommentToExpr_isSome ..).mp (Option.isSome_of_mem parsed)
          refine ⟨arguments, segments, result, present, ?_, parts, some_result, split, ?_,
            accepted.2⟩
          · rw [Accepted, AnnotationText.source] at *
            simp [rejected]
          · exact fun segment mem => accepted.1 _ (List.mem_map_of_mem mem)
        · cases recorded
  · rintro ⟨arguments, segments, ret, taken⟩
    have split := splitComment_some.mpr
      ⟨arguments, segments, taken.parts, taken.result, taken.split, rfl⟩
    have accepted : (functionCommentToExpr p.parser
        ((listed segments).map fun segment => .ofList (textOf segment))
        (.ofList (resultText p a ret))).isSome := by
      rw [functionCommentToExpr_isSome, List.forall_mem_map]
      exact ⟨taken.accepted, taken.acceptedResult⟩
    obtain ⟨⟨args, result⟩, parsed⟩ := Option.isSome_iff_exists.mp accepted
    have rejected : p.parser.parseUnchecked ("(" ++ a.source ++ ")") = none :=
      Option.not_isSome_iff_eq_none.mp taken.notRegular
    exact ⟨args, result, by simp [taken.present, rejected, split, parsed]⟩

variable {p a}

theorem commentParts_mem {arguments : List (List Lexeme)} {ret : List Lexeme}
    (parts : commentParts (p.lexemes a.text) = some (arguments, ret)) :
    ∀ argument ∈ arguments, ∀ l ∈ argument, l ∈ p.lexemes a.text ∧ l.text ≠ [] := by
  unfold commentParts at parts
  split at parts
  case h_1 args found =>
    split at parts
    · cases parts
      exact commentArguments_mem p a found
    · cases parts
  case h_2 => cases parts

/-- What ends in a star is no expression. -/
theorem starred_not_valid {arguments : List (List Lexeme)} {ret : List Lexeme}
    (parts : commentParts (p.lexemes a.text) = some (arguments, ret)) {argument : List Lexeme}
    (mem : argument ∈ arguments) {l : Lexeme} (last : argument.getLast? = some l)
    (star : l.kind.isStar = true) : bodyOf argument = [] ∨ ¬ Valid p (textOf (bodyOf argument)) := by
  by_cases body : bodyOf argument = []
  · exact .inl body
  · refine .inr ?_
    rintro ⟨-, valid⟩
    have tokens := commentParts_mem parts argument mem
    have inside := tokens l (List.mem_of_getLast? last)
    have ending : (textOf (bodyOf argument)).getLast? = some '*' := by
      rw [textOf_getLast (bodyOf_getLast last body) inside.2]
      exact p.stars a.text l inside.1 star
    have noHash : '#' ∉ textOf (bodyOf argument) := by
      intro hash
      obtain ⟨l', mem', there⟩ := textOf_subset hash
      have whole := (tokens l' (bodyOf_subset argument l' mem')).1
      apply a.part
      rw [← p.spelled a.text]
      exact List.mem_append_left _ (List.mem_flatMap.mpr ⟨l', whole, there⟩)
    rw [p.dangling _ noHash ending] at valid
    cases valid

/-- A flaw keeps a comment from being well-formed. -/
theorem flaw_not_wellFormed {arguments segments : List (List Lexeme)} {ret : List Lexeme}
    (taken : Taken p a arguments segments ret) (flaw : Flaw p a arguments segments ret) :
    ¬ WellFormed p a := by
  rintro ⟨arguments', ret', parts, proper, result⟩
  rw [taken.parts, Option.some.injEq, Prod.mk.injEq] at parts
  obtain ⟨rfl, rfl⟩ := parts
  have unstarred : ∀ argument ∈ arguments, ∀ l, argument.getLast? = some l →
      l.kind.isStar = false := by
    intro argument mem l last
    rw [← Bool.not_eq_true]
    intro star
    have filled : argument ≠ [] := by
      rintro rfl
      cases last
    obtain ⟨body, valid⟩ := proper argument (mem_listed mem filled)
    rcases starred_not_valid taken.parts mem last star with starOnly | invalid
    · exact body starOnly
    · exact invalid valid
  cases flaw with
  | empty missing => exact (proper [] missing).1 rfl
  | star mem last star =>
    rw [unstarred _ mem _ last] at star
    cases star
  | noResult missing => exact result.1 missing
  | argument mem bare =>
    obtain ⟨argument, mem', found⟩ := listed_mapM taken.split _ mem
    have valid := (proper argument mem').2.2
    rw [← segment_eq_bodyOf found (unstarred argument (listed_subset _ argument mem')), bare]
      at valid
    cases valid
  | result bare =>
    have valid := result.2
    rw [bare] at valid
    cases valid

/-- Without a flaw a comment that is taken for that of a function is well-formed. -/
theorem wellFormed_of_taken {arguments segments : List (List Lexeme)} {ret : List Lexeme}
    (taken : Taken p a arguments segments ret) (flawless : ¬ Flaw p a arguments segments ret) :
    WellFormed p a := by
  refine ⟨arguments, ret, taken.parts, ?_, ?_⟩
  · intro argument mem
    have inside := listed_subset _ argument mem
    have unstarred : ∀ l, argument.getLast? = some l → l.kind.isStar = false := by
      intro l last
      rw [← Bool.not_eq_true]
      exact fun star => flawless (.star inside last star)
    have filled : bodyOf argument ≠ [] := by
      intro blank
      cases argument with
      | nil => exact flawless (.empty mem)
      | cons l rest =>
        rw [bodyOf] at blank
        split at blank
        case isTrue star =>
          subst blank
          rw [unstarred l rfl] at star
          cases star
        case isFalse => cases blank
    obtain ⟨kept, keptMem, found⟩ := mapM_mem taken.split inside
    obtain rfl := segment_eq_bodyOf found unstarred
    refine ⟨filled, ?_, ?_⟩
    · intro textless
      obtain ⟨l, rest, body⟩ := List.exists_cons_of_ne_nil filled
      have visible := (commentParts_mem taken.parts argument inside l
        (bodyOf_subset argument l (by simp [body]))).2
      rw [body, textOf, List.append_eq_nil_iff] at textless
      exact visible textless.1
    · rw [← Option.ne_none_iff_isSome]
      exact fun bare => flawless (.argument (mem_listed keptMem filled) bare)
  · refine ⟨fun missing => flawless (.noResult missing), ?_⟩
    rw [← Option.ne_none_iff_isSome]
    exact fun bare => flawless (.result bare)

theorem reported_invalid (error : String) : Reported error (.invalid error) := by
  refine ⟨fun _ _ => rfl, ?_⟩
  intro c range comment
  unfold serializeAssignType
  rw [comment]
  exact ⟨_, rfl⟩

theorem recordTypeComment_invalid (notRegular : a.text = [] ∨ ¬ Accepted p a.text)
    (noFunction : ∀ args ret, recordTypeComment p a.source ≠ .function args ret) :
    recordTypeComment p a.source = .invalid (syntaxErrorIn a.source) := by
  unfold recordTypeComment at noFunction ⊢
  split
  case isTrue empty =>
    rw [empty]
    rfl
  case isFalse present =>
    rw [source_eq_empty] at present
    have rejected : p.parser.parseUnchecked ("(" ++ a.source ++ ")") = none :=
      Option.not_isSome_iff_eq_none.mp (notRegular.resolve_left present)
    simp only [source_eq_empty, present, if_false, rejected] at noFunction ⊢
    split
    case h_1 args result parsed =>
      rw [parsed] at noFunction
      exact (noFunction args result rfl).elim
    case h_2 => rfl

/-- What is recorded is right exactly for the annotations that are not taken for the types of a
function although they have a flaw. -/
theorem recordTypeComment_correct_iff (p : CommentParser) (a : AnnotationText) :
    AnnotationCorrect p a ↔ ¬ Flawed p a := by
  constructor
  · rintro correct ⟨arguments, segments, ret, taken, flaw⟩
    obtain ⟨args, result, recorded⟩ :=
      (recordTypeComment_function_iff p a).mpr ⟨arguments, segments, ret, taken⟩
    exact flaw_not_wellFormed taken flaw (correct.function args result recorded)
  · intro flawless
    have function : ∀ args ret, recordTypeComment p a.source = .function args ret →
        WellFormed p a := by
      intro args ret recorded
      obtain ⟨arguments, segments, ret, taken⟩ :=
        (recordTypeComment_function_iff p a).mp ⟨args, ret, recorded⟩
      exact wellFormed_of_taken taken fun flaw => flawless ⟨arguments, segments, ret, taken, flaw⟩
    refine ⟨function, ?_⟩
    intro notRegular malformed
    have recorded := recordTypeComment_invalid notRegular fun args ret taken =>
      malformed (function args ret taken)
    exact ⟨recorded, recorded ▸ reported_invalid _⟩

end Recorded

section Failure

/-- The tokens of `(,) -> int`, with the end of the line. -/
def commaLexemes : List Lexeme :=
  [⟨[], .lpar, ['(']⟩, ⟨[], .comma, [',']⟩, ⟨[], .rpar, [')']⟩, ⟨[' '], .rarrow, ['-', '>']⟩,
    ⟨[' '], .other, ['i', 'n', 't']⟩, ⟨[], .newline, []⟩]

/-- The parser on the texts that are parsed for `(,) -> int`. -/
def commaExprParser : ExprParser where
  parseUnchecked source :=
    if source = "()" then some (.tuple [] true ⟨0, 2⟩)
    else if source = "(int)" then some (.name "int" ⟨1, 4⟩)
    else if source = "int" then some (.name "int" ⟨0, 3⟩)
    else none
  shorter := by
    intro source e parsed value mem
    have none : typeStrings e = [] := by
      split at parsed
      · cases parsed
        rfl
      split at parsed
      · cases parsed
        rfl
      split at parsed
      · cases parsed
        rfl
      · cases parsed
    rw [none] at mem
    cases mem

def commaParser : CommentParser where
  parser := commaExprParser
  lexemes text := if text = spell commaLexemes then commaLexemes else []
  trailing text := if text = spell commaLexemes then [] else text
  spelled := by
    intro text
    split
    case isTrue same => rw [same, List.append_nil]
    case isFalse => rfl
  solid := by
    intro text _ _
    split
    · decide
    · exact .nil
  closing := by
    intro text
    split
    · decide
    · exact fun _ mem => absurd mem List.not_mem_nil
  stars := by
    intro text
    split
    · decide
    · exact fun _ mem => absurd mem List.not_mem_nil
  dangling := by
    intro text _ ending
    have other : ∀ source : String, source.toList.getLast? ≠ some '*' → .ofList text ≠ source := by
      rintro source different rfl
      rw [String.toList_ofList] at different
      exact different ending
    simp only [commaExprParser, other "()" (by decide), other "(int)" (by decide),
      other "int" (by decide), if_false]

def commaAnnotation : AnnotationText where
  text := spell commaLexemes
  part := by decide
  line := by decide

/-- The argument that is missing before the comma is recorded as an empty tuple. -/
theorem empty_argument_recorded :
    commaAnnotation.source = "(,) -> int" ∧
    recordTypeComment commaParser "(,) -> int"
      = .function [.tuple [] true ⟨0, 2⟩] (.name "int" ⟨1, 4⟩) ∧
    ¬ WellFormed commaParser commaAnnotation ∧
    ¬ AnnotationCorrect commaParser commaAnnotation := by
  have recorded : recordTypeComment commaParser "(,) -> int"
      = .function [.tuple [] true ⟨0, 2⟩] (.name "int" ⟨1, 4⟩) := rfl
  have parts : commentParts (commaParser.lexemes commaAnnotation.text)
      = some ([[], []], [⟨[' '], .other, ['i', 'n', 't']⟩, ⟨[], .newline, []⟩]) := rfl
  have malformed : ¬ WellFormed commaParser commaAnnotation := by
    rintro ⟨arguments, ret, parts', proper, -⟩
    rw [parts, Option.some.injEq, Prod.mk.injEq] at parts'
    obtain ⟨rfl, -⟩ := parts'
    exact (proper [] List.mem_cons_self).1 rfl
  refine ⟨rfl, recorded, malformed, ?_⟩
  intro correct
  exact malformed (correct.function _ _ recorded)

end Failure

end AstSerialize.SignatureComment
