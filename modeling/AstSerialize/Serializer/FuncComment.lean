import AstSerialize.Serializer.State

/-! `find_func_type_comment`: the types that the comments of a function give to
its parameters and to its result. -/
namespace AstSerialize

/-- What the comments say, and the errors they cause, all at the range of the function. -/
structure FuncComment where
  argTypes : List (Option Expr)
  retType : Option Expr
  errors : List String

def FuncComment.present (comment : FuncComment) : Bool :=
  comment.argTypes.any (·.isSome) || comment.retType.isSome

/-- `Tokens::before`. An offset inside a token fails an assertion. -/
def tokensBefore (tokens : List Token) (offset : Nat) : Option (List Token) :=
  let before := tokens.takeWhile fun token => token.range.start < offset
  match before.getLast? with
  | some last => if last.range.stop ≤ offset then some before else none
  | none => some before

variable (c : Config)

/-- The comment between the colon of a definition and its body, from the last token backwards.
The first token of the file is not looked at, and without any token the index underflows. -/
def scanTokens : List Token → Option (Option ParsedTypeComment)
  | [] => none
  | [_] => some none
  | token :: tokens =>
    if token.kind = .colon then some none
    else if token.kind = .comment then
      match c.typeComments (c.lineOf token.range.start) with
      | some (.function args ret) => some (some (.function args ret))
      | some (.invalid error) => some (some (.invalid error))
      | _ => scanTokens tokens
    else scanTokens tokens

def isSingleEllipsis : List Expr → Bool
  | [.ellipsisLiteral _] => true
  | _ => false

/-- The types of `n` parameters in a signature. The first one of a method may be left out. -/
def signatureTypes (inClass : Bool) (n : Nat) (args : List Expr) :
    List (Option Expr) × List String :=
  if isSingleEllipsis args then (List.replicate n none, [])
  else if args.length = n then (args.map some, [])
  else if inClass && args.length = usizePred n then ((none :: args.map some).take n, [])
  else if n < args.length then
    (List.replicate n none, ["Type signature has too many parameters"])
  else (List.replicate n none, ["Type signature has too few parameters"])

/-- A comment on the line of a parameter is its type, unless it has one already. -/
def addParameterComments : List Nat → List (Option Expr) → List (Option Expr) × List String
  | start :: starts, argType :: argTypes =>
    let (others, errors) := addParameterComments starts argTypes
    match c.typeComments (c.lineOf start) with
    | some (.regular type) =>
      match argType with
      | some argType =>
        (some argType :: others, "Function has duplicate type signatures" :: errors)
      | none => (some type :: others, errors)
    | _ => (argType :: others, errors)
  | _, argTypes => (argTypes, [])

/-- The types and errors of the comment that was found. -/
def applyFuncComment (inClass : Bool) (n : Nat) :
    Option ParsedTypeComment → List (Option Expr) × Option Expr × List String
  | some (.function args ret) =>
    let (argTypes, errors) := signatureTypes inClass n args
    (argTypes, some ret, errors)
  | some (.invalid error) => (List.replicate n none, none, [error])
  | _ => (List.replicate n none, none, [])

def findFuncTypeComment (inClass : Bool) (parameters : Parameters) (body : List Stmt) :
    Option FuncComment :=
  match body, c.tokens with
  | first :: _, some tokens => do
    let before ← tokensBefore tokens first.range.start
    let found ← scanTokens c before.reverse
    let (argTypes, retType, errors) := applyFuncComment inClass parameters.len found
    let (argTypes, duplicates) := addParameterComments c parameters.starts argTypes
    pure ⟨argTypes, retType, errors ++ duplicates⟩
  | _, _ => pure ⟨List.replicate parameters.len none, none, []⟩

theorem signatureTypes_length (inClass : Bool) (n : Nat) (args : List Expr) :
    (signatureTypes inClass n args).1.length = n := by
  unfold signatureTypes
  split
  · simp
  · split
    case isTrue fits => simp [fits]
    case isFalse =>
      split
      case isTrue method =>
        rw [Bool.and_eq_true, decide_eq_true_eq] at method
        have covers : n ≤ args.length + 1 := by
          rw [method.2, usizePred]
          split <;> omega
        simp only [List.length_take, List.length_cons, List.length_map]
        omega
      case isFalse => split <;> simp

theorem addParameterComments_length (starts : List Nat) (argTypes : List (Option Expr)) :
    (addParameterComments c starts argTypes).1.length = argTypes.length := by
  induction starts generalizing argTypes with
  | nil => simp [addParameterComments]
  | cons start starts ih =>
    cases argTypes with
    | nil => simp [addParameterComments]
    | cons argType argTypes =>
      rw [addParameterComments]
      dsimp only
      split
      · split <;> simp [ih]
      · simp [ih]

theorem applyFuncComment_length (inClass : Bool) (n : Nat) (found : Option ParsedTypeComment) :
    (applyFuncComment inClass n found).1.length = n := by
  unfold applyFuncComment
  split
  · exact signatureTypes_length inClass n _
  · simp
  · simp

/-- Each parameter has its place in the types. -/
theorem findFuncTypeComment_length {inClass : Bool} {parameters : Parameters} {body : List Stmt}
    {comment : FuncComment} (found : findFuncTypeComment c inClass parameters body = some comment) :
    comment.argTypes.length = parameters.len := by
  unfold findFuncTypeComment at found
  split at found
  · simp only [Option.bind_eq_bind, Option.bind_eq_some_iff] at found
    obtain ⟨before, -, signature, -, returned⟩ := found
    cases returned
    simp [addParameterComments_length, applyFuncComment_length]
  · cases found
    simp

end AstSerialize
