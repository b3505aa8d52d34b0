import AstSerialize.Serializer.Locations

/-! Which types a signature comment gives to which parameters. -/
namespace AstSerialize
open Coding Coding.Utf8

section Parameters

/-- A parameter together with all that is written of it, apart from its comment. -/
structure ParameterEntry where
  parameter : Parameter
  start : Nat
  default : Option Expr
  kindNoDefault : Int
  kindWithDefault : Int
  posOnly : Bool

def ParameterWithDefault.entry (kindNoDefault kindWithDefault : Int)
    (posOnly : Parameter → Bool) : ParameterWithDefault → ParameterEntry
  | .mk parameter default range =>
    ⟨parameter, range.start, default, kindNoDefault, kindWithDefault, posOnly parameter⟩

def Parameter.entry (kind : Int) (param : Parameter) : ParameterEntry :=
  ⟨param, param.range.start, none, kind, kind, false⟩

/-- The parameters in the order of `Parameters::iter`. -/
def Parameters.entries : Parameters → List ParameterEntry
  | .mk posonlyargs args vararg kwonlyargs kwarg =>
    posonlyargs.map (·.entry argPos argOpt fun _ => true)
      ++ args.map (·.entry argPos argOpt fun param => argumentElideName param.name.id)
      ++ (vararg.map (·.entry argStar)).toList
      ++ kwonlyargs.map (·.entry argNamed argNamedOpt fun _ => false)
      ++ (kwarg.map (·.entry argStar2)).toList

theorem entry_start (kind kind' : Int) (posOnly : Parameter → Bool)
    (parameter : ParameterWithDefault) :
    (parameter.entry kind kind' posOnly).start = parameter.range.start := by
  cases parameter
  rfl

/-- The comments are looked for in the same order. -/
theorem entries_starts (parameters : Parameters) :
    parameters.entries.map (·.start) = parameters.starts := by
  cases parameters with
  | mk posonlyargs args vararg kwonlyargs kwarg =>
    simp only [Parameters.entries, Parameters.starts, List.map_append, List.map_map,
      Function.comp_def, entry_start]
    cases vararg <;> cases kwarg <;> rfl

variable (c : Config) (scope : Scope)

def toWireEntry (entry : ParameterEntry) (argComment : Option Expr) : WParameter c.cacheVersion :=
  toWireArgument c scope entry.parameter argComment (toWireOptExpr c scope entry.default)
    entry.kindNoDefault entry.kindWithDefault entry.posOnly

theorem zipWith_append_drop {A B C : Type} (f : A → B → C) (xs ys : List A) (zs : List B) :
    List.zipWith f (xs ++ ys) zs
      = List.zipWith f xs zs ++ List.zipWith f ys (zs.drop xs.length) := by
  induction xs generalizing zs with
  | nil => rfl
  | cons x xs ih =>
    cases zs with
    | nil => simp
    | cons z zs => simp [ih]

theorem toWireDefaults_zip (argComments : List (Option Expr)) (idx : Nat) (kind kind' : Int)
    (posOnly : Parameter → Bool) (parameters : List ParameterWithDefault)
    (covered : idx + parameters.length ≤ argComments.length) :
    toWireDefaults c scope argComments idx kind kind' posOnly parameters
      = List.zipWith (toWireEntry c scope) (parameters.map (·.entry kind kind' posOnly))
          (argComments.drop idx) := by
  induction parameters generalizing idx with
  | nil => rfl
  | cons parameter parameters ih =>
    cases parameter with
    | mk param default range =>
      rw [List.length_cons] at covered
      have there : idx < argComments.length := by omega
      have rest := ih (idx + 1) (by omega)
      rw [toWireDefaults, rest, List.drop_eq_getElem_cons there, List.getElem?_eq_getElem there]
      rfl

theorem toWireVariadic_zip (argComments : List (Option Expr)) (idx : Nat) (kind : Int)
    (param : Option Parameter) (covered : idx + param.toList.length ≤ argComments.length) :
    toWireVariadic c scope argComments idx kind param
      = List.zipWith (toWireEntry c scope) (param.map (·.entry kind)).toList
          (argComments.drop idx) := by
  cases param with
  | none => rfl
  | some param =>
    have there : idx < argComments.length := covered
    rw [List.drop_eq_getElem_cons there, toWireVariadic, List.getElem?_eq_getElem there]
    rfl

/-- Each parameter is written with the comment in its own place. -/
theorem toWireParameters_zip (argComments : List (Option Expr)) (parameters : Parameters)
    (covered : argComments.length = parameters.len) :
    toWireParameters c scope argComments parameters
      = List.zipWith (toWireEntry c scope) parameters.entries argComments := by
  cases parameters with
  | mk posonlyargs args vararg kwonlyargs kwarg =>
    rw [Parameters.len] at covered
    rw [toWireParameters, Parameters.entries, toWireDefaults_zip, toWireDefaults_zip,
      toWireVariadic_zip, toWireDefaults_zip, toWireVariadic_zip]
    · have variadic : (vararg.map (·.entry argStar)).toList.length = vararg.toList.length := by
        cases vararg <;> rfl
      simp only [zipWith_append_drop, List.length_append, List.length_map, List.drop_zero,
        variadic]
    all_goals omega

end Parameters

section Header

variable (c : Config)

/-- The function type comment, or the broken one, in the header of a definition. -/
def headerComment (body : List Stmt) : Option ParsedTypeComment :=
  match body, c.tokens with
  | first :: _, some tokens =>
    ((tokensBefore tokens first.range.start).bind fun before => scanTokens c before.reverse).join
  | _, _ => none

theorem findFuncTypeComment_of_header {inClass : Bool} {parameters : Parameters}
    {body : List Stmt} {found : ParsedTypeComment} (header : headerComment c body = some found) :
    findFuncTypeComment c inClass parameters body =
      let (argTypes, retType, errors) := applyFuncComment inClass parameters.len (some found)
      let (argTypes, duplicates) := addParameterComments c parameters.starts argTypes
      some ⟨argTypes, retType, errors ++ duplicates⟩ := by
  unfold headerComment at header
  unfold findFuncTypeComment
  cases body with
  | nil => cases header
  | cons first rest =>
    cases given : c.tokens with
    | none =>
      rw [given] at header
      cases header
    | some tokens =>
      simp only [given, Option.join_eq_some_iff, Option.bind_eq_some_iff] at header
      obtain ⟨before, found_before, scanned⟩ := header
      simp only [Option.bind_eq_bind, found_before, Option.bind_some, scanned]
      rfl

end Header

section ParameterComments

/-- The regular type comment on a line. -/
def Config.regularAt (c : Config) (line : Nat) : Option Expr :=
  match c.typeComments line with
  | some (.regular type) => some type
  | _ => none

theorem regularAt_eq_some {c : Config} {line : Nat} {type : Expr} :
    c.regularAt line = some type ↔ c.typeComments line = some (.regular type) := by
  unfold Config.regularAt
  constructor
  · intro found
    split at found
    case h_1 type' comment =>
      cases found
      exact comment
    case h_2 => cases found
  · intro comment
    rw [comment]

variable (c : Config)

/-- The parameter that starts there has a comment of its own. -/
def hasOwnComment (start : Nat) : Bool := (c.regularAt (c.lineOf start)).isSome

/-- Some parameter has a type from the signature and a comment of its own. -/
def hasDuplicate (starts : List Nat) (argTypes : List (Option Expr)) : Bool :=
  (starts.zip argTypes).any fun entry => hasOwnComment c entry.1 && entry.2.isSome

theorem addParameterComments_errors (starts : List Nat) (argTypes : List (Option Expr)) :
    (addParameterComments c starts argTypes).2 ≠ [] ↔ hasDuplicate c starts argTypes = true := by
  induction starts generalizing argTypes with
  | nil => simp [addParameterComments, hasDuplicate]
  | cons start starts ih =>
    cases argTypes with
    | nil => simp [addParameterComments, hasDuplicate]
    | cons argType argTypes =>
      have rest := ih argTypes
      rw [hasDuplicate] at rest ⊢
      rw [List.zip_cons_cons, List.any_cons, Bool.or_eq_true, ← rest, addParameterComments]
      dsimp only
      split
      case h_1 type found =>
        have own : hasOwnComment c start = true := by
          rw [hasOwnComment, regularAt_eq_some.mpr found]
          rfl
        cases argType <;> simp [own]
      case h_2 other =>
        have missing : hasOwnComment c start = false := by
          unfold hasOwnComment Config.regularAt
          split
          case h_1 type found => exact absurd found (other type)
          case h_2 => rfl
        simp [missing]

theorem hasDuplicate_map_some (starts : List Nat) (args : List Expr)
    (covered : args.length = starts.length) :
    hasDuplicate c starts (args.map some) = starts.any (hasOwnComment c) := by
  induction starts generalizing args with
  | nil => rfl
  | cons start starts ih =>
    cases args with
    | nil => cases covered
    | cons arg args =>
      have rest := ih args (Nat.succ.inj covered)
      rw [hasDuplicate] at rest ⊢
      rw [List.map_cons, List.zip_cons_cons, List.any_cons, rest, List.any_cons]
      simp

theorem hasDuplicate_replicate (starts : List Nat) (n : Nat) :
    hasDuplicate c starts (List.replicate n none) = false := by
  rw [hasDuplicate, List.any_eq_false]
  intro entry there
  have untyped := List.eq_of_mem_replicate (List.of_mem_zip there).2
  simp [untyped]

end ParameterComments

section Signature

/-- Subtraction of one where it is checked. -/
def checkedPred (n : Nat) : Option Nat := if n = 0 then none else some (n - 1)

/-- The types that `find_func_type_comment` gives to `n` parameters, with the subtraction checked as
in a debug build. -/
def checkedSignatureTypes (inClass : Bool) (n : Nat) (args : List Expr) :
    Option (List (Option Expr) × List String) :=
  if isSingleEllipsis args then some (List.replicate n none, [])
  else if args.length = n then some (args.map some, [])
  else do
    let method ← if inClass then (fun others => args.length == others) <$> checkedPred n
      else some false
    if method then some ((none :: args.map some).take n, [])
    else if n < args.length then
      some (List.replicate n none, ["Type signature has too many parameters"])
    else some (List.replicate n none, ["Type signature has too few parameters"])

/-- A method without parameters whose comment has types. -/
def lacksSelf (inClass : Bool) (n : Nat) (args : List Expr) : Bool :=
  inClass && n = 0 && !args.isEmpty

/-- The check fails there, and changes nothing elsewhere. -/
theorem checkedSignatureTypes_eq (inClass : Bool) (n : Nat) (args : List Expr)
    (long : isSingleEllipsis args = false) :
    checkedSignatureTypes inClass n args
      = if lacksSelf inClass n args then none else some (signatureTypes inClass n args) := by
  unfold checkedSignatureTypes signatureTypes
  simp only [long, Bool.false_eq_true, if_false]
  by_cases fits : args.length = n
  · have covered : lacksSelf inClass n args = false := by
      cases args with
      | nil => simp [lacksSelf]
      | cons arg args =>
        have positive : n ≠ 0 := by
          rw [← fits, List.length_cons]
          exact Nat.succ_ne_zero _
        simp [lacksSelf, positive]
    simp only [fits, covered, Bool.false_eq_true, if_true, if_false]
  · simp only [fits, if_false]
    cases inClass with
    | false =>
      simp only [lacksSelf, Bool.false_and, Bool.false_eq_true, if_false, Option.bind_eq_bind,
        Option.bind_some]
      split <;> rfl
    | true =>
      by_cases empty : n = 0
      · have some_types : args.isEmpty = false := by
          cases args with
          | nil => exact absurd empty.symm fits
          | cons => rfl
        simp only [lacksSelf, checkedPred, empty, some_types, if_true, Option.map_eq_map,
          Option.map_none, Option.bind_eq_bind, Option.bind_none, decide_true, Bool.true_and,
          Bool.not_false]
      · simp only [lacksSelf, checkedPred, usizePred, empty, if_true, if_false, Option.map_eq_map,
          Option.map_some, Option.bind_eq_bind, Option.bind_some, decide_false, Bool.true_and,
          Bool.false_and, Bool.false_eq_true, beq_iff_eq, decide_eq_true_eq]
        split
        · rfl
        · split <;> rfl

/-- What a signature comment with these types means for `n` parameters. -/
structure Assigned (inClass : Bool) (n : Nat) (args : List Expr) (argTypes : List (Option Expr))
    (errors : List String) : Prop where
  length : argTypes.length = n
  each : args.length = n → (∀ i (there : i < args.length), argTypes[i]? = some (some args[i]))
    ∧ errors = []
  method : inClass = true → args.length + 1 = n → argTypes[0]? = some none
    ∧ (∀ i (there : i < args.length), argTypes[i + 1]? = some (some args[i])) ∧ errors = []
  mismatch : args.length ≠ n → ¬ (inClass = true ∧ args.length + 1 = n) →
    (∀ i, i < n → argTypes[i]? = some none)
    ∧ ∃ error, errors = [error] ∧ (error = "Type signature has too many parameters"
        ∧ n < args.length ∨ error = "Type signature has too few parameters" ∧ args.length < n)

theorem signatureTypes_assigned {inClass : Bool} {n : Nat} {args : List Expr}
    (long : isSingleEllipsis args = false) (self : lacksSelf inClass n args = false) :
    Assigned inClass n args (signatureTypes inClass n args).1
      (signatureTypes inClass n args).2 := by
  refine ⟨signatureTypes_length inClass n args, ?_, ?_, ?_⟩
  · intro fits
    simp only [signatureTypes, long, fits, Bool.false_eq_true, if_false, if_true, and_true]
    intro i there
    simp
  · rintro rfl one
    have other : args.length ≠ n := by omega
    have pred : args.length = usizePred n := by
      rw [usizePred, if_neg (by omega)]
      omega
    simp only [signatureTypes, long, other, ← pred, Bool.false_eq_true, if_false, decide_true,
      Bool.and_true, if_true, and_true]
    have whole : (none :: args.map some).take n = none :: args.map some :=
      List.take_of_length_le (by simp [one])
    rw [whole]
    constructor
    · rfl
    · intro i there
      simp [there]
  · intro other notMethod
    have skips : (inClass && decide (args.length = usizePred n)) = false := by
      cases inClass with
      | false => rfl
      | true =>
        have positive : n ≠ 0 := by
          rintro rfl
          cases args with
          | nil => exact other rfl
          | cons arg args => simp [lacksSelf] at self
        have apart : args.length ≠ usizePred n := by
          rw [usizePred, if_neg positive]
          intro same
          exact notMethod ⟨rfl, by omega⟩
        simp [apart]
    simp only [signatureTypes, long, other, skips, Bool.false_eq_true, if_false]
    split
    case isTrue many =>
      exact ⟨fun i there => by simp [there], _, rfl, .inl ⟨rfl, many⟩⟩
    case isFalse few =>
      exact ⟨fun i there => by simp [there], _, rfl, .inr ⟨rfl, by omega⟩⟩

variable (c : Config)

/-- The comments cause an error. Comments of single parameters do so where the signature has a type
for the parameter already. -/
def reportsError (inClass : Bool) (parameters : Parameters) (args : List Expr) : Bool :=
  if args.length = parameters.len then parameters.starts.any (hasOwnComment c)
  else if inClass && args.length + 1 = parameters.len then
    (parameters.starts.drop 1).any (hasOwnComment c)
  else true

/-- What the header comment of a definition at `range` does to its parameters. Errors are reported
at the start of the definition. -/
structure SignatureCorrect (inClass : Bool) (range : TextRange) (parameters : Parameters)
    (body : List Stmt) (args : List Expr) (ret : Expr) : Prop where
  noUnderflow : (checkedSignatureTypes inClass parameters.len args).isSome ∧
    ∀ comment, findFuncTypeComment c inClass parameters body = some comment →
      comment.errors ≠ [] → 1 ≤ c.errorColumn range
  assigned : ∃ argTypes errors, Assigned inClass parameters.len args argTypes errors ∧
    let (types, duplicates) :=
      addParameterComments c (parameters.entries.map (·.start)) argTypes
    findFuncTypeComment c inClass parameters body = some ⟨types, some ret, errors ++ duplicates⟩
  paired : ∀ comment, findFuncTypeComment c inClass parameters body = some comment →
    comment.argTypes.length = parameters.len ∧
    ∀ scope, Records scope (serializeParameters c comment.argTypes parameters)
      (supportsParameters c parameters) 0
      (encListed parameters.len (encParameters
        (List.zipWith (toWireEntry c scope) parameters.entries comment.argTypes)))

variable {c} {inClass : Bool} {parameters : Parameters} {body : List Stmt} {args : List Expr}
  {ret : Expr}

theorem parameters_paired {argTypes : List (Option Expr)}
    (covered : argTypes.length = parameters.len) (scope : Scope) :
    Records scope (serializeParameters c argTypes parameters) (supportsParameters c parameters) 0
      (encListed parameters.len (encParameters
        (List.zipWith (toWireEntry c scope) parameters.entries argTypes))) := by
  have written := @records_parameters c scope argTypes parameters covered.ge
  rwa [toWireParameters_length, toWireParameters_zip c scope argTypes parameters covered]
    at written

theorem signature_reports_iff (long : isSingleEllipsis args = false)
    (self : lacksSelf inClass parameters.len args = false) :
    (signatureTypes inClass parameters.len args).2 ++ (addParameterComments c parameters.starts
        (signatureTypes inClass parameters.len args).1).2 ≠ []
      ↔ reportsError c inClass parameters args = true := by
  have starts := parameters.starts_length
  rw [ne_eq, List.append_eq_nil_iff, not_and_or, ← ne_eq, ← ne_eq, addParameterComments_errors,
    reportsError, signatureTypes, long]
  by_cases fits : args.length = parameters.len
  · have duplicates := hasDuplicate_map_some c parameters.starts args (fits.trans starts.symm)
    simp [fits, duplicates]
  · by_cases method : (inClass && args.length + 1 = parameters.len) = true
    · simp only [Bool.and_eq_true, decide_eq_true_eq] at method
      obtain ⟨rfl, one⟩ := method
      have pred : args.length = usizePred parameters.len := by
        rw [usizePred, if_neg (by omega)]
        omega
      have whole : (none :: args.map some).take parameters.len = none :: args.map some :=
        List.take_of_length_le (by simp [one])
      obtain ⟨first, rest, split⟩ : ∃ first rest, parameters.starts = first :: rest := by
        apply List.exists_cons_of_length_pos
        omega
      have covered : args.length = rest.length := by
        rw [split, List.length_cons] at starts
        omega
      have duplicates : hasDuplicate c parameters.starts (none :: args.map some)
          = rest.any (hasOwnComment c) := by
        rw [← hasDuplicate_map_some c rest args covered, split]
        simp [hasDuplicate]
      rw [split] at duplicates
      simp [fits, ← pred, one, whole, duplicates, split]
    · have skips : (inClass && decide (args.length = usizePred parameters.len)) = false := by
        cases inClass with
        | false => rfl
        | true =>
          have apart : args.length ≠ usizePred parameters.len := by
            intro same
            by_cases empty : parameters.len = 0
            · cases args with
              | nil => exact fits empty.symm
              | cons arg args => simp [lacksSelf, empty] at self
            · rw [usizePred, if_neg empty] at same
              simp at method
              omega
          simp [apart]
      have reported := hasDuplicate_replicate c parameters.starts parameters.len
      simp only [fits, skips, method, Bool.false_eq_true, if_false]
      split <;> simp

/-- A signature comment is assigned as it should be exactly if it is not that of a method without
parameters, and the line of the definition does not start with a character that is too wide where
the comments cause an error. -/
theorem signature_correct_iff {raw pre post : List Char} {range : TextRange}
    (normalized : c.source.text = universalNewlines raw) (start : c.source.text = pre ++ post)
    (boundary : range.start = byteLen pre)
    (header : headerComment c body = some (.function args ret))
    (long : isSingleEllipsis args = false) :
    SignatureCorrect c inClass range parameters body args ret
      ↔ lacksSelf inClass parameters.len args = false ∧
        (reportsError c inClass parameters args = true → lineStartFits pre post = true) := by
  have noReturn : '\r' ∉ c.source.text := by
    rw [normalized]
    exact universalNewlines_no_return raw
  have checked := checkedSignatureTypes_eq inClass parameters.len args long
  have found := @findFuncTypeComment_of_header c inClass parameters body _ header
  have column := errorColumn_pos_iff noReturn start boundary
  constructor
  · intro correct
    have ⟨defined, located⟩ := correct.noUnderflow
    have self : lacksSelf inClass parameters.len args = false := by
      rw [checked] at defined
      split at defined
      · cases defined
      case isFalse self => exact Bool.eq_false_of_not_eq_true self
    refine ⟨self, ?_⟩
    intro reports
    exact column.mp (located _ found ((signature_reports_iff long self).mpr reports))
  · rintro ⟨self, fits⟩
    refine ⟨⟨?_, ?_⟩, ?_, ?_⟩
    · rw [checked, self]
      rfl
    · intro comment given reported
      rw [found] at given
      cases given
      exact column.mpr (fits ((signature_reports_iff long self).mp reported))
    · refine ⟨_, _, signatureTypes_assigned long self, ?_⟩
      rw [entries_starts]
      exact found
    · intro comment found
      have covered := findFuncTypeComment_length c found
      exact ⟨covered, parameters_paired covered⟩

/-- A text with the comment of one of its lines, and the tokens up to the end of that line. -/
def Config.commented (text : String) (tokens : List Token) (line : Nat)
    (comment : ParsedTypeComment) : Config :=
  { Config.plain text.toList with
    tokens := some tokens
    typeComments := fun n => if n = line then some comment else none }

/-- `def f(x): # type: (int) -> int`, where the parser has put the names at the given places. -/
def commentedFunction : Config :=
  .commented "def f(x): # type: (int) -> int\n pass"
    [⟨.other, ⟨0, 3⟩⟩, ⟨.other, ⟨4, 5⟩⟩, ⟨.other, ⟨5, 6⟩⟩, ⟨.other, ⟨6, 7⟩⟩, ⟨.other, ⟨7, 8⟩⟩,
      ⟨.colon, ⟨8, 9⟩⟩, ⟨.comment, ⟨10, 30⟩⟩, ⟨.other, ⟨30, 31⟩⟩]
    1 (.function [.name "int" ⟨19, 22⟩] (.name "int" ⟨27, 30⟩))

theorem signature_correct_function :
    SignatureCorrect commentedFunction false ⟨0, 36⟩
      (.mk [] [.mk (.mk ⟨"x", ⟨6, 7⟩⟩ none ⟨6, 7⟩) none ⟨6, 7⟩] none [] none)
      [.pass ⟨32, 36⟩] [.name "int" ⟨19, 22⟩] (.name "int" ⟨27, 30⟩) := by
  have header : headerComment commentedFunction [.pass ⟨32, 36⟩]
      = some (.function [.name "int" ⟨19, 22⟩] (.name "int" ⟨27, 30⟩)) := rfl
  have normalized : commentedFunction.source.text
      = universalNewlines "def f(x): # type: (int) -> int\n pass".toList := by decide
  have start : commentedFunction.source.text
      = [] ++ "def f(x): # type: (int) -> int\n pass".toList := rfl
  apply (signature_correct_iff normalized start rfl header rfl).mpr
  exact ⟨rfl, fun _ => by decide⟩

/-- `class C:` with a method `def m(): # type: (int) -> None`. -/
def commentedMethod : Config :=
  .commented "class C:\n def m(): # type: (int) -> None\n  pass"
    [⟨.other, ⟨0, 5⟩⟩, ⟨.other, ⟨6, 7⟩⟩, ⟨.colon, ⟨7, 8⟩⟩, ⟨.other, ⟨8, 9⟩⟩, ⟨.other, ⟨9, 10⟩⟩,
      ⟨.other, ⟨10, 13⟩⟩, ⟨.other, ⟨14, 15⟩⟩, ⟨.other, ⟨15, 16⟩⟩, ⟨.other, ⟨16, 17⟩⟩,
      ⟨.colon, ⟨17, 18⟩⟩, ⟨.comment, ⟨19, 40⟩⟩, ⟨.other, ⟨40, 41⟩⟩]
    2 (.function [.name "int" ⟨28, 31⟩] (.noneLiteral ⟨36, 40⟩))

/-- `def f(x): # type: (int, int) -> int` behind a byte order mark. -/
def markedFunction : Config :=
  .commented "\ufeffdef f(x): # type: (int, int) -> int\n pass"
    [⟨.other, ⟨3, 6⟩⟩, ⟨.other, ⟨7, 8⟩⟩, ⟨.other, ⟨8, 9⟩⟩, ⟨.other, ⟨9, 10⟩⟩, ⟨.other, ⟨10, 11⟩⟩,
      ⟨.colon, ⟨11, 12⟩⟩, ⟨.comment, ⟨13, 38⟩⟩, ⟨.other, ⟨38, 39⟩⟩]
    1 (.function [.name "int" ⟨22, 25⟩, .name "int" ⟨27, 30⟩] (.name "int" ⟨35, 38⟩))

/-- A method without parameters makes one of the subtractions underflow, and an error behind a byte
order mark the other. -/
theorem method_without_self_underflows :
    (headerComment commentedMethod [.pass ⟨43, 47⟩]
      = some (.function [.name "int" ⟨28, 31⟩] (.noneLiteral ⟨36, 40⟩)) ∧
    checkedSignatureTypes true (Parameters.mk [] [] none [] none).len [.name "int" ⟨28, 31⟩]
      = none ∧
    ¬ SignatureCorrect commentedMethod true ⟨10, 47⟩ (.mk [] [] none [] none) [.pass ⟨43, 47⟩]
      [.name "int" ⟨28, 31⟩] (.noneLiteral ⟨36, 40⟩)) ∧
    (headerComment markedFunction [.pass ⟨40, 44⟩] = some (.function
      [.name "int" ⟨22, 25⟩, .name "int" ⟨27, 30⟩] (.name "int" ⟨35, 38⟩)) ∧
    markedFunction.errorColumn ⟨3, 44⟩ = 0 ∧
    ¬ SignatureCorrect markedFunction false ⟨3, 44⟩
      (.mk [] [.mk (.mk ⟨"x", ⟨9, 10⟩⟩ none ⟨9, 10⟩) none ⟨9, 10⟩] none [] none)
      [.pass ⟨40, 44⟩] [.name "int" ⟨22, 25⟩, .name "int" ⟨27, 30⟩] (.name "int" ⟨35, 38⟩)) := by
  have underflows : checkedSignatureTypes true (Parameters.mk [] [] none [] none).len
      [.name "int" ⟨28, 31⟩] = none := rfl
  have zero : markedFunction.errorColumn ⟨3, 44⟩ = 0 := by decide
  refine ⟨⟨rfl, underflows, ?_⟩, rfl, zero, ?_⟩
  · intro correct
    have defined := correct.noUnderflow.1
    rw [underflows] at defined
    cases defined
  · intro correct
    have located := correct.noUnderflow.2 _ rfl (by decide)
    rw [zero] at located
    cases located

end Signature

end AstSerialize
