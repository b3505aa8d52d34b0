import AstSerialize.Ast

/-! The mode in which a file is parsed, from its name, and the trees that each
mode can yield. -/
namespace AstSerialize

/-- `PySourceType`. -/
inductive PySourceType where
  | python
  | stub
  | ipynb
  deriving DecidableEq, Repr

/-- `Mode`. -/
inductive Mode where
  | module
  | expression
  | ipython
  deriving DecidableEq, Repr

section Paths

/-- The components of a path, without empty ones and without `.`. -/
def pathComponents (path : List Char) : List (List Char) :=
  (path.splitOn '/').filter fun component => component ≠ [] ∧ component ≠ ['.']

/-- `Path::file_name`. -/
def fileName (path : List Char) : Option (List Char) :=
  match (pathComponents path).getLast? with
  | some component => if component = ['.', '.'] then none else some component
  | none => none

/-- What follows the last dot, unless the name has no dot but at its start. -/
def fileExtension (file : List Char) : Option (List Char) :=
  match (file.rdropWhile (· ≠ '.')).dropLast with
  | [] => none
  | _ :: _ => some (file.rtakeWhile (· ≠ '.'))

/-- `Path::extension`. -/
def pathExtension (path : List Char) : Option (List Char) := (fileName path).bind fileExtension

end Paths

namespace PySourceType

def tryFromExtension (extension : List Char) : Option PySourceType :=
  if extension = "py".toList then some .python
  else if extension = "pyi".toList then some .stub
  else if extension = "pyw".toList then some .python
  else if extension = "ipynb".toList then some .ipynb
  else none

/-- `PySourceType::from`, of a path. -/
def ofPath (path : List Char) : PySourceType :=
  ((pathExtension path).bind tryFromExtension).getD .python

def asMode : PySourceType → Mode
  | .python | .stub => .module
  | .ipynb => .ipython

/-- Notebooks are told by their extension alone. -/
theorem ofPath_eq_ipynb_iff (path : List Char) :
    ofPath path = .ipynb ↔ pathExtension path = some "ipynb".toList := by
  unfold ofPath
  constructor
  · intro notebook
    cases extension : pathExtension path with
    | none =>
      rw [extension] at notebook
      cases notebook
    | some extension' =>
      rw [extension, Option.bind_some] at notebook
      unfold tryFromExtension at notebook
      split at notebook
      · cases notebook
      · split at notebook
        · cases notebook
        · split at notebook
          · cases notebook
          · split at notebook
            case isTrue same => rw [same]
            case isFalse => cases notebook
  · intro extension
    rw [extension]
    decide

example : ofPath "notes/a.b.ipynb".toList = .ipynb ∧ ofPath ".ipynb".toList = .python := by decide

theorem asMode_ne_expression (type : PySourceType) : type.asMode ≠ .expression := by
  cases type <;> decide

theorem asMode_eq_ipython_iff (type : PySourceType) : type.asMode = .ipython ↔ type = .ipynb := by
  cases type <;> decide

end PySourceType

section Commands

/-! Where a tree has a command of IPython. -/

mutual

def Expr.hasCommand : Expr → Bool
  | .name _ _ | .numberLiteral _ _ | .booleanLiteral _ _ | .noneLiteral _ | .ellipsisLiteral _
  | .bytesLiteral _ _ | .stringLiteral _ _ => false
  | .attribute value _ _ | .unaryOp _ value _ | .yieldFrom value _ | .starred value _
  | .await value _ => value.hasCommand
  | .binOp left _ right _ | .subscript left right _ | .named left right _ =>
    left.hasCommand || right.hasCommand
  | .call func args keywords _ =>
    func.hasCommand || (exprsCommand args || keywordsCommand keywords)
  | .list elts _ _ | .tuple elts _ _ | .set elts _ | .boolOp _ elts _ => exprsCommand elts
  | .generator elt generators _ | .listComp elt generators _ | .setComp elt generators _ =>
    elt.hasCommand || comprehensionsCommand generators
  | .dictComp key value generators _ =>
    optExprCommand key || (value.hasCommand || comprehensionsCommand generators)
  | .yield value _ => optExprCommand value
  | .compare left _ comparators _ => left.hasCommand || exprsCommand comparators
  | .ifExp test body orelse _ => body.hasCommand || (test.hasCommand || orelse.hasCommand)
  | .dict items _ => itemsCommand items
  | .slice lower upper step _ =>
    optExprCommand lower || (optExprCommand upper || optExprCommand step)
  | .fString value _ => partsCommand value
  | .tString elements _ => elementsCommand elements
  | .lambda (some parameters) body _ => parametersCommand parameters || body.hasCommand
  | .lambda none body _ => body.hasCommand
  | .ipyEscapeCommand _ => true

def exprsCommand : List Expr → Bool
  | [] => false
  | e :: es => e.hasCommand || exprsCommand es

def optExprCommand : Option Expr → Bool
  | none => false
  | some e => e.hasCommand

def keywordsCommand : List Keyword → Bool
  | [] => false
  | .mk _ value :: keywords => value.hasCommand || keywordsCommand keywords

def comprehensionsCommand : List Comprehension → Bool
  | [] => false
  | .mk target iter ifs _ :: generators =>
    target.hasCommand || (iter.hasCommand || (exprsCommand ifs || comprehensionsCommand generators))

def itemsCommand : List DictItem → Bool
  | [] => false
  | .mk key value :: items => optExprCommand key || (value.hasCommand || itemsCommand items)

def parametersCommand : Parameters → Bool
  | .mk posonlyargs args vararg kwonlyargs kwarg =>
    defaultsCommand posonlyargs || (defaultsCommand args || (optParameterCommand vararg
      || (defaultsCommand kwonlyargs || optParameterCommand kwarg)))

def defaultsCommand : List ParameterWithDefault → Bool
  | [] => false
  | .mk (.mk _ ann _) default _ :: parameters =>
    optExprCommand ann || (optExprCommand default || defaultsCommand parameters)

def optParameterCommand : Option Parameter → Bool
  | none => false
  | some (.mk _ ann _) => optExprCommand ann

def partsCommand : List FStringPart → Bool
  | [] => false
  | .fString elements :: parts => elementsCommand elements || partsCommand parts
  | .literal _ :: parts => partsCommand parts

def elementsCommand : List InterpolatedStringElement → Bool
  | [] => false
  | .literal _ _ :: elements => elementsCommand elements
  | .interpolation expression _ _ formatSpec :: elements =>
    expression.hasCommand || (formatSpecCommand formatSpec || elementsCommand elements)

def formatSpecCommand : Option FormatSpec → Bool
  | none => false
  | some (.mk elements _) => elementsCommand elements

end

mutual

def Pattern.hasCommand : Pattern → Bool
  | .matchSingleton _ _ | .matchStar _ _ => false
  | .matchAs pattern _ _ => optPatternCommand pattern
  | .matchOr patterns _ | .matchSequence patterns _ => patternsCommand patterns
  | .matchValue value _ => value.hasCommand
  | .matchMapping items _ _ => mappingCommand items
  | .matchClass cls patterns keywords _ =>
    cls.hasCommand || (patternsCommand patterns || keywordPatternsCommand keywords)

def optPatternCommand : Option Pattern → Bool
  | none => false
  | some pattern => pattern.hasCommand

def patternsCommand : List Pattern → Bool
  | [] => false
  | pattern :: patterns => pattern.hasCommand || patternsCommand patterns

def mappingCommand : List (Expr × Pattern) → Bool
  | [] => false
  | (key, pattern) :: items => key.hasCommand || (pattern.hasCommand || mappingCommand items)

def keywordPatternsCommand : List (Identifier × Pattern) → Bool
  | [] => false
  | (_, pattern) :: keywords => pattern.hasCommand || keywordPatternsCommand keywords

end

def TypeParam.hasCommand : TypeParam → Bool
  | .typeVar _ bound default => optExprCommand bound || optExprCommand default
  | .paramSpec _ default | .typeVarTuple _ default => optExprCommand default

def typeParamsCommand (params : Option (List TypeParam)) : Bool :=
  (params.getD []).any (·.hasCommand)

def FunctionHead.hasCommand (head : FunctionHead) : Bool :=
  exprsCommand (head.decoratorList.map (·.expression))
    || (parametersCommand head.parameters
    || (typeParamsCommand head.typeParams || optExprCommand head.returns))

def ClassHead.hasCommand (head : ClassHead) : Bool :=
  match head.arguments with
  | some arguments =>
    exprsCommand arguments.args || (exprsCommand (head.decoratorList.map (·.expression))
      || (keywordsCommand arguments.keywords || typeParamsCommand head.typeParams))
  | none =>
    exprsCommand (head.decoratorList.map (·.expression)) || typeParamsCommand head.typeParams

def withItemsCommand : List WithItem → Bool
  | [] => false
  | item :: items =>
    item.contextExpr.hasCommand || (optExprCommand item.optionalVars || withItemsCommand items)

mutual

def Stmt.hasCommand : Stmt → Bool
  | .functionDef head body => head.hasCommand || stmtsCommand body
  | .classDef head body => stmtsCommand body || head.hasCommand
  | .expr value _ => value.hasCommand
  | .assign targets value _ => exprsCommand targets || value.hasCommand
  | .annAssign target ann value _ =>
    target.hasCommand || (optExprCommand value || ann.hasCommand)
  | .augAssign target _ value _ => target.hasCommand || value.hasCommand
  | .return value _ => optExprCommand value
  | .raise exc cause _ => optExprCommand exc || optExprCommand cause
  | .assert test msg _ => test.hasCommand || optExprCommand msg
  | .if test body clauses _ => test.hasCommand || (stmtsCommand body || clausesCommand clauses)
  | .while test body orelse _ => test.hasCommand || (stmtsCommand body || stmtsCommand orelse)
  | .for _ target iter body orelse _ =>
    target.hasCommand || (iter.hasCommand || (stmtsCommand body || stmtsCommand orelse))
  | .with _ items body _ => withItemsCommand items || stmtsCommand body
  | .try body handlers orelse finalbody _ _ =>
    stmtsCommand body || (handlersCommand handlers || (stmtsCommand orelse || stmtsCommand finalbody))
  | .delete targets _ => exprsCommand targets
  | .match subject cases _ => subject.hasCommand || casesCommand cases
  | .typeAlias name typeParams value _ =>
    name.hasCommand || (value.hasCommand || typeParamsCommand typeParams)
  | .import _ _ _ | .importFrom _ _ _ _ _ | .global _ _ | .nonlocal _ _ | .pass _ | .break _
  | .continue _ => false
  | .ipyEscapeCommand _ => true

def stmtsCommand : List Stmt → Bool
  | [] => false
  | stmt :: stmts => stmt.hasCommand || stmtsCommand stmts

def clausesCommand : ElifElseClauses → Bool
  | .nil => false
  | .elif test body _ rest => test.hasCommand || (stmtsCommand body || clausesCommand rest)
  | .else body _ => stmtsCommand body

def handlersCommand : List ExceptHandler → Bool
  | [] => false
  | .mk type _ body _ :: handlers =>
    optExprCommand type || (stmtsCommand body || handlersCommand handlers)

def casesCommand : List MatchCase → Bool
  | [] => false
  | .mk pattern guard body _ :: cases =>
    pattern.hasCommand || (optExprCommand guard || (stmtsCommand body || casesCommand cases))

end

end Commands

section Parser

/-- `ast::Mod`. -/
inductive Mod where
  | module (body : List Stmt)
  | expression (body : Expr)

def Mod.hasCommand : Mod → Bool
  | .module body => stmtsCommand body
  | .expression body => body.hasCommand

/-- `parse_unchecked`. Modules are yielded in the modes for them, and the commands of IPython are
only parsed in its mode. -/
structure FileParser where
  parseUnchecked : List Char → Mode → Mod
  yieldsModule : ∀ text mode, mode ≠ .expression → ∃ body, parseUnchecked text mode = .module body
  commandMode : ∀ text mode, (parseUnchecked text mode).hasCommand = true → mode = .ipython

end Parser

end AstSerialize
