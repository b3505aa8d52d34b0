import AstSerialize.Wire.StmtDecoder

/-! What is somewhere in a tree: an expression of a kind, or a function outside
functions and classes. In the order of the stream. -/
namespace AstSerialize

variable {cv : Nat}

section Expressions

variable (p : WExpr cv → Bool)

mutual

/-- `p` holds of the expression or of one in it. -/
def WExpr.any : WExpr cv → Bool
  | e@(.name ..) | e@(.str ..) | e@(.int ..) | e@(.bigInt ..) | e@(.float ..) | e@(.complex ..)
  | e@(.ellipsis ..) | e@(.bytes ..) | e@(.temp) => p e
  | e@(.member value _ _) | e@(.yieldFrom value _) | e@(.unary _ value _) | e@(.star value _)
  | e@(.await value _) => p e || value.any
  | e@(.call func args _ _ _) => p e || (func.any || exprsAny args)
  | e@(.op _ left right) | e@(.index left right _) | e@(.assignment left right _) =>
    p e || (left.any || right.any)
  | e@(.list elts _) | e@(.tuple elts _) | e@(.set elts _) | e@(.boolOp _ elts _) =>
    p e || exprsAny elts
  | e@(.generator elt generators _) | e@(.listComp elt generators _)
  | e@(.setComp elt generators _) =>
    p e || (elt.any || (targetsAny generators || (itersAny generators || condsAny generators)))
  | e@(.dictComp _ key value generators _) =>
    p e || (optExprAny key || (value.any || (targetsAny generators || (itersAny generators
      || condsAny generators))))
  | e@(.dictCompKeyed _ key value generators _) =>
    p e || (key.any || (value.any || (targetsAny generators || (itersAny generators
      || condsAny generators))))
  | e@(.yield value _) => p e || optExprAny value
  | e@(.comparison left _ comparators _) => p e || (left.any || exprsAny comparators)
  | e@(.conditional body test orelse _) => p e || (body.any || (test.any || orelse.any))
  | e@(.dict keys values _) => p e || (keysAny keys || exprsAny values)
  | e@(.slice lower upper step _) =>
    p e || (optExprAny lower || (optExprAny upper || optExprAny step))
  | e@(.fString parts _ _) => p e || fStringPartsAny parts
  | e@(.lambda parameters _ body _ _) => p e || (parametersAny parameters || body.any)
  | e@(.tString parts _ _) => p e || tStringPartsAny parts

def WKey.any : WKey cv → Bool
  | .expr key => key.any
  | .recovered _ => false

def exprsAny : List (WExpr cv) → Bool
  | [] => false
  | e :: es => e.any || exprsAny es

def optExprAny : Option (WExpr cv) → Bool
  | none => false
  | some e => e.any

def keysAny : List (Option (WExpr cv)) → Bool
  | [] => false
  | key :: keys => optExprAny key || keysAny keys

def targetsAny : List (WComprehension cv) → Bool
  | [] => false
  | .mk target _ _ _ :: generators => target.any || targetsAny generators

def itersAny : List (WComprehension cv) → Bool
  | [] => false
  | .mk _ iter _ _ :: generators => iter.any || itersAny generators

def condsAny : List (WComprehension cv) → Bool
  | [] => false
  | .mk _ _ ifs _ :: generators => exprsAny ifs || condsAny generators

def parametersAny : List (WParameter cv) → Bool
  | [] => false
  | .mk _ _ _ default _ _ :: parameters => optExprAny default || parametersAny parameters

def fStringPartsAny : List (WFStringPart cv) → Bool
  | [] => false
  | .literal _ _ :: parts => fStringPartsAny parts
  | .fString elements :: parts => elementsAny elements || fStringPartsAny parts

def elementsAny : List (WFStringElement cv) → Bool
  | [] => false
  | .literal _ _ :: elements => elementsAny elements
  | .interpolation expression _ formatSpec :: elements =>
    expression.any || (formatSpecAny formatSpec || elementsAny elements)

def formatSpecAny : Option (WFormatSpec cv) → Bool
  | none => false
  | some (.mk elements _) => elementsAny elements

def tStringPartsAny : List (WTStringPart cv) → Bool
  | [] => false
  | .literal _ _ :: parts => tStringPartsAny parts
  | .interpolation expression _ _ formatSpec :: parts =>
    expression.any || (formatSpecAny formatSpec || tStringPartsAny parts)

end

theorem exprsAny_append (es es' : List (WExpr cv)) :
    exprsAny p (es ++ es') = (exprsAny p es || exprsAny p es') := by
  induction es with
  | nil => rfl
  | cons e es ih => rw [List.cons_append, exprsAny, exprsAny, ih, Bool.or_assoc]

theorem parametersAny_append (parameters parameters' : List (WParameter cv)) :
    parametersAny p (parameters ++ parameters')
      = (parametersAny p parameters || parametersAny p parameters') := by
  induction parameters with
  | nil => rfl
  | cons parameter parameters ih =>
    obtain ⟨name, kind, type, default, posOnly, loc⟩ := parameter
    rw [List.cons_append, parametersAny, parametersAny, ih, Bool.or_assoc]

end Expressions

section Statements

variable (p : WExpr cv → Bool)

mutual

def WPattern.any : WPattern cv → Bool
  | .as pattern _ _ => optPatternAny pattern
  | .or patterns _ | .sequence patterns _ => patternsAny patterns
  | .value value _ => value.any p
  | .singleton _ _ | .starred _ _ => false
  | .mapping items _ _ => itemsAny items
  | .class cls patterns keywords _ =>
    cls.any p || (patternsAny patterns || keywordPatternsAny keywords)

def optPatternAny : Option (WPattern cv) → Bool
  | none => false
  | some pattern => pattern.any

def patternsAny : List (WPattern cv) → Bool
  | [] => false
  | pattern :: patterns => pattern.any || patternsAny patterns

def itemsAny : List (WExpr cv × WPattern cv) → Bool
  | [] => false
  | (key, pattern) :: items => key.any p || (pattern.any || itemsAny items)

def keywordPatternsAny : List (Bytes × WPattern cv) → Bool
  | [] => false
  | (_, pattern) :: keywords => pattern.any || keywordPatternsAny keywords

end

def classKeywordsAny : List (Bytes × WExpr cv) → Bool
  | [] => false
  | (_, value) :: keywords => value.any p || classKeywordsAny keywords

def withItemsAny : List (WExpr cv × Option (WExpr cv)) → Bool
  | [] => false
  | (context, vars) :: items => context.any p || (optExprAny p vars || withItemsAny items)

def handlerTypesAny : List (WHandler cv) → Bool
  | [] => false
  | .mk type _ _ :: handlers => optExprAny p type || handlerTypesAny handlers

mutual

/-- `p` holds of an expression in the statement or in a block of it. -/
def WStmt.any : WStmt cv → Bool
  | .funcDef func => func.any
  | .decorator decorators _ _ func => exprsAny p decorators || func.any
  | .classDef _ body bases decorators _ keywords _ =>
    body.any || (exprsAny p bases || (exprsAny p decorators || classKeywordsAny p keywords))
  | .expr value => value.any p
  | .assign targets value _ _ _ => exprsAny p targets || value.any p
  | .operatorAssignment _ target value _ => target.any p || value.any p
  | .return value _ => optExprAny p value
  | .raise exc cause _ => optExprAny p exc || optExprAny p cause
  | .assert test msg _ => test.any p || optExprAny p msg
  | .if test body elifs orelse _ =>
    test.any p || (body.any || (elifsAny elifs || optBlockAny orelse))
  | .while test body orelse _ => test.any p || (body.any || orelse.any)
  | .for target iter body orelse _ _ =>
    target.any p || (iter.any p || (body.any || orelse.any))
  | .with items body _ _ => withItemsAny p items || body.any
  | .try body handlers orelse finalbody _ _ =>
    body.any || (handlerTypesAny p handlers || (handlersAny handlers
      || (optBlockAny orelse || optBlockAny finalbody)))
  | .del target _ => target.any p
  | .match subject cases _ => subject.any p || casesAny cases
  | .typeAlias name _ value _ => name.any p || value.any p
  | .import .. | .importAll .. | .importFrom .. | .pass .. | .break .. | .continue ..
  | .global .. | .nonlocal .. => false

def stmtsAny : List (WStmt cv) → Bool
  | [] => false
  | stmt :: stmts => stmt.any || stmtsAny stmts

def WBlock.any : WBlock cv → Bool
  | .empty _ _ => false
  | .stmts _ first rest => first.any || stmtsAny rest

def WElse.any : WElse cv → Bool
  | .mk _ stmts => stmtsAny stmts

def optBlockAny : Option (WBlock cv) → Bool
  | none => false
  | some block => block.any

def WFunction.any : WFunction cv → Bool
  | .mk _ parameters body _ _ _ _ _ => parametersAny p parameters || body.any

def elifsAny : List (WElif cv) → Bool
  | [] => false
  | .mk test body :: elifs => test.any p || (body.any || elifsAny elifs)

def handlersAny : List (WHandler cv) → Bool
  | [] => false
  | .mk _ _ body :: handlers => body.any || handlersAny handlers

def casesAny : List (WCase cv) → Bool
  | [] => false
  | .mk pattern guard body :: cases =>
    pattern.any p || (optExprAny p guard || (body.any || casesAny cases))

end

end Statements

section Functions

def WFunction.name : WFunction cv → Bytes
  | .mk name _ _ _ _ _ _ _ => name

variable (name : Bytes)

mutual

/-- A function of the name is defined by the statement or in a block of it, outside functions and
classes. -/
def WStmt.defines : WStmt cv → Bool
  | .funcDef func | .decorator _ _ _ func => func.name = name
  | .if _ body elifs orelse _ => body.defines || (elifsDefine elifs || optBlockDefines orelse)
  | .while _ body orelse _ | .for _ _ body orelse _ _ => body.defines || orelse.defines
  | .with _ body _ _ => body.defines
  | .try body handlers orelse finalbody _ _ =>
    body.defines || (handlersDefine handlers || (optBlockDefines orelse
      || optBlockDefines finalbody))
  | .match _ cases _ => casesDefine cases
  | .classDef .. | .expr .. | .assign .. | .operatorAssignment .. | .import .. | .importAll ..
  | .importFrom .. | .return .. | .raise .. | .assert .. | .pass .. | .break .. | .continue ..
  | .del .. | .global .. | .nonlocal .. | .typeAlias .. => false

def stmtsDefine : List (WStmt cv) → Bool
  | [] => false
  | stmt :: stmts => stmt.defines || stmtsDefine stmts

def WBlock.defines : WBlock cv → Bool
  | .empty _ _ => false
  | .stmts _ first rest => first.defines || stmtsDefine rest

def WElse.defines : WElse cv → Bool
  | .mk _ stmts => stmtsDefine stmts

def optBlockDefines : Option (WBlock cv) → Bool
  | none => false
  | some block => block.defines

def elifsDefine : List (WElif cv) → Bool
  | [] => false
  | .mk _ body :: elifs => body.defines || elifsDefine elifs

def handlersDefine : List (WHandler cv) → Bool
  | [] => false
  | .mk _ _ body :: handlers => body.defines || handlersDefine handlers

def casesDefine : List (WCase cv) → Bool
  | [] => false
  | .mk _ _ body :: cases => body.defines || casesDefine cases

end

end Functions

end AstSerialize
