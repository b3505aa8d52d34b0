import AstSerialize.Wire.StmtDecoder

/-! A tree as an older cache version has it: without the fields that newer
versions added, and with a key for every dictionary comprehension. -/
namespace AstSerialize

variable {cv v : Nat} (le : v ≤ cv)

def RawValue.older : RawValue cv → RawValue v
  | .bool value => .bool value
  | .int value => .int value
  | .str value => .str value
  | .none note => .none fun given => note (given.trans le)

mutual

def WType.older : WType cv → WType v
  | .unbound name args emptyTupleIndex expr fallback loc =>
    .unbound name (olderTypes args) emptyTupleIndex expr fallback loc
  | .union left right expr fallback isEvaluated loc =>
    .union left.older right.older expr fallback isEvaluated loc
  | .list items loc => .list (olderTypes items) loc
  | .tuple items loc => .tuple (olderTypes items) loc
  | .typedDict keys values loc => .typedDict keys (olderTypes values) loc
  | .call callee args keywords loc =>
    .call callee.older (olderTypes args) (olderKeywordTypes keywords) loc
  | .ellipsis loc => .ellipsis loc
  | .unpack value loc => .unpack value.older loc
  | .raw base value loc => .raw base (value.older le) loc

def olderTypes : List (WType cv) → List (WType v)
  | [] => []
  | t :: ts => t.older :: olderTypes ts

def olderKeywordTypes : List (Option Bytes × WType cv) → List (Option Bytes × WType v)
  | [] => []
  | (name, value) :: keywords => (name, value.older) :: olderKeywordTypes keywords

end

def olderOptType : Option (WType cv) → Option (WType v)
  | none => none
  | some t => some (t.older le)

mutual

def WExpr.older : WExpr cv → WExpr v
  | .name id loc => .name id loc
  | .member value attr loc => .member value.older attr loc
  | .str value surrogates loc => .str value (fun given => surrogates (given.trans le)) loc
  | .call func args kinds names loc => .call func.older (olderExprs args) kinds names loc
  | .op op left right => .op op left.older right.older
  | .int value loc => .int value loc
  | .bigInt text loc => .bigInt text loc
  | .float bits loc => .float bits loc
  | .complex real imag loc => .complex real imag loc
  | .index value slice loc => .index value.older slice.older loc
  | .list elts loc => .list (olderExprs elts) loc
  | .tuple elts loc => .tuple (olderExprs elts) loc
  | .set elts loc => .set (olderExprs elts) loc
  | .generator elt generators loc => .generator elt.older (olderComprehensions generators) loc
  | .listComp elt generators loc => .listComp elt.older (olderComprehensions generators) loc
  | .setComp elt generators loc => .setComp elt.older (olderComprehensions generators) loc
  | .dictComp _ key value generators loc =>
    if optional : cvDictKeyOpt ≤ v then
      .dictComp optional (olderOptExpr key) value.older (olderComprehensions generators) loc
    else
      .dictCompKeyed (Nat.lt_of_not_le optional) (olderDictKey loc key) value.older
        (olderComprehensions generators) loc
  | .dictCompKeyed required key value generators loc =>
    .dictCompKeyed (Nat.lt_of_le_of_lt le required) key.older value.older
      (olderComprehensions generators) loc
  | .yield value loc => .yield (olderOptExpr value) loc
  | .yieldFrom value loc => .yieldFrom value.older loc
  | .boolOp op values loc => .boolOp op (olderExprs values) loc
  | .comparison left ops comparators loc => .comparison left.older ops (olderExprs comparators) loc
  | .ellipsis loc => .ellipsis loc
  | .conditional body test orelse loc => .conditional body.older test.older orelse.older loc
  | .unary op operand loc => .unary op operand.older loc
  | .dict keys values loc => .dict (olderKeys keys) (olderExprs values) loc
  | .slice lower upper step loc =>
    .slice (olderOptExpr lower) (olderOptExpr upper) (olderOptExpr step) loc
  | .fString parts surrogates loc =>
    .fString (olderFStringParts parts) (fun given => surrogates (given.trans le)) loc
  | .lambda parameters unreachable body bodyLoc loc =>
    .lambda (olderParameters parameters) unreachable body.older bodyLoc loc
  | .assignment target value loc => .assignment target.older value.older loc
  | .star value loc => .star value.older loc
  | .bytes text loc => .bytes text loc
  | .await value loc => .await value.older loc
  | .tString parts surrogates loc =>
    .tString (olderTStringParts parts) (fun given => surrogates (given.trans le)) loc
  | .temp => .temp

/-- Before keys were optional there is the name `None`, at the place of the comprehension. -/
def olderDictKey (loc : Location) : Option (WExpr cv) → WKey v
  | none => .recovered loc
  | some key => .expr key.older

def WKey.older : WKey cv → WKey v
  | .expr key => .expr key.older
  | .recovered loc => .recovered loc

def olderExprs : List (WExpr cv) → List (WExpr v)
  | [] => []
  | e :: es => e.older :: olderExprs es

def olderOptExpr : Option (WExpr cv) → Option (WExpr v)
  | none => none
  | some e => some e.older

def olderKeys : List (Option (WExpr cv)) → List (Option (WExpr v))
  | [] => []
  | key :: keys => olderOptExpr key :: olderKeys keys

def olderComprehensions : List (WComprehension cv) → List (WComprehension v)
  | [] => []
  | .mk target iter ifs isAsync :: generators =>
    .mk target.older iter.older (olderExprs ifs) isAsync :: olderComprehensions generators

def olderParameters : List (WParameter cv) → List (WParameter v)
  | [] => []
  | .mk name kind type default posOnly loc :: parameters =>
    .mk name kind (olderOptType le type) (olderOptExpr default) posOnly loc
      :: olderParameters parameters

def olderFStringParts : List (WFStringPart cv) → List (WFStringPart v)
  | [] => []
  | .literal value loc :: parts => .literal value loc :: olderFStringParts parts
  | .fString elements :: parts => .fString (olderElements elements) :: olderFStringParts parts

def olderElements : List (WFStringElement cv) → List (WFStringElement v)
  | [] => []
  | .literal value loc :: elements => .literal value loc :: olderElements elements
  | .interpolation expression conversion formatSpec :: elements =>
    .interpolation expression.older conversion (olderFormatSpec formatSpec)
      :: olderElements elements

def olderFormatSpec : Option (WFormatSpec cv) → Option (WFormatSpec v)
  | none => none
  | some (.mk elements loc) => some (.mk (olderElements elements) loc)

def olderTStringParts : List (WTStringPart cv) → List (WTStringPart v)
  | [] => []
  | .literal value loc :: parts => .literal value loc :: olderTStringParts parts
  | .interpolation expression text conversion formatSpec :: parts =>
    .interpolation expression.older text conversion (olderFormatSpec formatSpec)
      :: olderTStringParts parts

end

section Comprehensions

variable {value : WExpr cv} {generators : List (WComprehension cv)} {loc : Location}

theorem WExpr.older_dictComp_kept {newer : cvDictKeyOpt ≤ cv} {key : Option (WExpr cv)}
    (optional : cvDictKeyOpt ≤ v) :
    (WExpr.dictComp newer key value generators loc).older le
      = .dictComp optional (olderOptExpr le key) (value.older le)
        (olderComprehensions le generators) loc := by
  rw [WExpr.older, dif_pos optional]

theorem WExpr.older_dictComp_keyed {newer : cvDictKeyOpt ≤ cv} {key : Option (WExpr cv)}
    (required : ¬ cvDictKeyOpt ≤ v) :
    (WExpr.dictComp newer key value generators loc).older le
      = .dictCompKeyed (Nat.lt_of_not_le required) (olderDictKey le loc key) (value.older le)
        (olderComprehensions le generators) loc := by
  rw [WExpr.older, dif_neg required]

theorem WExpr.older_dictCompKeyed {required : cv < cvDictKeyOpt} {key : WKey cv} :
    (WExpr.dictCompKeyed required key value generators loc).older le
      = .dictCompKeyed (Nat.lt_of_le_of_lt le required) (key.older le) (value.older le)
        (olderComprehensions le generators) loc := by
  rw [WExpr.older]

end Comprehensions

mutual

def WPattern.older : WPattern cv → WPattern v
  | .as pattern name loc => .as (olderOptPattern pattern) name loc
  | .or patterns loc => .or (olderPatterns patterns) loc
  | .value value loc => .value (value.older le) loc
  | .singleton value loc => .singleton value loc
  | .sequence patterns loc => .sequence (olderPatterns patterns) loc
  | .starred name loc => .starred name loc
  | .mapping items rest loc => .mapping (olderItems items) rest loc
  | .class cls patterns keywords loc =>
    .class (cls.older le) (olderPatterns patterns) (olderKeywordPatterns keywords) loc

def olderOptPattern : Option (WPattern cv) → Option (WPattern v)
  | none => none
  | some pattern => some pattern.older

def olderPatterns : List (WPattern cv) → List (WPattern v)
  | [] => []
  | pattern :: patterns => pattern.older :: olderPatterns patterns

def olderItems : List (WExpr cv × WPattern cv) → List (WExpr v × WPattern v)
  | [] => []
  | (key, pattern) :: items => (key.older le, pattern.older) :: olderItems items

def olderKeywordPatterns : List (Bytes × WPattern cv) → List (Bytes × WPattern v)
  | [] => []
  | (attr, pattern) :: keywords => (attr, pattern.older) :: olderKeywordPatterns keywords

end

def WTypeParam.older (param : WTypeParam cv) : WTypeParam v where
  kind := param.kind
  name := param.name
  bound := olderOptType le param.bound
  values := olderTypes le param.values
  default := olderOptType le param.default

def olderHandlerName (name : WHandlerName cv) : WHandlerName v :=
  (name.1, fun given => name.2 (given.trans le))

mutual

def WStmt.older : WStmt cv → WStmt v
  | .funcDef func => .funcDef func.older
  | .decorator decorators line column func =>
    .decorator (olderExprs le decorators) line column func.older
  | .classDef name body bases decorators typeParams keywords loc =>
    .classDef name body.older (olderExprs le bases) (olderExprs le decorators)
      (typeParams.map (List.map (WTypeParam.older le)))
      (keywords.map fun (arg, value) => (arg, value.older le)) loc
  | .expr value => .expr (value.older le)
  | .assign targets value type newSyntax loc =>
    .assign (olderExprs le targets) (value.older le) (olderOptType le type) newSyntax loc
  | .operatorAssignment op target value loc =>
    .operatorAssignment op (target.older le) (value.older le) loc
  | .import names loc flags => .import names loc fun given => flags (given.trans le)
  | .importAll module level loc flags =>
    .importAll module level loc fun given => flags (given.trans le)
  | .importFrom level module names loc flags =>
    .importFrom level module names loc fun given => flags (given.trans le)
  | .return value loc => .return (olderOptExpr le value) loc
  | .raise exc cause loc => .raise (olderOptExpr le exc) (olderOptExpr le cause) loc
  | .assert test msg loc => .assert (test.older le) (olderOptExpr le msg) loc
  | .if test body elifs orelse loc =>
    .if (test.older le) body.older (olderElifs elifs) (olderOptBlock orelse) loc
  | .while test body orelse loc => .while (test.older le) body.older orelse.older loc
  | .for target iter body orelse isAsync loc =>
    .for (target.older le) (iter.older le) body.older orelse.older isAsync loc
  | .with items body isAsync loc =>
    .with (items.map fun (context, vars) => (context.older le, olderOptExpr le vars)) body.older
      isAsync loc
  | .pass loc => .pass loc
  | .break loc => .break loc
  | .continue loc => .continue loc
  | .try body handlers orelse finalbody isStar loc =>
    .try body.older (olderHandlers handlers) (olderOptBlock orelse) (olderOptBlock finalbody)
      isStar loc
  | .del target loc => .del (target.older le) loc
  | .global names loc => .global names loc
  | .nonlocal names loc => .nonlocal names loc
  | .match subject cases loc => .match (subject.older le) (olderCases cases) loc
  | .typeAlias name typeParams value loc =>
    .typeAlias (name.older le) (typeParams.map (WTypeParam.older le)) (value.older le) loc

def olderStmts : List (WStmt cv) → List (WStmt v)
  | [] => []
  | stmt :: stmts => stmt.older :: olderStmts stmts

def WBlock.older : WBlock cv → WBlock v
  | .empty unreachable loc => .empty unreachable loc
  | .stmts unreachable first rest => .stmts unreachable first.older (olderStmts rest)

def olderOptBlock : Option (WBlock cv) → Option (WBlock v)
  | none => none
  | some block => some block.older

def WElse.older : WElse cv → WElse v
  | .mk unreachable stmts => .mk unreachable (olderStmts stmts)

def WFunction.older : WFunction cv → WFunction v
  | .mk name parameters body isAsync typeParams returns typeComment loc =>
    .mk name (olderParameters le parameters) body.older isAsync
      (typeParams.map (List.map (WTypeParam.older le))) (olderOptType le returns)
      (fun given => typeComment (given.trans le)) loc

def olderElifs : List (WElif cv) → List (WElif v)
  | [] => []
  | .mk test body :: elifs => .mk (test.older le) body.older :: olderElifs elifs

def olderHandlers : List (WHandler cv) → List (WHandler v)
  | [] => []
  | .mk type name body :: handlers =>
    .mk (olderOptExpr le type) (name.map (olderHandlerName le)) body.older :: olderHandlers handlers

def olderCases : List (WCase cv) → List (WCase v)
  | [] => []
  | .mk pattern guard body :: cases =>
    .mk (pattern.older le) (olderOptExpr le guard) body.older :: olderCases cases

end

end AstSerialize
