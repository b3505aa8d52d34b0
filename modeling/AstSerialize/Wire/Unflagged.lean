import AstSerialize.Wire.ImportTable

/-! A tree without what is said of reachability: the flags of blocks and
lambdas, the bits of imports for it, and the `else` blocks that are only there
to carry a flag. -/
namespace AstSerialize

variable {cv : Nat}

mutual

def WExpr.unflagged : WExpr cv → WExpr cv
  | .name id loc => .name id loc
  | .member value attr loc => .member value.unflagged attr loc
  | .str value surrogates loc => .str value surrogates loc
  | .call func args kinds names loc =>
    .call func.unflagged (unflaggedExprs args) kinds names loc
  | .op op left right => .op op left.unflagged right.unflagged
  | .int value loc => .int value loc
  | .bigInt text loc => .bigInt text loc
  | .float bits loc => .float bits loc
  | .complex real imag loc => .complex real imag loc
  | .index value slice loc => .index value.unflagged slice.unflagged loc
  | .list elts loc => .list (unflaggedExprs elts) loc
  | .tuple elts loc => .tuple (unflaggedExprs elts) loc
  | .set elts loc => .set (unflaggedExprs elts) loc
  | .generator elt generators loc =>
    .generator elt.unflagged (unflaggedComprehensions generators) loc
  | .listComp elt generators loc =>
    .listComp elt.unflagged (unflaggedComprehensions generators) loc
  | .setComp elt generators loc =>
    .setComp elt.unflagged (unflaggedComprehensions generators) loc
  | .dictComp optional key value generators loc =>
    .dictComp optional (unflaggedOptExpr key) value.unflagged (unflaggedComprehensions generators)
      loc
  | .dictCompKeyed required key value generators loc =>
    .dictCompKeyed required key.unflagged value.unflagged (unflaggedComprehensions generators) loc
  | .yield value loc => .yield (unflaggedOptExpr value) loc
  | .yieldFrom value loc => .yieldFrom value.unflagged loc
  | .boolOp op values loc => .boolOp op (unflaggedExprs values) loc
  | .comparison left ops comparators loc =>
    .comparison left.unflagged ops (unflaggedExprs comparators) loc
  | .ellipsis loc => .ellipsis loc
  | .conditional body test orelse loc =>
    .conditional body.unflagged test.unflagged orelse.unflagged loc
  | .unary op operand loc => .unary op operand.unflagged loc
  | .dict keys values loc => .dict (unflaggedKeys keys) (unflaggedExprs values) loc
  | .slice lower upper step loc =>
    .slice (unflaggedOptExpr lower) (unflaggedOptExpr upper) (unflaggedOptExpr step) loc
  | .fString parts surrogates loc => .fString (unflaggedFStringParts parts) surrogates loc
  | .lambda parameters _ body bodyLoc loc =>
    .lambda (unflaggedParameters parameters) false body.unflagged bodyLoc loc
  | .assignment target value loc => .assignment target.unflagged value.unflagged loc
  | .star value loc => .star value.unflagged loc
  | .bytes text loc => .bytes text loc
  | .await value loc => .await value.unflagged loc
  | .tString parts surrogates loc => .tString (unflaggedTStringParts parts) surrogates loc
  | .temp => .temp

def WKey.unflagged : WKey cv → WKey cv
  | .expr key => .expr key.unflagged
  | .recovered loc => .recovered loc

def unflaggedExprs : List (WExpr cv) → List (WExpr cv)
  | [] => []
  | e :: es => e.unflagged :: unflaggedExprs es

def unflaggedOptExpr : Option (WExpr cv) → Option (WExpr cv)
  | none => none
  | some e => some e.unflagged

def unflaggedKeys : List (Option (WExpr cv)) → List (Option (WExpr cv))
  | [] => []
  | key :: keys => unflaggedOptExpr key :: unflaggedKeys keys

def unflaggedComprehensions : List (WComprehension cv) → List (WComprehension cv)
  | [] => []
  | .mk target iter ifs isAsync :: generators =>
    .mk target.unflagged iter.unflagged (unflaggedExprs ifs) isAsync
      :: unflaggedComprehensions generators

def unflaggedParameters : List (WParameter cv) → List (WParameter cv)
  | [] => []
  | .mk name kind type default posOnly loc :: parameters =>
    .mk name kind type (unflaggedOptExpr default) posOnly loc :: unflaggedParameters parameters

def unflaggedFStringParts : List (WFStringPart cv) → List (WFStringPart cv)
  | [] => []
  | .literal value loc :: parts => .literal value loc :: unflaggedFStringParts parts
  | .fString elements :: parts =>
    .fString (unflaggedElements elements) :: unflaggedFStringParts parts

def unflaggedElements : List (WFStringElement cv) → List (WFStringElement cv)
  | [] => []
  | .literal value loc :: elements => .literal value loc :: unflaggedElements elements
  | .interpolation expression conversion formatSpec :: elements =>
    .interpolation expression.unflagged conversion (unflaggedFormatSpec formatSpec)
      :: unflaggedElements elements

def unflaggedFormatSpec : Option (WFormatSpec cv) → Option (WFormatSpec cv)
  | none => none
  | some (.mk elements loc) => some (.mk (unflaggedElements elements) loc)

def unflaggedTStringParts : List (WTStringPart cv) → List (WTStringPart cv)
  | [] => []
  | .literal value loc :: parts => .literal value loc :: unflaggedTStringParts parts
  | .interpolation expression text conversion formatSpec :: parts =>
    .interpolation expression.unflagged text conversion (unflaggedFormatSpec formatSpec)
      :: unflaggedTStringParts parts

end

theorem unflaggedParameters_append (parameters more : List (WParameter cv)) :
    unflaggedParameters (parameters ++ more)
      = unflaggedParameters parameters ++ unflaggedParameters more := by
  induction parameters with
  | nil => rfl
  | cons parameter parameters ih =>
    cases parameter
    simp only [List.cons_append, unflaggedParameters, ih]

theorem unflaggedExprs_append (es more : List (WExpr cv)) :
    unflaggedExprs (es ++ more) = unflaggedExprs es ++ unflaggedExprs more := by
  induction es with
  | nil => rfl
  | cons e es ih => simp only [List.cons_append, unflaggedExprs, ih]

theorem unflaggedElements_append (elements more : List (WFStringElement cv)) :
    unflaggedElements (elements ++ more)
      = unflaggedElements elements ++ unflaggedElements more := by
  induction elements with
  | nil => rfl
  | cons element elements ih =>
    cases element <;> simp only [List.cons_append, unflaggedElements, ih]

mutual

def WPattern.unflagged : WPattern cv → WPattern cv
  | .as pattern name loc => .as (unflaggedOptPattern pattern) name loc
  | .or patterns loc => .or (unflaggedPatterns patterns) loc
  | .value value loc => .value value.unflagged loc
  | .singleton value loc => .singleton value loc
  | .sequence patterns loc => .sequence (unflaggedPatterns patterns) loc
  | .starred name loc => .starred name loc
  | .mapping items rest loc => .mapping (unflaggedItems items) rest loc
  | .class cls patterns keywords loc =>
    .class cls.unflagged (unflaggedPatterns patterns) (unflaggedKeywordPatterns keywords) loc

def unflaggedOptPattern : Option (WPattern cv) → Option (WPattern cv)
  | none => none
  | some pattern => some pattern.unflagged

def unflaggedPatterns : List (WPattern cv) → List (WPattern cv)
  | [] => []
  | pattern :: patterns => pattern.unflagged :: unflaggedPatterns patterns

def unflaggedItems : List (WExpr cv × WPattern cv) → List (WExpr cv × WPattern cv)
  | [] => []
  | (key, pattern) :: items => (key.unflagged, pattern.unflagged) :: unflaggedItems items

def unflaggedKeywordPatterns : List (Bytes × WPattern cv) → List (Bytes × WPattern cv)
  | [] => []
  | (attr, pattern) :: keywords => (attr, pattern.unflagged) :: unflaggedKeywordPatterns keywords

end

/-- The bits of an import that say whether it is at the top level and whether it is lazy. -/
def plainBits (flags : Int) : Int := (UInt8.ofInt flags &&& 9).toNat

mutual

def WStmt.unflagged : WStmt cv → WStmt cv
  | .funcDef func => .funcDef func.unflagged
  | .decorator decorators line column func =>
    .decorator (unflaggedExprs decorators) line column func.unflagged
  | .classDef name body bases decorators typeParams keywords loc =>
    .classDef name body.unflagged (unflaggedExprs bases) (unflaggedExprs decorators) typeParams
      (keywords.map fun (arg, value) => (arg, value.unflagged)) loc
  | .expr value => .expr value.unflagged
  | .assign targets value type newSyntax loc =>
    .assign (unflaggedExprs targets) value.unflagged type newSyntax loc
  | .operatorAssignment op target value loc =>
    .operatorAssignment op target.unflagged value.unflagged loc
  | .import names loc flags => .import names loc fun given => plainBits (flags given)
  | .importAll module level loc flags =>
    .importAll module level loc fun given => plainBits (flags given)
  | .importFrom level module names loc flags =>
    .importFrom level module names loc fun given => plainBits (flags given)
  | .return value loc => .return (unflaggedOptExpr value) loc
  | .raise exc cause loc => .raise (unflaggedOptExpr exc) (unflaggedOptExpr cause) loc
  | .assert test msg loc => .assert test.unflagged (unflaggedOptExpr msg) loc
  | .if test body elifs orelse loc =>
    .if test.unflagged body.unflagged (unflaggedElifs elifs) (unflaggedOrelse orelse) loc
  | .while test body orelse loc => .while test.unflagged body.unflagged orelse.unflagged loc
  | .for target iter body orelse isAsync loc =>
    .for target.unflagged iter.unflagged body.unflagged orelse.unflagged isAsync loc
  | .with items body isAsync loc =>
    .with (items.map fun (context, vars) => (context.unflagged, unflaggedOptExpr vars))
      body.unflagged isAsync loc
  | .pass loc => .pass loc
  | .break loc => .break loc
  | .continue loc => .continue loc
  | .try body handlers orelse finalbody isStar loc =>
    .try body.unflagged (unflaggedHandlers handlers) (unflaggedOptBlock orelse)
      (unflaggedOptBlock finalbody) isStar loc
  | .del target loc => .del target.unflagged loc
  | .global names loc => .global names loc
  | .nonlocal names loc => .nonlocal names loc
  | .match subject cases loc => .match subject.unflagged (unflaggedCases cases) loc
  | .typeAlias name typeParams value loc =>
    .typeAlias name.unflagged typeParams value.unflagged loc

def unflaggedStmts : List (WStmt cv) → List (WStmt cv)
  | [] => []
  | stmt :: stmts => stmt.unflagged :: unflaggedStmts stmts

def WBlock.unflagged : WBlock cv → WBlock cv
  | .empty _ loc => .empty false loc
  | .stmts _ first rest => .stmts false first.unflagged (unflaggedStmts rest)

def unflaggedOptBlock : Option (WBlock cv) → Option (WBlock cv)
  | none => none
  | some block => some block.unflagged

/-- An `else` block without statements is there for its flag. -/
def unflaggedOrelse : Option (WBlock cv) → Option (WBlock cv)
  | none => none
  | some (.empty _ _) => none
  | some (.stmts _ first rest) => some (.stmts false first.unflagged (unflaggedStmts rest))

def WElse.unflagged : WElse cv → WElse cv
  | .mk _ stmts => .mk false (unflaggedStmts stmts)

def WFunction.unflagged : WFunction cv → WFunction cv
  | .mk name parameters body isAsync typeParams returns typeComment loc =>
    .mk name (unflaggedParameters parameters) body.unflagged isAsync typeParams returns typeComment
      loc

def unflaggedElifs : List (WElif cv) → List (WElif cv)
  | [] => []
  | .mk test body :: elifs => .mk test.unflagged body.unflagged :: unflaggedElifs elifs

def unflaggedHandlers : List (WHandler cv) → List (WHandler cv)
  | [] => []
  | .mk type name body :: handlers =>
    .mk (unflaggedOptExpr type) name body.unflagged :: unflaggedHandlers handlers

def unflaggedCases : List (WCase cv) → List (WCase cv)
  | [] => []
  | .mk pattern guard body :: cases =>
    .mk pattern.unflagged (unflaggedOptExpr guard) body.unflagged :: unflaggedCases cases

end

theorem unflaggedStmts_append (stmts more : List (WStmt cv)) :
    unflaggedStmts (stmts ++ more) = unflaggedStmts stmts ++ unflaggedStmts more := by
  induction stmts with
  | nil => rfl
  | cons stmt stmts ih => simp only [List.cons_append, unflaggedStmts, ih]

def WImport.unflagged : WImport → WImport
  | .import name relative asname loc flags => .import name relative asname loc (plainBits flags)
  | .importFrom module relative names loc flags =>
    .importFrom module relative names loc (plainBits flags)
  | .importAll module relative loc flags => .importAll module relative loc (plainBits flags)

end AstSerialize
