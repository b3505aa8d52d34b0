import AstSerialize.Wire.Pattern

/-! Statements, blocks and modules in the stream: one constructor for each tag,
and the bytes of a tree. -/
namespace AstSerialize
open Coding

structure WTypeParam (cv : Nat) where
  kind : Int
  name : Bytes
  bound : Option (WType cv)
  values : List (WType cv)
  default : Option (WType cv)

/-- A name with what it is bound to. -/
abbrev WAlias := Bytes × Option Bytes

/-- The name of a handler has its location only from some version on. -/
abbrev WHandlerName (cv : Nat) := Bytes × (cvHandlerLocations ≤ cv → Location)

mutual

inductive WStmt (cv : Nat) where
  | funcDef (func : WFunction cv)
  | decorator (decorators : List (WExpr cv)) (line column : Int) (func : WFunction cv)
  | classDef (name : Bytes) (body : WBlock cv) (bases decorators : List (WExpr cv))
      (typeParams : Option (List (WTypeParam cv))) (keywords : List (Bytes × WExpr cv))
      (loc : Location)
  | expr (value : WExpr cv)
  | assign (targets : List (WExpr cv)) (value : WExpr cv) (type : Option (WType cv))
      (newSyntax : Bool) (loc : Location)
  | operatorAssignment (op : Bytes) (target value : WExpr cv) (loc : Location)
  | import (names : List WAlias) (loc : Location) (flags : cvImportFlags ≤ cv → Int)
  | importAll (module : Bytes) (level : Int) (loc : Location) (flags : cvImportFlags ≤ cv → Int)
  | importFrom (level : Int) (module : Bytes) (names : List WAlias) (loc : Location)
      (flags : cvImportFlags ≤ cv → Int)
  | return (value : Option (WExpr cv)) (loc : Location)
  | raise (exc cause : Option (WExpr cv)) (loc : Location)
  | assert (test : WExpr cv) (msg : Option (WExpr cv)) (loc : Location)
  | if (test : WExpr cv) (body : WBlock cv) (elifs : List (WElif cv)) (orelse : Option (WBlock cv))
      (loc : Location)
  | while (test : WExpr cv) (body : WBlock cv) (orelse : WElse cv) (loc : Location)
  | for (target iter : WExpr cv) (body : WBlock cv) (orelse : WElse cv) (isAsync : Bool)
      (loc : Location)
  | with (items : List (WExpr cv × Option (WExpr cv))) (body : WBlock cv) (isAsync : Bool)
      (loc : Location)
  | pass (loc : Location)
  | break (loc : Location)
  | continue (loc : Location)
  | try (body : WBlock cv) (handlers : List (WHandler cv)) (orelse finalbody : Option (WBlock cv))
      (isStar : Bool) (loc : Location)
  | del (target : WExpr cv) (loc : Location)
  | global (names : List Bytes) (loc : Location)
  | nonlocal (names : List Bytes) (loc : Location)
  | match (subject : WExpr cv) (cases : List (WCase cv)) (loc : Location)
  | typeAlias (name : WExpr cv) (typeParams : List (WTypeParam cv)) (value : WExpr cv)
      (loc : Location)

/-- A block in a position where the reader expects a location after a zero length. -/
inductive WBlock (cv : Nat) where
  | empty (unreachable : Bool) (loc : Location)
  | stmts (unreachable : Bool) (first : WStmt cv) (rest : List (WStmt cv))

/-- The `else` block of a loop, which has no location when it is empty. -/
inductive WElse (cv : Nat) where
  | mk (unreachable : Bool) (stmts : List (WStmt cv))

inductive WFunction (cv : Nat) where
  | mk (name : Bytes) (parameters : List (WParameter cv)) (body : WBlock cv) (isAsync : Bool)
      (typeParams : Option (List (WTypeParam cv))) (returns : Option (WType cv))
      (typeComment : cvFuncTypeCommentFlag ≤ cv → Bool) (loc : Location)

inductive WElif (cv : Nat) where
  | mk (test : WExpr cv) (body : WBlock cv)

inductive WHandler (cv : Nat) where
  | mk (type : Option (WExpr cv)) (name : Option (WHandlerName cv)) (body : WBlock cv)

inductive WCase (cv : Nat) where
  | mk (pattern : WPattern cv) (guard : Option (WExpr cv)) (body : WBlock cv)

end

variable {cv : Nat}

def encTypeParams : List (WTypeParam cv) → Bytes
  | [] => []
  | .mk kind name bound values default :: params =>
    [encTaggedInt kind, encBytes name, encOption encType bound, encListed values.length
      (encTypes values), encOption encType default].flatten ++ encTypeParams params

/-- Type parameters in a definition; their number has no tag. -/
def encOptTypeParams : Option (List (WTypeParam cv)) → Bytes
  | none => encBool false
  | some params => [encBool true, [encCount params.length, encTypeParams params].flatten].flatten

def encAliases : List WAlias → Bytes
  | [] => []
  | (name, asname) :: names => [encBytes name, encOption encBytes asname].flatten ++ encAliases names

def encGlobals : List Bytes → Bytes
  | [] => []
  | name :: names => encBytes name ++ encGlobals names

def encItems : List (WExpr cv × Option (WExpr cv)) → Bytes
  | [] => []
  | (context, vars) :: items => [encExpr context, encOptExpr vars].flatten ++ encItems items

def encClassKeywords : List (Bytes × WExpr cv) → Bytes
  | [] => []
  | (arg, value) :: keywords => [encBytes arg, encExpr value].flatten ++ encClassKeywords keywords

def encHandlerName : Option (WHandlerName cv) → Bytes
  | none => encBool false
  | some (name, loc) => [encBool true, [encBytes name, encGated encLocation loc].flatten].flatten

def encHandlerTypes : List (WHandler cv) → Bytes
  | [] => []
  | .mk type _ _ :: handlers => encOptExpr type ++ encHandlerTypes handlers

def encHandlerNames : List (WHandler cv) → Bytes
  | [] => []
  | .mk _ name _ :: handlers => encHandlerName name ++ encHandlerNames handlers

mutual

def encStmt : WStmt cv → Bytes
  | .funcDef func => [encTag .funcDef, encFunction func].flatten
  | .decorator decorators line column func =>
    [encTag .decorator, encListed decorators.length (encExprs decorators), encTaggedInt line,
      encTaggedInt column, encTag .funcDef, encFunction func, encTag .end].flatten
  | .classDef name body bases decorators typeParams keywords loc =>
    [encTag .classDef, encBytes name, encBlock body, encListed bases.length (encExprs bases),
      encListed decorators.length (encExprs decorators), encOptTypeParams typeParams,
      encTag .dictStrGen, encCount keywords.length, encClassKeywords keywords, encLocation loc,
      encTag .end].flatten
  | .expr value => [encTag .exprStmt, encExpr value, encTag .end].flatten
  | .assign targets value type newSyntax loc =>
    [encTag .assign, encListed targets.length (encExprs targets), encExpr value,
      encOption encType type, encBool newSyntax, encLocation loc, encTag .end].flatten
  | .operatorAssignment op target value loc =>
    [encTag .operatorAssignmentStmt, encBytes op, encExpr target, encExpr value, encLocation loc,
      encTag .end].flatten
  | .import names loc flags =>
    [encTag .import, encTaggedCount names.length, encAliases names, encLocation loc,
      encGated encTaggedInt flags, encTag .end].flatten
  | .importAll module level loc flags =>
    [encTag .importAll, encBytes module, encTaggedInt level, encLocation loc,
      encGated encTaggedInt flags, encTag .end].flatten
  | .importFrom level module names loc flags =>
    [encTag .importFrom, encTaggedInt level, encBytes module, encTaggedCount names.length,
      encAliases names, encLocation loc, encGated encTaggedInt flags, encTag .end].flatten
  | .return value loc => [encTag .return, encOptExpr value, encLocation loc, encTag .end].flatten
  | .raise exc cause loc =>
    [encTag .raiseStmt, encOptExpr exc, encOptExpr cause, encLocation loc, encTag .end].flatten
  | .assert test msg loc =>
    [encTag .assertStmt, encExpr test, encOptExpr msg, encLocation loc, encTag .end].flatten
  | .if test body elifs orelse loc =>
    [encTag .if, encExpr test, encBlock body, encTaggedCount elifs.length, encElifs elifs,
      encOptBlock orelse, encLocation loc, encTag .end].flatten
  | .while test body orelse loc =>
    [encTag .while, encExpr test, encBlock body, encElse orelse, encLocation loc,
      encTag .end].flatten
  | .for target iter body orelse isAsync loc =>
    [encTag .forStmt, encExpr target, encExpr iter, encBlock body, encElse orelse,
      encBool isAsync, encLocation loc, encTag .end].flatten
  | .with items body isAsync loc =>
    [encTag .withStmt, encTaggedCount items.length, encItems items, encBlock body,
      encBool isAsync, encLocation loc, encTag .end].flatten
  | .pass loc => [encTag .passStmt, encLocation loc, encTag .end].flatten
  | .break loc => [encTag .breakStmt, encLocation loc, encTag .end].flatten
  | .continue loc => [encTag .continueStmt, encLocation loc, encTag .end].flatten
  | .try body handlers orelse finalbody isStar loc =>
    [encTag .tryStmt, encBlock body, encTaggedCount handlers.length, encHandlerTypes handlers,
      encHandlerNames handlers, encHandlerBodies handlers, encOptBlock orelse,
      encOptBlock finalbody, encBool isStar, encLocation loc, encTag .end].flatten
  | .del target loc => [encTag .delStmt, encExpr target, encLocation loc, encTag .end].flatten
  | .global names loc =>
    [encTag .globalDecl, encTaggedCount names.length, encGlobals names, encLocation loc,
      encTag .end].flatten
  | .nonlocal names loc =>
    [encTag .nonlocalDecl, encTaggedCount names.length, encGlobals names, encLocation loc,
      encTag .end].flatten
  | .match subject cases loc =>
    [encTag .matchStmt, encExpr subject, encTaggedCount cases.length, encCases cases,
      encLocation loc, encTag .end].flatten
  | .typeAlias name typeParams value loc =>
    [encTag .typeAliasStmt, encExpr name, encCount typeParams.length, encTypeParams typeParams,
      encExpr value, encLocation loc, encTag .end].flatten

def encStmts : List (WStmt cv) → Bytes
  | [] => []
  | stmt :: stmts => encStmt stmt ++ encStmts stmts

def encBlock : WBlock cv → Bytes
  | .empty unreachable loc =>
    [encTag .block, encTag .listGen, encCount 0, encBool unreachable, encLocation loc,
      encTag .end].flatten
  | .stmts unreachable first rest =>
    [encTag .block, encTag .listGen, encCount (rest.length + 1), encBool unreachable,
      encStmt first, encStmts rest, encTag .end].flatten

def encElse : WElse cv → Bytes
  | .mk unreachable stmts =>
    [encTag .block, encTag .listGen, encCount stmts.length, encBool unreachable, encStmts stmts,
      encTag .end].flatten

def encOptBlock : Option (WBlock cv) → Bytes
  | none => encBool false
  | some block => [encBool true, encBlock block].flatten

/-- What follows the tag of a function, up to and including its own end tag. -/
def encFunction : WFunction cv → Bytes
  | .mk name parameters body isAsync typeParams returns typeComment loc =>
    [encBytes name, encListed parameters.length (encParameters parameters), encBlock body,
      encBool isAsync, encOptTypeParams typeParams, encOption encType returns,
      encGated encBool typeComment, encLocation loc, encTag .end].flatten

def encElifs : List (WElif cv) → Bytes
  | [] => []
  | .mk test body :: elifs => [encExpr test, encBlock body].flatten ++ encElifs elifs

def encHandlerBodies : List (WHandler cv) → Bytes
  | [] => []
  | .mk _ _ body :: handlers => encBlock body ++ encHandlerBodies handlers

def encCases : List (WCase cv) → Bytes
  | [] => []
  | .mk pattern guard body :: cases =>
    [encPattern pattern, encOptExpr guard, encBlock body].flatten ++ encCases cases

end

/-- A module: the number of its statements, then the statements. -/
def encModule (stmts : List (WStmt cv)) : Bytes :=
  [encTaggedCount stmts.length, encStmts stmts].flatten

end AstSerialize
