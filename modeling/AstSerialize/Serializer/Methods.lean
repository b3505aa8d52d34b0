import AstSerialize.Serializer.Signature
import AstSerialize.Serializer.Sites

/-! Which function definitions are treated as methods. -/
namespace AstSerialize
open Coding

namespace Frame

/-- Functions and classes open a scope, branches do not. -/
def isScope (frame : Frame) : Bool := frame.isFunction || frame.isClass

end Frame

namespace Position

/-- The nearest function or class around the position is a class. -/
def isMethod (p : Position) : Bool := ((p.find? (·.isScope)).map (·.isClass)).getD false

/-- The nearest function or class is a function, and somewhere around it there is a class. -/
def InFunctionOfClass (p : Position) : Prop :=
  ∃ inner omittable outer, p = inner ++ .function omittable :: outer ∧
    (∀ frame ∈ inner, frame.isScope = false) ∧ .classDef ∈ outer

theorem any_isClass_iff (p : Position) : p.any (·.isClass) = true ↔ .classDef ∈ p := by
  rw [List.any_eq_true]
  constructor
  · rintro ⟨frame, mem, isClass⟩
    cases frame with
    | classDef => exact mem
    | function | branch => cases isClass
  · intro mem
    exact ⟨.classDef, mem, rfl⟩

/-- The flag `in_class` and the nearest scope disagree only in functions inside of classes. -/
theorem inClass_eq_isMethod_iff (p : Position) :
    p.scope.inClass = p.isMethod ↔ ¬ p.InFunctionOfClass := by
  change p.any (·.isClass) = p.isMethod ↔ _
  induction p with
  | nil =>
    constructor
    · rintro - ⟨inner, omittable, outer, split, -⟩
      cases inner <;> cases split
    · intro _
      rfl
  | cons frame p ih =>
    cases frame with
    | classDef =>
      constructor
      · rintro - ⟨inner, omittable, outer, split, plain, -⟩
        cases inner with
        | nil => cases split
        | cons frame inner =>
          rw [List.cons_append, List.cons.injEq] at split
          have opens := plain frame List.mem_cons_self
          rw [← split.1] at opens
          cases opens
      · intro _
        rfl
    | function omittable =>
      have outside : isMethod (.function omittable :: p) = false := rfl
      have others : (Frame.function omittable :: p).any (·.isClass) = p.any (·.isClass) := rfl
      rw [outside, others, ← Bool.not_eq_true, any_isClass_iff, not_iff_not]
      constructor
      · intro mem
        exact ⟨[], omittable, p, rfl, by simp, mem⟩
      · rintro ⟨inner, omittable', outer, split, plain, mem⟩
        cases inner with
        | nil =>
          rw [List.nil_append, List.cons.injEq] at split
          rwa [split.2]
        | cons frame inner =>
          rw [List.cons_append, List.cons.injEq] at split
          have opens := plain frame List.mem_cons_self
          rw [← split.1] at opens
          cases opens
    | branch flags =>
      have same : isMethod (.branch flags :: p) = isMethod p := rfl
      have others : (Frame.branch flags :: p).any (·.isClass) = p.any (·.isClass) := rfl
      rw [same, others, ih, not_iff_not]
      constructor
      · rintro ⟨inner, omittable, outer, rfl, plain, mem⟩
        refine ⟨.branch flags :: inner, omittable, outer, rfl, ?_, mem⟩
        rw [List.forall_mem_cons]
        exact ⟨rfl, plain⟩
      · rintro ⟨inner, omittable, outer, split, plain, mem⟩
        cases inner with
        | nil => cases split
        | cons frame inner =>
          rw [List.cons_append, List.cons.injEq] at split
          rw [List.forall_mem_cons] at plain
          exact ⟨inner, omittable, outer, split.2, plain.2, mem⟩

end Position

section Functions

/-- A function definition, and what encloses it. -/
structure FunctionSite where
  position : Position
  head : FunctionHead
  body : List Stmt

def StmtSite.function (site : StmtSite) : Option FunctionSite :=
  match site.stmt with
  | .functionDef head body => some ⟨site.position, head, body⟩
  | _ => none

variable (c : Config) (skip : Bool)

/-- The function definitions of a module that are written. -/
def functionSites (stmts : List Stmt) : List FunctionSite :=
  (moduleStmtSites c skip stmts).filterMap (·.function)

/-- The flag `in_class` at the definition, with which both treatments are decided. -/
def FunctionSite.inClass (site : FunctionSite) : Bool := site.position.scope.inClass

/-- The tree of the definition, with both treatments of methods or with none. -/
def FunctionSite.node (method : Bool) (site : FunctionSite) : WStmt c.cacheVersion :=
  toWireFunctionDef c site.position.scope site.head
    (funcComment c { site.position.scope with inClass := method } site.head site.body) <|
    if omitsBody skip method site.head site.body then
      .empty site.position.scope.unreachable (c.location (bodyRange site.head site.body))
    else
      toWireBlock c site.position.scope site.head.range
        (toWireStmts c skip site.position.scope.enterFunction site.body)

def isFunctionNode {cv : Nat} : WStmt cv → Bool
  | .funcDef _ | .decorator _ _ _ _ => true
  | _ => false

/-- The function definitions of a tree, in the order of the stream. -/
def functionDefs {cv : Nat} (tree : List (WStmt cv)) : List (WStmt cv) :=
  (treesStmts tree).filter isFunctionNode

variable {c skip}

theorem function_tree {site : StmtSite} {func : FunctionSite} (found : site.function = some func) :
    site.tree c skip = func.node c skip func.inClass := by
  rcases site with ⟨position, stmt⟩
  unfold StmtSite.function at found
  split at found
  case h_1 head body same =>
    cases found
    cases same
    rw [StmtSite.tree, toWireStmt]
    rfl
  case h_2 => cases found

theorem isFunctionNode_tree (site : StmtSite) :
    isFunctionNode (site.tree c skip) = site.function.isSome := by
  rcases site with ⟨position, stmt⟩
  cases stmt with
  | functionDef head body =>
    simp only [StmtSite.tree, StmtSite.function, toWireStmt, toWireFunctionDef]
    cases head.decoratorList <;> rfl
  | importFrom module names level isLazy range =>
    simp only [StmtSite.tree, StmtSite.function, toWireStmt, toWireImportFrom]
    split <;> rfl
  | _ => rfl

theorem functionDefs_of_sites {sites : List StmtSite} {tree : List (WStmt c.cacheVersion)}
    (written : treesStmts tree = sites.map (·.tree c skip)) :
    functionDefs tree = (sites.filterMap (·.function)).map fun site =>
      site.node c skip site.inClass := by
  rw [functionDefs, written]
  clear written
  induction sites with
  | nil => rfl
  | cons site sites ih =>
    have isNode := @isFunctionNode_tree c skip site
    rw [List.map_cons, List.filter_cons, isNode, ih]
    cases found : site.function with
    | none => simp [found]
    | some func => simp [found, function_tree found]

/-- Both treatments are applied to the methods and to nothing else. -/
def TreatsMethods (sites : List FunctionSite) : Prop :=
  ∀ site ∈ sites, site.inClass = true ↔ site.position.isMethod = true

theorem treatsMethods_iff (sites : List FunctionSite) :
    TreatsMethods sites ↔ ∀ site ∈ sites, ¬ site.position.InFunctionOfClass := by
  apply forall₂_congr
  intro site _
  rw [← Position.inClass_eq_isMethod_iff]
  exact Bool.eq_iff_iff.symm

/-- Every definition in the bytes is written with the treatments that the flag `in_class` decides,
and these are the treatments of methods exactly for the methods, unless a definition stands in a
function inside a class. -/
theorem serializeModule_methods_iff (c : Config) (skip : Bool) (stmts : List Stmt) :
    match (serializeModule c skip stmts).run Serializer.initial with
    | some ((), s) =>
      ∃ tree : List (WStmt c.cacheVersion), (∀ r, decModule (s.bytes ++ r) = some (tree, r)) ∧
        functionDefs tree = (functionSites c skip stmts).map (fun site =>
          site.node c skip site.inClass) ∧
        (TreatsMethods (functionSites c skip stmts) ↔
          ∀ site ∈ functionSites c skip stmts, ¬ site.position.InFunctionOfClass)
    | none => supportsModule c skip false stmts = false := by
  apply serializeModule_sites c skip stmts
  intro s tree sites
  exact ⟨tree, sites.reads, functionDefs_of_sites sites.written, treatsMethods_iff _⟩

/-- A class with a method that has a function `def f(x, y): # type: (int) -> None`. -/
def commentedInner : Config :=
  .commented "class C:\n def m(self):\n  def f(x, y): # type: (int) -> None\n   return"
    [⟨.other, ⟨0, 5⟩⟩, ⟨.other, ⟨6, 7⟩⟩, ⟨.colon, ⟨7, 8⟩⟩, ⟨.other, ⟨8, 9⟩⟩, ⟨.other, ⟨9, 10⟩⟩,
      ⟨.other, ⟨10, 13⟩⟩, ⟨.other, ⟨14, 15⟩⟩, ⟨.other, ⟨15, 16⟩⟩, ⟨.other, ⟨16, 20⟩⟩,
      ⟨.other, ⟨20, 21⟩⟩, ⟨.colon, ⟨21, 22⟩⟩, ⟨.other, ⟨22, 23⟩⟩, ⟨.other, ⟨23, 25⟩⟩,
      ⟨.other, ⟨25, 28⟩⟩, ⟨.other, ⟨29, 30⟩⟩, ⟨.other, ⟨30, 31⟩⟩, ⟨.other, ⟨31, 32⟩⟩,
      ⟨.other, ⟨32, 33⟩⟩, ⟨.other, ⟨34, 35⟩⟩, ⟨.other, ⟨35, 36⟩⟩, ⟨.colon, ⟨36, 37⟩⟩,
      ⟨.comment, ⟨38, 59⟩⟩, ⟨.other, ⟨59, 60⟩⟩, ⟨.other, ⟨60, 63⟩⟩]
    3 (.function [.name "int" ⟨47, 50⟩] (.noneLiteral ⟨55, 59⟩))

def innerFunction : FunctionSite where
  position := [.function true, .classDef]
  head := ⟨false, [], ⟨"f", ⟨29, 30⟩⟩, none,
    .mk [] [.mk (.mk ⟨"x", ⟨31, 32⟩⟩ none ⟨31, 32⟩) none ⟨31, 32⟩,
      .mk (.mk ⟨"y", ⟨34, 35⟩⟩ none ⟨34, 35⟩) none ⟨34, 35⟩] none [] none, none, ⟨25, 69⟩⟩
  body := [.return none ⟨63, 69⟩]

def innerModule : List Stmt :=
  [.classDef ⟨[], ⟨"C", ⟨6, 7⟩⟩, none, none, ⟨0, 69⟩⟩
    [.functionDef ⟨false, [], ⟨"m", ⟨14, 15⟩⟩, none,
        .mk [] [.mk (.mk ⟨"self", ⟨16, 20⟩⟩ none ⟨16, 20⟩) none ⟨16, 20⟩] none [] none, none,
        ⟨10, 69⟩⟩
      [.functionDef innerFunction.head innerFunction.body]]]

/-- The comment of a function inside of a method may leave out its first parameter. -/
theorem inner_function_treated_as_method :
    innerFunction ∈ functionSites commentedInner false innerModule ∧
    innerFunction.position.isMethod = false ∧
    findFuncTypeComment commentedInner innerFunction.inClass innerFunction.head.parameters
        innerFunction.body
      = some ⟨[none, some (.name "int" ⟨47, 50⟩)], some (.noneLiteral ⟨55, 59⟩), []⟩ ∧
    ¬ TreatsMethods (functionSites commentedInner false innerModule) := by
  have mem : innerFunction ∈ functionSites commentedInner false innerModule :=
    List.mem_cons_of_mem _ List.mem_cons_self
  refine ⟨mem, rfl, rfl, ?_⟩
  intro treats
  have method := (treats innerFunction mem).mp rfl
  cases method

end Functions

end AstSerialize
