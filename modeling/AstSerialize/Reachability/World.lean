import AstSerialize.Reachability.Infer

/-! What conditions mean. Evaluation follows the language for `not`, `and`,
`or`, comparison, membership, subscripts and `startswith`; a world supplies the
names, the attributes and every other expression. -/
namespace AstSerialize

inductive PyValue where
  | int (n : Int)
  | str (s : String)
  | bool (b : Bool)
  | tuple (elts : List PyValue)
  | list (elts : List PyValue)
  | set (elts : List PyValue)
  | other (truth : Bool)

def PyValue.truthy : PyValue → Bool
  | .int n => n ≠ 0
  | .str s => s ≠ ""
  | .bool b => b
  | .tuple elts | .list elts | .set elts => !elts.isEmpty
  | .other truth => truth

mutual

/-- The order of integers, of strings and, lexicographically, of tuples. -/
def PyValue.order : PyValue → PyValue → Option Ordering
  | .int m, .int n => some (compare m n)
  | .str s, .str t => some (compare s t)
  | .tuple xs, .tuple ys => PyValue.orders xs ys
  | _, _ => none

def PyValue.orders : List PyValue → List PyValue → Option Ordering
  | [], [] => some .eq
  | [], _ :: _ => some .lt
  | _ :: _, [] => some .gt
  | x :: xs, y :: ys =>
    match PyValue.order x y with
    | some .eq => PyValue.orders xs ys
    | result => result

end

def PyValue.memberOf (value : PyValue) : List PyValue → Option Bool
  | [] => some false
  | elt :: elts => do
    let order ← PyValue.order value elt
    let rest ← value.memberOf elts
    some (order = .eq || rest)

def PyValue.elements : PyValue → Option (List PyValue)
  | .tuple elts | .list elts | .set elts => some elts
  | _ => none

def holdsOf (op : CmpOp) (order : Ordering) : Bool :=
  match op with
  | .eq => order = .eq
  | .notEq => order ≠ .eq
  | .lt => order = .lt
  | .ltE => order ≠ .gt
  | .gt => order = .gt
  | .gtE => order ≠ .lt
  | _ => false

/-- The outcome of a comparison, where the values have one. -/
def comparison (op : CmpOp) (left right : PyValue) : Option Bool :=
  match op with
  | .in => right.elements.bind left.memberOf
  | .notIn => (right.elements.bind left.memberOf).map (!·)
  | .is | .isNot => none
  | op => (left.order right).map (holdsOf op)

structure World where
  name : String → PyValue
  /-- The value of an attribute access. -/
  attr : Expr → String → PyValue
  /-- The value of every expression that is not interpreted. -/
  other : Expr → PyValue

/-- The element or the slice of a tuple that a subscript selects. -/
def select (elts : List PyValue) : Expr → Option PyValue
  | .numberLiteral (.int (.small i)) _ => elts[i.toNat]?
  | .slice lower upper step _ => do
    let stride ← sliceBound step
    if stride = none ∨ stride = some 1 then
      let lower ← sliceBound lower
      let upper ← sliceBound upper
      let lo := (lower.getD 0).toNat
      let hi := (upper.getD elts.length).toNat
      some (.tuple ((elts.take hi).drop lo))
    else none
  | _ => none

namespace World

mutual

/-- The value of a condition, `none` where evaluation raises. -/
def eval (w : World) : Expr → Option PyValue
  | .unaryOp .not operand _ => (w.eval operand).map fun value => .bool !value.truthy
  | .boolOp op values _ => w.evalBool op values
  | .booleanLiteral value _ => some (.bool value)
  | .numberLiteral (.int (.small n)) _ => some (.int n.toNat)
  | .stringLiteral parts _ => some (.str (concatText parts))
  | .name id _ => some (w.name id)
  | .attribute value attr _ => some (w.attr value attr.id)
  | .tuple elts _ _ => (w.evalAll elts).map .tuple
  | .list elts _ _ => (w.evalAll elts).map .list
  | .set elts _ => (w.evalAll elts).map .set
  | .compare left [op] (right :: comparators) range => do
    let leftValue ← w.eval left
    let rightValue ← w.eval right
    match comparison op leftValue rightValue with
    | some result => some (.bool result)
    | none => some (w.other (.compare left [op] (right :: comparators) range))
  | .subscript value slice range => do
    let container ← w.eval value
    match container with
    | .tuple elts => some ((select elts slice).getD (w.other (.subscript value slice range)))
    | _ => some (w.other (.subscript value slice range))
  | .call func [arg] keywords range =>
    match func with
    | .attribute value attr attrRange => do
      let base ← w.eval value
      let start ← w.eval arg
      match base, start, decide (attr.id = "startswith") with
      | .str text, .str opening, true =>
        -- the method takes no keywords
        if keywords.isEmpty then some (.bool (startsWith text opening)) else none
      | _, _, _ => some (w.other (.call (.attribute value attr attrRange) [arg] keywords range))
    | func => some (w.other (.call func [arg] keywords range))
  | expr => some (w.other expr)

/-- The first operand that decides, or the last one. -/
def evalBool (w : World) (op : BoolOp) : List Expr → Option PyValue
  | [] => some (.bool (op = .and))
  | [value] => w.eval value
  | value :: next :: values => do
    let first ← w.eval value
    if first.truthy = decide (op = .or) then some first else w.evalBool op (next :: values)

def evalAll (w : World) : List Expr → Option (List PyValue)
  | [] => some []
  | elt :: elts => do
    let value ← w.eval elt
    let values ← w.evalAll elts
    some (value :: values)

end

variable (w : World)

theorem evalBool_cons (op : BoolOp) (value next : Expr) (values : List Expr) :
    w.evalBool op (value :: next :: values) = (w.eval value).bind fun first =>
      if first.truthy = decide (op = .or) then some first else w.evalBool op (next :: values) := rfl

theorem evalAll_cons (elt : Expr) (elts : List Expr) : w.evalAll (elt :: elts) =
    (w.eval elt).bind fun value => (w.evalAll elts).bind fun values => some (value :: values) := rfl

theorem eval_stringLiteral (parts : List StringLiteral) (range : TextRange) :
    w.eval (.stringLiteral parts range) = some (.str (concatText parts)) := rfl

theorem eval_compare_cons (left right : Expr) (op : CmpOp) (comparators : List Expr)
    (range : TextRange) : w.eval (.compare left [op] (right :: comparators) range) =
    (w.eval left).bind fun leftValue => (w.eval right).bind fun rightValue =>
      match comparison op leftValue rightValue with
      | some result => some (.bool result)
      | none => some (w.other (.compare left [op] (right :: comparators) range)) := rfl

theorem eval_subscript (value slice : Expr) (range : TextRange) :
    w.eval (.subscript value slice range) = (w.eval value).bind fun container =>
      match container with
      | .tuple elts => some ((select elts slice).getD (w.other (.subscript value slice range)))
      | _ => some (w.other (.subscript value slice range)) := rfl

end World

/-- What the options say of a name: special names come before the user's lists. -/
def nameTruth (o : Options) (name : String) : Option Bool :=
  if name ∈ ["MYPY", "TYPE_CHECKING", "PY3"] then some true
  else if name = "PY2" then some false
  else if name ∈ o.alwaysTrue then some true
  else if name ∈ o.alwaysFalse then some false
  else none

/-- A world as the options describe it, seen by the type checker. -/
structure Consistent (o : Options) (w : World) : Prop where
  names : ∀ name b, nameTruth o name = some b → (w.name name).truthy = b
  attributes : ∀ value name b, nameTruth o name = some b → (w.attr value name).truthy = b
  version : ∀ range, w.attr (.name "sys" range) "version_info"
    = .tuple [.int o.pythonVersion.1.toNat, .int o.pythonVersion.2.toNat]
  platform : ∀ range, w.attr (.name "sys" range) "platform" = .str o.platform

/-- The truth value does not contradict the value. -/
def Agrees (truth : TruthValue) (value : PyValue) : Prop :=
  (isAlwaysOrMypyTrue truth = true → value.truthy = true) ∧
  (isAlwaysOrMypyFalse truth = true → value.truthy = false)

/-- What the analysis says of an expression holds in the world. -/
def SoundAt (o : Options) (w : World) (e : Expr) : Prop :=
  ∀ value, w.eval e = some value → Agrees (inferConditionValue o e) value

end AstSerialize
