import AstSerialize.Ast
import AstSerialize.Options

/-! Condition inference: the truth value that the analysis gives to an
expression, from its syntax and the options alone. -/
namespace AstSerialize

inductive TruthValue where
  | alwaysTrue
  | mypyTrue
  | alwaysFalse
  | mypyFalse
  | unknown
  deriving DecidableEq, Repr

/-- Forms of access to `sys.version_info`. -/
inductive SysVersionInfo where
  | whole
  | index (i : Int)
  | slice (lower upper : Option Int)
  deriving DecidableEq, Repr

inductive IntOrTuple where
  | int (value : Int)
  | tuple (values : List Int)
  deriving DecidableEq, Repr

def TruthValue.invert : TruthValue → TruthValue
  | .alwaysTrue => .alwaysFalse
  | .alwaysFalse => .alwaysTrue
  | .mypyTrue => .mypyFalse
  | .mypyFalse => .mypyTrue
  | .unknown => .unknown

def isAlwaysOrMypyFalse (truth : TruthValue) : Bool :=
  truth = .alwaysFalse || truth = .mypyFalse

def isAlwaysOrMypyTrue (truth : TruthValue) : Bool :=
  truth = .alwaysTrue || truth = .mypyTrue

def reverseCmpOp : CmpOp → CmpOp
  | .lt => .gt
  | .ltE => .gtE
  | .gt => .lt
  | .gtE => .ltE
  | op => op

def ofBool (result : Bool) : TruthValue := if result then .alwaysTrue else .alwaysFalse

def fixedComparison {α : Type} [DecidableEq α] [LT α] [DecidableLT α] (left : α) (op : CmpOp)
    (right : α) : TruthValue :=
  match op with
  | .eq => ofBool (left = right)
  | .notEq => ofBool (left ≠ right)
  | .lt => ofBool (left < right)
  | .ltE => ofBool (left < right ∨ left = right)
  | .gt => ofBool (right < left)
  | .gtE => ofBool (right < left ∨ left = right)
  | _ => .unknown

/-- `as i32` of a `u32`. -/
def castI32 (value : UInt32) : Int := Int.bmod value.toNat (2 ^ 32)

def exprToInt : Expr → Option Int
  | .numberLiteral (.int value) _ => value.asI32
  | _ => none

def exprsToInts : List Expr → Option (List Int)
  | [] => some []
  | item :: items => do
    let value ← exprToInt item
    let values ← exprsToInts items
    some (value :: values)

def containsIntOrTupleOfInts : Expr → Option IntOrTuple
  | .numberLiteral (.int value) _ => value.asI32.map .int
  | .tuple elts _ _ => (exprsToInts elts).map .tuple
  | _ => none

def stringItemsContain (value : String) : List Expr → Option Bool
  | [] => some false
  | .stringLiteral parts _ :: items =>
    (stringItemsContain value items).map fun contains => concatText parts = value || contains
  | _ :: _ => none

def stringLiteralContainerContains (value : String) : Expr → Option Bool
  | .tuple elts _ _ | .list elts _ _ | .set elts _ => stringItemsContain value elts
  | _ => none

def isSysAttr (name : String) : Expr → Bool
  | .attribute (.name base _) attr _ => attr.id = name && base = "sys"
  | _ => false

/-- The bound of a slice: absent, or an integer literal. -/
def sliceBound : Option Expr → Option (Option Int)
  | none => some none
  | some bound => (exprToInt bound).map some

def containsSysVersionInfo : Expr → Option SysVersionInfo
  | .subscript value slice _ =>
    if isSysAttr "version_info" value then
      match slice with
      | .numberLiteral number range => (exprToInt (.numberLiteral number range)).map .index
      | .slice lower upper step _ => do
        let stride ← sliceBound step
        if stride = none ∨ stride = some 1 then
          let lower ← sliceBound lower
          let upper ← sliceBound upper
          some (.slice lower upper)
        else none
      | _ => none
    else none
  | expr => if isSysAttr "version_info" expr then some .whole else none

def checkNameTruthValue (o : Options) (name : String) : TruthValue :=
  if name = "MYPY" ∨ name = "TYPE_CHECKING" then .mypyTrue
  else if name = "PY2" then .alwaysFalse
  else if name = "PY3" then .alwaysTrue
  else if name ∈ o.alwaysTrue then .alwaysTrue
  else if name ∈ o.alwaysFalse then .alwaysFalse
  else .unknown

def combineBoolOp (op : BoolOp) (values : List TruthValue) : TruthValue :=
  let hasAlwaysTrue := TruthValue.alwaysTrue ∈ values
  let hasMypyTrue := TruthValue.mypyTrue ∈ values
  let hasAlwaysFalse := TruthValue.alwaysFalse ∈ values
  let hasMypyFalse := TruthValue.mypyFalse ∈ values
  let hasUnknown := TruthValue.unknown ∈ values
  match op with
  | .or =>
    if hasAlwaysTrue then .alwaysTrue
    else if hasMypyTrue then .mypyTrue
    else if ¬ hasAlwaysFalse ∧ ¬ hasUnknown ∧ hasMypyFalse then .mypyFalse
    else if ¬ hasUnknown ∧ ¬ hasAlwaysTrue ∧ ¬ hasMypyTrue then .alwaysFalse
    else .unknown
  | .and =>
    if hasAlwaysFalse then .alwaysFalse
    else if hasMypyFalse then .mypyFalse
    else if ¬ hasMypyTrue ∧ ¬ hasUnknown ∧ hasAlwaysTrue then .alwaysTrue
    else if ¬ hasUnknown ∧ ¬ hasAlwaysFalse ∧ ¬ hasMypyFalse then .mypyTrue
    else .unknown

def isStandardComparison : CmpOp → Bool
  | .eq | .notEq | .lt | .ltE | .gt | .gtE => true
  | _ => false

/-- The part of the version that a slice selects, `none` where the slice is not supported. -/
def versionSlice (o : Options) (lo hi : Int) : Option (List Int) :=
  if lo < 0 ∨ hi > 2 ∨ lo ≥ hi then none
  else if lo = 0 ∧ hi = 1 then some [castI32 o.pythonVersion.1]
  else if lo = 0 ∧ hi = 2 then some [castI32 o.pythonVersion.1, castI32 o.pythonVersion.2]
  else if lo = 1 ∧ hi = 2 then some [castI32 o.pythonVersion.2]
  else none

def compareVersionSlice (o : Options) (lo hi : Int) (op : CmpOp) (target : List Int) : TruthValue :=
  match versionSlice o lo hi with
  | none => .unknown
  | some version =>
    if version.length = target.length
        ∨ (version.length > target.length ∧ op ≠ .eq ∧ op ≠ .notEq) then
      fixedComparison version op target
    else .unknown

def compareVersion (o : Options) : SysVersionInfo → CmpOp → IntOrTuple → TruthValue
  | .index i, op, .int value =>
    if 0 ≤ i ∧ i ≤ 1 then
      fixedComparison (castI32 (if i = 0 then o.pythonVersion.1 else o.pythonVersion.2)) op value
    else .unknown
  | .slice lower upper, op, .tuple target =>
    compareVersionSlice o (lower.getD 0) (upper.getD 2) op target
  | .whole, op, .tuple target => compareVersionSlice o 0 2 op target
  | _, _, _ => .unknown

/-- The parser gives a comparison as many operators as comparators, and at least one. -/
def considerSysVersionInfo (o : Options) : Expr → TruthValue
  | .compare left [op] (right :: _) _ =>
    if isStandardComparison op then
      match containsSysVersionInfo left, containsIntOrTupleOfInts right with
      | some index, some thing => compareVersion o index op thing
      | _, _ =>
        match containsSysVersionInfo right, containsIntOrTupleOfInts left with
        | some index, some thing => compareVersion o index (reverseCmpOp op) thing
        | _, _ => .unknown
    else .unknown
  | _ => .unknown

/-- `str::starts_with`. -/
def startsWith (text start : String) : Bool := start.toList.isPrefixOf text.toList

def considerSysPlatform (o : Options) : Expr → TruthValue
  | .compare left [op] (right :: _) _ =>
    if isSysAttr "platform" left then
      if op = .eq ∨ op = .notEq then
        match right with
        | .stringLiteral parts _ => fixedComparison o.platform op (concatText parts)
        | _ => .unknown
      else if op = .in ∨ op = .notIn then
        match stringLiteralContainerContains o.platform right with
        | some result => ofBool (if op = .notIn then !result else result)
        | none => .unknown
      else .unknown
    else .unknown
  | .call (.attribute value attr _) [.stringLiteral parts _] _ _ =>
    if isSysAttr "platform" value && attr.id = "startswith" then
      ofBool (startsWith o.platform (concatText parts))
    else .unknown
  | _ => .unknown

mutual

def inferConditionValue (o : Options) : Expr → TruthValue
  | .unaryOp .not operand _ => (inferConditionValue o operand).invert
  | .booleanLiteral true _ => if "True" ∈ o.alwaysTrue then .alwaysTrue else .unknown
  | .booleanLiteral false _ => if "False" ∈ o.alwaysFalse then .alwaysFalse else .unknown
  | .name id _ => checkNameTruthValue o id
  | .attribute _ attr _ => checkNameTruthValue o attr.id
  | .boolOp op values _ => combineBoolOp op (inferConditionValues o values)
  | expr =>
    let result := considerSysVersionInfo o expr
    if result ≠ .unknown then result else considerSysPlatform o expr

def inferConditionValues (o : Options) : List Expr → List TruthValue
  | [] => []
  | value :: values => inferConditionValue o value :: inferConditionValues o values

end

def assertWillAlwaysFail (o : Options) : Stmt → Bool
  | .assert test _ _ =>
    let truth := inferConditionValue o test
    truth = .alwaysFalse || truth = .mypyFalse
  | _ => false

mutual

def inferPatternValue : Pattern → TruthValue
  | .matchAs none _ _ => .alwaysTrue
  | .matchOr patterns _ => if anyAlwaysTrue patterns then .alwaysTrue else .unknown
  | _ => .unknown

def anyAlwaysTrue : List Pattern → Bool
  | [] => false
  | pattern :: patterns => inferPatternValue pattern = .alwaysTrue || anyAlwaysTrue patterns

end

end AstSerialize
