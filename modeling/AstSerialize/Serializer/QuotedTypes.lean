import AstSerialize.Serializer.TypeFlags
import AstSerialize.Serializer.File

/-! Quoted annotations: what a string in type position is serialized as, beside
the expression that is parsed out of it. -/
namespace AstSerialize
open Coding

section Erasure

variable {cv : Nat}

def Location.erased : Location := ⟨0, 0, 0, 0⟩

mutual

/-- A type without locations, original strings and flags of unions. -/
def WType.erase : WType cv → WType cv
  | .unbound name args emptyTupleIndex _ _ _ =>
    .unbound name (eraseTypes args) emptyTupleIndex none none .erased
  | .union left right _ _ _ _ => .union left.erase right.erase none none false .erased
  | .list items _ => .list (eraseTypes items) .erased
  | .tuple items _ => .tuple (eraseTypes items) .erased
  | .typedDict keys values _ => .typedDict keys (eraseTypes values) .erased
  | .call callee args keywords _ =>
    .call callee.erase (eraseTypes args) (eraseKeywords keywords) .erased
  | .ellipsis _ => .ellipsis .erased
  | .unpack value _ => .unpack value.erase .erased
  | .raw base value _ => .raw base value .erased

def eraseTypes : List (WType cv) → List (WType cv)
  | [] => []
  | t :: ts => t.erase :: eraseTypes ts

def eraseKeywords : List (Option Bytes × WType cv) → List (Option Bytes × WType cv)
  | [] => []
  | (name, value) :: keywords => (name, value.erase) :: eraseKeywords keywords

end

mutual

/-- The locations of a type, at every depth. -/
def WType.locations : WType cv → List Location
  | .unbound _ args _ _ _ loc => loc :: locationsOf args
  | .union left right _ _ _ loc => loc :: (left.locations ++ right.locations)
  | .list items loc | .tuple items loc | .typedDict _ items loc => loc :: locationsOf items
  | .call callee args keywords loc =>
    loc :: (callee.locations ++ locationsOf args ++ locationsOfKeywords keywords)
  | .unpack value loc => loc :: value.locations
  | .ellipsis loc | .raw _ _ loc => [loc]

def locationsOf : List (WType cv) → List Location
  | [] => []
  | t :: ts => t.locations ++ locationsOf ts

def locationsOfKeywords : List (Option Bytes × WType cv) → List Location
  | [] => []
  | (_, value) :: keywords => value.locations ++ locationsOfKeywords keywords

end

end Erasure

section Relocation

variable (range : TextRange)

theorem getQualifiedTypeName_relocate : ∀ e : Expr,
    getQualifiedTypeName (e.relocate range) = getQualifiedTypeName e
  | .attribute value attr _ => by
    simp only [Expr.relocate, getQualifiedTypeName, getQualifiedTypeName_relocate value]
  | .name .. | .subscript .. | .noneLiteral .. | .booleanLiteral .. | .numberLiteral ..
  | .binOp .. | .list .. | .tuple .. | .dict .. | .call .. | .ellipsisLiteral .. | .starred ..
  | .unaryOp .. | .stringLiteral .. | .bytesLiteral .. | .boolOp .. | .named .. | .lambda ..
  | .ifExp .. | .set .. | .listComp .. | .setComp .. | .dictComp .. | .generator .. | .await ..
  | .yield .. | .yieldFrom .. | .compare .. | .fString .. | .tString .. | .slice ..
  | .ipyEscapeCommand .. => rfl

theorem extractIntLiteralValue_relocate : ∀ e : Expr,
    extractIntLiteralValue (e.relocate range) = extractIntLiteralValue e
  | .unaryOp op operand _ => by
    cases op with
    | uSub => simp only [Expr.relocate, extractIntLiteralValue, extractIntLiteralValue_relocate operand]
    | _ => rfl
  | .numberLiteral value _ => by cases value <;> rfl
  | .name .. | .attribute .. | .subscript .. | .noneLiteral .. | .booleanLiteral .. | .binOp ..
  | .list .. | .tuple .. | .dict .. | .call .. | .ellipsisLiteral .. | .starred ..
  | .stringLiteral .. | .bytesLiteral .. | .boolOp .. | .named .. | .lambda .. | .ifExp ..
  | .set .. | .listComp .. | .setComp .. | .dictComp .. | .generator .. | .await .. | .yield ..
  | .yieldFrom .. | .compare .. | .fString .. | .tString .. | .slice .. | .ipyEscapeCommand .. =>
    rfl

theorem relocateExprs_isEmpty (es : List Expr) : (relocateExprs range es).isEmpty = es.isEmpty := by
  cases es <;> rfl

theorem callNote_relocate (func : Expr) (keywords : List Keyword) :
    callNote (func.relocate range) (relocateKeywords range keywords) = callNote func keywords := by
  have empty : (relocateKeywords range keywords).isEmpty = keywords.isEmpty := by
    cases keywords with
    | nil => rfl
    | cons keyword keywords => cases keyword; rfl
  simp only [callNote, getQualifiedTypeName_relocate, empty]

theorem isStringOrNone_relocate (key : Option Expr) :
    isStringOrNone (relocateOption range key) = isStringOrNone key := by
  cases key with
  | none => rfl
  | some e => cases e <;> rfl

theorem isTypedDict_relocate (items : List DictItem) :
    isTypedDict (relocateItems range items) = isTypedDict items := by
  have all : (relocateItems range items).all (fun item => isStringOrNone item.key)
      = items.all fun item => isStringOrNone item.key := by
    induction items with
    | nil => rfl
    | cons item items ih =>
      cases item with
      | mk key value =>
        simp only [relocateItems, List.all_cons, ih]
        exact congrArg (· && _) (isStringOrNone_relocate range key)
  have empty : (relocateItems range items).isEmpty = items.isEmpty := by
    cases items with
    | nil => rfl
    | cons item items => cases item; rfl
  simp only [isTypedDict, all, empty]

theorem toWireKeys_relocate (items : List DictItem) :
    toWireKeys (relocateItems range items) = toWireKeys items := by
  induction items with
  | nil => rfl
  | cons item items ih =>
    cases item with
    | mk key value =>
      cases key with
      | none => simp [relocateItems, relocateOption, toWireKeys, ih]
      | some e => cases e <;> simp [relocateItems, relocateOption, Expr.relocate, toWireKeys, ih]

end Relocation

section Erased

variable {c : Config} {str str' : String → TextRange → WType c.cacheVersion}
  {isEvaluated isEvaluated' : Bool} (range : TextRange)

/-- The strings have the same trees up to what is erased, wherever they stand. -/
def SameStrings (str str' : String → TextRange → WType c.cacheVersion) (values : List String) :
    Prop :=
  ∀ value ∈ values, ∀ range range', (str value range).erase = (str' value range').erase

theorem SameStrings.left {values others : List String}
    (h : SameStrings str str' (values ++ others)) : SameStrings str str' values :=
  fun value mem => h value (List.mem_append_left _ mem)

theorem SameStrings.right {values others : List String}
    (h : SameStrings str str' (values ++ others)) : SameStrings str str' others :=
  fun value mem => h value (List.mem_append_right _ mem)

theorem erase_invalid (note : Option Bytes) (range range' : TextRange) :
    (toWireInvalid c note none none range).erase = (toWireInvalid c note none none range').erase :=
  rfl

theorem erase_int (value : Option Int64) (range range' : TextRange) :
    (toWireInt c value range).erase = (toWireInt c value range').erase := by
  cases value <;> rfl

theorem erase_unbound {name : Bytes} {items items' : List (WType c.cacheVersion) × Bool}
    {expr fallback expr' fallback' : Option String} {range range' : TextRange}
    (same : eraseTypes items.1 = eraseTypes items'.1 ∧ items.2 = items'.2) :
    (toWireUnbound c name items.1 items.2 expr fallback range).erase
      = (toWireUnbound c name items'.1 items'.2 expr' fallback' range').erase := by
  simp only [toWireUnbound, WType.erase, same.1, same.2]

theorem erase_subscript {value value' : Expr} {items items' : List (WType c.cacheVersion) × Bool}
    {range range' : TextRange} (name : getQualifiedTypeName value = getQualifiedTypeName value')
    (same : eraseTypes items.1 = eraseTypes items'.1 ∧ items.2 = items'.2) :
    (toWireSubscript c value items none none range).erase
      = (toWireSubscript c value' items' none none range').erase := by
  unfold toWireSubscript
  rw [name]
  cases getQualifiedTypeName value' with
  | none => rfl
  | some name => exact erase_unbound same

mutual

/-- Moving a type changes nothing but what is erased. -/
theorem erase_typeWith : ∀ e : Expr, SameStrings str str' (typeStrings e) →
    (toWireTypeWith c str isEvaluated (e.relocate range)).erase
      = (toWireTypeWith c str' isEvaluated' e).erase
  | .name .., _ | .noneLiteral .., _ | .booleanLiteral .., _ | .ellipsisLiteral .., _
  | .bytesLiteral .., _ => rfl
  | .attribute value attr own, _ =>
    erase_subscript (getQualifiedTypeName_relocate range (.attribute value attr own)) ⟨rfl, rfl⟩
  | .subscript value slice own, strings => by
    simp only [Expr.relocate, toWireTypeWith_subscript]
    exact erase_subscript (getQualifiedTypeName_relocate range value)
      (erase_typeArgs slice strings (erase_typeWith slice strings))
  | .numberLiteral value own, _ => by
    simp only [Expr.relocate, toWireTypeWith]
    rw [← extractIntLiteralValue_relocate range (.numberLiteral value own)]
    exact erase_int _ _ _
  | .binOp left op right own, strings => by
    cases op with
    | bitOr =>
      simp only [Expr.relocate, toWireTypeWith, toWireUnion, WType.erase,
        erase_typeWith left strings.left, erase_typeWith right strings.right]
    | _ => rfl
  | .list elts _ _, strings => by
    simp only [Expr.relocate, toWireTypeWith, WType.erase, erase_typesInList elts strings]
  | .tuple elts _ _, strings => by
    simp only [Expr.relocate, toWireTypeWith, WType.erase, erase_types elts strings]
  | .dict items own, strings => by
    simp only [Expr.relocate, toWireTypeWith, isTypedDict_relocate, toWireKeys_relocate]
    split
    · simp only [WType.erase, erase_typedDictValues items strings]
    · rfl
  | .call func _ keywords _, _ => by
    simp only [Expr.relocate, toWireTypeWith, callNote_relocate]
    exact erase_invalid _ _ _
  | .starred value _, strings => by
    simp only [Expr.relocate, toWireTypeWith, WType.erase, erase_typeWith value strings]
  | .unaryOp op operand own, _ => by
    cases op with
    | uSub =>
      simp only [Expr.relocate, toWireTypeWith]
      rw [← extractIntLiteralValue_relocate range (.unaryOp .uSub operand own)]
      exact erase_int _ _ _
    | uAdd =>
      simp only [Expr.relocate, toWireTypeWith, extractIntLiteralValue_relocate]
      exact erase_int _ _ _
    | _ => rfl
  | .stringLiteral value own, strings =>
    strings (concatText value) List.mem_cons_self range own
  | .boolOp .., _ | .named .., _ | .lambda .., _ | .ifExp .., _ | .set .., _ | .listComp .., _
  | .setComp .., _ | .dictComp .., _ | .generator .., _ | .await .., _ | .yield .., _
  | .yieldFrom .., _ | .compare .., _ | .fString .., _ | .tString .., _ | .slice .., _
  | .ipyEscapeCommand .., _ => rfl

theorem erase_typeArgs (slice : Expr) (strings : SameStrings str str' (typeStrings slice))
    (one : (toWireTypeWith c str isEvaluated (slice.relocate range)).erase
      = (toWireTypeWith c str' isEvaluated' slice).erase) :
    eraseTypes (toWireTypeArgs c str isEvaluated (slice.relocate range)).1
      = eraseTypes (toWireTypeArgs c str' isEvaluated' slice).1 ∧
    (toWireTypeArgs c str isEvaluated (slice.relocate range)).2
      = (toWireTypeArgs c str' isEvaluated' slice).2 := by
  cases slice with
  | tuple elts _ _ => exact ⟨erase_types elts strings, relocateExprs_isEmpty range elts⟩
  | _ =>
    rw [toWireTypeArgs_plain, toWireTypeArgs_plain]
    · exact ⟨congrArg (fun tree => [tree]) one, rfl⟩
    all_goals nofun

theorem erase_types : ∀ ts : List Expr, SameStrings str str' (typeStringsOf ts) →
    eraseTypes (toWireTypes c str isEvaluated (relocateExprs range ts))
      = eraseTypes (toWireTypes c str' isEvaluated' ts)
  | [], _ => rfl
  | t :: ts, strings => by
    simp only [relocateExprs, toWireTypes, eraseTypes, erase_typeWith t strings.left,
      erase_types ts strings.right]

theorem erase_typesInList : ∀ ts : List Expr, SameStrings str str' (typeStringsOf ts) →
    eraseTypes (toWireTypesInList c str isEvaluated (relocateExprs range ts))
      = eraseTypes (toWireTypesInList c str' isEvaluated' ts)
  | [], _ => rfl
  | t :: ts, strings => by
    simp only [relocateExprs, toWireTypesInList_cons, eraseTypes,
      erase_typeInList t strings.left (erase_typeWith t strings.left),
      erase_typesInList ts strings.right]

theorem erase_typeInList (t : Expr) (strings : SameStrings str str' (typeStrings t))
    (one : (toWireTypeWith c str isEvaluated (t.relocate range)).erase
      = (toWireTypeWith c str' isEvaluated' t).erase) :
    (toWireTypeInList c str isEvaluated (t.relocate range)).erase
      = (toWireTypeInList c str' isEvaluated' t).erase := by
  cases t with
  | call func args keywords _ =>
    simp only [Expr.relocate, toWireTypeInList, WType.erase, erase_typeWith func strings.left.left,
      erase_types args strings.left.right, erase_typeKeywords keywords strings.right]
  | _ =>
    rw [toWireTypeInList_plain, toWireTypeInList_plain]
    · exact one
    all_goals nofun

theorem erase_typeKeywords : ∀ keywords : List Keyword,
    SameStrings str str' (typeStringsOfKeywords keywords) →
    eraseKeywords (toWireTypeKeywords c str isEvaluated (relocateKeywords range keywords))
      = eraseKeywords (toWireTypeKeywords c str' isEvaluated' keywords)
  | [], _ => rfl
  | .mk _ value :: keywords, strings => by
    simp only [relocateKeywords, toWireTypeKeywords, eraseKeywords,
      erase_typeWith value strings.left, erase_typeKeywords keywords strings.right]

theorem erase_typedDictValues : ∀ items : List DictItem,
    SameStrings str str' (typeStringsOfItems items) →
    eraseTypes (toWireTypedDictValues c str isEvaluated (relocateItems range items))
      = eraseTypes (toWireTypedDictValues c str' isEvaluated' items)
  | [], _ => rfl
  | .mk _ value :: items, strings => by
    simp only [relocateItems, toWireTypedDictValues, eraseTypes,
      erase_typeWith value strings.left, erase_typedDictValues items strings.right]

end

end Erased

section Located

variable {c : Config} {str : String → TextRange → WType c.cacheVersion} {isEvaluated : Bool}
  {range : TextRange}

/-- All locations are that of the range. -/
def AllAt (c : Config) (range : TextRange) (locs : List Location) : Prop :=
  ∀ loc ∈ locs, loc = c.location range

theorem allAt_nil : AllAt c range [] := by
  intro loc mem
  cases mem

theorem allAt_append {locs locs' : List Location} :
    AllAt c range (locs ++ locs') ↔ AllAt c range locs ∧ AllAt c range locs' := by
  simp [AllAt, or_imp, forall_and]

theorem AllAt.node {locs : List Location} (below : AllAt c range locs) :
    AllAt c range (c.location range :: locs) := by
  intro loc mem
  rcases List.mem_cons.mp mem with rfl | mem
  · rfl
  · exact below loc mem

theorem allAt_invalid (note : Option Bytes) (expr fallback : Option String) :
    AllAt c range (toWireInvalid c note expr fallback range).locations := by
  cases expr <;> cases fallback <;> exact allAt_nil.node

theorem allAt_int (value : Option Int64) : AllAt c range (toWireInt c value range).locations := by
  cases value <;> exact allAt_nil.node

theorem allAt_subscript {items : List (WType c.cacheVersion) × Bool} (value : Expr)
    {expr fallback : Option String} (args : AllAt c range (locationsOf items.1)) :
    AllAt c range (toWireSubscript c value items expr fallback range).locations := by
  unfold toWireSubscript
  split
  · exact allAt_invalid none expr fallback
  · exact args.node

theorem allAt_union {left right : WType c.cacheVersion} {expr fallback : Option String}
    (l : AllAt c range left.locations) (r : AllAt c range right.locations) :
    AllAt c range (toWireUnion c left right expr fallback isEvaluated range).locations :=
  (allAt_append.mpr ⟨l, r⟩).node

/-- Strings at the range have all of their locations there. -/
def StringsAt (c : Config) (str : String → TextRange → WType c.cacheVersion) (range : TextRange) :
    Prop :=
  ∀ value, AllAt c range (str value range).locations

mutual

/-- A moved type is nowhere else. -/
theorem allAt_typeWith (strings : StringsAt c str range) : ∀ e : Expr,
    AllAt c range (toWireTypeWith c str isEvaluated (e.relocate range)).locations
  | .name .. | .noneLiteral .. | .booleanLiteral .. | .ellipsisLiteral .. | .bytesLiteral .. =>
    allAt_nil.node
  | .attribute .. => allAt_subscript _ allAt_nil
  | .subscript value slice _ => by
    simp only [Expr.relocate, toWireTypeWith_subscript]
    exact allAt_subscript _ (allAt_typeArgs strings slice (allAt_typeWith strings slice))
  | .numberLiteral .. => allAt_int _
  | .binOp left op right _ => by
    cases op with
    | bitOr => exact allAt_union (allAt_typeWith strings left) (allAt_typeWith strings right)
    | _ => exact allAt_invalid none none none
  | .list elts _ _ => (allAt_typesInList strings elts).node
  | .tuple elts _ _ => (allAt_types strings elts).node
  | .dict items _ => by
    simp only [Expr.relocate, toWireTypeWith]
    split
    · exact (allAt_typedDictValues strings items).node
    · exact allAt_invalid none none none
  | .call .. => allAt_invalid _ none none
  | .starred value _ => (allAt_typeWith strings value).node
  | .unaryOp op _ _ => by
    cases op with
    | uSub => exact allAt_int _
    | uAdd => exact allAt_int _
    | _ => exact allAt_invalid none none none
  | .stringLiteral value _ => strings (concatText value)
  | .boolOp .. | .named .. | .lambda .. | .ifExp .. | .set .. | .listComp .. | .setComp ..
  | .dictComp .. | .generator .. | .await .. | .yield .. | .yieldFrom .. | .compare ..
  | .fString .. | .tString .. | .slice .. | .ipyEscapeCommand .. => allAt_invalid none none none

theorem allAt_typeArgs (strings : StringsAt c str range) (slice : Expr)
    (one : AllAt c range (toWireTypeWith c str isEvaluated (slice.relocate range)).locations) :
    AllAt c range (locationsOf (toWireTypeArgs c str isEvaluated (slice.relocate range)).1) := by
  cases slice with
  | tuple elts _ _ => exact allAt_types strings elts
  | _ =>
    rw [toWireTypeArgs_plain]
    · exact allAt_append.mpr ⟨one, allAt_nil⟩
    · nofun

theorem allAt_types (strings : StringsAt c str range) : ∀ ts : List Expr,
    AllAt c range (locationsOf (toWireTypes c str isEvaluated (relocateExprs range ts)))
  | [] => allAt_nil
  | t :: ts => allAt_append.mpr ⟨allAt_typeWith strings t, allAt_types strings ts⟩

theorem allAt_typesInList (strings : StringsAt c str range) : ∀ ts : List Expr,
    AllAt c range (locationsOf (toWireTypesInList c str isEvaluated (relocateExprs range ts)))
  | [] => allAt_nil
  | t :: ts => by
    simp only [relocateExprs, toWireTypesInList_cons]
    exact allAt_append.mpr ⟨allAt_typeInList strings t (allAt_typeWith strings t),
      allAt_typesInList strings ts⟩

theorem allAt_typeInList (strings : StringsAt c str range) (t : Expr)
    (one : AllAt c range (toWireTypeWith c str isEvaluated (t.relocate range)).locations) :
    AllAt c range (toWireTypeInList c str isEvaluated (t.relocate range)).locations := by
  cases t with
  | call func args keywords _ =>
    have callee := allAt_append.mpr ⟨allAt_typeWith strings func, allAt_types strings args⟩
    exact (allAt_append.mpr ⟨callee, allAt_typeKeywords strings keywords⟩).node
  | _ =>
    rw [toWireTypeInList_plain]
    · exact one
    · nofun

theorem allAt_typeKeywords (strings : StringsAt c str range) : ∀ keywords : List Keyword,
    AllAt c range
      (locationsOfKeywords (toWireTypeKeywords c str isEvaluated (relocateKeywords range keywords)))
  | [] => allAt_nil
  | .mk _ value :: keywords =>
    allAt_append.mpr ⟨allAt_typeWith strings value, allAt_typeKeywords strings keywords⟩

theorem allAt_typedDictValues (strings : StringsAt c str range) : ∀ items : List DictItem,
    AllAt c range
      (locationsOf (toWireTypedDictValues c str isEvaluated (relocateItems range items)))
  | [] => allAt_nil
  | .mk _ value :: items =>
    allAt_append.mpr ⟨allAt_typeWith strings value, allAt_typedDictValues strings items⟩

end

theorem allAt_stringTypeWithin (bound : Nat) (isEvaluated : Bool) (value : String) :
    AllAt c range (toWireStringTypeWithin c bound isEvaluated value range).locations := by
  induction bound generalizing isEvaluated value with
  | zero => exact allAt_nil.node
  | succ bound ih =>
    have strings : StringsAt c (toWireStringTypeWithin c bound false) range := ih false
    unfold toWireStringTypeWithin
    cases c.parser.parseUnchecked ("(" ++ value ++ ")") with
    | none => exact allAt_nil.node
    | some e =>
      cases e with
      | «attribute» base attr own => exact allAt_subscript _ allAt_nil
      | subscript base slice own =>
        exact allAt_subscript _ (allAt_typeArgs strings slice (allAt_typeWith strings slice))
      | binOp left op right own =>
        cases op with
        | bitOr => exact allAt_union (allAt_typeWith strings left) (allAt_typeWith strings right)
        | _ => exact allAt_nil.node
      | _ => exact allAt_nil.node

end Located

section Quoted

/-- A chain of names. -/
def isChain : Expr → Bool
  | .name _ _ => true
  | .attribute value _ _ => isChain value
  | _ => false

/-- The expressions that a string is taken for. -/
def isQuotable : Expr → Bool
  | .name _ _ | .noneLiteral _ => true
  | .attribute value _ _ => isChain value
  | .subscript value _ _ => isChain value
  | .binOp _ .bitOr _ _ => true
  | _ => false

theorem getQualifiedTypeName_isSome : ∀ e : Expr, (getQualifiedTypeName e).isSome = isChain e
  | .attribute value _ _ => by
    simp only [getQualifiedTypeName, Option.isSome_map, getQualifiedTypeName_isSome value, isChain]
  | .name .. | .subscript .. | .noneLiteral .. | .booleanLiteral .. | .numberLiteral ..
  | .binOp .. | .list .. | .tuple .. | .dict .. | .call .. | .ellipsisLiteral .. | .starred ..
  | .unaryOp .. | .stringLiteral .. | .bytesLiteral .. | .boolOp .. | .named .. | .lambda ..
  | .ifExp .. | .set .. | .listComp .. | .setComp .. | .dictComp .. | .generator .. | .await ..
  | .yield .. | .yieldFrom .. | .compare .. | .fString .. | .tString .. | .slice ..
  | .ipyEscapeCommand .. => rfl

variable (c : Config)

/-- What the parser makes of a string. -/
def Config.parseQuoted (c : Config) (value : String) : Option Expr :=
  c.parser.parseUnchecked ("(" ++ value ++ ")")

/-- The string itself. -/
def rawString (value : String) (range : TextRange) : WType c.cacheVersion :=
  .raw (utf8 "builtins.str") (.str (utf8 value)) (c.location range)

variable {c} {value : String} {e : Expr}

theorem toWireString_unparsed (parsed : c.parseQuoted value = none) (bound : Nat)
    (isEvaluated : Bool) (range : TextRange) :
    toWireStringTypeWithin c (bound + 1) isEvaluated value range = rawString c value range := by
  rw [toWireStringTypeWithin, show c.parser.parseUnchecked _ = none from parsed]
  rfl

theorem toWireString_other (parsed : c.parseQuoted value = some e) (other : isQuotable e = false)
    (bound : Nat) (isEvaluated : Bool) (range : TextRange) :
    toWireStringTypeWithin c (bound + 1) isEvaluated value range = rawString c value range := by
  rw [toWireStringTypeWithin, show c.parser.parseUnchecked _ = some e from parsed]
  cases e with
  | name id own => cases other
  | noneLiteral own => cases other
  | «attribute» base attr own =>
    have noName := getQualifiedTypeName_isSome (.attribute base attr own)
    rw [isChain, show isChain base = false from other, Option.isSome_eq_false_iff,
      Option.isNone_iff_eq_none] at noName
    simp only [toWireAttribute, toWireSubscript, noName]
    rfl
  | subscript base slice own =>
    have noName := getQualifiedTypeName_isSome base
    rw [show isChain base = false from other, Option.isSome_eq_false_iff,
      Option.isNone_iff_eq_none] at noName
    simp only [toWireSubscript, noName]
    rfl
  | binOp left op right own =>
    cases op with
    | bitOr => cases other
    | _ => rfl
  | _ => rfl

/-- A quoted expression has the tree of the expression, up to what is erased. -/
theorem erase_quoted (parsed : c.parseQuoted value = some e) (quotable : isQuotable e = true)
    {bound : Nat} {str : String → TextRange → WType c.cacheVersion}
    (strings : SameStrings (toWireStringTypeWithin c bound false) str (typeStrings e))
    (isEvaluated isEvaluated' : Bool) (range : TextRange) :
    (toWireStringTypeWithin c (bound + 1) isEvaluated value range).erase
      = (toWireTypeWith c str isEvaluated' e).erase := by
  rw [toWireStringTypeWithin, show c.parser.parseUnchecked _ = some e from parsed]
  cases e with
  | name id own => rfl
  | noneLiteral own => rfl
  | «attribute» base attr own =>
    have named := getQualifiedTypeName_isSome (.attribute base attr own)
    rw [isChain, show isChain base = true from quotable, Option.isSome_iff_exists] at named
    obtain ⟨name, named⟩ := named
    simp only [toWireTypeWith, toWireAttribute, toWireSubscript, named]
    rfl
  | subscript base slice own =>
    have named := getQualifiedTypeName_isSome base
    rw [show isChain base = true from quotable, Option.isSome_iff_exists] at named
    obtain ⟨name, named⟩ := named
    simp only [toWireTypeWith_subscript, toWireSubscript, named]
    exact erase_unbound (erase_typeArgs range slice strings (erase_typeWith range slice strings))
  | binOp left op right own =>
    cases op with
    | bitOr =>
      simp only [toWireTypeWith, toWireUnion, WType.erase]
      rw [erase_typeWith range left strings.left, erase_typeWith range right strings.right]
    | _ => cases quotable
  | _ => cases quotable

/-- Neither the bound nor the place of a string matters. -/
theorem erase_stringTypeWithin (bound bound' : Nat) (isEvaluated isEvaluated' : Bool)
    (value : String) (range range' : TextRange) (short : value.length < bound)
    (short' : value.length < bound') :
    (toWireStringTypeWithin c bound isEvaluated value range).erase
      = (toWireStringTypeWithin c bound' isEvaluated' value range').erase := by
  induction bound generalizing bound' isEvaluated isEvaluated' value range range' with
  | zero => exact absurd short (Nat.not_lt_zero _)
  | succ bound ih =>
    cases bound' with
    | zero => exact absurd short' (Nat.not_lt_zero _)
    | succ bound' =>
      cases parsed : c.parseQuoted value with
      | none =>
        rw [toWireString_unparsed parsed, toWireString_unparsed parsed]
        rfl
      | some e =>
        cases quotable : isQuotable e with
        | false =>
          rw [toWireString_other parsed quotable, toWireString_other parsed quotable]
          rfl
        | true =>
          -- both are the tree of the expression with the strings of the second one
          have across : SameStrings (toWireStringTypeWithin c bound false)
              (toWireStringTypeWithin c bound' false) (typeStrings e) := by
            intro inner mem range range'
            have shorter := c.parser.shorter value e parsed inner mem
            exact ih bound' false false inner range range' (by omega) (by omega)
          have within : SameStrings (toWireStringTypeWithin c bound' false)
              (toWireStringTypeWithin c bound' false) (typeStrings e) := by
            intro inner mem range range'
            have first := across inner mem range range
            have second := across inner mem range range'
            exact first.symm.trans second
          have direct := erase_quoted parsed quotable across isEvaluated false range
          exact direct.trans (erase_quoted parsed quotable within isEvaluated' false range').symm

theorem serializeStringType_writes (c : Config) (s : Serializer) (value : String)
    (range : TextRange) :
    WritesType s (serializeStringType c value range)
      (toWireStringType c s.isEvaluated value range) :=
  writesType_of_emits (emits_stringType s.tracked s.hasSurrogates value range)

/-- A quoted name, `None`, chain, subscript of a chain or union has the type of the expression,
all of it located at the string, and any other string is written as itself. -/
theorem serializeStringType_quoted (c : Config) (value : String) (range : TextRange) :
    (∀ e, c.parseQuoted value = some e → isQuotable e = true → ∀ s s' : Serializer,
      ∃ tree tree' : WType c.cacheVersion,
        WritesType s (serializeStringType c value range) tree ∧
        WritesType s' (serializeType c e) tree' ∧
        tree.erase = tree'.erase ∧ ∀ loc ∈ tree.locations, loc = c.location range) ∧
    ((∀ e, c.parseQuoted value = some e → isQuotable e = false) → ∀ s : Serializer,
      WritesType s (serializeStringType c value range) (rawString c value range)) := by
  constructor
  · intro e parsed quotable s s'
    refine ⟨_, _, serializeStringType_writes c s value range,
      writesType_of_emits (emits_type s'.tracked s'.hasSurrogates e), ?_, ?_⟩
    · apply erase_quoted parsed quotable
      intro inner mem range range'
      have shorter := c.parser.shorter value e parsed inner mem
      exact erase_stringTypeWithin _ _ false false inner range range' shorter (Nat.lt_succ_self _)
    · exact allAt_stringTypeWithin _ s.isEvaluated value
  · intro other s
    have written := serializeStringType_writes c s value range
    have raw : toWireStringType c s.isEvaluated value range = rawString c value range := by
      cases parsed : c.parseQuoted value with
      | none => exact toWireString_unparsed parsed _ _ _
      | some e => exact toWireString_other parsed (other e parsed) _ _ _
    rwa [raw] at written

/-- The parser on `int` and `list['int']`. -/
def listParser : ExprParser where
  parseUnchecked source :=
    if source = "(int)" then some (.name "int" ⟨1, 4⟩)
    else if source = "(list['int'])" then
      some (.subscript (.name "list" ⟨1, 5⟩) (.stringLiteral [⟨"int", ⟨6, 11⟩⟩] ⟨6, 11⟩) ⟨1, 12⟩)
    else none
  shorter := by
    intro source e parsed value mem
    split at parsed
    · cases parsed
      cases mem
    split at parsed
    · rename_i same
      cases parsed
      have length := congrArg String.length same
      simp only [String.length_append] at length
      have short : value = "int" := by simpa [typeStrings, concatText] using mem
      rw [short]
      change _ = 13 at length
      change 1 + source.length + 1 = 13 at length
      have opened : 1 + source.length = 1 + 11 := Nat.succ.inj length
      have bare : source.length = 11 := Nat.add_left_cancel opened
      rw [bare]
      decide
    · cases parsed

def listConfig : Config := { Config.plain "x: \"list['int']\"".toList with parser := listParser }

/-- The quoted `list['int']`, and `1`, which the parser does not take. -/
theorem serializeStringType_quoted_list :
    (∃ tree tree' : WType listConfig.cacheVersion,
      WritesType Serializer.initial (serializeStringType listConfig "list['int']" ⟨3, 16⟩) tree ∧
      WritesType Serializer.initial (serializeType listConfig (.subscript (.name "list" ⟨1, 5⟩)
        (.stringLiteral [⟨"int", ⟨6, 11⟩⟩] ⟨6, 11⟩) ⟨1, 12⟩)) tree' ∧
      tree.erase = tree'.erase ∧ ∀ loc ∈ tree.locations, loc = listConfig.location ⟨3, 16⟩) ∧
    WritesType Serializer.initial (serializeStringType listConfig "1" ⟨3, 6⟩)
      (rawString listConfig "1" ⟨3, 6⟩) := by
  constructor
  · exact (serializeStringType_quoted listConfig "list['int']" ⟨3, 16⟩).1 _ rfl rfl _ _
  · apply (serializeStringType_quoted listConfig "1" ⟨3, 6⟩).2
    intro e parsed
    cases parsed

end Quoted

end AstSerialize
