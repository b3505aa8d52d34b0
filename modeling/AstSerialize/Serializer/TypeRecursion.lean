import AstSerialize.Coding.Recursion
import AstSerialize.Serializer.TypesSound
import Mathlib.Data.Prod.Lex

/-! The mutual recursion of the type serializers, as the calls that each body
makes. A string literal is parsed into a tree of any size, but from a shorter
text than the one it stands in. -/
namespace AstSerialize
open Coding

/-- The calls of the five functions. -/
inductive TypeCall where
  | type (t : Expr)
  | typeInList (t : Expr)
  | subscriptType (value slice : Expr) (originalStrExpr originalStrFallback : Option String)
  | unionType (left right : Expr) (range : TextRange)
      (originalStrExpr originalStrFallback : Option String)
  | stringType (value : String) (range : TextRange)

def Keyword.value : Keyword → Expr
  | .mk _ value => value

def DictItem.value : DictItem → Expr
  | .mk _ value => value

section Bodies

variable (c : Config) (call : TypeCall → SerM Unit)

def callEach (function : Expr → TypeCall) : List Expr → SerM Unit
  | [] => pure ()
  | t :: ts => do
    call (function t)
    callEach function ts

def callKeywords : List Keyword → SerM Unit
  | [] => pure ()
  | .mk arg value :: keywords => do
    writeBytesOrNone (arg.map fun name => utf8 name.id)
    call (.type value)
    callKeywords keywords

/-- What closes a type that has no early return. -/
def closeType (range : TextRange) : SerM Unit := do
  writeLocation c range
  writeEndTag

/-- The body of `serialize_type`. -/
def typeBody : Expr → SerM Unit
  | .subscript value slice range => do
    call (.subscriptType value slice none none)
    closeType c range
  | .binOp left .bitOr right range => call (.unionType left right range none none)
  | .list elts _ range => do
    writeTag .listType
    writeTag .listGen
    writeUsize elts.length
    callEach call .typeInList elts
    closeType c range
  | .tuple elts _ range => do
    writeTag .tupleType
    writeTag .listGen
    writeUsize elts.length
    callEach call .type elts
    writeBool true
    closeType c range
  | .dict items range => do
    if isTypedDict items then do
      writeTag .typedDictType
      writeTag .listGen
      writeUsize items.length
      writeTypedDictKeys items
      writeTag .listGen
      writeUsize items.length
      callEach call .type (items.map (·.value))
    else serializeInvalidType c none none none
    closeType c range
  | .starred value range => do
    writeTag .unpackType
    call (.type value)
    writeBool true
    closeType c range
  | .stringLiteral value range => unevaluated (call (.stringType (concatText value) range))
  -- the other types have no types inside
  | t => serializeTypeWith c (fun _ _ => panic) t

/-- The body of `serialize_type_in_list`. -/
def typeInListBody : Expr → SerM Unit
  | .call func args keywords range => do
    writeTag .callType
    call (.type func)
    writeTag .listGen
    writeUsize args.length
    callEach call .type args
    writeTag .listGen
    writeUsize keywords.length
    callKeywords call keywords
    closeType c range
  | t => call (.type t)

/-- The items of a subscript, and whether it has an empty tuple of them. -/
def sliceBody : Expr → SerM Unit
  | .tuple elts _ _ => do
    writeUsize elts.length
    callEach call .type elts
    writeBool elts.isEmpty
  | slice => do
    writeInt 1
    call (.type slice)
    writeBool false

/-- The body of `serialize_string_type`. -/
def stringTypeBody (value : String) (range : TextRange) : SerM Unit :=
  match c.parser.parseUnchecked ("(" ++ value ++ ")") with
  | some (.name id _) => do
    serializeSimpleUnboundType (utf8 id) (some value) (some "builtins.str")
    closeType c range
  | some (.attribute base attr own) => do
    serializeAttributeType c (.attribute base attr own) (some value) (some "builtins.str")
    closeType c range
  | some (.subscript base slice _) => do
    call (.subscriptType base (slice.relocate range) (some value) (some "builtins.str"))
    closeType c range
  | some (.binOp left .bitOr right _) =>
    call (.unionType (left.relocate range) (right.relocate range) range (some value)
      (some "builtins.str"))
  | some (.noneLiteral _) => do
    serializeSimpleUnboundType (utf8 "None") (some value) (some "builtins.str")
    closeType c range
  | _ => do
    writeTag .rawExpressionType
    writeBytes (utf8 "builtins.str")
    writeBytes (utf8 value)
    closeType c range

def typeStep : TypeCall → SerM Unit
  | .type t => typeBody c call t
  | .typeInList t => typeInListBody c call t
  | .subscriptType value slice originalStrExpr originalStrFallback =>
    serializeSubscriptType c value (sliceBody call slice) originalStrExpr originalStrFallback
  | .unionType left right range originalStrExpr originalStrFallback =>
    serializeUnionType c (call (.type left)) (call (.type right)) range originalStrExpr
      originalStrFallback
  | .stringType value range => stringTypeBody c call value range

end Bodies

section Callees

variable (c : Config)

/-- The calls that a body makes, in order. -/
def typeCallees : TypeCall → List TypeCall
  | .type (.subscript value slice _) => [.subscriptType value slice none none]
  | .type (.binOp left .bitOr right range) => [.unionType left right range none none]
  | .type (.list elts _ _) => elts.map .typeInList
  | .type (.tuple elts _ _) => elts.map .type
  | .type (.dict items _) => if isTypedDict items then items.map (.type ·.value) else []
  | .type (.starred value _) => [.type value]
  | .type (.stringLiteral value range) => [.stringType (concatText value) range]
  | .type _ => []
  | .typeInList (.call func args keywords _) =>
    .type func :: (args.map .type ++ keywords.map (.type ·.value))
  | .typeInList t => [.type t]
  | .subscriptType value slice _ _ =>
    match getQualifiedTypeName value, slice with
    | none, _ => []
    | some _, .tuple elts _ _ => elts.map .type
    | some _, slice => [.type slice]
  | .unionType left right _ _ _ => [.type left, .type right]
  | .stringType value range =>
    match c.parser.parseUnchecked ("(" ++ value ++ ")") with
    | some (.subscript base slice _) =>
      [.subscriptType base (slice.relocate range) (some value) (some "builtins.str")]
    | some (.binOp left .bitOr right _) =>
      [.unionType (left.relocate range) (right.relocate range) range (some value)
        (some "builtins.str")]
    | _ => []

end Callees

/-- The strings that a call can still parse, its own one included. -/
def TypeCall.strings : TypeCall → List String
  | .type t => typeStrings t
  | .typeInList t => typeStrings t
  | .subscriptType _ slice _ _ => typeStrings slice
  | .unionType left right _ _ _ => typeStrings left ++ typeStrings right
  | .stringType value _ => [value]

/-- The size of the expression of a call. A string has none. -/
noncomputable def TypeCall.size : TypeCall → Nat
  | .type t => 2 * sizeOf t
  | .typeInList t => 2 * sizeOf t + 1
  | .subscriptType _ slice _ _ => 2 * sizeOf slice + 1
  | .unionType left right _ _ _ => 2 * (sizeOf left + sizeOf right) + 1
  | .stringType _ _ => 0

/-- The least length that all the strings are below. -/
def textBound : List String → Nat
  | [] => 0
  | value :: strings => max (value.length + 1) (textBound strings)

/-- The text comes first: it bounds every tree that is parsed out of it. -/
noncomputable def TypeCall.measure (call : TypeCall) : Nat ×ₗ Nat :=
  toLex (textBound call.strings, call.size)

theorem textBound_le_iff (n : Nat) (strings : List String) :
    textBound strings ≤ n ↔ ∀ value ∈ strings, value.length < n := by
  induction strings with
  | nil => simp [textBound]
  | cons value strings ih =>
    simp only [textBound, Nat.max_le, ih, List.forall_mem_cons]
    rfl

theorem textBound_mono {strings strings' : List String}
    (within : ∀ value ∈ strings, value ∈ strings') : textBound strings ≤ textBound strings' := by
  rw [textBound_le_iff]
  intro value mem
  have below := (textBound_le_iff _ strings').1 (Nat.le_refl _)
  exact below value (within value mem)

theorem typeStrings_mem {t : Expr} {ts : List Expr} (mem : t ∈ ts) :
    ∀ value ∈ typeStrings t, value ∈ typeStringsOf ts := by
  induction ts with
  | nil => cases mem
  | cons first ts ih =>
    intro value found
    rw [typeStringsOf, List.mem_append]
    cases mem with
    | head => exact .inl found
    | tail _ later => exact .inr (ih later value found)

theorem typeStrings_mem_items {item : DictItem} {items : List DictItem} (mem : item ∈ items) :
    ∀ value ∈ typeStrings item.value, value ∈ typeStringsOfItems items := by
  induction items with
  | nil => cases mem
  | cons first items ih =>
    intro value found
    cases first
    rw [typeStringsOfItems, List.mem_append]
    cases mem with
    | head => exact .inl found
    | tail _ later => exact .inr (ih later value found)

theorem typeStrings_mem_keywords {keyword : Keyword} {keywords : List Keyword}
    (mem : keyword ∈ keywords) :
    ∀ value ∈ typeStrings keyword.value, value ∈ typeStringsOfKeywords keywords := by
  induction keywords with
  | nil => cases mem
  | cons first keywords ih =>
    intro value found
    cases first
    rw [typeStringsOfKeywords, List.mem_append]
    cases mem with
    | head => exact .inl found
    | tail _ later => exact .inr (ih later value found)

theorem sizeOf_item {item : DictItem} {items : List DictItem} (mem : item ∈ items) :
    sizeOf item.value < sizeOf items := by
  have inList := List.sizeOf_lt_of_mem mem
  cases item with
  | mk key value =>
    simp only [DictItem.mk.sizeOf_spec] at inList
    simp only [DictItem.value]
    omega

theorem sizeOf_keyword {keyword : Keyword} {keywords : List Keyword} (mem : keyword ∈ keywords) :
    sizeOf keyword.value < sizeOf keywords := by
  have inList := List.sizeOf_lt_of_mem mem
  cases keyword with
  | mk arg value =>
    simp only [Keyword.mk.sizeOf_spec] at inList
    simp only [Keyword.value]
    omega

/-- A call that keeps to the expression it was given. -/
def TypeCall.Inside (callee caller : TypeCall) : Prop :=
  (∀ value ∈ callee.strings, value ∈ caller.strings) ∧ callee.size < caller.size

theorem inside_of_strings {callee caller : TypeCall} (strings : callee.strings = caller.strings)
    (size : callee.size < caller.size) : callee.Inside caller := by
  constructor
  · intro value mem
    rwa [← strings]
  · exact size

/-- A call that parses a string. -/
def TypeCall.Parses (call : TypeCall) : Prop := ∃ value range, call = .stringType value range

section Decreasing

variable {c : Config} {callee : TypeCall}

theorem inside_type {t : Expr} (called : callee ∈ typeCallees c (.type t)) :
    callee.Inside (.type t) := by
  cases t with
  | subscript value slice range =>
    cases List.mem_singleton.1 called
    refine inside_of_strings rfl ?_
    simp only [TypeCall.size, Expr.subscript.sizeOf_spec]
    omega
  | binOp left op right range =>
    cases op with
    | bitOr =>
      cases List.mem_singleton.1 called
      refine inside_of_strings rfl ?_
      simp only [TypeCall.size, Expr.binOp.sizeOf_spec]
      omega
    | _ => cases called
  | list elts ctx range =>
    obtain ⟨t, mem, rfl⟩ := List.mem_map.1 called
    have inList := List.sizeOf_lt_of_mem mem
    constructor
    · exact typeStrings_mem mem
    · simp only [TypeCall.size, Expr.list.sizeOf_spec]
      omega
  | tuple elts parenthesized range =>
    obtain ⟨t, mem, rfl⟩ := List.mem_map.1 called
    have inList := List.sizeOf_lt_of_mem mem
    constructor
    · exact typeStrings_mem mem
    · simp only [TypeCall.size, Expr.tuple.sizeOf_spec]
      omega
  | dict items range =>
    change callee ∈ if isTypedDict items then items.map (.type ·.value) else [] at called
    split at called
    · obtain ⟨item, mem, rfl⟩ := List.mem_map.1 called
      have inList := sizeOf_item mem
      constructor
      · exact typeStrings_mem_items mem
      · simp only [TypeCall.size, Expr.dict.sizeOf_spec]
        omega
    · cases called
  | starred value range =>
    cases List.mem_singleton.1 called
    refine inside_of_strings rfl ?_
    simp only [TypeCall.size, Expr.starred.sizeOf_spec]
    omega
  | stringLiteral value range =>
    cases List.mem_singleton.1 called
    refine inside_of_strings rfl ?_
    simp only [TypeCall.size, Expr.stringLiteral.sizeOf_spec]
    omega
  | _ => cases called

theorem inside_typeInList {t : Expr} (called : callee ∈ typeCallees c (.typeInList t)) :
    callee.Inside (.typeInList t) := by
  cases t with
  | call func args keywords range =>
    change callee ∈ .type func :: (args.map .type ++ keywords.map (.type ·.value)) at called
    simp only [List.mem_cons, List.mem_append, List.mem_map] at called
    rcases called with rfl | ⟨t, mem, rfl⟩ | ⟨keyword, mem, rfl⟩
    · constructor
      · intro value mem
        simp only [TypeCall.strings, typeStrings, List.mem_append]
        exact .inl (.inl mem)
      · simp only [TypeCall.size, Expr.call.sizeOf_spec]
        omega
    · have inList := List.sizeOf_lt_of_mem mem
      constructor
      · intro value found
        simp only [TypeCall.strings, typeStrings, List.mem_append]
        exact .inl (.inr (typeStrings_mem mem value found))
      · simp only [TypeCall.size, Expr.call.sizeOf_spec]
        omega
    · have inList := sizeOf_keyword mem
      constructor
      · intro value found
        simp only [TypeCall.strings, typeStrings, List.mem_append]
        exact .inr (typeStrings_mem_keywords mem value found)
      · simp only [TypeCall.size, Expr.call.sizeOf_spec]
        omega
  | _ =>
    -- any other item of a list is a type like elsewhere
    cases List.mem_singleton.1 called
    exact inside_of_strings rfl (Nat.lt_succ_self _)

theorem inside_subscriptType {value slice : Expr}
    {originalStrExpr originalStrFallback : Option String}
    (called : callee ∈
      typeCallees c (.subscriptType value slice originalStrExpr originalStrFallback)) :
    callee.Inside (.subscriptType value slice originalStrExpr originalStrFallback) := by
  simp only [typeCallees] at called
  split at called
  · cases called
  · obtain ⟨t, mem, rfl⟩ := List.mem_map.1 called
    have inList := List.sizeOf_lt_of_mem mem
    constructor
    · exact typeStrings_mem mem
    · simp only [TypeCall.size, Expr.tuple.sizeOf_spec]
      omega
  · cases List.mem_singleton.1 called
    exact inside_of_strings rfl (Nat.lt_succ_self _)

theorem inside_unionType {left right : Expr} {range : TextRange}
    {originalStrExpr originalStrFallback : Option String}
    (called : callee ∈
      typeCallees c (.unionType left right range originalStrExpr originalStrFallback)) :
    callee.Inside (.unionType left right range originalStrExpr originalStrFallback) := by
  change callee ∈ [.type left, .type right] at called
  rw [List.mem_pair] at called
  rcases called with rfl | rfl
  · constructor
    · intro value mem
      exact List.mem_append_left _ mem
    · simp only [TypeCall.size]
      have positive : 0 < sizeOf right := by cases right <;> simp
      omega
  · constructor
    · intro value mem
      exact List.mem_append_right _ mem
    · simp only [TypeCall.size]
      omega

/-- What is parsed out of a string has shorter strings in it. -/
theorem strings_stringType {value : String} {range : TextRange}
    (called : callee ∈ typeCallees c (.stringType value range)) :
    ∀ inner ∈ callee.strings, inner.length < value.length := by
  simp only [typeCallees] at called
  split at called
  · rename_i base slice own parsed
    cases List.mem_singleton.1 called
    intro inner mem
    simp only [TypeCall.strings, typeStrings_relocate] at mem
    exact c.parser.shorter value _ parsed inner mem
  · rename_i left right own parsed
    cases List.mem_singleton.1 called
    intro inner mem
    simp only [TypeCall.strings, typeStrings_relocate] at mem
    exact c.parser.shorter value _ parsed inner mem
  · cases called

/-- A call stays inside its expression, unless it parses a string. -/
theorem inside_or_string {caller : TypeCall} (called : callee ∈ typeCallees c caller) :
    callee.Inside caller ∨ caller.Parses := by
  cases caller with
  | type t => exact .inl (inside_type called)
  | typeInList t => exact .inl (inside_typeInList called)
  | subscriptType value slice originalStrExpr originalStrFallback =>
    exact .inl (inside_subscriptType called)
  | unionType left right range originalStrExpr originalStrFallback =>
    exact .inl (inside_unionType called)
  | stringType value range => exact .inr ⟨value, range, rfl⟩

/-- Parsing shortens the text, and every other call keeps it and has less of the expression. -/
theorem measure_decreases {caller : TypeCall} (called : callee ∈ typeCallees c caller) :
    callee.measure < caller.measure := by
  unfold TypeCall.measure
  rw [Prod.Lex.toLex_lt_toLex]
  rcases inside_or_string called with ⟨strings, size⟩ | ⟨value, range, rfl⟩
  · have text := textBound_mono strings
    rcases Nat.lt_or_eq_of_le text with shorter | same
    · exact .inl shorter
    · exact .inr ⟨same, size⟩
  · left
    have text := (textBound_le_iff value.length callee.strings).2 (strings_stringType called)
    change textBound callee.strings < max (value.length + 1) 0
    omega

end Decreasing

section Consulting

variable {call call' : TypeCall → SerM Unit}

theorem callEach_congr (function : Expr → TypeCall) (ts : List Expr)
    (same : ∀ t ∈ ts, call (function t) = call' (function t)) :
    callEach call function ts = callEach call' function ts := by
  induction ts with
  | nil => rfl
  | cons t ts ih =>
    rw [List.forall_mem_cons] at same
    simp only [callEach]
    rw [same.1, ih same.2]

theorem callKeywords_congr (keywords : List Keyword)
    (same : ∀ keyword ∈ keywords, call (.type keyword.value) = call' (.type keyword.value)) :
    callKeywords call keywords = callKeywords call' keywords := by
  induction keywords with
  | nil => rfl
  | cons keyword keywords ih =>
    rw [List.forall_mem_cons] at same
    cases keyword with
    | mk arg value =>
      have first : call (.type value) = call' (.type value) := same.1
      simp only [callKeywords]
      rw [first, ih same.2]

variable (c : Config)

theorem typeBody_congr (t : Expr)
    (same : ∀ callee ∈ typeCallees c (.type t), call callee = call' callee) :
    typeBody c call t = typeBody c call' t := by
  cases t with
  | subscript value slice range =>
    have inner := same _ (List.mem_singleton_self _)
    simp only [typeBody, inner]
  | binOp left op right range =>
    cases op with
    | bitOr => exact same _ (List.mem_singleton_self _)
    | _ => rfl
  | list elts ctx range =>
    have items := callEach_congr .typeInList elts fun t mem => same _ (List.mem_map_of_mem mem)
    simp only [typeBody, items]
  | tuple elts parenthesized range =>
    have items := callEach_congr .type elts fun t mem => same _ (List.mem_map_of_mem mem)
    simp only [typeBody, items]
  | dict items range =>
    simp only [typeCallees] at same
    simp only [typeBody]
    split
    · rename_i typedDict
      rw [if_pos typedDict] at same
      have values : callEach call .type (items.map (·.value))
          = callEach call' .type (items.map (·.value)) := by
        apply callEach_congr
        intro t mem
        obtain ⟨item, inItems, rfl⟩ := List.mem_map.1 mem
        exact same _ (List.mem_map.2 ⟨item, inItems, rfl⟩)
      rw [values]
    · rfl
  | starred value range =>
    have inner := same _ (List.mem_singleton_self _)
    simp only [typeBody, inner]
  | stringLiteral value range =>
    have inner := same _ (List.mem_singleton_self _)
    simp only [typeBody, inner]
  | _ => rfl

theorem typeInListBody_congr (t : Expr)
    (same : ∀ callee ∈ typeCallees c (.typeInList t), call callee = call' callee) :
    typeInListBody c call t = typeInListBody c call' t := by
  cases t with
  | call func args keywords range =>
    simp only [typeCallees, List.forall_mem_cons, List.forall_mem_append, List.forall_mem_map]
      at same
    obtain ⟨first, positional, named⟩ := same
    have items := callEach_congr .type args positional
    have others := callKeywords_congr keywords named
    simp only [typeInListBody, first, items, others]
  | _ => exact same _ (List.mem_singleton_self _)

theorem subscriptType_congr (value slice : Expr)
    (originalStrExpr originalStrFallback : Option String)
    (same : ∀ callee ∈
      typeCallees c (.subscriptType value slice originalStrExpr originalStrFallback),
      call callee = call' callee) :
    serializeSubscriptType c value (sliceBody call slice) originalStrExpr originalStrFallback
      = serializeSubscriptType c value (sliceBody call' slice) originalStrExpr
        originalStrFallback := by
  unfold serializeSubscriptType
  simp only [typeCallees] at same
  cases named : getQualifiedTypeName value with
  | none => rfl
  | some name =>
    rw [named] at same
    have args : sliceBody call slice = sliceBody call' slice := by
      cases slice with
      | tuple elts parenthesized range =>
        have items := callEach_congr .type elts fun t mem => same _ (List.mem_map_of_mem mem)
        simp only [sliceBody, items]
      | _ =>
        have inner := same _ (List.mem_singleton_self _)
        simp only [sliceBody, inner]
    simp only [args]

theorem stringTypeBody_congr (value : String) (range : TextRange)
    (same : ∀ callee ∈ typeCallees c (.stringType value range), call callee = call' callee) :
    stringTypeBody c call value range = stringTypeBody c call' value range := by
  simp only [typeCallees] at same
  unfold stringTypeBody
  cases parsed : c.parser.parseUnchecked ("(" ++ value ++ ")") with
  | none => rfl
  | some e =>
    rw [parsed] at same
    cases e with
    | subscript base slice own =>
      have inner := same _ (List.mem_singleton_self _)
      simp only [inner]
    | binOp left op right own =>
      cases op with
      | bitOr => exact same _ (List.mem_singleton_self _)
      | _ => rfl
    | _ => rfl

/-- A body consults the calls that it makes. -/
theorem typeStep_congr (caller : TypeCall)
    (same : ∀ callee ∈ typeCallees c caller, call callee = call' callee) :
    typeStep c call caller = typeStep c call' caller := by
  cases caller with
  | type t => exact typeBody_congr c t same
  | typeInList t => exact typeInListBody_congr c t same
  | subscriptType value slice originalStrExpr originalStrFallback =>
    exact subscriptType_congr c value slice originalStrExpr originalStrFallback same
  | unionType left right range originalStrExpr originalStrFallback =>
    have first := same (.type left) (List.mem_cons_self ..)
    have second := same (.type right) (List.mem_cons_of_mem _ (List.mem_singleton_self _))
    simp only [typeStep, first, second]
  | stringType value range => exact stringTypeBody_congr c value range same

end Consulting

/-- The five functions, by what they call and what they do. -/
def typeRecursion (c : Config) : Recursion TypeCall (SerM Unit) where
  callees := typeCallees c
  step := typeStep c
  consults _ _ caller same := typeStep_congr c caller same

section Running

variable (c : Config)

/-- The five functions, given what to do with a string. -/
def typeRunWith (str : String → TextRange → SerM Unit) : TypeCall → SerM Unit
  | .type t => serializeTypeWith c str t
  | .typeInList t => serializeTypeInList c str t
  | .subscriptType value slice originalStrExpr originalStrFallback =>
    serializeSubscriptType c value (serializeTypeArgs c str slice) originalStrExpr
      originalStrFallback
  | .unionType left right range originalStrExpr originalStrFallback =>
    serializeUnionType c (serializeTypeWith c str left) (serializeTypeWith c str right) range
      originalStrExpr originalStrFallback
  | .stringType value range => str value range

/-- What each call does. -/
def typeRun : TypeCall → SerM Unit := typeRunWith c (serializeStringType c)

variable {c} {str str' : String → TextRange → SerM Unit}

theorem callEach_types (ts : List Expr) :
    callEach (typeRunWith c str) .type ts = serializeTypes c str ts := by
  induction ts with
  | nil => rfl
  | cons t ts ih =>
    simp only [callEach, serializeTypes, ih]
    rfl

theorem callEach_typesInList (ts : List Expr) :
    callEach (typeRunWith c str) .typeInList ts = serializeTypesInList c str ts := by
  induction ts with
  | nil => rfl
  | cons t ts ih =>
    rw [serializeTypesInList_cons]
    simp only [callEach, ih]
    rfl

theorem callEach_typedDictValues (items : List DictItem) :
    callEach (typeRunWith c str) .type (items.map (·.value))
      = serializeTypedDictValues c str items := by
  induction items with
  | nil => rfl
  | cons item items ih =>
    cases item with
    | mk key value =>
      simp only [List.map_cons, callEach, serializeTypedDictValues, ih]
      rfl

theorem callKeywords_typeKeywords (keywords : List Keyword) :
    callKeywords (typeRunWith c str) keywords = serializeTypeKeywords c str keywords := by
  induction keywords with
  | nil => rfl
  | cons keyword keywords ih =>
    cases keyword with
    | mk arg value =>
      simp only [callKeywords, serializeTypeKeywords, ih]
      rfl

theorem sliceBody_typeArgs (slice : Expr) :
    sliceBody (typeRunWith c str) slice = serializeTypeArgs c str slice := by
  cases slice with
  | tuple elts parenthesized range =>
    simp only [sliceBody, serializeTypeArgs, callEach_types]
  | _ => rfl

theorem typeBody_typeWith (t : Expr) :
    typeBody c (typeRunWith c str) t = serializeTypeWith c str t := by
  cases t with
  | subscript value slice range =>
    simp only [typeBody, serializeTypeWith_subscript]
    rfl
  | binOp left op right range => cases op <;> rfl
  | list elts ctx range =>
    simp only [typeBody, serializeTypeWith, callEach_typesInList]
    rfl
  | tuple elts parenthesized range =>
    simp only [typeBody, serializeTypeWith, callEach_types]
    rfl
  | dict items range =>
    simp only [typeBody, serializeTypeWith, callEach_typedDictValues]
    rfl
  | unaryOp op operand range => cases op <;> rfl
  | _ => rfl

theorem typeInListBody_typeInList (t : Expr) :
    typeInListBody c (typeRunWith c str) t = serializeTypeInList c str t := by
  cases t with
  | call func args keywords range =>
    simp only [typeInListBody, serializeTypeInList, callEach_types, callKeywords_typeKeywords]
    rfl
  | _ => rfl

/-- Off the strings, the model of the functions does what their bodies do. -/
theorem typeRunWith_step (call : TypeCall) (other : ¬ call.Parses) :
    typeRunWith c str call = typeStep c (typeRunWith c str) call := by
  cases call with
  | type t => exact (typeBody_typeWith t).symm
  | typeInList t => exact (typeInListBody_typeInList t).symm
  | subscriptType value slice originalStrExpr originalStrFallback =>
    simp only [typeRunWith, typeStep, sliceBody_typeArgs]
  | unionType left right range originalStrExpr originalStrFallback => rfl
  | stringType value range => exact absurd ⟨value, range, rfl⟩ other

/-- On a string, one more level of the bound is one more body. -/
theorem serializeStringTypeWithin_succ (bound : Nat) (value : String) (range : TextRange) :
    serializeStringTypeWithin c (bound + 1) value range
      = stringTypeBody c (typeRunWith c (serializeStringTypeWithin c bound)) value range := by
  unfold serializeStringTypeWithin stringTypeBody
  cases c.parser.parseUnchecked ("(" ++ value ++ ")") with
  | none => rfl
  | some e =>
    cases e with
    | binOp left op right own => cases op <;> rfl
    | _ => rfl

/-- A call depends on what is done with its own strings. -/
theorem typeRunWith_congr (call : TypeCall)
    (same : ∀ value ∈ call.strings, ∀ range, str value range = str' value range) :
    typeRunWith c str call = typeRunWith c str' call := by
  induction size : call.size using Nat.strong_induction_on generalizing call with
  | _ n ih =>
    by_cases string : call.Parses
    · obtain ⟨value, range, rfl⟩ := string
      exact same value (List.mem_singleton_self _) range
    · rw [typeRunWith_step call string, typeRunWith_step call string]
      apply typeStep_congr
      intro callee called
      rcases inside_or_string called with ⟨strings, smaller⟩ | found
      · apply ih callee.size (size ▸ smaller) callee _ rfl
        intro value mem
        exact same value (strings value mem)
      · exact absurd found string

/-- Beyond the length of a string the bound does not matter. -/
theorem serializeStringTypeWithin_stable (bound bound' : Nat) (value : String) (range : TextRange)
    (short : value.length < bound) (short' : value.length < bound') :
    serializeStringTypeWithin c bound value range
      = serializeStringTypeWithin c bound' value range := by
  induction bound generalizing bound' value range with
  | zero => exact absurd short (Nat.not_lt_zero _)
  | succ bound ih =>
    cases bound' with
    | zero => exact absurd short' (Nat.not_lt_zero _)
    | succ bound' =>
      rw [serializeStringTypeWithin_succ, serializeStringTypeWithin_succ]
      apply stringTypeBody_congr
      intro callee called
      apply typeRunWith_congr
      intro inner mem range
      have shorter := strings_stringType called inner mem
      exact ih bound' inner range (by omega) (by omega)

variable (c)

/-- The model of the functions satisfies their equations. -/
theorem typeRun_solves : (typeRecursion c).Solves (typeRun c) := by
  intro call
  by_cases string : call.Parses
  · obtain ⟨value, range, rfl⟩ := string
    change serializeStringTypeWithin c (value.length + 1) value range
      = stringTypeBody c (typeRun c) value range
    rw [serializeStringTypeWithin_succ]
    apply stringTypeBody_congr
    intro callee called
    apply typeRunWith_congr
    intro inner mem range
    have shorter := strings_stringType called inner mem
    exact serializeStringTypeWithin_stable value.length (inner.length + 1) inner range shorter
      (Nat.lt_succ_self _)
  · exact typeRunWith_step call string

theorem typeRecursion_wellFounded : (typeRecursion c).Terminates := by
  apply Recursion.terminates_of_measure wellFounded_lt TypeCall.measure
  intro caller callee called
  exact measure_decreases called

/-- Serializing a type terminates. Every call that a body makes is smaller, in the text it can
still parse and then in its expression; so the equations of the five functions have one solution,
and a call takes finitely many levels of calls. -/
theorem typeSerialization_terminates :
    (∀ caller, ∀ callee ∈ typeCallees c caller, callee.measure < caller.measure) ∧
    (typeRecursion c).Terminates ∧
    (∀ f, (typeRecursion c).Solves f ↔ f = typeRun c) ∧
    ∀ call, ∃ n, ∀ m, n ≤ m → ∀ below, (typeStep c)^[m] below call = typeRun c call := by
  have terminates := typeRecursion_wellFounded c
  have solves := typeRun_solves c
  refine ⟨?_, terminates, ?_, ?_⟩
  · intro caller callee called
    exact measure_decreases called
  · intro f
    constructor
    · intro solution
      exact solution.unique terminates solves
    · rintro rfl
      exact solves
  · intro call
    exact solves.unrolls terminates call

end Running

end AstSerialize
