import AstSerialize.Wire.Prim
import AstSerialize.Options

/-! Types in the stream: one constructor for each tag, the bytes of a type and
a decoder for them. Every type ends with its location and the end tag. -/
namespace AstSerialize
open Coding

/-- The value of a `RawExpressionType`; only an absent one has a note. -/
inductive RawValue (cv : Nat) where
  | bool (value : Bool)
  | int (value : Int)
  | str (value : Bytes)
  | none (note : cvRawExpressionTypeNotes ≤ cv → Option Bytes)

inductive WType (cv : Nat) where
  | unbound (name : Bytes) (args : List (WType cv)) (emptyTupleIndex : Bool)
      (originalStrExpr originalStrFallback : Option Bytes) (loc : Location)
  | union (left right : WType cv) (originalStrExpr originalStrFallback : Option Bytes)
      (isEvaluated : Bool) (loc : Location)
  | list (items : List (WType cv)) (loc : Location)
  | tuple (items : List (WType cv)) (loc : Location)
  | typedDict (keys : List (Option Bytes)) (values : List (WType cv)) (loc : Location)
  | call (callee : WType cv) (args : List (WType cv)) (keywords : List (Option Bytes × WType cv))
      (loc : Location)
  | ellipsis (loc : Location)
  | unpack (value : WType cv) (loc : Location)
  | raw (base : Bytes) (value : RawValue cv) (loc : Location)

variable {cv : Nat}

def encRawValue : RawValue cv → Bytes
  | .bool value => encBool value
  | .int value => encTaggedInt value
  | .str value => encBytes value
  | .none note => [encTag .literalNone, encGated encBytesOrNone note].flatten

def encNames : List (Option Bytes) → Bytes
  | [] => []
  | name :: names => encBytesOrNone name ++ encNames names

mutual

def encType : WType cv → Bytes
  | .unbound name args emptyTupleIndex expr fallback loc =>
    [encTag .unboundType, encBytes name, encTag .listGen, encCount args.length, encTypes args,
      encBool emptyTupleIndex, encBytesOrNone expr, encBytesOrNone fallback, encLocation loc,
      encTag .end].flatten
  | .union left right expr fallback isEvaluated loc =>
    [encTag .unionType, encTag .listGen, encCount 2, encType left, encType right, encBool true,
      encBytesOrNone expr, encBytesOrNone fallback, encBool isEvaluated, encLocation loc,
      encTag .end].flatten
  | .list items loc =>
    [encTag .listType, encTag .listGen, encCount items.length, encTypes items, encLocation loc,
      encTag .end].flatten
  | .tuple items loc =>
    [encTag .tupleType, encTag .listGen, encCount items.length, encTypes items, encBool true,
      encLocation loc, encTag .end].flatten
  | .typedDict keys values loc =>
    [encTag .typedDictType, encTag .listGen, encCount keys.length, encNames keys, encTag .listGen,
      encCount values.length, encTypes values, encLocation loc, encTag .end].flatten
  | .call callee args keywords loc =>
    [encTag .callType, encType callee, encTag .listGen, encCount args.length, encTypes args,
      encTag .listGen, encCount keywords.length, encKeywordTypes keywords, encLocation loc,
      encTag .end].flatten
  | .ellipsis loc => [encTag .ellipsisType, encLocation loc, encTag .end].flatten
  | .unpack value loc =>
    [encTag .unpackType, encType value, encBool true, encLocation loc, encTag .end].flatten
  | .raw base value loc =>
    [encTag .rawExpressionType, encBytes base, encRawValue value, encLocation loc,
      encTag .end].flatten

def encTypes : List (WType cv) → Bytes
  | [] => []
  | t :: ts => encType t ++ encTypes ts

def encKeywordTypes : List (Option Bytes × WType cv) → Bytes
  | [] => []
  | (name, value) :: keywords =>
    [encBytesOrNone name, encType value].flatten ++ encKeywordTypes keywords

end

/-- A list with its tag and length. -/
def readList {α : Type} (d : Decoder UInt8 α) : Decoder UInt8 (List α) := do
  expectTag .listGen
  let n ← readCount
  times d n

def readRawValue : Decoder UInt8 (RawValue cv) := do
  match ← readTag with
  | .literalFalse => pure (.bool false)
  | .literalTrue => pure (.bool true)
  | .literalInt => .int <$> decodeInt
  | .literalStr => .str <$> readRaw
  | .literalNone => .none <$> readGated readBytesOrNone
  | _ => fun _ => none

def readKeywordType (d : Decoder UInt8 (WType cv)) : Decoder UInt8 (Option Bytes × WType cv) := do
  let name ← readBytesOrNone
  let value ← d
  pure (name, value)

/-- The location, the end tag, and then the node. -/
def closing {α : Type} (f : Location → α) : Decoder UInt8 α := do
  let loc ← readLoc
  expectTag .end
  pure (f loc)

/-- What follows the tag of a type. -/
def decTypeBody (d : Decoder UInt8 (WType cv)) : Tag → Decoder UInt8 (WType cv)
  | .unboundType => do
    let name ← readBytes
    let args ← readList d
    let emptyTupleIndex ← readBool
    let expr ← readBytesOrNone
    let fallback ← readBytesOrNone
    closing (.unbound name args emptyTupleIndex expr fallback)
  | .unionType => do
    expectTag .listGen
    literally (encCount 2)
    let left ← d
    let right ← d
    literally (encBool true)
    let expr ← readBytesOrNone
    let fallback ← readBytesOrNone
    let isEvaluated ← readBool
    closing (.union left right expr fallback isEvaluated)
  | .listType => do
    let items ← readList d
    closing (.list items)
  | .tupleType => do
    let items ← readList d
    literally (encBool true)
    closing (.tuple items)
  | .typedDictType => do
    let keys ← readList readBytesOrNone
    let values ← readList d
    closing (.typedDict keys values)
  | .callType => do
    let callee ← d
    let args ← readList d
    let keywords ← readList (readKeywordType d)
    closing (.call callee args keywords)
  | .ellipsisType => closing .ellipsis
  | .unpackType => do
    let value ← d
    literally (encBool true)
    closing (.unpack value)
  | .rawExpressionType => do
    let base ← readBytes
    let value ← readRawValue
    closing (.raw base value)
  | _ => fun _ => none

def decTypeAt : Nat → Decoder UInt8 (WType cv)
  | 0 => fun _ => none
  | n + 1 => readTag >>= decTypeBody (decTypeAt n)

def decType : Decoder UInt8 (WType cv) := bounded decTypeAt

/-- A list is read when its items are, whatever the fields after it. -/
theorem decodes_list {α γ : Type} {d : Nat → Decoder UInt8 α} {k : Nat → List α → Decoder UInt8 γ}
    {w : Bytes} {ws : List Bytes} {as : List α} {b : γ}
    (items : Decodes (fun n => times (d n) as.length) w as)
    (next : Decodes (fun n => k n as) ws.flatten b) :
    Decodes (fun n => readList (d n) >>= k n)
      (encTag .listGen :: encCount as.length :: w :: ws).flatten b := by
  have list : Decodes (fun n => readList (d n))
      [encTag .listGen, encCount as.length, w].flatten as := by
    refine .step (.const (reads_expectTag _)) (.step (.const (reads_count _)) ?_)
    rw [List.flatten_singleton]
    exact items
  have both := list.bind next
  rwa [← List.flatten_append] at both

theorem decodes_names (names : List (Option Bytes)) :
    Decodes (fun _ => times readBytesOrNone names.length) (encNames names) names :=
  .all rfl (fun _ _ => rfl) reads_bytesOrNone names

theorem reads_rawValue (value : RawValue cv) : Reads readRawValue (encRawValue value) value := by
  cases value with
  | bool value =>
    cases value
    · exact (reads_tag .literalFalse).returns rfl
    · exact (reads_tag .literalTrue).returns rfl
  | int value =>
    rw [encRawValue, encTaggedInt, List.flatten_cons, List.flatten_singleton]
    exact (reads_tag .literalInt).bind ((reads_encodeInt value).map RawValue.int)
  | str value =>
    rw [encRawValue, encBytes, List.flatten_cons, List.flatten_singleton]
    exact (reads_tag .literalStr).bind ((reads_raw value).map RawValue.str)
  | none note =>
    rw [encRawValue, List.flatten_cons, List.flatten_singleton]
    exact (reads_tag .literalNone).bind ((reads_gated reads_bytesOrNone note).map RawValue.none)

theorem decodes_close {α : Type} (f : Location → α) (loc : Location) :
    Decodes (fun _ => closing f) [encLocation loc, encTag .end].flatten (f loc) :=
  .step (.const (reads_loc loc)) (.step (.const (reads_expectTag .end)) (.done _))

/-- The note stands after the value. -/
def RawValue.note : RawValue cv → Bytes
  | .none note => encGated encBytesOrNone note
  | _ => []

def RawValue.isNone : RawValue cv → Bool
  | .none _ => true
  | _ => false

theorem encBytesOrNone_ne_nil (b : Option Bytes) : encBytesOrNone b ≠ [] := by
  cases b <;> simp [encBytesOrNone, encBytes, encTag]

/-- Only the value `None` has a note, from the version on that introduced it. -/
theorem note_iff (value : RawValue cv) :
    value.note ≠ [] ↔ value.isNone = true ∧ cvRawExpressionTypeNotes ≤ cv := by
  cases value with
  | none note =>
    simp only [RawValue.note, RawValue.isNone, encGated, true_and]
    split
    case isTrue there => simp [there, encBytesOrNone_ne_nil]
    case isFalse gone => simp [gone]
  | _ => simp [RawValue.note, RawValue.isNone]

theorem note_suffix (value : RawValue cv) : ∃ fields, encRawValue value = fields ++ value.note := by
  cases value with
  | none note => exact ⟨encTag .literalNone, by simp [encRawValue, RawValue.note]⟩
  | _ => exact ⟨_, (List.append_nil _).symm⟩

mutual

/-- The flags of the unions of a type, in the order of the stream. -/
def unionFlags : WType cv → List Bool
  | .unbound _ args _ _ _ _ => unionFlagsOf args
  | .union left right _ _ isEvaluated _ => unionFlags left ++ unionFlags right ++ [isEvaluated]
  | .list items _ => unionFlagsOf items
  | .tuple items _ => unionFlagsOf items
  | .typedDict _ values _ => unionFlagsOf values
  | .call callee args keywords _ =>
    unionFlags callee ++ unionFlagsOf args ++ unionFlagsOfKeywords keywords
  | .ellipsis _ => []
  | .unpack value _ => unionFlags value
  | .raw _ _ _ => []

def unionFlagsOf : List (WType cv) → List Bool
  | [] => []
  | t :: ts => unionFlags t ++ unionFlagsOf ts

def unionFlagsOfKeywords : List (Option Bytes × WType cv) → List Bool
  | [] => []
  | (_, value) :: keywords => unionFlags value ++ unionFlagsOfKeywords keywords

end

mutual

theorem decodes_type : ∀ t : WType cv, Decodes decTypeAt (encType t) t
  | .unbound name args _ expr fallback _ =>
    .node (fun _ => rfl) (reads_tag .unboundType) (encTag_ne_nil _) <| by
      dsimp only [decTypeBody]
      exact .step (.const (reads_bytes name)) <| decodes_list (decodes_types args) <|
        .step (.const (reads_bool _)) <| .step (.const (reads_bytesOrNone expr)) <|
        .step (.const (reads_bytesOrNone fallback)) <| decodes_close _ _
  | .union left right expr fallback _ _ =>
    .node (fun _ => rfl) (reads_tag .unionType) (encTag_ne_nil _) <| by
      dsimp only [decTypeBody]
      exact .step (.const (reads_expectTag _)) <| .step (.const (reads_literally _)) <|
        .step (decodes_type left) <| .step (decodes_type right) <|
        .step (.const (reads_literally _)) <| .step (.const (reads_bytesOrNone expr)) <|
        .step (.const (reads_bytesOrNone fallback)) <| .step (.const (reads_bool _)) <|
        decodes_close _ _
  | .list items _ =>
    .node (fun _ => rfl) (reads_tag .listType) (encTag_ne_nil _) <| by
      dsimp only [decTypeBody]
      exact decodes_list (decodes_types items) <| decodes_close _ _
  | .tuple items _ =>
    .node (fun _ => rfl) (reads_tag .tupleType) (encTag_ne_nil _) <| by
      dsimp only [decTypeBody]
      exact decodes_list (decodes_types items) <| .step (.const (reads_literally _)) <|
        decodes_close _ _
  | .typedDict keys values _ =>
    .node (fun _ => rfl) (reads_tag .typedDictType) (encTag_ne_nil _) <| by
      dsimp only [decTypeBody]
      exact decodes_list (decodes_names keys) <| decodes_list (decodes_types values) <|
        decodes_close _ _
  | .call callee args keywords _ =>
    .node (fun _ => rfl) (reads_tag .callType) (encTag_ne_nil _) <| by
      dsimp only [decTypeBody]
      exact .step (decodes_type callee) <| decodes_list (decodes_types args) <|
        decodes_list (decodes_keywordTypes keywords) <| decodes_close _ _
  | .ellipsis _ =>
    .node (fun _ => rfl) (reads_tag .ellipsisType) (encTag_ne_nil _) <| by
      dsimp only [decTypeBody]
      exact decodes_close _ _
  | .unpack value _ =>
    .node (fun _ => rfl) (reads_tag .unpackType) (encTag_ne_nil _) <| by
      dsimp only [decTypeBody]
      exact .step (decodes_type value) <| .step (.const (reads_literally _)) <| decodes_close _ _
  | .raw base value _ =>
    .node (fun _ => rfl) (reads_tag .rawExpressionType) (encTag_ne_nil _) <| by
      dsimp only [decTypeBody]
      exact .step (.const (reads_bytes base)) <| .step (.const (reads_rawValue value)) <|
        decodes_close _ _

theorem decodes_types : ∀ ts : List (WType cv),
    Decodes (fun n => times (decTypeAt n) ts.length) (encTypes ts) ts
  | [] => .nil
  | t :: ts => .cons (decodes_type t) (decodes_types ts)

theorem decodes_keywordTypes : ∀ keywords : List (Option Bytes × WType cv),
    Decodes (fun n => times (readKeywordType (decTypeAt n)) keywords.length)
      (encKeywordTypes keywords) keywords
  | [] => .nil
  | (name, value) :: keywords =>
    .cons (.step (.const (reads_bytesOrNone name)) <| .step (decodes_type value) (.done _))
      (decodes_keywordTypes keywords)

end

/-- The decoder undoes the encoding of types on every stream. -/
theorem reads_type (t : WType cv) : Reads decType (encType t) t := (decodes_type t).bounded

end AstSerialize
