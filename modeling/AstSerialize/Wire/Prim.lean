import AstSerialize.Wire.IntSound
import AstSerialize.Text.Location

/-! Tags and scalar fields of the stream, with a decoder for each. -/
namespace AstSerialize
open Coding

/-- The `TAG_` constants. -/
inductive Tag where
  | literalFalse
  | literalTrue
  | literalNone
  | literalInt
  | literalStr
  | literalFloat
  | listGen
  | listInt
  | dictStrGen
  | decorator
  | classDef
  | end
  | location
  | exprStmt
  | callExpr
  | nameExpr
  | strExpr
  | import
  | memberExpr
  | opExpr
  | intExpr
  | if
  | assign
  | tupleExpr
  | block
  | index
  | listExpr
  | setExpr
  | return
  | while
  | comparisonExpr
  | boolOpExpr
  | funcDef
  | passStmt
  | floatExpr
  | unaryExpr
  | dictExpr
  | complexExpr
  | sliceExpr
  | tempNode
  | raiseStmt
  | breakStmt
  | continueStmt
  | generatorExpr
  | yieldExpr
  | yieldFromExpr
  | listComprehension
  | setComprehension
  | dictComprehension
  | importFrom
  | assertStmt
  | forStmt
  | withStmt
  | operatorAssignmentStmt
  | tryStmt
  | ellipsisExpr
  | conditionalExpr
  | delStmt
  | fstringExpr
  | fstringInterpolation
  | lambdaExpr
  | assignmentExpr
  | starExpr
  | bytesExpr
  | globalDecl
  | nonlocalDecl
  | awaitExpr
  | bigIntExpr
  | importAll
  | matchStmt
  | asPattern
  | orPattern
  | valuePattern
  | singletonPattern
  | sequencePattern
  | starredPattern
  | mappingPattern
  | classPattern
  | typeAliasStmt
  | importMetadata
  | importfromMetadata
  | importallMetadata
  | tstringExpr
  | unboundType
  | tupleType
  | typedDictType
  | unionType
  | listType
  | ellipsisType
  | rawExpressionType
  | callType
  | unpackType
  deriving DecidableEq, Repr

def Tag.byte : Tag → UInt8
  | .literalFalse => 0
  | .literalTrue => 1
  | .literalNone => 2
  | .literalInt => 3
  | .literalStr => 4
  | .literalFloat => 6
  | .listGen => 20
  | .listInt => 21
  | .dictStrGen => 30
  | .decorator => 53
  | .classDef => 60
  | .end => 255
  | .location => 152
  | .exprStmt => 160
  | .callExpr => 161
  | .nameExpr => 162
  | .strExpr => 163
  | .import => 164
  | .memberExpr => 165
  | .opExpr => 166
  | .intExpr => 167
  | .if => 168
  | .assign => 169
  | .tupleExpr => 170
  | .block => 171
  | .index => 172
  | .listExpr => 173
  | .setExpr => 174
  | .return => 175
  | .while => 176
  | .comparisonExpr => 177
  | .boolOpExpr => 178
  | .funcDef => 179
  | .passStmt => 180
  | .floatExpr => 181
  | .unaryExpr => 182
  | .dictExpr => 183
  | .complexExpr => 184
  | .sliceExpr => 185
  | .tempNode => 186
  | .raiseStmt => 187
  | .breakStmt => 188
  | .continueStmt => 189
  | .generatorExpr => 190
  | .yieldExpr => 191
  | .yieldFromExpr => 192
  | .listComprehension => 193
  | .setComprehension => 194
  | .dictComprehension => 195
  | .importFrom => 196
  | .assertStmt => 197
  | .forStmt => 198
  | .withStmt => 199
  | .operatorAssignmentStmt => 200
  | .tryStmt => 201
  | .ellipsisExpr => 202
  | .conditionalExpr => 203
  | .delStmt => 204
  | .fstringExpr => 205
  | .fstringInterpolation => 206
  | .lambdaExpr => 207
  | .assignmentExpr => 208
  | .starExpr => 209
  | .bytesExpr => 210
  | .globalDecl => 211
  | .nonlocalDecl => 212
  | .awaitExpr => 213
  | .bigIntExpr => 214
  | .importAll => 215
  | .matchStmt => 216
  | .asPattern => 217
  | .orPattern => 218
  | .valuePattern => 219
  | .singletonPattern => 220
  | .sequencePattern => 221
  | .starredPattern => 222
  | .mappingPattern => 223
  | .classPattern => 224
  | .typeAliasStmt => 225
  | .importMetadata => 226
  | .importfromMetadata => 227
  | .importallMetadata => 228
  | .tstringExpr => 229
  | .unboundType => 104
  | .tupleType => 112
  | .typedDictType => 113
  | .unionType => 115
  | .listType => 118
  | .ellipsisType => 119
  | .rawExpressionType => 120
  | .callType => 121
  | .unpackType => 105

def Tag.all : List Tag :=
  [.literalFalse, .literalTrue, .literalNone, .literalInt, .literalStr, .literalFloat,
    .listGen, .listInt, .dictStrGen, .decorator, .classDef, .end, .location, .exprStmt,
    .callExpr, .nameExpr, .strExpr, .import, .memberExpr, .opExpr, .intExpr, .if, .assign,
    .tupleExpr, .block, .index, .listExpr, .setExpr, .return, .while, .comparisonExpr,
    .boolOpExpr, .funcDef, .passStmt, .floatExpr, .unaryExpr, .dictExpr, .complexExpr,
    .sliceExpr, .tempNode, .raiseStmt, .breakStmt, .continueStmt, .generatorExpr, .yieldExpr,
    .yieldFromExpr, .listComprehension, .setComprehension, .dictComprehension, .importFrom,
    .assertStmt, .forStmt, .withStmt, .operatorAssignmentStmt, .tryStmt, .ellipsisExpr,
    .conditionalExpr, .delStmt, .fstringExpr, .fstringInterpolation, .lambdaExpr,
    .assignmentExpr, .starExpr, .bytesExpr, .globalDecl, .nonlocalDecl, .awaitExpr,
    .bigIntExpr, .importAll, .matchStmt, .asPattern, .orPattern, .valuePattern,
    .singletonPattern, .sequencePattern, .starredPattern, .mappingPattern, .classPattern,
    .typeAliasStmt, .importMetadata, .importfromMetadata, .importallMetadata, .tstringExpr,
    .unboundType, .tupleType, .typedDictType, .unionType, .listType, .ellipsisType,
    .rawExpressionType, .callType, .unpackType]

def Tag.ofByte (b : UInt8) : Option Tag := Tag.all.find? fun t => t.byte = b

/-- No two tags share a byte. -/
theorem Tag.ofByte_byte (t : Tag) : Tag.ofByte t.byte = some t := by
  cases t <;> rfl

theorem Tag.byte_injective : Function.Injective Tag.byte := by
  intro t t' same
  have found : some t = some t' := by
    rw [← ofByte_byte t, same, ofByte_byte]
  exact Option.some.inj found

def readTag : Decoder UInt8 Tag := do
  let b ← item
  match Tag.ofByte b with
  | some t => pure t
  | none => fun _ => none

theorem reads_tag (t : Tag) : Reads readTag [t.byte] t := by
  apply (reads_item t.byte).returns
  rw [Tag.ofByte_byte]

abbrev Bytes := List UInt8

/-- The bytes of a string. -/
def utf8 (s : String) : Bytes := s.toList.flatMap String.utf8EncodeChar

/-- A field that is always the same. -/
def literally (w : Bytes) : Decoder UInt8 Unit := do
  let read ← takeN w.length
  if read = w then pure () else fun _ => none

theorem reads_literally (w : Bytes) : Reads (literally w) w () :=
  (reads_takeN w).returns (if_pos rfl)

def encTag (t : Tag) : Bytes := [t.byte]

def expectTag (t : Tag) : Decoder UInt8 Unit := expect t.byte

theorem reads_expectTag (t : Tag) : Reads (expectTag t) (encTag t) () := reads_expect t.byte

theorem encTag_ne_nil (t : Tag) : encTag t ≠ [] := List.cons_ne_nil _ _

def encBool (b : Bool) : Bytes := encTag (if b then .literalTrue else .literalFalse)

def readBool : Decoder UInt8 Bool := do
  match ← readTag with
  | .literalTrue => pure true
  | .literalFalse => pure false
  | _ => fun _ => none

theorem reads_bool (b : Bool) : Reads readBool (encBool b) b := by
  cases b
  · exact (reads_tag .literalFalse).returns rfl
  · exact (reads_tag .literalTrue).returns rfl

def encTaggedInt (i : Int) : Bytes := [encTag .literalInt, encodeInt i].flatten

def readTaggedInt : Decoder UInt8 Int := do
  expectTag .literalInt
  decodeInt

theorem reads_taggedInt (i : Int) : Reads readTaggedInt (encTaggedInt i) i := by
  refine .step (reads_expectTag _) ?_
  rw [List.flatten_singleton]
  exact reads_encodeInt i

/-- An untagged number of items. -/
def encCount (n : Nat) : Bytes := encodeInt n

def readCount : Decoder UInt8 Nat := Int.toNat <$> decodeInt

theorem reads_count (n : Nat) : Reads readCount (encCount n) n :=
  (reads_encodeInt n).map Int.toNat

def encTaggedCount (n : Nat) : Bytes := encTaggedInt n

def readTaggedCount : Decoder UInt8 Nat := Int.toNat <$> readTaggedInt

theorem reads_taggedCount (n : Nat) : Reads readTaggedCount (encTaggedCount n) n :=
  (reads_taggedInt n).map Int.toNat

/-- The fields of `write_bytes` after its tag. -/
def encRaw (b : Bytes) : Bytes := [encCount b.length, b].flatten

def readRaw : Decoder UInt8 Bytes := do
  let n ← readCount
  takeN n

theorem reads_raw (b : Bytes) : Reads readRaw (encRaw b) b := by
  refine .step (reads_count _) ?_
  rw [List.flatten_singleton]
  exact reads_takeN b

def encBytes (b : Bytes) : Bytes := [encTag .literalStr, encRaw b].flatten

def readBytes : Decoder UInt8 Bytes := do
  expectTag .literalStr
  readRaw

theorem reads_bytes (b : Bytes) : Reads readBytes (encBytes b) b := by
  refine .step (reads_expectTag _) ?_
  rw [List.flatten_singleton]
  exact reads_raw b

/-- A string, or the tag of `None` in its place. -/
def encBytesOrNone : Option Bytes → Bytes
  | none => encTag .literalNone
  | some b => encBytes b

def readBytesOrNone : Decoder UInt8 (Option Bytes) := do
  match ← readTag with
  | .literalNone => pure none
  | .literalStr => some <$> readRaw
  | _ => fun _ => none

theorem reads_bytesOrNone (b : Option Bytes) : Reads readBytesOrNone (encBytesOrNone b) b := by
  cases b with
  | none => exact (reads_tag .literalNone).returns rfl
  | some b =>
    rw [encBytesOrNone, encBytes, List.flatten_cons, List.flatten_singleton]
    exact (reads_tag .literalStr).bind ((reads_raw b).map some)

/-- A flag, then the field if there is one. -/
def encOption {α : Type} (enc : α → Bytes) : Option α → Bytes
  | none => encBool false
  | some a => [encBool true, enc a].flatten

def readOption {α : Type} (d : Decoder UInt8 α) : Decoder UInt8 (Option α) := do
  if ← readBool then some <$> d else pure none

theorem decodes_none {α : Type} {d : Nat → Decoder UInt8 α} :
    Decodes (fun n => readOption (d n)) (encBool false) none :=
  fun _ _ => (reads_bool false).returns rfl

theorem decodes_some {α : Type} {d : Nat → Decoder UInt8 α} {w : Bytes} {a : α}
    (h : Decodes d w a) :
    Decodes (fun n => readOption (d n)) [encBool true, w].flatten (some a) := by
  refine .step (.const (reads_bool true)) (.last ?_)
  exact h.map some

theorem reads_option {α : Type} {d : Decoder UInt8 α} {enc : α → Bytes}
    (each : ∀ a, Reads d (enc a) a) (o : Option α) : Reads (readOption d) (encOption enc o) o := by
  cases o with
  | none => exact decodes_none (d := fun _ => d) _ (Nat.le_refl _)
  | some a => exact decodes_some (d := fun _ => d) (.const (each a)) _ (Nat.le_refl _)

/-- A field that is there only from some cache version on. -/
def encGated {p : Prop} [Decidable p] {α : Type} (enc : α → Bytes) (field : p → α) : Bytes :=
  if h : p then enc (field h) else []

def readGated {p : Prop} [Decidable p] {α : Type} (d : Decoder UInt8 α) :
    Decoder UInt8 (p → α) :=
  if h : p then (fun a _ => a) <$> d else pure fun there => absurd there h

theorem reads_gated {p : Prop} [Decidable p] {α : Type} {d : Decoder UInt8 α} {enc : α → Bytes}
    (each : ∀ a, Reads d (enc a) a) (field : p → α) :
    Reads (readGated d) (encGated enc field) field := by
  by_cases h : p
  · simp only [readGated, encGated, dif_pos h]
    exact (each (field h)).map fun a _ => a
  · have only : field = fun there => absurd there h := funext fun there => absurd there h
    simp only [readGated, encGated, dif_neg h]
    rw [only]
    exact .pure _

def encLocation (l : Location) : Bytes :=
  [encTag .location, encodeInt l.line, encodeInt l.column, encodeInt l.endLine,
    encodeInt l.endColumn].flatten

def readLocationTail : Decoder UInt8 Location := do
  let line ← decodeInt
  let column ← decodeInt
  let endLine ← decodeInt
  let endColumn ← decodeInt
  pure ⟨line, column, endLine, endColumn⟩

def readLoc : Decoder UInt8 Location := do
  expectTag .location
  readLocationTail

theorem reads_loc (l : Location) : Reads readLoc (encLocation l) l :=
  .step (reads_expectTag _) <| .step (reads_encodeInt _) <| .step (reads_encodeInt _) <|
    .step (reads_encodeInt _) <| .step (reads_encodeInt _) (.done _)

end AstSerialize
