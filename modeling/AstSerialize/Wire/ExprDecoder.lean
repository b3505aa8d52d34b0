import AstSerialize.Wire.Expr

/-! The decoder of expressions, and that it undoes the encoding on every stream. -/
namespace AstSerialize
open Coding

variable {cv : Nat}

def WComprehension.target : WComprehension cv → WExpr cv
  | .mk target _ _ _ => target

def WComprehension.iter : WComprehension cv → WExpr cv
  | .mk _ iter _ _ => iter

def WComprehension.ifs : WComprehension cv → List (WExpr cv)
  | .mk _ _ ifs _ => ifs

def WComprehension.isAsync : WComprehension cv → Bool
  | .mk _ _ _ isAsync => isAsync

/-- The stream lists the comprehensions of an expression field by field. -/
def zipComprehensions : List (WExpr cv) → List (WExpr cv) → List (List (WExpr cv)) → List Bool →
    List (WComprehension cv)
  | target :: targets, iter :: iters, ifs :: conds, isAsync :: asyncs =>
    .mk target iter ifs isAsync :: zipComprehensions targets iters conds asyncs
  | _, _, _, _ => []

theorem zipComprehensions_fields (generators : List (WComprehension cv)) :
    zipComprehensions (generators.map (·.target)) (generators.map (·.iter))
      (generators.map (·.ifs)) (generators.map (·.isAsync)) = generators := by
  induction generators with
  | nil => rfl
  | cons generator generators ih =>
    cases generator
    simp only [List.map_cons, zipComprehensions, ih]
    rfl

def readFloat : Decoder UInt8 UInt64 := do
  expectTag .literalFloat
  (fun bytes => UInt64.ofNat (ofLeBytes bytes)) <$> takeN 8

/-- A list with the tag of a list of integers. -/
def readInts : Decoder UInt8 (List Int) := do
  expectTag .listInt
  let n ← readCount
  times decodeInt n

/-- A list whose length is a tagged integer. -/
def readTaggedList {α : Type} (d : Decoder UInt8 α) : Decoder UInt8 (List α) := do
  let n ← readTaggedCount
  times d n

def readComprehensions (d : Decoder UInt8 (WExpr cv)) : Decoder UInt8 (List (WComprehension cv)) := do
  let n ← readTaggedCount
  let targets ← times d n
  let iters ← times d n
  let conds ← times (readList d) n
  let asyncs ← times readBool n
  pure (zipComprehensions targets iters conds asyncs)

def readParameter (d : Decoder UInt8 (WExpr cv)) : Decoder UInt8 (WParameter cv) := do
  let name ← readBytes
  let kind ← readTaggedInt
  let type ← readOption decType
  let default ← readOption d
  let posOnly ← readBool
  let loc ← readLoc
  pure (.mk name kind type default posOnly loc)

def readFormatSpec (e : Decoder UInt8 (WFStringElement cv)) : Decoder UInt8 (WFormatSpec cv) := do
  let elements ← readTaggedList e
  let loc ← readLoc
  pure (.mk elements loc)

def readFStringPart (e : Decoder UInt8 (WFStringElement cv)) : Decoder UInt8 (WFStringPart cv) := do
  match ← readBool with
  | true => .fString <$> readTaggedList e
  | false => do
    let value ← readBytes
    let loc ← readLoc
    pure (.literal value loc)

def readTStringPart (d : Decoder UInt8 (WExpr cv)) (e : Decoder UInt8 (WFStringElement cv)) :
    Decoder UInt8 (WTStringPart cv) := do
  match ← readBool with
  | true => do
    let expression ← d
    let text ← readBytes
    let conversion ← readOption readBytes
    let formatSpec ← readOption (readFormatSpec e)
    pure (.interpolation expression text conversion formatSpec)
  | false => do
    let value ← readBytes
    let loc ← readLoc
    pure (.literal value loc)

/-- What follows the tag of an element of an f-string. -/
def decElementBody (d : Decoder UInt8 (WExpr cv)) (e : Decoder UInt8 (WFStringElement cv)) :
    Tag → Decoder UInt8 (WFStringElement cv)
  | .literalStr => do
    let value ← readRaw
    let loc ← readLoc
    pure (.literal value loc)
  | .fstringInterpolation => do
    let expression ← d
    let conversion ← readOption readBytes
    let formatSpec ← readOption (readFormatSpec e)
    expectTag .end
    pure (.interpolation expression conversion formatSpec)
  | _ => fun _ => none

def readNone : Decoder UInt8 Location := do
  expectTag .nameExpr
  let _ ← readBytes
  readLoc

/-- The name of a recovered key. It has no end tag, so what follows it is the value. -/
def readRecovered : Decoder UInt8 Location := fun s =>
  match readNone s with
  | some (loc, rest) => if rest.head? = some Tag.end.byte then none else some (loc, rest)
  | none => none

/-- The key and the value of a dictionary comprehension that must have a key. -/
def readKeyed (d : Decoder UInt8 (WExpr cv)) : Decoder UInt8 (WKey cv × WExpr cv) := fun s =>
  match readRecovered s with
  | some (loc, rest) => ((fun value => (.recovered loc, value)) <$> d).run rest
  | none => ((fun key value => (.expr key, value)) <$> d <*> d).run s

/-- What follows the tag of an expression. -/
def decExprBody (d : Decoder UInt8 (WExpr cv)) (e : Decoder UInt8 (WFStringElement cv)) :
    Tag → Decoder UInt8 (WExpr cv)
  | .nameExpr => do
    let id ← readBytes
    closing (.name id)
  | .memberExpr => do
    let value ← d
    let attr ← readBytes
    closing (.member value attr)
  | .strExpr => do
    let value ← readBytes
    let surrogates ← readGated readBool
    closing (.str value surrogates)
  | .callExpr => do
    let func ← d
    let args ← readList d
    let kinds ← readInts
    let names ← readList readBytesOrNone
    closing (.call func args kinds names)
  | .opExpr => do
    let op ← readTaggedInt
    let left ← d
    let right ← d
    expectTag .end
    pure (.op op left right)
  | .intExpr => do
    let value ← readTaggedInt
    closing (.int value)
  | .bigIntExpr => do
    let text ← readBytes
    closing (.bigInt text)
  | .floatExpr => do
    let bits ← readFloat
    closing (.float bits)
  | .complexExpr => do
    let real ← readFloat
    let imag ← readFloat
    closing (.complex real imag)
  | .index => do
    let value ← d
    let slice ← d
    closing (.index value slice)
  | .listExpr => do
    let elts ← readList d
    closing (.list elts)
  | .tupleExpr => do
    let elts ← readList d
    closing (.tuple elts)
  | .setExpr => do
    let elts ← readList d
    closing (.set elts)
  | .generatorExpr => do
    let elt ← d
    let generators ← readComprehensions d
    closing (.generator elt generators)
  | .listComprehension => do
    let elt ← d
    let generators ← readComprehensions d
    closing (.listComp elt generators)
  | .setComprehension => do
    let elt ← d
    let generators ← readComprehensions d
    closing (.setComp elt generators)
  | .dictComprehension =>
    if optional : cvDictKeyOpt ≤ cv then do
      let key ← readOption d
      let value ← d
      let generators ← readComprehensions d
      closing (.dictComp optional key value generators)
    else do
      let keyed ← readKeyed d
      let generators ← readComprehensions d
      closing (.dictCompKeyed (Nat.lt_of_not_le optional) keyed.1 keyed.2 generators)
  | .yieldExpr => do
    let value ← readOption d
    closing (.yield value)
  | .yieldFromExpr => do
    let value ← d
    closing (.yieldFrom value)
  | .boolOpExpr => do
    let op ← readTaggedInt
    let values ← readList d
    closing (.boolOp op values)
  | .comparisonExpr => do
    let left ← d
    let ops ← readInts
    let comparators ← readList d
    closing (.comparison left ops comparators)
  | .ellipsisExpr => closing .ellipsis
  | .conditionalExpr => do
    let body ← d
    let test ← d
    let orelse ← d
    closing (.conditional body test orelse)
  | .unaryExpr => do
    let op ← readTaggedInt
    let operand ← d
    closing (.unary op operand)
  | .dictExpr => do
    let keys ← readList (readOption d)
    let values ← readList d
    closing (.dict keys values)
  | .sliceExpr => do
    let lower ← readOption d
    let upper ← readOption d
    let step ← readOption d
    closing (.slice lower upper step)
  | .fstringExpr => do
    let parts ← readTaggedList (readFStringPart e)
    let surrogates ← readGated readBool
    closing (.fString parts surrogates)
  | .lambdaExpr => do
    let parameters ← readList (readParameter d)
    expectTag .block
    expectTag .listGen
    literally (encCount 1)
    let unreachable ← readBool
    expectTag .return
    literally (encBool true)
    let body ← d
    let bodyLoc ← readLoc
    expectTag .end
    expectTag .end
    closing (.lambda parameters unreachable body bodyLoc)
  | .assignmentExpr => do
    let target ← d
    let value ← d
    closing (.assignment target value)
  | .starExpr => do
    let value ← d
    closing (.star value)
  | .bytesExpr => do
    let text ← readBytes
    closing (.bytes text)
  | .awaitExpr => do
    let value ← d
    closing (.await value)
  | .tstringExpr => do
    let parts ← readTaggedList (readTStringPart d e)
    let surrogates ← readGated readBool
    closing (.tString parts surrogates)
  | .tempNode => do
    expectTag .end
    pure .temp
  | _ => fun _ => none

mutual

def decExprAt : Nat → Decoder UInt8 (WExpr cv)
  | 0 => fun _ => none
  | n + 1 => readTag >>= decExprBody (decExprAt n) (decElementAt n)

def decElementAt : Nat → Decoder UInt8 (WFStringElement cv)
  | 0 => fun _ => none
  | n + 1 => readTag >>= decElementBody (decExprAt n) (decElementAt n)

end

def decExpr : Decoder UInt8 (WExpr cv) := bounded decExprAt

section Lists

variable {α : Type} {d : Nat → Decoder UInt8 α}

theorem decodes_listed {w : Bytes} {as : List α}
    (items : Decodes (fun n => times (d n) as.length) w as) :
    Decodes (fun n => readList (d n)) (encListed as.length w) as := by
  refine .step (.const (reads_expectTag _)) (.step (.const (reads_count _)) ?_)
  rw [List.flatten_singleton]
  exact items

theorem decodes_taggedList {w : Bytes} {as : List α}
    (items : Decodes (fun n => times (d n) as.length) w as) :
    Decodes (fun n => readTaggedList (d n)) [encTaggedCount as.length, w].flatten as := by
  refine .step (.const (reads_taggedCount _)) ?_
  rw [List.flatten_singleton]
  exact items

/-- A counted list whose count and items are separate fields of what it stands in. -/
theorem decodes_counted {γ : Type} {k : Nat → List α → Decoder UInt8 γ} {w : Bytes}
    {ws : List Bytes} {as : List α} {b : γ}
    (items : Decodes (fun n => times (d n) as.length) w as)
    (next : Decodes (fun n => k n as) ws.flatten b) :
    Decodes (fun n => readTaggedList (d n) >>= k n) (encTaggedCount as.length :: w :: ws).flatten
      b := by
  have both := (decodes_taggedList items).bind next
  rwa [← List.flatten_append] at both

theorem decodes_ints (is : List Int) :
    Decodes (fun _ => times decodeInt is.length) (encInts is) is :=
  .all rfl (fun _ _ => rfl) reads_encodeInt is

theorem decodes_intList {γ : Type} {k : Nat → List Int → Decoder UInt8 γ} {ws : List Bytes}
    (is : List Int) {b : γ} (next : Decodes (fun n => k n is) ws.flatten b) :
    Decodes (fun n => readInts >>= k n)
      (encTag .listInt :: encCount is.length :: encInts is :: ws).flatten b := by
  have list : Decodes (fun _ => readInts)
      [encTag .listInt, encCount is.length, encInts is].flatten is := by
    refine .step (.const (reads_expectTag _)) (.step (.const (reads_count _)) ?_)
    rw [List.flatten_singleton]
    exact decodes_ints is
  have both := list.bind next
  rwa [← List.flatten_append] at both

end Lists

theorem reads_float (bits : UInt64) : Reads readFloat (encFloat bits) bits := by
  refine .step (reads_expectTag _) ?_
  rw [List.flatten_singleton]
  have eight : Reads (takeN 8) (leBytes 8 bits.toNat) (leBytes 8 bits.toNat) := by
    have taken := reads_takeN (leBytes 8 bits.toNat)
    rwa [leBytes_length] at taken
  have back : UInt64.ofNat (ofLeBytes (leBytes 8 bits.toNat)) = bits := by
    rw [ofLeBytes_leBytes _ _ bits.toNat_lt, UInt64.ofNat_toNat]
  have read := eight.map fun bytes => UInt64.ofNat (ofLeBytes bytes)
  rwa [back] at read

theorem decodes_asyncs (generators : List (WComprehension cv)) :
    Decodes (fun _ => times readBool generators.length) (encAsyncs generators)
      (generators.map (·.isAsync)) :=
  .column (fun generator => encBool generator.isAsync) _ rfl (fun ⟨_, _, _, _⟩ _ => rfl)
    (fun generator => reads_bool generator.isAsync) generators

/-- The comprehensions of an expression, from their four columns. -/
theorem decodes_comprehensions {γ : Type} {d : Nat → Decoder UInt8 (WExpr cv)}
    {k : Nat → List (WComprehension cv) → Decoder UInt8 γ} {ws : List Bytes}
    {generators : List (WComprehension cv)} {b : γ} {targets iters conds : Bytes}
    (readTargets : Decodes (fun n => times (d n) generators.length) targets
      (generators.map (·.target)))
    (readIters : Decodes (fun n => times (d n) generators.length) iters (generators.map (·.iter)))
    (readConds : Decodes (fun n => times (readList (d n)) generators.length) conds
      (generators.map (·.ifs)))
    (next : Decodes (fun n => k n generators) ws.flatten b) :
    Decodes (fun n => readComprehensions (d n) >>= k n)
      (encTaggedCount generators.length :: targets :: iters :: conds :: encAsyncs generators
        :: ws).flatten b := by
  have columns : Decodes (fun n => readComprehensions (d n))
      [encTaggedCount generators.length, targets, iters, conds, encAsyncs generators].flatten
      generators := by
    refine .step (.const (reads_taggedCount _)) <| .step readTargets <| .step readIters <|
      .step readConds <| .step (decodes_asyncs generators) ?_
    rw [zipComprehensions_fields]
    exact .done _
  have both := columns.bind next
  rwa [← List.flatten_append] at both

/-- The first byte of an expression. -/
def exprTag : WExpr cv → Tag
  | .name .. => .nameExpr
  | .member .. => .memberExpr
  | .str .. => .strExpr
  | .call .. => .callExpr
  | .op .. => .opExpr
  | .int .. => .intExpr
  | .bigInt .. => .bigIntExpr
  | .float .. => .floatExpr
  | .complex .. => .complexExpr
  | .index .. => .index
  | .list .. => .listExpr
  | .tuple .. => .tupleExpr
  | .set .. => .setExpr
  | .generator .. => .generatorExpr
  | .listComp .. => .listComprehension
  | .setComp .. => .setComprehension
  | .dictComp .. => .dictComprehension
  | .dictCompKeyed .. => .dictComprehension
  | .yield .. => .yieldExpr
  | .yieldFrom .. => .yieldFromExpr
  | .boolOp .. => .boolOpExpr
  | .comparison .. => .comparisonExpr
  | .ellipsis .. => .ellipsisExpr
  | .conditional .. => .conditionalExpr
  | .unary .. => .unaryExpr
  | .dict .. => .dictExpr
  | .slice .. => .sliceExpr
  | .fString .. => .fstringExpr
  | .lambda .. => .lambdaExpr
  | .assignment .. => .assignmentExpr
  | .star .. => .starExpr
  | .bytes .. => .bytesExpr
  | .await .. => .awaitExpr
  | .tString .. => .tstringExpr
  | .temp => .tempNode

theorem encExpr_head (e : WExpr cv) : ∃ tail, encExpr e = (exprTag e).byte :: tail := by
  cases e <;> exact ⟨_, rfl⟩

theorem exprTag_ne_end (e : WExpr cv) : (exprTag e).byte ≠ Tag.end.byte := by
  intro same
  have tags := Tag.byte_injective same
  cases e <;> cases tags

theorem exprTag_eq_name (e : WExpr cv) (h : exprTag e = .nameExpr) :
    ∃ id loc, e = .name id loc := by
  cases e with
  | name id loc => exact ⟨id, loc, rfl⟩
  | _ => cases h

theorem reads_none (id : Bytes) (loc : Location) :
    Reads readNone [encTag .nameExpr, encBytes id, encLocation loc].flatten loc := by
  refine .step (reads_expectTag _) <| .step (reads_bytes id) ?_
  rw [List.flatten_singleton]
  exact reads_loc loc

theorem readNone_other {t : Tag} (other : t ≠ .nameExpr) (r : Bytes) :
    readNone (t.byte :: r) = none := by
  have fails : expectTag .nameExpr (t.byte :: r) = none :=
    if_neg fun same => other (Tag.byte_injective same)
  change (expectTag .nameExpr >>= _ : Decoder UInt8 Location).run (t.byte :: r) = none
  rw [StateT.run_bind]
  change (expectTag .nameExpr (t.byte :: r) >>= _) = none
  rw [fails]
  rfl

/-- No expression is taken for a recovered key: a name has its end tag. -/
theorem readRecovered_expr (e : WExpr cv) (r : Bytes) : readRecovered (encExpr e ++ r) = none := by
  by_cases name : exprTag e = .nameExpr
  · obtain ⟨id, loc, rfl⟩ := exprTag_eq_name e name
    have ended : encExpr (.name id loc : WExpr cv) ++ r
        = [encTag .nameExpr, encBytes id, encLocation loc].flatten ++ (encTag .end ++ r) := by
      simp [encExpr]
    rw [readRecovered, ended, (reads_none id loc).run_eq]
    rfl
  · obtain ⟨tail, head⟩ := encExpr_head e
    rw [readRecovered, head, List.cons_append, readNone_other name]

/-- Behind the name of a recovered key there is an expression, so no end tag. -/
theorem readRecovered_none (loc : Location) (value : WExpr cv) (r : Bytes) :
    readRecovered (encKey (.recovered loc : WKey cv) ++ (encExpr value ++ r))
      = some (loc, encExpr value ++ r) := by
  obtain ⟨tail, head⟩ := encExpr_head value
  have goesOn : (encExpr value ++ r).head? ≠ some Tag.end.byte := by
    rw [head]
    simpa using exprTag_ne_end value
  rw [readRecovered, encKey, (reads_none _ loc).run_eq]
  exact if_neg goesOn

/-- A key that is an expression is read as one. -/
def KeyDecodes : WKey cv → Prop
  | .expr key => Decodes decExprAt (encExpr key) key
  | .recovered _ => True

theorem decodes_keyPair {key : WKey cv} {value : WExpr cv} (readsKey : KeyDecodes key)
    (readsValue : Decodes decExprAt (encExpr value) value) :
    Decodes (fun n => readKeyed (decExprAt n)) (encKey key ++ encExpr value) (key, value) := by
  intro n covers r
  rw [List.length_append] at covers
  change readKeyed (decExprAt n) _ = _
  rw [readKeyed, List.append_assoc]
  cases key with
  | expr key =>
    rw [encKey, readRecovered_expr]
    have both : Reads ((fun key value => (WKey.expr key, value)) <$> decExprAt n <*> decExprAt n)
        (encExpr key ++ encExpr value) (.expr key, value) := by
      rw [seq_eq_bind_map]
      exact ((readsKey n (by rw [encKey] at covers; omega)).map _).bind
        ((readsValue n (by omega)).map _)
    simpa using both r
  | recovered loc =>
    rw [readRecovered_none]
    exact (readsValue n (by omega)).map (fun value => (WKey.recovered loc, value)) r

theorem decodes_keyed {γ : Type} {k : Nat → WKey cv × WExpr cv → Decoder UInt8 γ}
    {ws : List Bytes} {b : γ} {key : WKey cv} {value : WExpr cv} (readsKey : KeyDecodes key)
    (readsValue : Decodes decExprAt (encExpr value) value)
    (next : Decodes (fun n => k n (key, value)) ws.flatten b) :
    Decodes (fun n => readKeyed (decExprAt n) >>= k n) (encKey key :: encExpr value :: ws).flatten
      b := by
  have both := (decodes_keyPair readsKey readsValue).bind next
  rwa [List.append_assoc] at both

theorem decodes_literalElement (value : Bytes) (loc : Location) :
    Decodes (decElementAt : Nat → Decoder UInt8 (WFStringElement cv))
      [encBytes value, encLocation loc].flatten (.literal value loc) := by
  have node : Decodes (decElementAt : Nat → Decoder UInt8 (WFStringElement cv))
      [encTag .literalStr, encRaw value, encLocation loc].flatten (.literal value loc) :=
    .node (fun _ => rfl) (reads_tag .literalStr) (encTag_ne_nil _) <| by
      dsimp only [decElementBody]
      exact .step (.const (reads_raw value)) <| .step (.const (reads_loc loc)) (.done _)
  rw [encBytes, List.flatten_cons, List.flatten_cons, List.flatten_singleton, List.append_assoc]
  exact node

mutual

theorem decodes_expr : ∀ e : WExpr cv, Decodes decExprAt (encExpr e) e
  | .name id _ =>
    .node (fun _ => rfl) (reads_tag .nameExpr) (encTag_ne_nil _) <| by
      dsimp only [decExprBody]
      exact .step (.const (reads_bytes id)) <| decodes_close _ _
  | .member value attr _ =>
    .node (fun _ => rfl) (reads_tag .memberExpr) (encTag_ne_nil _) <| by
      dsimp only [decExprBody]
      exact .step (decodes_expr value) <| .step (.const (reads_bytes attr)) <| decodes_close _ _
  | .str value surrogates _ =>
    .node (fun _ => rfl) (reads_tag .strExpr) (encTag_ne_nil _) <| by
      dsimp only [decExprBody]
      exact .step (.const (reads_bytes value)) <| .step (.const (reads_gated reads_bool surrogates)) <| decodes_close _ _
  | .call func args kinds names _ =>
    .node (fun _ => rfl) (reads_tag .callExpr) (encTag_ne_nil _) <| by
      dsimp only [decExprBody]
      exact .step (decodes_expr func) <| .step (decodes_listed (decodes_exprs args)) <|
        decodes_intList kinds <| decodes_list (decodes_names names) <| decodes_close _ _
  | .op op left right =>
    .node (fun _ => rfl) (reads_tag .opExpr) (encTag_ne_nil _) <| by
      dsimp only [decExprBody]
      exact .step (.const (reads_taggedInt op)) <| .step (decodes_expr left) <|
        .step (decodes_expr right) <| .step (.const (reads_expectTag _)) (.done _)
  | .int value _ =>
    .node (fun _ => rfl) (reads_tag .intExpr) (encTag_ne_nil _) <| by
      dsimp only [decExprBody]
      exact .step (.const (reads_taggedInt value)) <| decodes_close _ _
  | .bigInt text _ =>
    .node (fun _ => rfl) (reads_tag .bigIntExpr) (encTag_ne_nil _) <| by
      dsimp only [decExprBody]
      exact .step (.const (reads_bytes text)) <| decodes_close _ _
  | .float bits _ =>
    .node (fun _ => rfl) (reads_tag .floatExpr) (encTag_ne_nil _) <| by
      dsimp only [decExprBody]
      exact .step (.const (reads_float bits)) <| decodes_close _ _
  | .complex real imag _ =>
    .node (fun _ => rfl) (reads_tag .complexExpr) (encTag_ne_nil _) <| by
      dsimp only [decExprBody]
      exact .step (.const (reads_float real)) <| .step (.const (reads_float imag)) <| decodes_close _ _
  | .index value slice _ =>
    .node (fun _ => rfl) (reads_tag .index) (encTag_ne_nil _) <| by
      dsimp only [decExprBody]
      exact .step (decodes_expr value) <| .step (decodes_expr slice) <| decodes_close _ _
  | .list elts _ =>
    .node (fun _ => rfl) (reads_tag .listExpr) (encTag_ne_nil _) <| by
      dsimp only [decExprBody]
      exact .step (decodes_listed (decodes_exprs elts)) <| decodes_close _ _
  | .tuple elts _ =>
    .node (fun _ => rfl) (reads_tag .tupleExpr) (encTag_ne_nil _) <| by
      dsimp only [decExprBody]
      exact .step (decodes_listed (decodes_exprs elts)) <| decodes_close _ _
  | .set elts _ =>
    .node (fun _ => rfl) (reads_tag .setExpr) (encTag_ne_nil _) <| by
      dsimp only [decExprBody]
      exact .step (decodes_listed (decodes_exprs elts)) <| decodes_close _ _
  | .generator elt generators _ =>
    .node (fun _ => rfl) (reads_tag .generatorExpr) (encTag_ne_nil _) <| by
      dsimp only [decExprBody]
      exact .step (decodes_expr elt) <| decodes_comprehensions (decodes_targets generators)
        (decodes_iters generators) (decodes_conds generators) <| decodes_close _ _
  | .listComp elt generators _ =>
    .node (fun _ => rfl) (reads_tag .listComprehension) (encTag_ne_nil _) <| by
      dsimp only [decExprBody]
      exact .step (decodes_expr elt) <| decodes_comprehensions (decodes_targets generators)
        (decodes_iters generators) (decodes_conds generators) <| decodes_close _ _
  | .setComp elt generators _ =>
    .node (fun _ => rfl) (reads_tag .setComprehension) (encTag_ne_nil _) <| by
      dsimp only [decExprBody]
      exact .step (decodes_expr elt) <| decodes_comprehensions (decodes_targets generators)
        (decodes_iters generators) (decodes_conds generators) <| decodes_close _ _
  | .dictComp optional key value generators _ =>
    .node (fun _ => rfl) (reads_tag .dictComprehension) (encTag_ne_nil _) <| by
      dsimp only [decExprBody]
      simp only [dif_pos optional]
      exact .step (decodes_optExpr key) <| .step (decodes_expr value) <|
        decodes_comprehensions (decodes_targets generators) (decodes_iters generators)
          (decodes_conds generators) <| decodes_close _ _
  | .dictCompKeyed required key value generators _ =>
    .node (fun _ => rfl) (reads_tag .dictComprehension) (encTag_ne_nil _) <| by
      dsimp only [decExprBody]
      simp only [dif_neg (Nat.not_le_of_lt required)]
      exact decodes_keyed (decodes_key key) (decodes_expr value) <|
        decodes_comprehensions (decodes_targets generators) (decodes_iters generators)
          (decodes_conds generators) <| decodes_close _ _
  | .yield value _ =>
    .node (fun _ => rfl) (reads_tag .yieldExpr) (encTag_ne_nil _) <| by
      dsimp only [decExprBody]
      exact .step (decodes_optExpr value) <| decodes_close _ _
  | .yieldFrom value _ =>
    .node (fun _ => rfl) (reads_tag .yieldFromExpr) (encTag_ne_nil _) <| by
      dsimp only [decExprBody]
      exact .step (decodes_expr value) <| decodes_close _ _
  | .boolOp op values _ =>
    .node (fun _ => rfl) (reads_tag .boolOpExpr) (encTag_ne_nil _) <| by
      dsimp only [decExprBody]
      exact .step (.const (reads_taggedInt op)) <| .step (decodes_listed (decodes_exprs values)) <| decodes_close _ _
  | .comparison left ops comparators _ =>
    .node (fun _ => rfl) (reads_tag .comparisonExpr) (encTag_ne_nil _) <| by
      dsimp only [decExprBody]
      exact .step (decodes_expr left) <| decodes_intList ops <|
        .step (decodes_listed (decodes_exprs comparators)) <| decodes_close _ _
  | .ellipsis _ =>
    .node (fun _ => rfl) (reads_tag .ellipsisExpr) (encTag_ne_nil _) <| by
      dsimp only [decExprBody]
      exact decodes_close _ _
  | .conditional body test orelse _ =>
    .node (fun _ => rfl) (reads_tag .conditionalExpr) (encTag_ne_nil _) <| by
      dsimp only [decExprBody]
      exact .step (decodes_expr body) <| .step (decodes_expr test) <|
        .step (decodes_expr orelse) <| decodes_close _ _
  | .unary op operand _ =>
    .node (fun _ => rfl) (reads_tag .unaryExpr) (encTag_ne_nil _) <| by
      dsimp only [decExprBody]
      exact .step (.const (reads_taggedInt op)) <| .step (decodes_expr operand) <| decodes_close _ _
  | .dict keys values _ =>
    .node (fun _ => rfl) (reads_tag .dictExpr) (encTag_ne_nil _) <| by
      dsimp only [decExprBody]
      exact decodes_list (decodes_optExprs keys) <| decodes_list (decodes_exprs values) <|
        decodes_close _ _
  | .slice lower upper step _ =>
    .node (fun _ => rfl) (reads_tag .sliceExpr) (encTag_ne_nil _) <| by
      dsimp only [decExprBody]
      exact .step (decodes_optExpr lower) <| .step (decodes_optExpr upper) <|
        .step (decodes_optExpr step) <| decodes_close _ _
  | .fString parts surrogates _ =>
    .node (fun _ => rfl) (reads_tag .fstringExpr) (encTag_ne_nil _) <| by
      dsimp only [decExprBody]
      exact decodes_counted (decodes_fStringParts parts) <|
        .step (.const (reads_gated reads_bool surrogates)) <| decodes_close _ _
  | .lambda parameters _ body bodyLoc _ =>
    .node (fun _ => rfl) (reads_tag .lambdaExpr) (encTag_ne_nil _) <| by
      dsimp only [decExprBody]
      exact .step (decodes_listed (decodes_parameters parameters)) <|
        .step (.const (reads_expectTag _)) <| .step (.const (reads_expectTag _)) <|
        .step (.const (reads_literally _)) <| .step (.const (reads_bool _)) <|
        .step (.const (reads_expectTag _)) <| .step (.const (reads_literally _)) <|
        .step (decodes_expr body) <| .step (.const (reads_loc bodyLoc)) <|
        .step (.const (reads_expectTag _)) <| .step (.const (reads_expectTag _)) <|
        decodes_close _ _
  | .assignment target value _ =>
    .node (fun _ => rfl) (reads_tag .assignmentExpr) (encTag_ne_nil _) <| by
      dsimp only [decExprBody]
      exact .step (decodes_expr target) <| .step (decodes_expr value) <| decodes_close _ _
  | .star value _ =>
    .node (fun _ => rfl) (reads_tag .starExpr) (encTag_ne_nil _) <| by
      dsimp only [decExprBody]
      exact .step (decodes_expr value) <| decodes_close _ _
  | .bytes text _ =>
    .node (fun _ => rfl) (reads_tag .bytesExpr) (encTag_ne_nil _) <| by
      dsimp only [decExprBody]
      exact .step (.const (reads_bytes text)) <| decodes_close _ _
  | .await value _ =>
    .node (fun _ => rfl) (reads_tag .awaitExpr) (encTag_ne_nil _) <| by
      dsimp only [decExprBody]
      exact .step (decodes_expr value) <| decodes_close _ _
  | .tString parts surrogates _ =>
    .node (fun _ => rfl) (reads_tag .tstringExpr) (encTag_ne_nil _) <| by
      dsimp only [decExprBody]
      exact decodes_counted (decodes_tStringParts parts) <|
        .step (.const (reads_gated reads_bool surrogates)) <| decodes_close _ _
  | .temp =>
    .node (fun _ => rfl) (reads_tag .tempNode) (encTag_ne_nil _) <| by
      dsimp only [decExprBody]
      exact .step (.const (reads_expectTag _)) (.done _)

theorem decodes_key : ∀ key : WKey cv, KeyDecodes key
  | .expr key => decodes_expr key
  | .recovered _ => trivial

theorem decodes_exprs : ∀ es : List (WExpr cv),
    Decodes (fun n => times (decExprAt n) es.length) (encExprs es) es
  | [] => .nil
  | e :: es => .cons (decodes_expr e) (decodes_exprs es)

theorem decodes_optExpr : ∀ e : Option (WExpr cv),
    Decodes (fun n => readOption (decExprAt n)) (encOptExpr e) e
  | none => decodes_none
  | some e => decodes_some (decodes_expr e)

theorem decodes_optExprs : ∀ es : List (Option (WExpr cv)),
    Decodes (fun n => times (readOption (decExprAt n)) es.length) (encOptExprs es) es
  | [] => .nil
  | e :: es => .cons (decodes_optExpr e) (decodes_optExprs es)

theorem decodes_targets : ∀ generators : List (WComprehension cv),
    Decodes (fun n => times (decExprAt n) generators.length) (encTargets generators)
      (generators.map (·.target))
  | [] => .nil
  | .mk target _ _ _ :: generators => .cons (decodes_expr target) (decodes_targets generators)

theorem decodes_iters : ∀ generators : List (WComprehension cv),
    Decodes (fun n => times (decExprAt n) generators.length) (encIters generators)
      (generators.map (·.iter))
  | [] => .nil
  | .mk _ iter _ _ :: generators => .cons (decodes_expr iter) (decodes_iters generators)

theorem decodes_conds : ∀ generators : List (WComprehension cv),
    Decodes (fun n => times (readList (decExprAt n)) generators.length) (encConds generators)
      (generators.map (·.ifs))
  | [] => .nil
  | .mk _ _ ifs _ :: generators =>
    .cons (decodes_listed (decodes_exprs ifs)) (decodes_conds generators)

theorem decodes_parameters : ∀ parameters : List (WParameter cv),
    Decodes (fun n => times (readParameter (decExprAt n)) parameters.length)
      (encParameters parameters) parameters
  | [] => .nil
  | .mk name kind type default _ loc :: parameters =>
    .cons
      (.step (.const (reads_bytes name)) <| .step (.const (reads_taggedInt kind)) <|
        .step (.const (reads_option reads_type type)) <| .step (decodes_optExpr default) <|
        .step (.const (reads_bool _)) <| .step (.const (reads_loc loc)) (.done _))
      (decodes_parameters parameters)

theorem decodes_fStringParts : ∀ parts : List (WFStringPart cv),
    Decodes (fun n => times (readFStringPart (decElementAt n)) parts.length)
      (encFStringParts parts) parts
  | [] => .nil
  | .literal value loc :: parts =>
    .cons
      (.step (.const (reads_bool false)) <| .step (.const (reads_bytes value)) <|
        .step (.const (reads_loc loc)) (.done _))
      (decodes_fStringParts parts)
  | .fString elements :: parts =>
    .cons
      (.step (.const (reads_bool true)) <|
        .last ((decodes_taggedList (decodes_elements elements)).map WFStringPart.fString))
      (decodes_fStringParts parts)

theorem decodes_elements : ∀ elements : List (WFStringElement cv),
    Decodes (fun n => times (decElementAt n) elements.length) (encElements elements) elements
  | [] => .nil
  | .literal value loc :: elements =>
    .cons (decodes_literalElement value loc) (decodes_elements elements)
  | .interpolation expression conversion formatSpec :: elements =>
    .cons
      (.node (fun _ => rfl) (reads_tag .fstringInterpolation) (encTag_ne_nil _) <| by
        dsimp only [decElementBody]
        exact .step (decodes_expr expression) <|
          .step (.const (reads_option reads_bytes conversion)) <|
          .step (decodes_formatSpec formatSpec) <| .step (.const (reads_expectTag _)) (.done _))
      (decodes_elements elements)

theorem decodes_formatSpec : ∀ formatSpec : Option (WFormatSpec cv),
    Decodes (fun n => readOption (readFormatSpec (decElementAt n))) (encFormatSpec formatSpec)
      formatSpec
  | none => decodes_none
  | some (.mk elements loc) =>
    decodes_some <| .step (decodes_taggedList (decodes_elements elements)) <|
      .step (.const (reads_loc loc)) (.done _)

theorem decodes_tStringParts : ∀ parts : List (WTStringPart cv),
    Decodes (fun n => times (readTStringPart (decExprAt n) (decElementAt n)) parts.length)
      (encTStringParts parts) parts
  | [] => .nil
  | .literal value loc :: parts =>
    .cons
      (.step (.const (reads_bool false)) <| .step (.const (reads_bytes value)) <|
        .step (.const (reads_loc loc)) (.done _))
      (decodes_tStringParts parts)
  | .interpolation expression text conversion formatSpec :: parts =>
    .cons
      (.step (.const (reads_bool true)) <| .step (decodes_expr expression) <|
        .step (.const (reads_bytes text)) <|
        .step (.const (reads_option reads_bytes conversion)) <|
        .step (decodes_formatSpec formatSpec) (.done _))
      (decodes_tStringParts parts)

end

/-- The decoder undoes the encoding of expressions on every stream. -/
theorem reads_expr (e : WExpr cv) : Reads decExpr (encExpr e) e := (decodes_expr e).bounded

end AstSerialize
