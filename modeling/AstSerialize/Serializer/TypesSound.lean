import AstSerialize.Serializer.TypeTree

/-! Serializing a type emits the encoding of its tree and leaves the rest of the
state as it was. -/
namespace AstSerialize
open Coding

section Strings

theorem utf8_append (s t : String) : utf8 (s ++ t) = utf8 s ++ utf8 t := by
  simp [utf8]

theorem concatLen_eq (value : List StringLiteral) :
    concatLen value = (utf8 (concatText value)).length := by
  induction value with
  | nil => rfl
  | cons part parts ih => simp [concatLen, concatText, utf8_append, ih]

variable {V : Type} {P : Port Serializer V UInt8} [Observes P] {v : V}

theorem emits_parts (value : List StringLiteral) :
    Emits P (writeParts value) v (utf8 (concatText value)) v := by
  induction value with
  | nil => exact .pure
  | cons part parts ih =>
    simp only [concatText, utf8_append]
    exact (emits_extend _).bind ih

theorem emits_concatenated (value : List StringLiteral) :
    Emits P (writeConcatenated value) v (encBytes (utf8 (concatText value))) v := by
  unfold writeConcatenated
  rw [concatLen_eq]
  exact .step (emits_tag _) (.last (.step (emits_count _) (.last (emits_parts value))))

theorem emits_typedDictKeys (items : List DictItem) :
    Emits P (writeTypedDictKeys items) v (encNames (toWireKeys items)) v := by
  induction items using writeTypedDictKeys.induct with
  | case1 => exact .pure
  | case2 value range rest items ih => exact (emits_concatenated value).bind ih
  | case3 item items other ih =>
    rw [writeTypedDictKeys, toWireKeys]
    · exact (emits_tag _).bind ih
    · exact other
    · exact other

theorem toWireKeys_length (items : List DictItem) : (toWireKeys items).length = items.length := by
  induction items using toWireKeys.induct with
  | case1 => rfl
  | case2 value range rest items ih => simp [toWireKeys, ih]
  | case3 item items other ih =>
    rw [toWireKeys]
    · simp [ih]
    · exact other

end Strings

section Nodes

variable {c : Config} {V : Type} {P : Port Serializer V UInt8} [Observes P] {v : V}
  {expr fallback : Option String} {range : TextRange}

/-- Every type is closed by one location and one end tag. -/
theorem encType_closed (w : WType c.cacheVersion) :
    ∃ fields loc, encType w = fields ++ (encLocation loc ++ encTag .end) := by
  cases w <;> simp only [encType, List.flatten_cons, List.flatten_nil, List.append_nil,
    ← List.append_assoc] <;> exact ⟨_, _, rfl⟩

theorem emits_original :
    Emits P (writeOriginal expr fallback) v
      [encBytesOrNone (expr.map utf8), encBytesOrNone (fallback.map utf8)].flatten v :=
  .step (emits_bytesOrNone _) (.last (emits_bytesOrNone _))

/-- An original string always comes with its fallback. -/
theorem emits_invalidType (note : Option Bytes) (paired : expr.isSome = fallback.isSome) :
    Emits P (do serializeInvalidType c note expr fallback; writeLocation c range; writeEndTag) v
      (encType (toWireInvalid c note expr fallback range)) v := by
  cases expr with
  | some expr =>
    cases fallback with
    | none => cases paired
    | some fallback =>
      have fields : Emits P (serializeInvalidType c note (some expr) (some fallback)) v
          [encTag .rawExpressionType, encBytes (utf8 fallback), encBytes (utf8 expr)].flatten v :=
        .step (emits_tag _) <| .step (emits_bytes _) <| .last (emits_bytes _)
      exact fields.steps (emits_close c range)
  | none =>
    cases fallback with
    | some fallback => cases paired
    | none =>
      have gated : Emits P
          (if cvRawExpressionTypeNotes ≤ c.cacheVersion then writeBytesOrNone note else pure ()) v
          (encGated encBytesOrNone fun _ : cvRawExpressionTypeNotes ≤ c.cacheVersion => note) v := by
        unfold encGated
        split
        · exact emits_bytesOrNone note
        · exact .pure
      have fields : Emits P (serializeInvalidType c note none none) v
          [encTag .rawExpressionType, encBytes (utf8 "typing.Any"),
            [encTag .literalNone, encGated encBytesOrNone
              fun _ : cvRawExpressionTypeNotes ≤ c.cacheVersion => note].flatten].flatten v :=
        .step (emits_tag _) <| .step (emits_bytes _) <| .last <| .step (emits_tag _) (.last gated)
      exact fields.steps (emits_close c range)

theorem emits_simpleUnboundType (name : Bytes) :
    Emits P (do serializeSimpleUnboundType name expr fallback; writeLocation c range; writeEndTag) v
      (encType (toWireUnbound c name [] false expr fallback range)) v := by
  have fields : Emits P (serializeSimpleUnboundType name expr fallback) v
      [encTag .unboundType, encBytes name, encTag .listGen, encCount 0, [], encBool false,
        encBytesOrNone (expr.map utf8), encBytesOrNone (fallback.map utf8)].flatten v :=
    .step (emits_tag _) <| .step (emits_bytes _) <| .step (emits_tag _) <| .step (emits_int 0) <|
      .blank <| .step (emits_bool _) emits_original
  exact fields.steps (emits_close c range)

/-- The arguments of a subscript come with their number and the flag of an empty tuple. -/
theorem emits_subscriptType {args : SerM Unit} {items : List (WType c.cacheVersion) × Bool}
    (value : Expr) (paired : expr.isSome = fallback.isSome)
    (emitsArgs : Emits P args v
      [encCount items.1.length, encTypes items.1, encBool items.2].flatten v) :
    Emits P (do serializeSubscriptType c value args expr fallback; writeLocation c range
                writeEndTag) v
      (encType (toWireSubscript c value items expr fallback range)) v := by
  unfold serializeSubscriptType toWireSubscript
  cases getQualifiedTypeName value with
  | none => exact emits_invalidType none paired
  | some name =>
    have fields : Emits P (do
        writeTag .unboundType
        writeBytes name
        writeTag .listGen
        args
        writeOriginal expr fallback) v
        [encTag .unboundType, encBytes name, encTag .listGen, encCount items.1.length,
          encTypes items.1, encBool items.2, encBytesOrNone (expr.map utf8),
          encBytesOrNone (fallback.map utf8)].flatten v :=
      .step (emits_tag _) <| .step (emits_bytes _) <| .step (emits_tag _) <|
        emitsArgs.steps emits_original
    exact fields.steps (emits_close c range)

theorem emits_attributeType (e : Expr) (paired : expr.isSome = fallback.isSome) :
    Emits P (do serializeAttributeType c e expr fallback; writeLocation c range; writeEndTag) v
      (encType (toWireAttribute c e expr fallback range)) v := by
  unfold serializeAttributeType toWireAttribute toWireSubscript
  cases getQualifiedTypeName e with
  | none => exact emits_invalidType none paired
  | some name => exact emits_simpleUnboundType name

theorem emits_signedInt (value : Int64) :
    Emits P (serializeSignedInt c value range) v (encType (toWireInt c (some value) range)) v :=
  .step (emits_tag _) <| .step (emits_bytes _) <| .step (emits_taggedInt _) <| emits_close c range

/-- The union shows the flag that is current when it is closed. -/
theorem emits_unionType {t : Tracked} {b : Bool} {left right : SerM Unit}
    {leftTree rightTree : WType c.cacheVersion}
    (emitsLeft : Emits exprPort left (t, b) (encType leftTree) (t, b))
    (emitsRight : Emits exprPort right (t, b) (encType rightTree) (t, b)) :
    Emits exprPort (serializeUnionType c left right range expr fallback) (t, b)
      (encType (toWireUnion c leftTree rightTree expr fallback t.scope.isEvaluated range))
      (t, b) := by
  have flag : Emits exprPort (do
      writeBool (← (·.isEvaluated) <$> get)
      writeLocation c range
      writeEndTag) (t, b)
      [encBool t.scope.isEvaluated, encLocation (c.location range), encTag .end].flatten (t, b) :=
    .read (g := fun v => v.1.scope.isEvaluated) (fun _ => rfl) <|
      .step (emits_bool _) (emits_close c range)
  refine .step (emits_tag _) <| .step (emits_tag _) <| .step (emits_int 2) ?_
  refine .step emitsLeft <| .step emitsRight <| .step (emits_bool true) ?_
  exact emits_original.steps flag

def Tracked.setEvaluated (t : Tracked) (isEvaluated : Bool) : Tracked :=
  { t with scope := { t.scope with isEvaluated := isEvaluated } }

theorem emits_setEvaluated (t : Tracked) (b isEvaluated : Bool) :
    Emits exprPort (modify fun s => { s with isEvaluated := isEvaluated }) (t, b) []
      (t.setEvaluated isEvaluated, b) := by
  refine .modify ?_ fun _ => rfl
  intro s hs
  have moved : exprPort.view { s with isEvaluated := isEvaluated }
      = ((exprPort.view s).1.setEvaluated isEvaluated, (exprPort.view s).2) := rfl
  rw [moved, hs]

/-- The flag is off inside and has its value again afterwards. -/
theorem emits_unevaluated {t : Tracked} {b : Bool} {m : SerM Unit} {w : Bytes}
    (h : Emits exprPort m (t.setEvaluated false, b) w (t.setEvaluated false, b)) :
    Emits exprPort (unevaluated m) (t, b) w (t, b) := by
  have back := emits_setEvaluated (t.setEvaluated false) b t.scope.isEvaluated
  refine .read (g := fun v => v.1.scope.isEvaluated) (fun _ => rfl) ?_
  apply Emits.skip (emits_setEvaluated t b false)
  exact (h.bind back).congr (List.append_nil w)

end Nodes

section Lengths

variable (c : Config) (str : String → TextRange → WType c.cacheVersion) (isEvaluated : Bool)

@[simp] theorem toWireTypes_length (ts : List Expr) :
    (toWireTypes c str isEvaluated ts).length = ts.length := by
  induction ts with
  | nil => rfl
  | cons t ts ih => simp [toWireTypes, ih]

@[simp] theorem toWireTypesInList_length (ts : List Expr) :
    (toWireTypesInList c str isEvaluated ts).length = ts.length := by
  induction ts with
  | nil => rfl
  | cons t ts ih => cases t <;> simp [toWireTypesInList, ih]

@[simp] theorem toWireTypeKeywords_length (keywords : List Keyword) :
    (toWireTypeKeywords c str isEvaluated keywords).length = keywords.length := by
  induction keywords with
  | nil => rfl
  | cons keyword keywords ih =>
    cases keyword
    simp [toWireTypeKeywords, ih]

@[simp] theorem toWireTypedDictValues_length (items : List DictItem) :
    (toWireTypedDictValues c str isEvaluated items).length = items.length := by
  induction items with
  | nil => rfl
  | cons item items ih =>
    cases item
    simp [toWireTypedDictValues, ih]

end Lengths

section Types

variable {c : Config} {str : String → TextRange → SerM Unit}
  {strTree : String → TextRange → WType c.cacheVersion} {t : Tracked} {b : Bool}

/-- What is asked of the strings: inside them, each emits its tree. -/
def StringsEmit (str : String → TextRange → SerM Unit)
    (strTree : String → TextRange → WType c.cacheVersion) (t : Tracked) (b : Bool)
    (values : List String) : Prop :=
  ∀ value ∈ values, ∀ range,
    Emits exprPort (str value range) (t.setEvaluated false, b) (encType (strTree value range))
      (t.setEvaluated false, b)

theorem StringsEmit.left {values others : List String}
    (h : StringsEmit str strTree t b (values ++ others)) : StringsEmit str strTree t b values :=
  fun value mem => h value (List.mem_append_left _ mem)

theorem StringsEmit.right {values others : List String}
    (h : StringsEmit str strTree t b (values ++ others)) : StringsEmit str strTree t b others :=
  fun value mem => h value (List.mem_append_right _ mem)

theorem serializeTypeWith_subscript (value slice : Expr) (range : TextRange) :
    serializeTypeWith c str (.subscript value slice range) = (do
      serializeSubscriptType c value (serializeTypeArgs c str slice) none none
      writeLocation c range
      writeEndTag) := by
  cases slice <;> rfl

theorem toWireTypeWith_subscript (isEvaluated : Bool) (value slice : Expr) (range : TextRange) :
    toWireTypeWith c strTree isEvaluated (.subscript value slice range)
      = toWireSubscript c value (toWireTypeArgs c strTree isEvaluated slice) none none range := by
  cases slice <;> rfl

mutual

theorem emits_typeWith : ∀ e : Expr, StringsEmit str strTree t b (typeStrings e) →
    Emits exprPort (serializeTypeWith c str e) (t, b)
      (encType (toWireTypeWith c strTree t.scope.isEvaluated e)) (t, b)
  | .name id _, _ => emits_simpleUnboundType (utf8 id)
  | .attribute _ _ _, _ => emits_attributeType _ rfl
  | .subscript value slice range, strings => by
    rw [serializeTypeWith_subscript, toWireTypeWith_subscript]
    exact emits_subscriptType value rfl
      (emits_typeArgs slice strings (emits_typeWith slice strings))
  | .noneLiteral _, _ => emits_simpleUnboundType (utf8 "None")
  | .booleanLiteral _ range, _ =>
    .step (emits_tag _) <| .step (emits_bytes _) <| .step (emits_bool _) <| emits_close c range
  | .numberLiteral value range, _ => by
    cases value with
    | int n =>
      simp only [serializeTypeWith, toWireTypeWith]
      cases extractIntLiteralValue (.numberLiteral (.int n) range) with
      | none => exact emits_invalidType none rfl
      | some v => exact emits_signedInt v
    | float bits => exact emits_invalidType none rfl
    | complex real imag => exact emits_invalidType none rfl
  | .binOp left op right range, strings => by
    cases op with
    | bitOr =>
      exact emits_unionType (emits_typeWith left strings.left) (emits_typeWith right strings.right)
    | _ => exact emits_invalidType none rfl
  | .list elts _ range, strings => by
    simp only [serializeTypeWith, toWireTypeWith, encType, toWireTypesInList_length]
    exact .step (emits_tag _) <| .step (emits_tag _) <| .step (emits_count _) <|
      .step (emits_typesInList elts strings) <| emits_close c range
  | .tuple elts _ range, strings => by
    simp only [serializeTypeWith, toWireTypeWith, encType, toWireTypes_length]
    exact .step (emits_tag _) <| .step (emits_tag _) <| .step (emits_count _) <|
      .step (emits_types elts strings) <| .step (emits_bool true) <| emits_close c range
  | .dict items range, strings => by
    simp only [serializeTypeWith, toWireTypeWith]
    split
    · simp only [encType, toWireKeys_length, toWireTypedDictValues_length]
      refine .step (emits_tag _) <| .step (emits_tag _) <| .step (emits_count _) ?_
      refine .step (emits_typedDictKeys items) ?_
      refine .step (emits_tag _) <| .step (emits_count _) ?_
      exact .step (emits_typedDictValues items strings) <| emits_close c range
    · exact emits_invalidType none rfl
  | .call func _ keywords _, _ => emits_invalidType (callNote func keywords) rfl
  | .ellipsisLiteral range, _ => .step (emits_tag _) <| emits_close c range
  | .starred value range, strings =>
    .step (emits_tag _) <| .step (emits_typeWith value strings) <| .step (emits_bool true) <|
      emits_close c range
  | .unaryOp op operand range, _ => by
    cases op with
    | uSub =>
      simp only [serializeTypeWith, toWireTypeWith]
      cases extractIntLiteralValue (.unaryOp .uSub operand range) with
      | none => exact emits_invalidType none rfl
      | some v => exact emits_signedInt v
    | uAdd =>
      simp only [serializeTypeWith, toWireTypeWith]
      cases extractIntLiteralValue operand with
      | none => exact emits_invalidType none rfl
      | some v => exact emits_signedInt v
    | invert => exact emits_invalidType none rfl
    | not => exact emits_invalidType none rfl
  | .stringLiteral value range, strings =>
    emits_unevaluated (strings (concatText value) List.mem_cons_self range)
  | .bytesLiteral value range, _ =>
    .step (emits_tag _) <| .step (emits_bytes _) <| .step (emits_bytes _) <| emits_close c range
  | .boolOp .., _ | .named .., _ | .lambda .., _ | .ifExp .., _ | .set .., _ | .listComp .., _
  | .setComp .., _ | .dictComp .., _ | .generator .., _ | .await .., _ | .yield .., _
  | .yieldFrom .., _ | .compare .., _ | .fString .., _ | .tString .., _ | .slice .., _
  | .ipyEscapeCommand .., _ => emits_invalidType none rfl

/-- The arguments of a subscript: the items of a tuple, or the one slice. -/
theorem emits_typeArgs (slice : Expr) (strings : StringsEmit str strTree t b (typeStrings slice))
    (one : Emits exprPort (serializeTypeWith c str slice) (t, b)
      (encType (toWireTypeWith c strTree t.scope.isEvaluated slice)) (t, b)) :
    Emits exprPort (serializeTypeArgs c str slice) (t, b)
      [encCount (toWireTypeArgs c strTree t.scope.isEvaluated slice).1.length,
        encTypes (toWireTypeArgs c strTree t.scope.isEvaluated slice).1,
        encBool (toWireTypeArgs c strTree t.scope.isEvaluated slice).2].flatten (t, b) := by
  cases slice with
  | tuple elts _ _ =>
    simp only [serializeTypeArgs, toWireTypeArgs, toWireTypes_length]
    exact .step (emits_count _) <| .step (emits_types elts strings) <| .last (emits_bool _)
  | _ =>
    rw [serializeTypeArgs_plain, toWireTypeArgs_plain]
    · simp only [encTypes, List.append_nil]
      exact .step (emits_int 1) <| .step one <| .last (emits_bool false)
    all_goals nofun

theorem emits_types : ∀ ts : List Expr, StringsEmit str strTree t b (typeStringsOf ts) →
    Emits exprPort (serializeTypes c str ts) (t, b)
      (encTypes (toWireTypes c strTree t.scope.isEvaluated ts)) (t, b)
  | [], _ => .pure
  | e :: es, strings => (emits_typeWith e strings.left).bind (emits_types es strings.right)

theorem emits_typesInList : ∀ ts : List Expr, StringsEmit str strTree t b (typeStringsOf ts) →
    Emits exprPort (serializeTypesInList c str ts) (t, b)
      (encTypes (toWireTypesInList c strTree t.scope.isEvaluated ts)) (t, b)
  | [], _ => .pure
  | e :: es, strings => by
    rw [serializeTypesInList_cons, toWireTypesInList_cons]
    exact (emits_typeInList e strings.left (emits_typeWith e strings.left)).bind
      (emits_typesInList es strings.right)

/-- In a list a call is a constructor of an argument, and everything else a type. -/
theorem emits_typeInList (e : Expr) (strings : StringsEmit str strTree t b (typeStrings e))
    (one : Emits exprPort (serializeTypeWith c str e) (t, b)
      (encType (toWireTypeWith c strTree t.scope.isEvaluated e)) (t, b)) :
    Emits exprPort (serializeTypeInList c str e) (t, b)
      (encType (toWireTypeInList c strTree t.scope.isEvaluated e)) (t, b) := by
  cases e with
  | call func args keywords range =>
    simp only [serializeTypeInList, toWireTypeInList, encType, toWireTypes_length,
      toWireTypeKeywords_length]
    have callee := emits_typeWith func strings.left.left
    have positional := emits_types args strings.left.right
    have named := emits_typeKeywords keywords strings.right
    refine .step (emits_tag _) <| .step callee ?_
    refine .step (emits_tag _) <| .step (emits_count _) <| .step positional ?_
    refine .step (emits_tag _) <| .step (emits_count _) <| .step named ?_
    exact emits_close c range
  | _ =>
    rw [serializeTypeInList_plain, toWireTypeInList_plain]
    · exact one
    all_goals nofun

theorem emits_typeKeywords : ∀ keywords : List Keyword,
    StringsEmit str strTree t b (typeStringsOfKeywords keywords) →
    Emits exprPort (serializeTypeKeywords c str keywords) (t, b)
      (encKeywordTypes (toWireTypeKeywords c strTree t.scope.isEvaluated keywords)) (t, b)
  | [], _ => .pure
  | .mk _ value :: keywords, strings => by
    simp only [serializeTypeKeywords, toWireTypeKeywords, encKeywordTypes, ← bind_assoc]
    refine Emits.bind ?_ (emits_typeKeywords keywords strings.right)
    exact .step (emits_bytesOrNone _) <| .last (emits_typeWith value strings.left)

theorem emits_typedDictValues : ∀ items : List DictItem,
    StringsEmit str strTree t b (typeStringsOfItems items) →
    Emits exprPort (serializeTypedDictValues c str items) (t, b)
      (encTypes (toWireTypedDictValues c strTree t.scope.isEvaluated items)) (t, b)
  | [], _ => .pure
  | .mk _ value :: items, strings =>
    (emits_typeWith value strings.left).bind (emits_typedDictValues items strings.right)

end

/-- Strings below the bound emit their trees, whatever the parser makes of them. -/
theorem emits_stringTypeWithin (bound : Nat) (t : Tracked) (b : Bool) (value : String)
    (range : TextRange) (short : value.length < bound) :
    Emits exprPort (serializeStringTypeWithin c bound value range) (t, b)
      (encType (toWireStringTypeWithin c bound t.scope.isEvaluated value range)) (t, b) := by
  induction bound generalizing t value range with
  | zero => exact absurd short (Nat.not_lt_zero _)
  | succ bound ih =>
    have raw : Emits exprPort (do
        writeTag .rawExpressionType
        writeBytes (utf8 "builtins.str")
        writeBytes (utf8 value)
        writeLocation c range
        writeEndTag) (t, b)
        (encType (.raw (utf8 "builtins.str") (.str (utf8 value)) (c.location range) :
          WType c.cacheVersion)) (t, b) :=
      .step (emits_tag _) <| .step (emits_bytes _) <| .step (emits_bytes _) <| emits_close c range
    unfold serializeStringTypeWithin toWireStringTypeWithin
    cases parsed : c.parser.parseUnchecked ("(" ++ value ++ ")") with
    | none => exact raw
    | some e =>
      -- what the parser found inside the string is shorter than the string
      have strings : StringsEmit (serializeStringTypeWithin c bound)
          (toWireStringTypeWithin c bound false) t b (typeStrings e) := by
        intro inner mem range
        have shorter := c.parser.shorter value e parsed inner mem
        exact ih (t.setEvaluated false) inner range (by omega)
      cases e with
      | name id own => exact emits_simpleUnboundType (utf8 id)
      | «attribute» base attr own => exact emits_attributeType _ rfl
      | subscript base slice own =>
        rw [typeStrings, ← typeStrings_relocate range] at strings
        exact emits_subscriptType base rfl
          (emits_typeArgs (slice.relocate range) strings (emits_typeWith _ strings))
      | binOp left op right own =>
        rw [typeStrings, ← typeStrings_relocate range, ← typeStrings_relocate range right] at strings
        cases op with
        | bitOr =>
          exact emits_unionType (emits_typeWith _ strings.left) (emits_typeWith _ strings.right)
        | _ => exact raw
      | noneLiteral own => exact emits_simpleUnboundType (utf8 "None")
      | _ => exact raw

theorem emits_stringType (t : Tracked) (b : Bool) (value : String) (range : TextRange) :
    Emits exprPort (serializeStringType c value range) (t, b)
      (encType (toWireStringType c t.scope.isEvaluated value range)) (t, b) :=
  emits_stringTypeWithin _ t b value range (Nat.lt_succ_self _)

/-- Serializing a type emits its tree and restores everything else. -/
theorem emits_type (t : Tracked) (b : Bool) (e : Expr) :
    Emits exprPort (serializeType c e) (t, b) (encType (toWireType c t.scope.isEvaluated e))
      (t, b) :=
  emits_typeWith e fun value _ range => emits_stringType (t.setEvaluated false) b value range

end Types

end AstSerialize
