import AstSerialize.Serializer.TypesSound

/-! Where unions are evaluated, and what a serialized type decodes to. -/
namespace AstSerialize
open Coding

section Flags

variable {c : Config} {str : String → TextRange → WType c.cacheVersion} {isEvaluated : Bool}

/-- All unions of the tree carry the flag. -/
def Marked (isEvaluated : Bool) (flags : List Bool) : Prop := ∀ flag ∈ flags, flag = isEvaluated

theorem marked_append {xs ys : List Bool} :
    Marked isEvaluated (xs ++ ys) ↔ Marked isEvaluated xs ∧ Marked isEvaluated ys := by
  simp [Marked, or_imp, forall_and]

theorem marked_nil : Marked isEvaluated [] := by
  intro flag mem
  cases mem

theorem marked_invalid (note : Option Bytes) (expr fallback : Option String) (range : TextRange) :
    Marked isEvaluated (unionFlags (toWireInvalid c note expr fallback range)) := by
  cases expr <;> cases fallback <;> exact marked_nil

theorem marked_int (value : Option Int64) (range : TextRange) :
    Marked isEvaluated (unionFlags (toWireInt c value range)) := by
  cases value <;> exact marked_nil

theorem marked_subscript {items : List (WType c.cacheVersion) × Bool} {value : Expr}
    {expr fallback : Option String} {range : TextRange}
    (args : Marked isEvaluated (unionFlagsOf items.1)) :
    Marked isEvaluated (unionFlags (toWireSubscript c value items expr fallback range)) := by
  unfold toWireSubscript
  split
  · exact marked_invalid none expr fallback range
  · exact args

theorem marked_union {left right : WType c.cacheVersion} {expr fallback : Option String}
    {range : TextRange} (l : Marked isEvaluated (unionFlags left))
    (r : Marked isEvaluated (unionFlags right)) :
    Marked isEvaluated (unionFlags (toWireUnion c left right expr fallback isEvaluated range)) := by
  simp only [toWireUnion, unionFlags, marked_append]
  refine ⟨⟨l, r⟩, ?_⟩
  intro flag mem
  exact List.mem_singleton.mp mem

/-- Inside of strings every union shows the flag. -/
def StringsMarked (str : String → TextRange → WType c.cacheVersion) (isEvaluated : Bool) : Prop :=
  ∀ value range, Marked isEvaluated (unionFlags (str value range))

mutual

/-- Outside of strings every union shows the flag the type was serialized with. -/
theorem marked_typeWith (strings : StringsMarked str isEvaluated) : ∀ e : Expr,
    Marked isEvaluated (unionFlags (toWireTypeWith c str isEvaluated e))
  | .name .. | .noneLiteral .. | .booleanLiteral .. | .ellipsisLiteral .. | .bytesLiteral .. =>
    marked_nil
  | .attribute .. => marked_subscript marked_nil
  | .subscript value slice range => by
    rw [toWireTypeWith_subscript]
    exact marked_subscript (marked_typeArgs strings slice (marked_typeWith strings slice))
  | .numberLiteral .. => marked_int _ _
  | .binOp left op right range => by
    cases op with
    | bitOr => exact marked_union (marked_typeWith strings left) (marked_typeWith strings right)
    | _ => exact marked_invalid none none none range
  | .list elts _ _ => marked_typesInList strings elts
  | .tuple elts _ _ => marked_types strings elts
  | .dict items range => by
    simp only [toWireTypeWith]
    split
    · exact marked_typedDictValues strings items
    · exact marked_invalid none none none range
  | .call .. => marked_invalid _ _ _ _
  | .starred value _ => marked_typeWith strings value
  | .unaryOp op operand range => by
    cases op with
    | uSub => exact marked_int _ range
    | uAdd => exact marked_int _ range
    | invert => exact marked_invalid none none none range
    | not => exact marked_invalid none none none range
  | .stringLiteral value range => strings (concatText value) range
  | .boolOp .. | .named .. | .lambda .. | .ifExp .. | .set .. | .listComp .. | .setComp ..
  | .dictComp .. | .generator .. | .await .. | .yield .. | .yieldFrom .. | .compare ..
  | .fString .. | .tString .. | .slice .. | .ipyEscapeCommand .. => marked_invalid _ _ _ _

theorem marked_typeArgs (strings : StringsMarked str isEvaluated) (slice : Expr)
    (one : Marked isEvaluated (unionFlags (toWireTypeWith c str isEvaluated slice))) :
    Marked isEvaluated (unionFlagsOf (toWireTypeArgs c str isEvaluated slice).1) := by
  cases slice with
  | tuple elts _ _ => exact marked_types strings elts
  | _ =>
    rw [toWireTypeArgs_plain]
    · exact marked_append.mpr ⟨one, marked_nil⟩
    · nofun

theorem marked_types (strings : StringsMarked str isEvaluated) : ∀ ts : List Expr,
    Marked isEvaluated (unionFlagsOf (toWireTypes c str isEvaluated ts))
  | [] => marked_nil
  | t :: ts => marked_append.mpr ⟨marked_typeWith strings t, marked_types strings ts⟩

theorem marked_typesInList (strings : StringsMarked str isEvaluated) : ∀ ts : List Expr,
    Marked isEvaluated (unionFlagsOf (toWireTypesInList c str isEvaluated ts))
  | [] => marked_nil
  | t :: ts => by
    rw [toWireTypesInList_cons]
    exact marked_append.mpr ⟨marked_typeInList strings t (marked_typeWith strings t), marked_typesInList strings ts⟩

theorem marked_typeInList (strings : StringsMarked str isEvaluated) (t : Expr)
    (one : Marked isEvaluated (unionFlags (toWireTypeWith c str isEvaluated t))) :
    Marked isEvaluated (unionFlags (toWireTypeInList c str isEvaluated t)) := by
  cases t with
  | call func args keywords _ =>
    have callee := marked_append.mpr ⟨marked_typeWith strings func, marked_types strings args⟩
    exact marked_append.mpr ⟨callee, marked_typeKeywords strings keywords⟩
  | _ =>
    rw [toWireTypeInList_plain]
    · exact one
    · nofun

theorem marked_typeKeywords (strings : StringsMarked str isEvaluated) : ∀ keywords : List Keyword,
    Marked isEvaluated (unionFlagsOfKeywords (toWireTypeKeywords c str isEvaluated keywords))
  | [] => marked_nil
  | .mk _ value :: keywords =>
    marked_append.mpr ⟨marked_typeWith strings value, marked_typeKeywords strings keywords⟩

theorem marked_typedDictValues (strings : StringsMarked str isEvaluated) : ∀ items : List DictItem,
    Marked isEvaluated (unionFlagsOf (toWireTypedDictValues c str isEvaluated items))
  | [] => marked_nil
  | .mk _ value :: items =>
    marked_append.mpr ⟨marked_typeWith strings value, marked_typedDictValues strings items⟩

end

theorem marked_stringTypeWithin (bound : Nat) (value : String) (range : TextRange) :
    Marked false (unionFlags (toWireStringTypeWithin c bound false value range)) := by
  induction bound generalizing value range with
  | zero => exact marked_nil
  | succ bound ih =>
    have strings : StringsMarked (toWireStringTypeWithin c bound false) false := ih
    unfold toWireStringTypeWithin
    cases c.parser.parseUnchecked ("(" ++ value ++ ")") with
    | none => exact marked_nil
    | some e =>
      cases e with
      | «attribute» base attr own => exact marked_subscript marked_nil
      | subscript base slice own =>
        exact marked_subscript (marked_typeArgs strings _ (marked_typeWith strings _))
      | binOp left op right own =>
        cases op with
        | bitOr => exact marked_union (marked_typeWith strings _) (marked_typeWith strings _)
        | _ => exact marked_nil
      | _ => exact marked_nil

/-- Inside of a string no union is evaluated, at any depth. -/
theorem marked_stringType (value : String) (range : TextRange) :
    Marked false (unionFlags (toWireStringType c false value range)) :=
  marked_stringTypeWithin _ value range

end Flags

/-- A tree for strings that has no unions in it. -/
def cutStrings (c : Config) (_ : String) (range : TextRange) : WType c.cacheVersion :=
  .ellipsis (c.location range)

/-- From the state the action writes one type, which every reader gets back, and nothing else
changes. -/
def WritesType {c : Config} (s : Serializer) (m : SerM Unit) (tree : WType c.cacheVersion) : Prop :=
  ∃ s', m.run s = some ((), s') ∧ s'.bytes = s.bytes ++ encType tree ∧
    (∀ r, decType (encType tree ++ r) = some (tree, r)) ∧
    s'.tracked = s.tracked ∧ s'.hasSurrogates = s.hasSurrogates

theorem writesType_of_emits {c : Config} {s : Serializer} {m : SerM Unit}
    {tree : WType c.cacheVersion}
    (h : Emits exprPort m (s.tracked, s.hasSurrogates) (encType tree) (s.tracked, s.hasSurrogates)) :
    WritesType s m tree := by
  obtain ⟨s', run, view, out⟩ := h s rfl
  exact ⟨s', run, out, (reads_type tree).run_eq, congrArg Prod.fst view, congrArg Prod.snd view⟩

/-- Each of the entry points for types writes one wire type, whatever the state and the type.
The tree is closed by a location and the end tag at every node, a note stands only after the
value `None`, and the flag of a union tells whether it is outside of every string: all unions
outside show `is_evaluated`, which type comments turn off, and all unions in a string are off. -/
theorem serializeType_writes (c : Config) (s : Serializer) :
    (∀ t, WritesType s (serializeType c t) (toWireType c s.isEvaluated t)) ∧
    (∀ t, WritesType s (unevaluated (serializeType c t)) (toWireType c false t)) ∧
    (∀ t, WritesType s (serializeTypeInList c (serializeStringType c) t)
      (toWireTypeInList c (toWireStringType c false) s.isEvaluated t)) ∧
    (∀ value range, WritesType s (serializeStringType c value range)
      (toWireStringType c s.isEvaluated value range)) ∧
    (∀ left right range expr fallback, WritesType s
      (serializeUnionType c (serializeType c left) (serializeType c right) range expr fallback)
      (toWireUnion c (toWireType c s.isEvaluated left) (toWireType c s.isEvaluated right) expr
        fallback s.isEvaluated range)) ∧
    (∀ tree : WType c.cacheVersion, ∃ fields loc,
      encType tree = fields ++ (encLocation loc ++ encTag .end)) ∧
    (∀ value : RawValue c.cacheVersion, (∃ fields, encRawValue value = fields ++ value.note) ∧
      (value.note ≠ [] ↔ value.isNone = true ∧ cvRawExpressionTypeNotes ≤ c.cacheVersion)) ∧
    (∀ isEvaluated t,
      Marked isEvaluated (unionFlags (toWireTypeWith c (cutStrings c) isEvaluated t))) ∧
    (∀ value range, Marked false (unionFlags (toWireStringType c false value range))) := by
  have strings (values : List String) : StringsEmit (serializeStringType c)
      (toWireStringType c false) s.tracked s.hasSurrogates values :=
    fun value _ range => emits_stringType _ _ value range
  have types (t : Expr) := emits_type (c := c) s.tracked s.hasSurrogates t
  refine ⟨?_, ?_, ?_, ?_, ?_, encType_closed, ?_, ?_, marked_stringType⟩
  · intro t
    exact writesType_of_emits (types t)
  · intro t
    exact writesType_of_emits
      (emits_unevaluated (emits_type (s.tracked.setEvaluated false) s.hasSurrogates t))
  · intro t
    exact writesType_of_emits (emits_typeInList t (strings _) (types t))
  · intro value range
    exact writesType_of_emits (emits_stringType _ _ value range)
  · intro left right range expr fallback
    exact writesType_of_emits (emits_unionType (types left) (types right))
  · intro value
    exact ⟨note_suffix value, note_iff value⟩
  · intro isEvaluated t
    exact marked_typeWith (fun _ _ => marked_nil) t

end AstSerialize
