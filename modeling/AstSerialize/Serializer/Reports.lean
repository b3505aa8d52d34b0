import AstSerialize.Coding.Gains
import AstSerialize.Serializer.TypesSound
import Mathlib.Data.Bool.Basic

/-! What is reported beside the tree: that template strings are used, and the
errors of the serializer. The writers report neither, and types report nothing. -/
namespace AstSerialize
open Coding

@[ext] structure Notes where
  templates : Bool
  errors : List SyntaxError
  deriving DecidableEq, Repr

namespace Notes

instance : Add Notes where
  add n m := ⟨n.templates || m.templates, n.errors ++ m.errors⟩

instance : Zero Notes := ⟨⟨false, []⟩⟩

@[simp] theorem add_templates (n m : Notes) :
    (n + m).templates = (n.templates || m.templates) := rfl

@[simp] theorem add_errors (n m : Notes) : (n + m).errors = n.errors ++ m.errors := rfl

@[simp] theorem zero_templates : (0 : Notes).templates = false := rfl

@[simp] theorem zero_errors : (0 : Notes).errors = [] := rfl

instance : AddMonoid Notes where
  add_assoc n m k := by ext <;> simp [Bool.or_assoc]
  zero_add n := by ext <;> simp
  add_zero n := by ext <;> simp
  nsmul := nsmulRec

end Notes

def Serializer.notes (s : Serializer) : Notes := ⟨s.usesTemplateStrings, s.extraErrors⟩

/-- Inside of a class or outside of all, the action reports `n` if it returns. -/
abbrev Reports (inClass : Bool) (m : SerM Unit) (n : Notes) : Prop :=
  Gains Serializer.notes (fun s => s.inClass = inClass) m n (fun s => s.inClass = inClass)

/-- What `add_error` reports. -/
def errorNote (c : Config) (error : String) (range : TextRange) (blocker : Bool) : Notes :=
  let start := c.source.lineColumn range.start
  ⟨false, [⟨start.line,
    usizePred (c.source.convertColumnToCodepoint start.line start.column), error, blocker⟩]⟩

section Writers

variable {inClass : Bool}

/-- An update of anything else. -/
theorem silent_modify {I J : Serializer → Prop} {g : Serializer → Serializer}
    (moves : ∀ s, I s → J (g s)) (same : ∀ s, (g s).notes = s.notes) :
    Gains Serializer.notes I (modify g) 0 J :=
  .modify moves fun s => (same s).trans (add_zero s.notes).symm

theorem silent_extend (w : Bytes) : Reports inClass (extendBytes w) 0 :=
  silent_modify (fun _ here => here) fun _ => rfl

theorem silent_tag (t : Tag) : Reports inClass (writeTag t) 0 := silent_extend _

theorem silent_end : Reports inClass writeEndTag 0 := silent_extend _

theorem silent_int (i : Int) : Reports inClass (writeInt i) 0 := silent_extend _

theorem silent_count (n : Nat) : Reports inClass (writeUsize n) 0 := silent_extend _

theorem silent_bool (b : Bool) : Reports inClass (writeBool b) 0 := silent_extend _

theorem silent_taggedInt (i : Int) : Reports inClass (writeTaggedInt i) 0 :=
  .pass (silent_tag _) (silent_int i)

theorem silent_bytes (b : Bytes) : Reports inClass (writeBytes b) 0 :=
  .pass (silent_tag _) (.pass (silent_count _) (silent_extend b))

theorem silent_bytesOrNone (b : Option Bytes) : Reports inClass (writeBytesOrNone b) 0 := by
  cases b with
  | none => exact silent_tag _
  | some b => exact silent_bytes b

theorem silent_location (c : Config) (range : TextRange) :
    Reports inClass (writeLocation c range) 0 := by
  unfold writeLocation
  cases c.locationOverride with
  | none =>
    exact .pass (silent_tag _) <| .pass (silent_int _) <| .pass (silent_int _) <|
      .pass (silent_int _) (silent_int _)
  | some place =>
    exact .pass (silent_tag _) <| .pass (silent_int _) <| .pass (silent_int _) <|
      .pass (silent_int _) (silent_int _)

theorem silent_close (c : Config) (range : TextRange) :
    Reports inClass (do writeLocation c range; writeEndTag) 0 :=
  .pass (silent_location c range) silent_end

theorem silent_panic {n : Notes} : Reports inClass panic n := .fails fun _ => rfl

theorem reports_error (c : Config) (error : String) (range : TextRange) (blocker : Bool) :
    Reports inClass (addError c error range blocker) (errorNote c error range blocker) := by
  apply Gains.modify
  · intro s here
    exact here
  · intro s
    simp [Serializer.notes, errorNote, Notes.ext_iff]

end Writers

section Types

variable {inClass : Bool} {c : Config}

theorem silent_invalid (note : Option Bytes) (expr fallback : Option String) :
    Reports inClass (serializeInvalidType c note expr fallback) 0 := by
  apply Gains.pass (silent_tag _)
  cases expr with
  | some expr =>
    cases fallback with
    | some fallback => exact .pass (silent_bytes _) (silent_bytes _)
    | none => exact silent_panic
  | none =>
    apply Gains.pass (silent_bytes _)
    apply Gains.pass (silent_tag _)
    split
    · exact silent_bytesOrNone note
    · exact .pure

theorem silent_original (expr fallback : Option String) :
    Reports inClass (writeOriginal expr fallback) 0 :=
  .pass (silent_bytesOrNone _) (silent_bytesOrNone _)

theorem silent_simpleUnbound (name : Bytes) (expr fallback : Option String) :
    Reports inClass (serializeSimpleUnboundType name expr fallback) 0 :=
  .pass (silent_tag _) <| .pass (silent_bytes _) <| .pass (silent_tag _) <|
    .pass (silent_int _) <| .pass (silent_bool _) (silent_original expr fallback)

theorem silent_attribute (e : Expr) (expr fallback : Option String) :
    Reports inClass (serializeAttributeType c e expr fallback) 0 := by
  unfold serializeAttributeType
  cases getQualifiedTypeName e with
  | none => exact silent_invalid none expr fallback
  | some name => exact silent_simpleUnbound name expr fallback

theorem silent_subscript (value : Expr) {args : SerM Unit} (silent : Reports inClass args 0)
    (expr fallback : Option String) :
    Reports inClass (serializeSubscriptType c value args expr fallback) 0 := by
  unfold serializeSubscriptType
  cases getQualifiedTypeName value with
  | none => exact silent_invalid none expr fallback
  | some name =>
    exact .pass (silent_tag _) <| .pass (silent_bytes _) <| .pass (silent_tag _) <|
      .pass silent (silent_original expr fallback)

theorem silent_union {left right : SerM Unit} (l : Reports inClass left 0)
    (r : Reports inClass right 0) (range : TextRange) (expr fallback : Option String) :
    Reports inClass (serializeUnionType c left right range expr fallback) 0 := by
  unfold serializeUnionType
  refine .pass (silent_tag _) <| .pass (silent_tag _) <| .pass (silent_int _) ?_
  refine .pass l <| .pass r <| .pass (silent_bool _) ?_
  refine .pass (silent_original expr fallback) <| .read fun _ _ => ?_
  exact .pass (silent_bool _) (silent_close c range)

theorem reports_unevaluated {m : SerM Unit} {n : Notes} (h : Reports inClass m n) :
    Reports inClass (unevaluated m) n :=
  .read fun _ _ =>
    .pass (silent_modify (fun _ here => here) fun _ => rfl) <|
      .close h (silent_modify (fun _ here => here) fun _ => rfl)

theorem silent_parts (parts : List StringLiteral) : Reports inClass (writeParts parts) 0 := by
  induction parts with
  | nil => exact .pure
  | cons part parts ih => exact .pass (silent_extend _) ih

theorem silent_typedDictKeys (items : List DictItem) :
    Reports inClass (writeTypedDictKeys items) 0 := by
  induction items with
  | nil => exact .pure
  | cons item items ih =>
    obtain ⟨key, value⟩ := item
    have named (value : List StringLiteral) : Reports inClass (writeConcatenated value) 0 :=
      .pass (silent_tag _) (.pass (silent_count _) (silent_parts value))
    cases key with
    | none => exact .pass (silent_tag _) ih
    | some key =>
      cases key with
      | stringLiteral value range => exact .pass (named value) ih
      | _ => exact .pass (silent_tag _) ih

theorem silent_signedInt (value : Int64) (range : TextRange) :
    Reports inClass (serializeSignedInt c value range) 0 :=
  .pass (silent_tag _) <| .pass (silent_bytes _) <| .pass (silent_taggedInt _)
    (silent_close c range)

variable {str : String → TextRange → SerM Unit}

mutual

/-- Types are silent if the types in strings are. -/
theorem silent_typeWith (strings : ∀ value range, Reports inClass (str value range) 0) :
    ∀ e : Expr, Reports inClass (serializeTypeWith c str e) 0
  | .name id range => .pass (silent_simpleUnbound (utf8 id) none none) (silent_close c range)
  | .attribute value attr range =>
    .pass (silent_attribute (.attribute value attr range) none none) (silent_close c range)
  | .subscript value slice range => by
    rw [serializeTypeWith_subscript]
    have args := silent_typeArgs strings slice (silent_typeWith strings slice)
    exact .pass (silent_subscript value args none none) (silent_close c range)
  | .noneLiteral range =>
    .pass (silent_simpleUnbound (utf8 "None") none none) (silent_close c range)
  | .booleanLiteral _ range =>
    .pass (silent_tag _) <| .pass (silent_bytes _) <| .pass (silent_bool _) (silent_close c range)
  | .numberLiteral value range => by
    have invalid : Reports inClass (do
        serializeInvalidType c none none none
        writeLocation c range
        writeEndTag) 0 := .pass (silent_invalid none none none) (silent_close c range)
    cases value with
    | int n =>
      simp only [serializeTypeWith]
      cases extractIntLiteralValue (.numberLiteral (.int n) range) with
      | none => exact invalid
      | some v =>
        exact .pass (silent_tag _) <| .pass (silent_bytes _) <| .pass (silent_taggedInt _)
          (silent_close c range)
    | float bits => exact invalid
    | complex real imag => exact invalid
  | .binOp left op right range => by
    cases op with
    | bitOr =>
      exact silent_union (silent_typeWith strings left) (silent_typeWith strings right) range
        none none
    | _ => exact .pass (silent_invalid none none none) (silent_close c range)
  | .list elts _ range =>
    .pass (silent_tag _) <| .pass (silent_tag _) <| .pass (silent_count _) <|
      .pass (silent_typesInList strings elts) (silent_close c range)
  | .tuple elts _ range =>
    .pass (silent_tag _) <| .pass (silent_tag _) <| .pass (silent_count _) <|
      .pass (silent_types strings elts) <| .pass (silent_bool _) (silent_close c range)
  | .dict items range => by
    simp only [serializeTypeWith]
    split
    · refine .pass (silent_tag _) <| .pass (silent_tag _) <| .pass (silent_count _) ?_
      refine .pass (silent_typedDictKeys items) ?_
      refine .pass (silent_tag _) <| .pass (silent_count _) ?_
      exact .pass (silent_typedDictValues strings items) (silent_close c range)
    · exact .pass (silent_invalid none none none) (silent_close c range)
  | .call func _ keywords range =>
    .pass (silent_invalid (callNote func keywords) none none) (silent_close c range)
  | .ellipsisLiteral range => .pass (silent_tag _) (silent_close c range)
  | .starred value range =>
    .pass (silent_tag _) <| .pass (silent_typeWith strings value) <| .pass (silent_bool _)
      (silent_close c range)
  | .unaryOp op operand range => by
    have invalid : Reports inClass (do
        serializeInvalidType c none none none
        writeLocation c range
        writeEndTag) 0 := .pass (silent_invalid none none none) (silent_close c range)
    cases op with
    | uSub =>
      simp only [serializeTypeWith]
      cases extractIntLiteralValue (.unaryOp .uSub operand range) with
      | none => exact invalid
      | some v => exact silent_signedInt v range
    | uAdd =>
      simp only [serializeTypeWith]
      cases extractIntLiteralValue operand with
      | none => exact invalid
      | some v => exact silent_signedInt v range
    | invert => exact invalid
    | not => exact invalid
  | .stringLiteral value range => reports_unevaluated (strings (concatText value) range)
  | .bytesLiteral _ range =>
    .pass (silent_tag _) <| .pass (silent_bytes _) <| .pass (silent_bytes _) (silent_close c range)
  | .boolOp .. | .named .. | .lambda .. | .ifExp .. | .set .. | .listComp .. | .setComp ..
  | .dictComp .. | .generator .. | .await .. | .yield .. | .yieldFrom .. | .compare ..
  | .fString .. | .tString .. | .slice .. | .ipyEscapeCommand .. =>
    .pass (silent_invalid none none none) (silent_close c _)

theorem silent_typeArgs (strings : ∀ value range, Reports inClass (str value range) 0)
    (slice : Expr) (one : Reports inClass (serializeTypeWith c str slice) 0) :
    Reports inClass (serializeTypeArgs c str slice) 0 := by
  cases slice with
  | tuple elts _ _ =>
    exact .pass (silent_count _) <| .pass (silent_types strings elts) (silent_bool _)
  | _ =>
    rw [serializeTypeArgs_plain]
    · exact .pass (silent_int 1) <| .pass one (silent_bool false)
    · nofun

theorem silent_types (strings : ∀ value range, Reports inClass (str value range) 0) :
    ∀ ts : List Expr, Reports inClass (serializeTypes c str ts) 0
  | [] => .pure
  | t :: ts => .pass (silent_typeWith strings t) (silent_types strings ts)

theorem silent_typesInList (strings : ∀ value range, Reports inClass (str value range) 0) :
    ∀ ts : List Expr, Reports inClass (serializeTypesInList c str ts) 0
  | [] => .pure
  | t :: ts => by
    rw [serializeTypesInList_cons]
    have item := silent_typeInList strings t (silent_typeWith strings t)
    exact .pass item (silent_typesInList strings ts)

theorem silent_typeInList (strings : ∀ value range, Reports inClass (str value range) 0)
    (t : Expr) (one : Reports inClass (serializeTypeWith c str t) 0) :
    Reports inClass (serializeTypeInList c str t) 0 := by
  cases t with
  | call func args keywords range =>
    rw [serializeTypeInList]
    have callee := silent_typeWith strings func
    have positional := silent_types strings args
    have named := silent_typeKeywords strings keywords
    refine .pass (silent_tag _) <| .pass callee ?_
    refine .pass (silent_tag _) <| .pass (silent_count _) <| .pass positional ?_
    refine .pass (silent_tag _) <| .pass (silent_count _) <| .pass named ?_
    exact silent_close c range
  | _ =>
    rw [serializeTypeInList_plain]
    · exact one
    · nofun

theorem silent_typeKeywords (strings : ∀ value range, Reports inClass (str value range) 0) :
    ∀ keywords : List Keyword, Reports inClass (serializeTypeKeywords c str keywords) 0
  | [] => .pure
  | .mk _ value :: keywords =>
    .pass (silent_bytesOrNone _) <| .pass (silent_typeWith strings value)
      (silent_typeKeywords strings keywords)

theorem silent_typedDictValues (strings : ∀ value range, Reports inClass (str value range) 0) :
    ∀ items : List DictItem, Reports inClass (serializeTypedDictValues c str items) 0
  | [] => .pure
  | .mk _ value :: items =>
    .pass (silent_typeWith strings value) (silent_typedDictValues strings items)

end

/-- At bound zero the serializer does not return. -/
theorem silent_stringTypeWithin (bound : Nat) (value : String) (range : TextRange) :
    Reports inClass (serializeStringTypeWithin c bound value range) 0 := by
  induction bound generalizing value range with
  | zero => exact silent_panic
  | succ bound ih =>
    have raw : Reports inClass (do
        writeTag .rawExpressionType
        writeBytes (utf8 "builtins.str")
        writeBytes (utf8 value)
        writeLocation c range
        writeEndTag) 0 :=
      .pass (silent_tag _) <| .pass (silent_bytes _) <| .pass (silent_bytes _)
        (silent_close c range)
    unfold serializeStringTypeWithin
    cases c.parser.parseUnchecked ("(" ++ value ++ ")") with
    | none => exact raw
    | some e =>
      cases e with
      | name id own => exact .pass (silent_simpleUnbound (utf8 id) _ _) (silent_close c range)
      | «attribute» base attr own =>
        exact .pass (silent_attribute (.attribute base attr own) _ _) (silent_close c range)
      | subscript base slice own =>
        have args : Reports inClass (serializeTypeArgs c (serializeStringTypeWithin c bound)
            (slice.relocate range)) 0 := silent_typeArgs ih _ (silent_typeWith ih _)
        exact .pass (silent_subscript base args _ _) (silent_close c range)
      | binOp left op right own =>
        cases op with
        | bitOr =>
          exact silent_union (silent_typeWith ih (left.relocate range))
            (silent_typeWith ih (right.relocate range)) range _ _
        | _ => exact raw
      | noneLiteral own =>
        exact .pass (silent_simpleUnbound (utf8 "None") _ _) (silent_close c range)
      | _ => exact raw

theorem silent_type (t : Expr) : Reports inClass (serializeType c t) 0 :=
  silent_typeWith (fun value => silent_stringTypeWithin _ value) t

end Types

end AstSerialize
