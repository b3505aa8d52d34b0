import AstSerialize.Serializer.Pattern

/-! Words that a decoder takes off a stream, and values that the code keeps apart. -/
namespace AstSerialize
open Coding

theorem utf8_injective : Function.Injective utf8 := by
  intro s t same
  have bytes : s.toList.utf8Encode = t.toList.utf8Encode := congrArg List.toByteArray same
  rwa [String.utf8Encode_toList, String.utf8Encode_toList, String.toByteArray_inj] at bytes

theorem operator_toInt_injective : Function.Injective Operator.toInt := by
  intro op op' same
  cases op <;> cases op' <;> first | rfl | cases same

theorem unaryOp_toInt_injective : Function.Injective UnaryOp.toInt := by
  intro op op' same
  cases op <;> cases op' <;> first | rfl | cases same

theorem boolOp_toInt_injective : Function.Injective BoolOp.toInt := by
  intro op op' same
  cases op <;> cases op' <;> first | rfl | cases same

theorem cmpOp_toInt_injective : Function.Injective CmpOp.toInt := by
  intro op op' same
  cases op <;> cases op' <;> first | rfl | cases same

/-- The action writes a word that the decoder takes off every stream with the value `a`. Where it
panics, the flag of surrogates has no value after it. -/
def WritesCode {α : Type} (s : Serializer) (m : SerM Unit) (after : Option Bool)
    (d : Decoder UInt8 α) (a : α) : Prop :=
  match m.run s with
  | some ((), s') => ∃ w, s'.bytes = s.bytes ++ w ∧ ∀ r, d (w ++ r) = some (a, r)
  | none => after = none

theorem writesCode_of_flags {α : Type} {s : Serializer} {m : SerM Unit} {f : Bool → Option Bool}
    {d : Decoder UInt8 α} {w : Bytes} {a : α} (flags : Flags s.tracked m f w)
    (reads : Reads d w a) : WritesCode s m (f s.hasSurrogates) d a := by
  unfold WritesCode
  cases reached : f s.hasSurrogates with
  | none =>
    rw [flags.panics reached s rfl]
  | some b =>
    obtain ⟨s', run, -, out⟩ := flags.emits reached s rfl
    rw [run]
    exact ⟨w, out, reads.run_eq⟩

end AstSerialize
