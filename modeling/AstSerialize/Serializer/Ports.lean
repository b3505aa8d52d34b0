import AstSerialize.Coding.Logs
import AstSerialize.Serializer.State

/-! What the writers of the serializer emit, seen through any port that shows
the bytes and hides the errors. -/
namespace AstSerialize
open Coding

/-- The fields that every statement restores. -/
structure Scope where
  inClass : Bool
  inFunction : Bool
  unreachable : Bool
  mypyOnly : Bool
  isEvaluated : Bool
  deriving DecidableEq, Repr

/-- The fields that only grow. -/
@[ext] structure Trace where
  imports : List ImportStatement
  skippedLines : List Nat
  topLevelGetattr : Bool
  deriving DecidableEq, Repr

namespace Trace

instance : Add Trace where
  add t u := ⟨t.imports ++ u.imports, t.skippedLines ++ u.skippedLines,
    t.topLevelGetattr || u.topLevelGetattr⟩

instance : Zero Trace := ⟨⟨[], [], false⟩⟩

@[simp] theorem add_imports (t u : Trace) : (t + u).imports = t.imports ++ u.imports := rfl

@[simp] theorem add_skippedLines (t u : Trace) :
    (t + u).skippedLines = t.skippedLines ++ u.skippedLines := rfl

@[simp] theorem add_topLevelGetattr (t u : Trace) :
    (t + u).topLevelGetattr = (t.topLevelGetattr || u.topLevelGetattr) := rfl

@[simp] theorem zero_imports : (0 : Trace).imports = [] := rfl

@[simp] theorem zero_skippedLines : (0 : Trace).skippedLines = [] := rfl

@[simp] theorem zero_topLevelGetattr : (0 : Trace).topLevelGetattr = false := rfl

instance : AddMonoid Trace where
  add_assoc t u v := by ext <;> simp [Bool.or_assoc]
  zero_add t := by ext <;> simp
  add_zero t := by ext <;> simp
  nsmul := nsmulRec

end Trace

structure Tracked where
  scope : Scope
  trace : Trace

def Serializer.tracked (s : Serializer) : Tracked where
  scope := ⟨s.inClass, s.inFunction, s.currentUnreachable, s.currentMypyOnly, s.isEvaluated⟩
  trace := ⟨s.imports, s.skippedLines, s.topLevelGetattr⟩

/-- Statements are seen without the surrogate flag. -/
def stmtPort : Port Serializer Tracked UInt8 := ⟨Serializer.tracked, Serializer.bytes⟩

/-- Expressions are seen with it. -/
def exprPort : Port Serializer (Tracked × Bool) UInt8 :=
  ⟨fun s => (s.tracked, s.hasSurrogates), Serializer.bytes⟩

/-- The port shows the bytes as its output, and neither them nor the errors in its view. -/
class Observes {V : Type} (P : Port Serializer V UInt8) : Prop where
  out_bytes : ∀ s, P.out s = s.bytes
  view_bytes : ∀ s w, P.view { s with bytes := w } = P.view s
  view_errors : ∀ s errors, P.view { s with extraErrors := errors } = P.view s

instance : Observes stmtPort := ⟨fun _ => rfl, fun _ _ => rfl, fun _ _ => rfl⟩

instance : Observes exprPort := ⟨fun _ => rfl, fun _ _ => rfl, fun _ _ => rfl⟩

/-- What `write_location` writes. -/
def Config.location (c : Config) (range : TextRange) : Location :=
  match c.locationOverride with
  | some (line, column, endLine, endColumn) =>
    ⟨line.toNat, column.toNat, (endLine.toNat : Int) - line.toNat,
      (endColumn.toNat : Int) - column.toNat⟩
  | none => c.source.location range

section Writers

variable {V : Type} {P : Port Serializer V UInt8} [Observes P] {v : V}

theorem emits_extend (w : Bytes) : Emits P (extendBytes w) v w v := by
  intro s hs
  refine ⟨{ s with bytes := s.bytes ++ w }, rfl, ?_, ?_⟩
  · rw [Observes.view_bytes, hs]
  · rw [Observes.out_bytes, Observes.out_bytes]

theorem emits_tag (t : Tag) : Emits P (writeTag t) v (encTag t) v := emits_extend _

theorem emits_end : Emits P writeEndTag v (encTag .end) v := emits_extend _

theorem emits_int (i : Int) : Emits P (writeInt i) v (encodeInt i) v := emits_extend _

theorem emits_count (n : Nat) : Emits P (writeUsize n) v (encCount n) v := emits_extend _

theorem emits_bool (b : Bool) : Emits P (writeBool b) v (encBool b) v := emits_extend _

theorem emits_taggedInt (i : Int) : Emits P (writeTaggedInt i) v (encTaggedInt i) v :=
  .step (emits_tag _) (.last (emits_int i))

theorem emits_bytes (b : Bytes) : Emits P (writeBytes b) v (encBytes b) v :=
  .step (emits_tag _) (.last (.step (emits_count _) (.last (emits_extend b))))

theorem emits_bytesOrNone (b : Option Bytes) :
    Emits P (writeBytesOrNone b) v (encBytesOrNone b) v := by
  cases b with
  | none => exact emits_tag _
  | some b => exact emits_bytes b

theorem emits_location (c : Config) (range : TextRange) :
    Emits P (writeLocation c range) v (encLocation (c.location range)) v := by
  unfold writeLocation Config.location
  cases c.locationOverride with
  | none =>
    exact .step (emits_tag _) <| .step (emits_int _) <| .step (emits_int _) <|
      .step (emits_int _) <| .last (emits_int _)
  | some range =>
    exact .step (emits_tag _) <| .step (emits_int _) <| .step (emits_int _) <|
      .step (emits_int _) <| .last (emits_int _)

/-- The location and the end tag. -/
theorem emits_close (c : Config) (range : TextRange) :
    Emits P (do writeLocation c range; writeEndTag) v
      [encLocation (c.location range), encTag .end].flatten v :=
  .step (emits_location c range) (.last emits_end)

theorem emits_error (c : Config) (error : String) (range : TextRange) (blocker : Bool) :
    Emits P (addError c error range blocker) v [] v := by
  apply Emits.modify
  · intro s hs
    rw [Observes.view_errors, hs]
  · intro s
    rw [Observes.out_bytes, Observes.out_bytes]

end Writers

/-- An action on an expression, inside a statement: where the flag ends up does not matter. -/
theorem Emits.hideFlag {m : SerM Unit} {t : Tracked} {w : Bytes}
    (h : ∀ b, ∃ b', Emits exprPort m (t, b) w (t, b')) : Emits stmtPort m t w t := by
  refine Emits.coarsen exprPort Prod.fst (fun _ => rfl) (fun _ => rfl) ?_
  rintro ⟨t', b⟩ rfl
  obtain ⟨b', emits⟩ := h b
  exact ⟨(t', b'), rfl, emits⟩

end AstSerialize
