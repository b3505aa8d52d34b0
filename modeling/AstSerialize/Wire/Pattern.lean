import AstSerialize.Wire.ExprDecoder

/-! Match patterns in the stream: one constructor for each tag, the bytes of a
pattern and a decoder for them. -/
namespace AstSerialize
open Coding

inductive WPattern (cv : Nat) where
  | as (pattern : Option (WPattern cv)) (name : Option (Bytes × Location)) (loc : Location)
  | or (patterns : List (WPattern cv)) (loc : Location)
  | value (value : WExpr cv) (loc : Location)
  | singleton (value : Option Bool) (loc : Location)
  | sequence (patterns : List (WPattern cv)) (loc : Location)
  | starred (name : Option (Bytes × Location)) (loc : Location)
  | mapping (items : List (WExpr cv × WPattern cv)) (rest : Option (Bytes × Location))
      (loc : Location)
  | class (cls : WExpr cv) (patterns : List (WPattern cv)) (keywords : List (Bytes × WPattern cv))
      (loc : Location)

variable {cv : Nat}

/-- A captured name with its place. -/
def encCapture : Option (Bytes × Location) → Bytes
  | none => encBool false
  | some (name, loc) => [encBool true, [encBytes name, encLocation loc].flatten].flatten

def encSingleton : Option Bool → Bytes
  | none => encTag .literalNone
  | some b => encBool b

mutual

def encPattern : WPattern cv → Bytes
  | .as pattern name loc =>
    [encTag .asPattern, encOptPattern pattern, encCapture name, encLocation loc,
      encTag .end].flatten
  | .or patterns loc =>
    [encTag .orPattern, encTaggedCount patterns.length, encPatterns patterns, encLocation loc,
      encTag .end].flatten
  | .value value loc =>
    [encTag .valuePattern, encExpr value, encLocation loc, encTag .end].flatten
  | .singleton value loc =>
    [encTag .singletonPattern, encSingleton value, encLocation loc, encTag .end].flatten
  | .sequence patterns loc =>
    [encTag .sequencePattern, encTaggedCount patterns.length, encPatterns patterns,
      encLocation loc, encTag .end].flatten
  | .starred name loc =>
    [encTag .starredPattern, encCapture name, encLocation loc, encTag .end].flatten
  | .mapping items rest loc =>
    [encTag .mappingPattern, encTaggedCount items.length, encMappingItems items, encCapture rest,
      encLocation loc, encTag .end].flatten
  | .class cls patterns keywords loc =>
    [encTag .classPattern, encExpr cls, encTaggedCount patterns.length, encPatterns patterns,
      encTaggedCount keywords.length, encKeywordPatterns keywords, encLocation loc,
      encTag .end].flatten

def encOptPattern : Option (WPattern cv) → Bytes
  | none => encBool false
  | some pattern => [encBool true, encPattern pattern].flatten

def encPatterns : List (WPattern cv) → Bytes
  | [] => []
  | pattern :: patterns => encPattern pattern ++ encPatterns patterns

def encMappingItems : List (WExpr cv × WPattern cv) → Bytes
  | [] => []
  | (key, pattern) :: items => [encExpr key, encPattern pattern].flatten ++ encMappingItems items

def encKeywordPatterns : List (Bytes × WPattern cv) → Bytes
  | [] => []
  | (attr, pattern) :: keywords =>
    [encBytes attr, encPattern pattern].flatten ++ encKeywordPatterns keywords

end

def readName : Decoder UInt8 (Bytes × Location) := do
  let name ← readBytes
  let loc ← readLoc
  pure (name, loc)

theorem reads_capture (name : Option (Bytes × Location)) :
    Reads (readOption readName) (encCapture name) name := by
  cases name with
  | none => exact decodes_none (d := fun _ => readName) _ (Nat.le_refl _)
  | some name =>
    obtain ⟨name, loc⟩ := name
    have both : Reads readName [encBytes name, encLocation loc].flatten (name, loc) :=
      .step (reads_bytes name) <| .step (reads_loc loc) (.done _)
    exact decodes_some (d := fun _ => readName) (.const both) _ (Nat.le_refl _)

def readSingleton : Decoder UInt8 (Option Bool) := do
  match ← readTag with
  | .literalNone => pure none
  | .literalTrue => pure (some true)
  | .literalFalse => pure (some false)
  | _ => fun _ => none

theorem reads_singleton (value : Option Bool) :
    Reads readSingleton (encSingleton value) value := by
  rcases value with none | _ | _
  · exact (reads_tag .literalNone).returns rfl
  · exact (reads_tag .literalFalse).returns rfl
  · exact (reads_tag .literalTrue).returns rfl

def readMappingItem (d : Decoder UInt8 (WPattern cv)) : Decoder UInt8 (WExpr cv × WPattern cv) := do
  let key ← decExpr
  let pattern ← d
  pure (key, pattern)

def readKeywordPattern (d : Decoder UInt8 (WPattern cv)) : Decoder UInt8 (Bytes × WPattern cv) := do
  let attr ← readBytes
  let pattern ← d
  pure (attr, pattern)

/-- What follows the tag of a pattern. -/
def decPatternBody (d : Decoder UInt8 (WPattern cv)) : Tag → Decoder UInt8 (WPattern cv)
  | .asPattern => do
    let pattern ← readOption d
    let name ← readOption readName
    closing (.as pattern name)
  | .orPattern => do
    let patterns ← readTaggedList d
    closing (.or patterns)
  | .valuePattern => do
    let value ← decExpr
    closing (.value value)
  | .singletonPattern => do
    let value ← readSingleton
    closing (.singleton value)
  | .sequencePattern => do
    let patterns ← readTaggedList d
    closing (.sequence patterns)
  | .starredPattern => do
    let name ← readOption readName
    closing (.starred name)
  | .mappingPattern => do
    let items ← readTaggedList (readMappingItem d)
    let rest ← readOption readName
    closing (.mapping items rest)
  | .classPattern => do
    let cls ← decExpr
    let patterns ← readTaggedList d
    let keywords ← readTaggedList (readKeywordPattern d)
    closing (.class cls patterns keywords)
  | _ => fun _ => none

def decPatternAt : Nat → Decoder UInt8 (WPattern cv)
  | 0 => fun _ => none
  | n + 1 => readTag >>= decPatternBody (decPatternAt n)

def decPattern : Decoder UInt8 (WPattern cv) := bounded decPatternAt

mutual

theorem decodes_pattern : ∀ p : WPattern cv, Decodes decPatternAt (encPattern p) p
  | .as pattern name _ =>
    .node (fun _ => rfl) (reads_tag .asPattern) (encTag_ne_nil _) <| by
      dsimp only [decPatternBody]
      exact .step (decodes_optPattern pattern) <| .step (.const (reads_capture name)) <|
        decodes_close _ _
  | .or patterns _ =>
    .node (fun _ => rfl) (reads_tag .orPattern) (encTag_ne_nil _) <| by
      dsimp only [decPatternBody]
      exact decodes_counted (decodes_patterns patterns) <| decodes_close _ _
  | .value value _ =>
    .node (fun _ => rfl) (reads_tag .valuePattern) (encTag_ne_nil _) <| by
      dsimp only [decPatternBody]
      exact .step (.const (reads_expr value)) <| decodes_close _ _
  | .singleton value _ =>
    .node (fun _ => rfl) (reads_tag .singletonPattern) (encTag_ne_nil _) <| by
      dsimp only [decPatternBody]
      exact .step (.const (reads_singleton value)) <| decodes_close _ _
  | .sequence patterns _ =>
    .node (fun _ => rfl) (reads_tag .sequencePattern) (encTag_ne_nil _) <| by
      dsimp only [decPatternBody]
      exact decodes_counted (decodes_patterns patterns) <| decodes_close _ _
  | .starred name _ =>
    .node (fun _ => rfl) (reads_tag .starredPattern) (encTag_ne_nil _) <| by
      dsimp only [decPatternBody]
      exact .step (.const (reads_capture name)) <| decodes_close _ _
  | .mapping items rest _ =>
    .node (fun _ => rfl) (reads_tag .mappingPattern) (encTag_ne_nil _) <| by
      dsimp only [decPatternBody]
      exact decodes_counted (decodes_mappingItems items) <|
        .step (.const (reads_capture rest)) <| decodes_close _ _
  | .class cls patterns keywords _ =>
    .node (fun _ => rfl) (reads_tag .classPattern) (encTag_ne_nil _) <| by
      dsimp only [decPatternBody]
      exact .step (.const (reads_expr cls)) <| decodes_counted (decodes_patterns patterns) <|
        decodes_counted (decodes_keywordPatterns keywords) <| decodes_close _ _

theorem decodes_optPattern : ∀ p : Option (WPattern cv),
    Decodes (fun n => readOption (decPatternAt n)) (encOptPattern p) p
  | none => decodes_none
  | some p => decodes_some (decodes_pattern p)

theorem decodes_patterns : ∀ ps : List (WPattern cv),
    Decodes (fun n => times (decPatternAt n) ps.length) (encPatterns ps) ps
  | [] => .nil
  | p :: ps => .cons (decodes_pattern p) (decodes_patterns ps)

theorem decodes_mappingItems : ∀ items : List (WExpr cv × WPattern cv),
    Decodes (fun n => times (readMappingItem (decPatternAt n)) items.length)
      (encMappingItems items) items
  | [] => .nil
  | (key, pattern) :: items =>
    .cons (.step (.const (reads_expr key)) <| .step (decodes_pattern pattern) (.done _))
      (decodes_mappingItems items)

theorem decodes_keywordPatterns : ∀ keywords : List (Bytes × WPattern cv),
    Decodes (fun n => times (readKeywordPattern (decPatternAt n)) keywords.length)
      (encKeywordPatterns keywords) keywords
  | [] => .nil
  | (attr, pattern) :: keywords =>
    .cons (.step (.const (reads_bytes attr)) <| .step (decodes_pattern pattern) (.done _))
      (decodes_keywordPatterns keywords)

end

/-- The decoder undoes the encoding of patterns on every stream. -/
theorem reads_pattern (p : WPattern cv) : Reads decPattern (encPattern p) p :=
  (decodes_pattern p).bounded

end AstSerialize
