import AstSerialize.Serializer.ExprSound
import AstSerialize.Wire.Pattern

/-! `impl Ser for ast::Pattern`, its wire tree, and that the encoding of
expressions and patterns is self-delimiting. -/
namespace AstSerialize
open Coding

variable (c : Config)

/-- A flag, then the name and its place if there is one. -/
def writeCapture : Option Identifier → SerM Unit
  | some name => do
    writeBool true
    writeBytes name.bytes
    writeLocation c name.range
  | none => writeBool false

def writeSingleton : Singleton → SerM Unit
  | .true => writeBool true
  | .false => writeBool false
  | .none => writeTag .literalNone

mutual

def serializePattern : Pattern → SerM Unit
  | .matchAs pattern name range => do
    writeTag .asPattern
    serializeOptPattern pattern
    writeCapture c name
    writeLocation c range
    writeEndTag
  | .matchOr patterns range => do
    writeTag .orPattern
    writeTaggedInt patterns.length
    serializePatterns patterns
    writeLocation c range
    writeEndTag
  | .matchValue value range => do
    writeTag .valuePattern
    serializeExpr c value
    writeLocation c range
    writeEndTag
  | .matchSingleton value range => do
    writeTag .singletonPattern
    writeSingleton value
    writeLocation c range
    writeEndTag
  | .matchSequence patterns range => do
    writeTag .sequencePattern
    writeTaggedInt patterns.length
    serializePatterns patterns
    writeLocation c range
    writeEndTag
  | .matchStar name range => do
    writeTag .starredPattern
    writeCapture c name
    writeLocation c range
    writeEndTag
  | .matchMapping items rest range => do
    writeTag .mappingPattern
    writeTaggedInt items.length
    serializeMappingItems items
    writeCapture c rest
    writeLocation c range
    writeEndTag
  | .matchClass cls patterns keywords range => do
    writeTag .classPattern
    serializeExpr c cls
    writeTaggedInt patterns.length
    serializePatterns patterns
    writeTaggedInt keywords.length
    serializeKeywordPatterns keywords
    writeLocation c range
    writeEndTag

def serializeOptPattern : Option Pattern → SerM Unit
  | some pattern => do
    writeBool true
    serializePattern pattern
  | none => writeBool false

def serializePatterns : List Pattern → SerM Unit
  | [] => pure ()
  | pattern :: patterns => do
    serializePattern pattern
    serializePatterns patterns

def serializeMappingItems : List (Expr × Pattern) → SerM Unit
  | [] => pure ()
  | (key, pattern) :: items => do
    serializeExpr c key
    serializePattern pattern
    serializeMappingItems items

def serializeKeywordPatterns : List (Identifier × Pattern) → SerM Unit
  | [] => pure ()
  | (attr, pattern) :: keywords => do
    writeBytes attr.bytes
    serializePattern pattern
    serializeKeywordPatterns keywords

end

mutual

def surrogatesAfterPattern : Pattern → Bool → Option Bool
  | .matchSingleton _ _ | .matchStar _ _ => some
  | .matchAs pattern _ _ => surrogatesAfterOptPattern pattern
  | .matchOr patterns _ | .matchSequence patterns _ => surrogatesAfterPatterns patterns
  | .matchValue value _ => surrogatesAfter c value
  | .matchMapping items _ _ => surrogatesAfterItems items
  | .matchClass cls patterns keywords _ =>
    surrogatesAfter c cls >=> surrogatesAfterPatterns patterns >=>
      surrogatesAfterKeywordPatterns keywords

def surrogatesAfterOptPattern : Option Pattern → Bool → Option Bool
  | none => some
  | some pattern => surrogatesAfterPattern pattern

def surrogatesAfterPatterns : List Pattern → Bool → Option Bool
  | [] => some
  | pattern :: patterns => surrogatesAfterPattern pattern >=> surrogatesAfterPatterns patterns

def surrogatesAfterItems : List (Expr × Pattern) → Bool → Option Bool
  | [] => some
  | (key, pattern) :: items =>
    surrogatesAfter c key >=> surrogatesAfterPattern pattern >=> surrogatesAfterItems items

def surrogatesAfterKeywordPatterns : List (Identifier × Pattern) → Bool → Option Bool
  | [] => some
  | (_, pattern) :: keywords =>
    surrogatesAfterPattern pattern >=> surrogatesAfterKeywordPatterns keywords

end

section Trees

def toWireCapture (name : Option Identifier) : Option (Bytes × Location) :=
  name.map fun name => (name.bytes, c.location name.range)

def toWireSingleton : Singleton → Option Bool
  | .true => some true
  | .false => some false
  | .none => none

variable (scope : Scope)

mutual

def toWirePattern : Pattern → WPattern c.cacheVersion
  | .matchAs pattern name range =>
    .as (toWireOptPattern pattern) (toWireCapture c name) (c.location range)
  | .matchOr patterns range => .or (toWirePatterns patterns) (c.location range)
  | .matchValue value range => .value (toWireExpr c scope value) (c.location range)
  | .matchSingleton value range => .singleton (toWireSingleton value) (c.location range)
  | .matchSequence patterns range => .sequence (toWirePatterns patterns) (c.location range)
  | .matchStar name range => .starred (toWireCapture c name) (c.location range)
  | .matchMapping items rest range =>
    .mapping (toWireMappingItems items) (toWireCapture c rest) (c.location range)
  | .matchClass cls patterns keywords range =>
    .class (toWireExpr c scope cls) (toWirePatterns patterns) (toWireKeywordPatterns keywords)
      (c.location range)

def toWireOptPattern : Option Pattern → Option (WPattern c.cacheVersion)
  | none => none
  | some pattern => some (toWirePattern pattern)

def toWirePatterns : List Pattern → List (WPattern c.cacheVersion)
  | [] => []
  | pattern :: patterns => toWirePattern pattern :: toWirePatterns patterns

def toWireMappingItems :
    List (Expr × Pattern) → List (WExpr c.cacheVersion × WPattern c.cacheVersion)
  | [] => []
  | (key, pattern) :: items =>
    (toWireExpr c scope key, toWirePattern pattern) :: toWireMappingItems items

def toWireKeywordPatterns :
    List (Identifier × Pattern) → List (Bytes × WPattern c.cacheVersion)
  | [] => []
  | (attr, pattern) :: keywords =>
    (attr.bytes, toWirePattern pattern) :: toWireKeywordPatterns keywords

end

theorem toWirePatterns_length (patterns : List Pattern) :
    (toWirePatterns c scope patterns).length = patterns.length := by
  induction patterns with
  | nil => rfl
  | cons pattern patterns ih => simp [toWirePatterns, ih]

theorem toWireMappingItems_length (items : List (Expr × Pattern)) :
    (toWireMappingItems c scope items).length = items.length := by
  induction items with
  | nil => rfl
  | cons item items ih => simp [toWireMappingItems, ih]

theorem toWireKeywordPatterns_length (keywords : List (Identifier × Pattern)) :
    (toWireKeywordPatterns c scope keywords).length = keywords.length := by
  induction keywords with
  | nil => rfl
  | cons keyword keywords ih => simp [toWireKeywordPatterns, ih]

end Trees

section Sound

variable {c} {t : Tracked}

theorem emits_capture {v : Tracked × Bool} (name : Option Identifier) :
    Emits exprPort (writeCapture c name) v (encCapture (toWireCapture c name)) v := by
  cases name with
  | none => exact emits_bool false
  | some name =>
    exact .step (emits_bool true) <| .last <| .step (emits_bytes _) <| .last (emits_location c _)

theorem emits_singleton {v : Tracked × Bool} (value : Singleton) :
    Emits exprPort (writeSingleton value) v (encSingleton (toWireSingleton value)) v := by
  cases value with
  | true => exact emits_bool true
  | false => exact emits_bool false
  | none => exact emits_tag _

mutual

theorem flags_pattern : ∀ p : Pattern,
    Flags t (serializePattern c p) (surrogatesAfterPattern c p)
      (encPattern (toWirePattern c t.scope p))
  | .matchAs pattern name range =>
    .pass (fun _ => emits_tag _) <| .close (flags_optPattern pattern) fun _ =>
      .step (emits_capture name) <| emits_close c range
  | .matchOr patterns range | .matchSequence patterns range => by
    rw [toWirePattern, encPattern, toWirePatterns_length]
    exact .pass (fun _ => emits_tag _) <| .pass (fun _ => emits_taggedInt _) <|
      .close (flags_patterns patterns) fun _ => emits_close c range
  | .matchValue value range =>
    .pass (fun _ => emits_tag _) <| .close (flags_expr c value) fun _ => emits_close c range
  | .matchSingleton value range =>
    .still fun _ => .step (emits_tag _) <| .step (emits_singleton value) <| emits_close c range
  | .matchStar name range =>
    .still fun _ => .step (emits_tag _) <| .step (emits_capture name) <| emits_close c range
  | .matchMapping items rest range => by
    rw [toWirePattern, encPattern, toWireMappingItems_length]
    exact .pass (fun _ => emits_tag _) <| .pass (fun _ => emits_taggedInt _) <|
      .close (flags_mappingItems items) fun _ => .step (emits_capture rest) <| emits_close c range
  | .matchClass cls patterns keywords range => by
    rw [toWirePattern, encPattern, toWirePatterns_length, toWireKeywordPatterns_length]
    exact .pass (fun _ => emits_tag _) <| .step (flags_expr c cls) <|
      .pass (fun _ => emits_taggedInt _) <| .step (flags_patterns patterns) <|
      .pass (fun _ => emits_taggedInt _) <| .close (flags_keywordPatterns keywords) fun _ =>
        emits_close c range

theorem flags_optPattern : ∀ p : Option Pattern,
    Flags t (serializeOptPattern c p) (surrogatesAfterOptPattern c p)
      (encOptPattern (toWireOptPattern c t.scope p))
  | none => .still fun _ => emits_bool false
  | some pattern => .pass (fun _ => emits_bool true) <| .last (flags_pattern pattern)

theorem flags_patterns : ∀ patterns : List Pattern,
    Flags t (serializePatterns c patterns) (surrogatesAfterPatterns c patterns)
      (encPatterns (toWirePatterns c t.scope patterns))
  | [] => .still fun _ => .pure
  | pattern :: patterns => (flags_pattern pattern).bind (flags_patterns patterns)

theorem flags_mappingItems : ∀ items : List (Expr × Pattern),
    Flags t (serializeMappingItems c items) (surrogatesAfterItems c items)
      (encMappingItems (toWireMappingItems c t.scope items))
  | [] => .still fun _ => .pure
  | (key, pattern) :: items =>
    .congr (.step (flags_expr c key) <| .step (flags_pattern pattern) <|
      .last (flags_mappingItems items)) <| by simp [toWireMappingItems, encMappingItems]

theorem flags_keywordPatterns : ∀ keywords : List (Identifier × Pattern),
    Flags t (serializeKeywordPatterns c keywords) (surrogatesAfterKeywordPatterns c keywords)
      (encKeywordPatterns (toWireKeywordPatterns c t.scope keywords))
  | [] => .still fun _ => .pure
  | (attr, pattern) :: keywords =>
    .congr (.pass (fun _ => emits_bytes _) <| .step (flags_pattern pattern) <|
      .last (flags_keywordPatterns keywords)) <| by simp [toWireKeywordPatterns, encKeywordPatterns]

end

end Sound

end AstSerialize
