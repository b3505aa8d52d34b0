import AstSerialize.Serializer.Locations
import AstSerialize.Text.Definition

/-! The location of a function definition with decorators. It is computed back
from the name, as if single characters stood between the keywords and the name. -/
namespace AstSerialize
open Coding Coding.Utf8

namespace Location

def shift (loc : Location) (lineCount : Nat) : Location := { loc with line := loc.line + lineCount }

theorem shift_injective {loc loc' : Location} {lineCount : Nat}
    (same : loc.shift lineCount = loc'.shift lineCount) : loc = loc' := by
  cases loc
  cases loc'
  simp only [shift, Location.mk.injEq] at same ⊢
  omega

end Location

section Written

variable (c : Config) (head : FunctionHead)

/-- A decorated definition is closed twice. -/
def FunctionHead.endTags (head : FunctionHead) : Bytes :=
  match head.decoratorList with
  | [] => encTag .end
  | _ :: _ => encTag .end ++ encTag .end

def WritesLocation (loc : Location) : Prop :=
  ∀ s : Serializer, ∃ s', (closeFunction c head).run s = some ((), s') ∧
    s'.bytes = s.bytes ++ (encLocation loc ++ head.endTags)

variable {c head}

theorem closeFunction_writes : WritesLocation c head (functionLocation c head) := by
  intro s
  have emits : Emits stmtPort (closeFunction c head) s.tracked
      (encLocation (functionLocation c head) ++ head.endTags) s.tracked := by
    unfold closeFunction functionLocation FunctionHead.endTags
    cases head.decoratorList with
    | nil => exact (emits_location c head.range).bind emits_end
    | cons => exact (emits_locationOf _).bind (emits_end.bind emits_end)
  obtain ⟨s', run, -, out⟩ := emits s rfl
  exact ⟨s', run, out⟩

theorem WritesLocation.unique {loc : Location} (writes : WritesLocation c head loc) :
    loc = functionLocation c head := by
  obtain ⟨s₁, run₁, out₁⟩ := writes Serializer.initial
  obtain ⟨s₂, run₂, out₂⟩ := @closeFunction_writes c head Serializer.initial
  rw [run₁] at run₂
  cases run₂
  rw [out₁] at out₂
  exact encLocation_injective (List.append_cancel_right (List.append_cancel_left out₂))

end Written

section Decorated

variable (l : DefinitionLayout)

/-- The head that is parsed from the definition without decorators. -/
structure DefinitionLayout.Plain (c : Config) (head : FunctionHead) : Prop where
  text : c.source.text = l.plainText
  noOverride : c.locationOverride = none
  undecorated : head.decoratorList = []
  range : head.range = ⟨byteLen (l.plainUpTo []), byteLen (l.plainUpTo l.definition)⟩

/-- The head that is parsed from the decorated definition; its range starts at a decorator. -/
structure DefinitionLayout.Decorated (c : Config) (head : FunctionHead) : Prop where
  text : c.source.text = l.decoratedText
  decorated : head.decoratorList ≠ []
  isAsync : head.isAsync = l.keywords.isAsync
  name : head.name.range.start = byteLen (l.decoratedUpTo l.keywords.text)
  stop : head.range.stop = byteLen (l.decoratedUpTo l.definition)

structure DefinitionLayout.Unmoved (plain decorated : Location) : Prop where
  shifted : decorated = plain.shift l.added
  line : decorated.line = lineNumber (l.decoratedUpTo [])
  column : decorated.column = columnNumber (l.decoratedUpTo [])
  nonneg : 0 ≤ decorated.column

/-- What is written for the definition with and without its decorators. -/
def DefinitionLayout.KeepsLocation (plain decorated : Config) (plainHead decoratedHead : FunctionHead) :
    Prop :=
  ∃ loc loc', WritesLocation plain plainHead loc ∧ WritesLocation decorated decoratedHead loc' ∧
    l.Unmoved loc loc'

def DefinitionLayout.asciiEnds : Bool :=
  asciiThrough (l.plainUpTo []) (l.definition ++ l.after)
    && asciiThrough (l.plainUpTo l.definition) l.after

variable {l} {plain decorated : Config} {plainHead decoratedHead : FunctionHead}

theorem noReturn_plain (l : DefinitionLayout) : '\r' ∉ l.plainText := by
  intro mem
  apply l.noReturn
  simp only [DefinitionLayout.plainText, DefinitionLayout.plainUpTo, DefinitionLayout.definition,
    List.mem_append] at mem ⊢
  tauto

theorem noReturn_decorated (l : DefinitionLayout) : '\r' ∉ l.decoratedText := by
  intro mem
  apply l.noReturn
  simp only [DefinitionLayout.decoratedText, DefinitionLayout.decoratedUpTo,
    DefinitionLayout.definition, List.mem_append] at mem ⊢
  tauto

theorem plain_location_iff (parsed : l.Plain plain plainHead) :
    functionLocation plain plainHead
        = readLocation (l.plainUpTo []) (l.plainUpTo l.definition) ↔ l.asciiEnds = true := by
  have noReturn : '\r' ∉ plain.source.text := by
    rw [parsed.text]
    exact noReturn_plain l
  have start : plain.source.text = l.plainUpTo [] ++ (l.definition ++ l.after) := by
    simp only [parsed.text, DefinitionLayout.plainText, DefinitionLayout.plainUpTo,
      List.append_assoc, List.nil_append]
  have stop : plain.source.text = l.plainUpTo l.definition ++ l.after := parsed.text
  have location : functionLocation plain plainHead
      = plain.source.location ⟨byteLen (l.plainUpTo []), byteLen (l.plainUpTo l.definition)⟩ := by
    rw [functionLocation, parsed.undecorated, parsed.range]
    simp only [Config.location, parsed.noOverride]
  rw [location, location_eq_iff noReturn start stop, DefinitionLayout.asciiEnds, Bool.and_eq_true]

theorem decorated_location (parsed : l.Decorated decorated decoratedHead) :
    functionLocation decorated decoratedHead =
      let line : Int := lineNumber (l.decoratedUpTo l.keywords.text)
      let column : Int := (columnNumber (l.decoratedUpTo l.keywords.text) : Int)
        - DefKeywords.offset l.keywords.isAsync
      ⟨line, column, lineNumber (l.decoratedUpTo l.definition) - line,
        columnNumber (l.decoratedUpTo l.definition) - column⟩ := by
  have noReturn : '\r' ∉ decorated.source.text := by
    rw [parsed.text]
    exact noReturn_decorated l
  have name : decorated.source.text
      = l.decoratedUpTo l.keywords.text ++ (l.fromName ++ l.after) := by
    simp only [parsed.text, DefinitionLayout.decoratedText, DefinitionLayout.decoratedUpTo,
      DefinitionLayout.definition, List.append_assoc]
  have stop : decorated.source.text = l.decoratedUpTo l.definition ++ l.after := parsed.text
  have offset : (if l.keywords.isAsync = true then 10 else 4 : Int)
      = DefKeywords.offset l.keywords.isAsync := by
    rw [DefKeywords.offset]
    split <;> rfl
  have location : functionLocation decorated decoratedHead = decorated.defLocation decoratedHead := by
    rw [functionLocation]
    cases decorators : decoratedHead.decoratorList with
    | nil => exact absurd decorators parsed.decorated
    | cons => rfl
  rw [location]
  simp only [Config.defLocation, parsed.name, parsed.stop, parsed.isAsync, offset,
    lineColumn_of noReturn name, lineColumn_of noReturn stop, Nat.add_sub_cancel]

/-- The decorated location starts at the keyword exactly if the offset is right, and then it is
that of the text. -/
theorem decorated_start_iff (parsed : l.Decorated decorated decoratedHead) :
    ((functionLocation decorated decoratedHead).line = lineNumber (l.decoratedUpTo []) ∧
      (functionLocation decorated decoratedHead).column = columnNumber (l.decoratedUpTo [])) ↔
      l.keywords.singleSpaced = true := by
  rw [← l.name_position_iff, decorated_location parsed]
  dsimp only
  omega

theorem decorated_location_read (parsed : l.Decorated decorated decoratedHead)
    (single : l.keywords.singleSpaced = true) :
    functionLocation decorated decoratedHead
      = readLocation (l.decoratedUpTo []) (l.decoratedUpTo l.definition) := by
  obtain ⟨line, column⟩ := l.name_position_iff.mpr single
  have cancelled : ((columnNumber (l.decoratedUpTo [])
      + DefKeywords.offset l.keywords.isAsync : Nat) : Int)
        - DefKeywords.offset l.keywords.isAsync = columnNumber (l.decoratedUpTo []) := by omega
  rw [decorated_location parsed, readLocation]
  simp only [line, column, cancelled]

theorem readLocation_decorated (l : DefinitionLayout) :
    readLocation (l.decoratedUpTo []) (l.decoratedUpTo l.definition)
      = (readLocation (l.plainUpTo []) (l.plainUpTo l.definition)).shift l.added := by
  simp only [readLocation, Location.shift, l.lineNumber_decorated,
    l.columnNumber_decorated DefinitionLayout.inside_nil,
    l.columnNumber_decorated DefinitionLayout.inside_end, Location.mk.injEq, true_and, and_true]
  omega

/-- Decorators leave the location of a definition alone exactly if a single space, tab or form feed
follows each keyword and both ends of the definition are on ASCII lines. -/
theorem decorated_definition_unmoved_iff (plainParsed : l.Plain plain plainHead)
    (decoratedParsed : l.Decorated decorated decoratedHead) :
    l.KeepsLocation plain decorated plainHead decoratedHead ↔
      l.keywords.singleSpaced = true ∧ l.asciiEnds = true := by
  constructor
  · rintro ⟨loc, loc', writes, writes', unmoved⟩
    cases writes.unique
    cases writes'.unique
    have single := (decorated_start_iff decoratedParsed).mp ⟨unmoved.line, unmoved.column⟩
    have shifted := unmoved.shifted
    rw [decorated_location_read decoratedParsed single, readLocation_decorated] at shifted
    have read := Location.shift_injective shifted
    exact ⟨single, (plain_location_iff plainParsed).mp read.symm⟩
  · rintro ⟨single, ascii⟩
    have read := (plain_location_iff plainParsed).mpr ascii
    have found := (decorated_start_iff decoratedParsed).mpr single
    refine ⟨_, _, closeFunction_writes, closeFunction_writes, ?_, found.1, found.2, ?_⟩
    · rw [read, decorated_location_read decoratedParsed single, readLocation_decorated]
    · rw [found.2]
      exact Int.natCast_nonneg _

end Decorated

section Short

def DefinitionLayout.plainHead (l : DefinitionLayout) : FunctionHead where
  isAsync := l.keywords.isAsync
  decoratorList := []
  name := ⟨"f", ⟨byteLen (l.plainUpTo l.keywords.text), byteLen (l.plainUpTo l.keywords.text) + 1⟩⟩
  typeParams := none
  parameters := .mk [] [] none [] none
  returns := none
  range := ⟨byteLen (l.plainUpTo []), byteLen (l.plainUpTo l.definition)⟩

def DefinitionLayout.decoratedHead (l : DefinitionLayout) : FunctionHead where
  isAsync := l.keywords.isAsync
  decoratorList := [⟨.name "d" ⟨1, 2⟩, ⟨0, 2⟩⟩]
  name := ⟨"f", ⟨byteLen (l.decoratedUpTo l.keywords.text),
    byteLen (l.decoratedUpTo l.keywords.text) + 1⟩⟩
  typeParams := none
  parameters := .mk [] [] none [] none
  returns := none
  range := ⟨0, byteLen (l.decoratedUpTo l.definition)⟩

/-- `def f(): pass` under the decorator `@d`. -/
def shortLayout : DefinitionLayout where
  before := []
  decorators := "@d\n".toList
  indent := []
  keywords := .plain .space
  fromName := "f(): pass".toList
  after := ['\n']
  above := .inl rfl
  decoratorLines := rfl
  blank := fun _ mem => absurd mem List.not_mem_nil
  noReturn := by decide

theorem short_definition_unmoved :
    shortLayout.KeepsLocation (.plain shortLayout.plainText) (.plain shortLayout.decoratedText)
      shortLayout.plainHead shortLayout.decoratedHead :=
  (decorated_definition_unmoved_iff ⟨rfl, rfl, rfl, rfl⟩
    ⟨rfl, List.cons_ne_nil _ _, rfl, rfl, rfl⟩).mpr ⟨by decide, by decide⟩

def spacedLayout : DefinitionLayout :=
  { shortLayout with
    keywords := .plain ⟨.space, [.space]⟩
    noReturn := by decide }

def continuedLayout : DefinitionLayout :=
  { shortLayout with
    keywords := .plain ⟨.continuation, []⟩
    noReturn := by decide }

/-- A second space moves the definition by one column, and a continued line puts it before the
start of the line. -/
theorem spaced_definition_moves :
    (functionLocation (.plain spacedLayout.plainText) spacedLayout.plainHead = ⟨1, 0, 0, 14⟩ ∧
      functionLocation (.plain spacedLayout.decoratedText) spacedLayout.decoratedHead
        = ⟨2, 1, 0, 13⟩ ∧
      ¬ spacedLayout.KeepsLocation (.plain spacedLayout.plainText)
        (.plain spacedLayout.decoratedText) spacedLayout.plainHead spacedLayout.decoratedHead) ∧
    (functionLocation (.plain continuedLayout.plainText) continuedLayout.plainHead = ⟨1, 0, 1, 9⟩ ∧
      functionLocation (.plain continuedLayout.decoratedText) continuedLayout.decoratedHead
        = ⟨3, -4, 0, 13⟩ ∧
      ¬ continuedLayout.KeepsLocation (.plain continuedLayout.plainText)
        (.plain continuedLayout.decoratedText) continuedLayout.plainHead
        continuedLayout.decoratedHead) := by
  refine ⟨⟨by decide, by decide, ?_⟩, by decide, by decide, ?_⟩
  · rintro ⟨loc, loc', -, writes, unmoved⟩
    have column := unmoved.column
    rw [writes.unique] at column
    exact absurd column (by decide)
  · rintro ⟨loc, loc', -, writes, unmoved⟩
    have nonneg := unmoved.nonneg
    rw [writes.unique] at nonneg
    exact absurd nonneg (by decide)

end Short

end AstSerialize
