import AstSerialize.Text.Location

/-! The text of a function definition up to its name, and the same definition
with and without the lines of its decorators. -/
namespace AstSerialize
open Coding Coding.Utf8

section Lines

theorem lineNumber_append (s t : List Char) :
    lineNumber (s ++ t) = lineNumber s + t.count '\n' := by
  rw [lineNumber, lineNumber, List.count_append]
  omega

theorem currentLine_append (s t : List Char) (one : '\n' ∉ t) :
    currentLine (s ++ t) = currentLine s ++ t := by
  induction t using List.reverseRecOn with
  | nil => simp
  | append_singleton t c ih =>
    rw [List.mem_append, not_or, List.mem_singleton] at one
    rw [← List.append_assoc, currentLine_concat _ c (fun h => one.2 h.symm), ih one.1,
      List.append_assoc]

/-- A text that ends a line has no part in the line after it. -/
theorem currentLine_below {top : List Char} (closed : top.getLast? = some '\n') (t : List Char) :
    currentLine (top ++ t) = currentLine t := by
  obtain ⟨top, rfl⟩ := List.getLast?_eq_some_iff.mp closed
  induction t using List.reverseRecOn with
  | nil =>
    rw [List.append_nil]
    exact currentLine_concat_newline top
  | append_singleton t c ih =>
    rw [← List.append_assoc]
    by_cases newline : c = '\n'
    · rw [newline, currentLine_concat_newline, currentLine_concat_newline]
    · rw [currentLine_concat _ c newline, currentLine_concat _ c newline, ih]

/-- What stands over a line: nothing, a byte order mark alone, or whole lines. -/
def LinesAbove (top : List Char) : Prop := top = [] ∨ top = [bom] ∨ top.getLast? = some '\n'

/-- A column counts from the start of the line, whatever is above. -/
theorem columnNumber_below {top t : List Char} (above : LinesAbove top)
    (unmarked : t.head? ≠ some bom) : columnNumber (top ++ t) = (currentLine t).length := by
  rcases above with rfl | rfl | closed
  · rw [List.nil_append, columnNumber, if_neg fun marked => unmarked marked.2]
  · rw [List.singleton_append, columnNumber]
    by_cases more : '\n' ∈ t
    · rw [if_neg, currentLine_cons t bom more]
      exact fun marked => marked.1 (List.mem_cons_of_mem _ more)
    · have one : '\n' ∉ bom :: t := List.not_mem_cons_of_ne_of_not_mem (by decide) more
      rw [if_pos ⟨one, rfl⟩, currentLine_of_one_line t more, List.length_cons,
        Nat.add_sub_cancel]
  · have newline : '\n' ∈ top ++ t := List.mem_append_left t (List.mem_of_getLast? closed)
    rw [columnNumber, if_neg fun marked => marked.1 newline, currentLine_below closed]

end Lines

/-- What may stand between two tokens of a statement. -/
inductive Separator where
  | space
  | tab
  | formFeed
  /-- A backslash at the end of a line. -/
  | continuation
  deriving DecidableEq, Repr

def Separator.text : Separator → List Char
  | .space => [' ']
  | .tab => ['\t']
  | .formFeed => ['\x0C']
  | .continuation => ['\\', '\n']

/-- What separates a keyword from the next token. -/
structure Gap where
  first : Separator
  more : List Separator
  deriving DecidableEq, Repr

namespace Gap

def text (gap : Gap) : List Char := gap.first.text ++ gap.more.flatMap (·.text)

def space : Gap := ⟨.space, []⟩

/-- One character, and no line continuation. -/
def single (gap : Gap) : Bool := gap.first ≠ .continuation && gap.more.isEmpty

theorem single_iff (gap : Gap) : gap.single = true ↔ gap.text.length = 1 := by
  rcases gap with ⟨first, more⟩
  cases more with
  | nil => cases first <;> decide
  | cons second more =>
    have two : 2 ≤ (Gap.mk first (second :: more)).text.length := by
      rw [text, List.flatMap_cons, List.length_append, List.length_append]
      cases first <;> cases second <;> simp only [Separator.text, List.length_cons,
        List.length_nil] <;> omega
    constructor
    · intro single
      simp [Gap.single] at single
    · intro one
      omega

theorem length_pos (gap : Gap) : 1 ≤ gap.text.length := by
  rcases gap with ⟨first, more⟩
  rw [text, List.length_append]
  cases first <;> simp only [Separator.text, List.length_cons, List.length_nil] <;> omega

theorem single_oneLine {gap : Gap} (single : gap.single = true) : '\n' ∉ gap.text := by
  rcases gap with ⟨first, more⟩
  rw [Gap.single, Bool.and_eq_true, List.isEmpty_iff] at single
  obtain ⟨plain, rfl⟩ := single
  cases first with
  | space | tab | formFeed => decide
  | continuation => cases plain

end Gap

/-- The keywords of a definition, with what follows each of them. -/
inductive DefKeywords where
  | plain (afterDef : Gap)
  | async (afterAsync afterDef : Gap)
  deriving DecidableEq, Repr

namespace DefKeywords

def isAsync : DefKeywords → Bool
  | .plain _ => false
  | .async _ _ => true

def text : DefKeywords → List Char
  | .plain afterDef => ['d', 'e', 'f'] ++ afterDef.text
  | .async afterAsync afterDef =>
    ['a', 's', 'y', 'n', 'c'] ++ afterAsync.text ++ (['d', 'e', 'f'] ++ afterDef.text)

/-- Single characters between the tokens, as the offset of the name presumes. -/
def singleSpaced : DefKeywords → Bool
  | .plain afterDef => afterDef.single
  | .async afterAsync afterDef => afterAsync.single && afterDef.single

/-- `def_offset`. -/
def offset (isAsync : Bool) : Nat := if isAsync then 10 else 4

theorem singleSpaced_iff (keywords : DefKeywords) :
    keywords.singleSpaced = true ↔ keywords.text.length = offset keywords.isAsync := by
  cases keywords with
  | plain afterDef =>
    have length : (plain afterDef).text.length = 3 + afterDef.text.length := List.length_append
    rw [singleSpaced, Gap.single_iff, length, isAsync, offset, if_neg Bool.false_ne_true]
    omega
  | async afterAsync afterDef =>
    have first := afterAsync.length_pos
    have second := afterDef.length_pos
    have length : (async afterAsync afterDef).text.length
        = 5 + afterAsync.text.length + (3 + afterDef.text.length) := by
      simp only [text, List.length_append, List.length_cons, List.length_nil]
    rw [singleSpaced, Bool.and_eq_true, Gap.single_iff, Gap.single_iff, length, isAsync, offset,
      if_pos rfl]
    omega

theorem singleSpaced_oneLine {keywords : DefKeywords} (single : keywords.singleSpaced = true) :
    '\n' ∉ keywords.text := by
  cases keywords with
  | plain afterDef =>
    have gap := Gap.single_oneLine single
    rw [text, List.mem_append, not_or]
    exact ⟨by decide, gap⟩
  | async afterAsync afterDef =>
    rw [singleSpaced, Bool.and_eq_true] at single
    have first := Gap.single_oneLine single.1
    have second := Gap.single_oneLine single.2
    simp only [text, List.mem_append, not_or]
    exact ⟨⟨by decide, first⟩, by decide, second⟩

/-- A definition starts with a letter. -/
theorem text_head (keywords : DefKeywords) :
    keywords.text.head? = some 'd' ∨ keywords.text.head? = some 'a' := by
  cases keywords with
  | plain => exact .inl rfl
  | async => exact .inr rfl

end DefKeywords

/-- A function definition in a text, and the lines that decorate it. -/
structure DefinitionLayout where
  before : List Char
  /-- The decorators, and the comments and the empty lines among them. -/
  decorators : List Char
  indent : List Char
  keywords : DefKeywords
  /-- The definition from its name to its end. -/
  fromName : List Char
  after : List Char
  above : LinesAbove before
  decoratorLines : decorators.getLast? = some '\n'
  blank : ∀ c ∈ indent, c = ' ' ∨ c = '\t' ∨ c = '\x0C'
  noReturn : '\r' ∉ before ++ decorators ++ indent ++ keywords.text ++ fromName ++ after

namespace DefinitionLayout

variable (l : DefinitionLayout)

/-- The text before a position of the definition, which is `inside` it. -/
def plainUpTo (inside : List Char) : List Char := l.before ++ (l.indent ++ inside)

/-- The same position in the decorated text. -/
def decoratedUpTo (inside : List Char) : List Char :=
  l.before ++ l.decorators ++ (l.indent ++ inside)

def definition : List Char := l.keywords.text ++ l.fromName

def plainText : List Char := l.plainUpTo l.definition ++ l.after

def decoratedText : List Char := l.decoratedUpTo l.definition ++ l.after

/-- The number of lines added above. -/
def added : Nat := l.decorators.count '\n'

/-- The part of the definition before a position of it. -/
def Inside (inside : List Char) : Prop := ∃ rest, inside ++ rest = l.definition

variable {l} {inside : List Char}

theorem inside_nil : l.Inside [] := ⟨l.definition, rfl⟩

theorem inside_name : l.Inside l.keywords.text := ⟨l.fromName, rfl⟩

theorem inside_end : l.Inside l.definition := ⟨[], List.append_nil _⟩

theorem unmarked (within : l.Inside inside) : (l.indent ++ inside).head? ≠ some bom := by
  intro marked
  rw [List.head?_append] at marked
  cases indent : l.indent with
  | cons c rest =>
    rw [indent, List.head?_cons, Option.some_or] at marked
    cases marked
    have blank := l.blank bom (by rw [indent]; exact List.mem_cons_self)
    exact absurd blank (by decide)
  | nil =>
    rw [indent, List.head?_nil, Option.none_or] at marked
    obtain ⟨rest, split⟩ := within
    have head : l.definition.head? = some bom := by
      rw [← split, List.head?_append, marked, Option.some_or]
    rw [definition, List.head?_append] at head
    rcases l.keywords.text_head with letter | letter <;>
      · rw [letter, Option.some_or, Option.some.injEq] at head
        exact absurd head (by decide)

theorem above_decorated (l : DefinitionLayout) : LinesAbove (l.before ++ l.decorators) := by
  refine .inr (.inr ?_)
  rw [List.getLast?_append, l.decoratorLines, Option.some_or]

/-- The decorators move a position of the definition down, and not to the side. -/
theorem lineNumber_decorated (l : DefinitionLayout) (inside : List Char) :
    lineNumber (l.decoratedUpTo inside) = lineNumber (l.plainUpTo inside) + l.added := by
  simp only [decoratedUpTo, plainUpTo, lineNumber_append, added]
  omega

theorem columnNumber_decorated (within : l.Inside inside) :
    columnNumber (l.decoratedUpTo inside) = columnNumber (l.plainUpTo inside) := by
  rw [decoratedUpTo, plainUpTo, columnNumber_below l.above_decorated (unmarked within),
    columnNumber_below l.above (unmarked within)]

/-- The name is where the offset presumes it exactly if single characters separate the tokens. -/
theorem name_position_iff (l : DefinitionLayout) :
    (lineNumber (l.decoratedUpTo l.keywords.text) = lineNumber (l.decoratedUpTo []) ∧
      columnNumber (l.decoratedUpTo l.keywords.text)
        = columnNumber (l.decoratedUpTo []) + DefKeywords.offset l.keywords.isAsync) ↔
      l.keywords.singleSpaced = true := by
  have column (oneLine : '\n' ∉ l.keywords.text) :
      columnNumber (l.decoratedUpTo l.keywords.text)
        = columnNumber (l.decoratedUpTo []) + l.keywords.text.length := by
    rw [decoratedUpTo, decoratedUpTo, columnNumber_below l.above_decorated (unmarked inside_name),
      columnNumber_below l.above_decorated (unmarked inside_nil), List.append_nil,
      currentLine_append _ _ oneLine, List.length_append]
  have line : lineNumber (l.decoratedUpTo l.keywords.text)
      = lineNumber (l.decoratedUpTo []) + l.keywords.text.count '\n' := by
    simp only [decoratedUpTo, lineNumber_append, List.count_append, List.append_nil]
    omega
  constructor
  · rintro ⟨sameLine, presumed⟩
    have none : l.keywords.text.count '\n' = 0 := by omega
    have found := column (List.count_eq_zero.mp none)
    apply l.keywords.singleSpaced_iff.mpr
    omega
  · intro single
    have oneLine := DefKeywords.singleSpaced_oneLine single
    have length := l.keywords.singleSpaced_iff.mp single
    have none : l.keywords.text.count '\n' = 0 := List.count_eq_zero.mpr oneLine
    constructor
    · omega
    · rw [column oneLine, length]

end DefinitionLayout

end AstSerialize
