import AstSerialize.TypeComment.Codes

/-! Directives that are written out are read back, and nothing else is taken for
an ignore with codes. -/
namespace AstSerialize

section Layout

variable (alphanumeric : Alphanumeric)

/-- A code between blanks. -/
structure PaddedCode where
  before : Padding
  code : ErrorCode alphanumeric
  after : Padding

/-- What stands behind the word `ignore`, up to the end. -/
inductive IgnoreTail where
  | bare
  | listed (front opening : Padding) (codes : List (PaddedCode alphanumeric))

/-- The text of a type. -/
structure TypeText where
  text : List Char
  trimmed : trimText text = text
  part : '#' ∉ text
  other : ∀ rest, text = ignoreWord ++ rest → endsIgnore rest = false

inductive DirectiveWords where
  | ignore (tool : Tool) (tail : IgnoreTail alphanumeric)
  | typed (text : TypeText)

/-- A directive with its layout. -/
structure WrittenDirective where
  front : Padding
  words : DirectiveWords alphanumeric
  middle : Padding
  back : Padding

end Layout

section Written

variable {alphanumeric : Alphanumeric}

def PaddedCode.render (c : PaddedCode alphanumeric) : List Char :=
  c.before.text ++ c.code.text ++ c.after.text

def IgnoreTail.codes : IgnoreTail alphanumeric → List String
  | .bare => []
  | .listed _ _ codes => codes.map fun c => .ofList c.code.text

/-- What stands between the brackets. -/
def listedText (opening : Padding) (codes : List (PaddedCode alphanumeric)) : List Char :=
  opening.text ++ [','].intercalate (codes.map PaddedCode.render)

def IgnoreTail.render : IgnoreTail alphanumeric → List Char
  | .bare => []
  | .listed front opening codes => front.text ++ ('[' :: listedText opening codes ++ [']'])

namespace DirectiveWords

def tool : DirectiveWords alphanumeric → Tool
  | .ignore tool _ => tool
  | .typed _ => .type

/-- What stands behind the keyword. -/
def render : DirectiveWords alphanumeric → List Char
  | .ignore _ tail => ignoreWord ++ tail.render
  | .typed text => text.text

def directive : DirectiveWords alphanumeric → TypeComment
  | .ignore tool tail => tool.ignore tail.codes
  | .typed text => .typeAnnotationText (.ofList text.text)

end DirectiveWords

namespace WrittenDirective

def render (d : WrittenDirective alphanumeric) : List Char :=
  d.front.text ++ d.words.tool.keyword ++ (d.middle.text ++ d.words.render ++ d.back.text)

def directive (d : WrittenDirective alphanumeric) : TypeComment := d.words.directive

end WrittenDirective

/-- One comment with all directives. -/
def renderDirectives (directives : List (WrittenDirective alphanumeric)) : List Char :=
  '#' :: ['#'].intercalate (directives.map WrittenDirective.render)

/-- A part with neither nothing nor one list behind the word `ignore`. -/
structure StrayIgnore (alphanumeric : Alphanumeric) where
  front : Padding
  tool : Tool
  middle : Padding
  tail : List Char
  part : '#' ∉ tail
  start : ∃ c rest, tail = c :: rest ∧ (isWhitespace c = true ∨ c = '[')
  visible : ¬ Spaces tail
  stray : ¬ CodeList alphanumeric tail

def StrayIgnore.render (s : StrayIgnore alphanumeric) : List Char :=
  s.front.text ++ s.tool.keyword ++ (s.middle.text ++ ignoreWord ++ s.tail)

def TypeComment.codes : TypeComment → List String
  | .typeIgnore codes | .mypyIgnore codes => codes
  | .typeAnnotationText _ | .invalidIgnore _ => []

end Written

section Lists

variable {alphanumeric : Alphanumeric}

theorem PaddedCode.trim_render (c : PaddedCode alphanumeric) : trimText c.render = c.code.text := by
  rw [render, trimText, Coding.trim_blank c.before.spaces c.after.spaces]
  exact c.code.trimmed

theorem PaddedCode.not_mem_render (c : PaddedCode alphanumeric) {x : Char}
    (sep : x ∈ ['#', ',', '[', ']']) (solid : isWhitespace x = false) : x ∉ c.render := by
  simp only [render, List.mem_append, not_or]
  exact ⟨⟨c.before.spaces.not_mem solid, c.code.not_mem sep⟩, c.after.spaces.not_mem solid⟩

/-- The codes of a list come back without their blanks. -/
theorem codesIn_listed (opening : Padding) (codes : List (PaddedCode alphanumeric)) :
    codesIn alphanumeric (listedText opening codes)
      = some (codes.map fun c => .ofList c.code.text) := by
  have comma : isWhitespace ',' = false := by rfl
  have texts := Coding.words_splitOn_intercalate comma opening.spaces
    (fun c : PaddedCode alphanumeric => c.not_mem_render (by simp) comma) PaddedCode.trim_render
    (fun c => c.code.nonempty) codes
  have valid : (codes.map (·.code.text)).all
      (fun text => text.all (errorCodeChar alphanumeric)) = true := by
    rw [List.all_eq_true]
    intro text mem
    obtain ⟨c, -, rfl⟩ := List.mem_map.mp mem
    exact List.all_eq_true.mpr c.code.chars
  rw [codesIn, listedText, texts]
  simp only [valid, if_true, List.map_map]
  rfl

theorem endsIgnore_spaces {text : List Char} (spaces : Spaces text) : endsIgnore text = true := by
  cases text with
  | nil => rfl
  | cons c text =>
    have space : isWhitespace c = true := spaces c List.mem_cons_self
    simp [endsIgnore, space]

theorem endsIgnore_tail (tail : IgnoreTail alphanumeric) (back : Padding) :
    endsIgnore (tail.render ++ back.text) = true := by
  cases tail with
  | bare => exact endsIgnore_spaces back.spaces
  | listed front opening codes =>
    rw [IgnoreTail.render]
    cases front with | mk text spaces =>
    cases text with
    | nil => rfl
    | cons c text =>
      have space : isWhitespace c = true := spaces c List.mem_cons_self
      simp [endsIgnore, space]

theorem codesOf_tail (tail : IgnoreTail alphanumeric) (back : Padding) :
    codesOf alphanumeric (trimText (tail.render ++ back.text)) = some tail.codes := by
  cases tail with
  | bare =>
    have none : trimText back.text = [] := Coding.trim_of_blank back.spaces
    simp [IgnoreTail.render, none, codesOf, IgnoreTail.codes]
  | listed front opening codes =>
    have brackets : trimText ('[' :: listedText opening codes ++ [']'])
        = '[' :: listedText opening codes ++ [']'] := by
      have stop : trimTextEnd ('[' :: listedText opening codes ++ [']'])
          = '[' :: listedText opening codes ++ [']'] := Coding.trimEnd_solid rfl _
      exact stop
    rw [IgnoreTail.render, trimText, Coding.trim_blank front.spaces back.spaces]
    rw [trimText] at brackets
    rw [brackets, codesOf_brackets, codesIn_listed]
    rfl

/-- No hash is in what is written for one directive. -/
theorem hash_not_mem_listed (opening : Padding) (codes : List (PaddedCode alphanumeric)) :
    '#' ∉ listedText opening codes := by
  intro mem
  rcases List.mem_append.mp mem with mem | mem
  · exact opening.spaces.not_mem rfl mem
  · rcases Coding.mem_intercalate mem with same | ⟨text, member, mem⟩
    · cases same
    · obtain ⟨c, -, rfl⟩ := List.mem_map.mp member
      exact c.not_mem_render (by simp) rfl mem

theorem hash_not_mem_tail (tail : IgnoreTail alphanumeric) : '#' ∉ tail.render := by
  cases tail with
  | bare => exact List.not_mem_nil
  | listed front opening codes =>
    have inside := hash_not_mem_listed opening codes
    have before := front.spaces.not_mem (c := '#') rfl
    simp only [IgnoreTail.render, List.mem_append, List.mem_cons, not_or]
    exact ⟨before, ⟨by decide, inside⟩, by decide, List.not_mem_nil⟩

end Lists

section Directives

variable {alphanumeric : Alphanumeric}

theorem parseCommentPart_render (d : WrittenDirective alphanumeric) :
    parseCommentPart alphanumeric d.render = some d.directive := by
  obtain ⟨front, words, middle, back⟩ := d
  cases words with
  | ignore tool tail =>
    have part : '#' ∉ tail.render ++ back.text := by
      simp only [List.mem_append, not_or]
      exact ⟨hash_not_mem_tail tail, back.spaces.not_mem rfl⟩
    have codes : parseErrorCodes alphanumeric (trimTextEnd (tail.render ++ back.text))
        = some tail.codes := by
      rw [parseErrorCodes_eq part, codesOf_tail]
    have whole : middle.text ++ (ignoreWord ++ tail.render) ++ back.text
        = middle.text ++ ignoreWord ++ (tail.render ++ back.text) := by simp
    simp only [WrittenDirective.render, DirectiveWords.render, DirectiveWords.tool, whole]
    rw [parseCommentPart_ignore tool front.spaces middle.spaces, endsIgnore_tail, ignoreDirective,
      codes]
    rfl
  | typed text =>
    have trimmed : trimText (middle.text ++ text.text ++ back.text) = text.text := by
      rw [trimText, Coding.trim_blank middle.spaces back.spaces]
      exact text.trimmed
    have other : (ignoreWord.isPrefixOf text.text && endsIgnore (text.text.drop 6)) = false := by
      rw [Bool.and_eq_false_imp, List.isPrefixOf_iff_prefix]
      rintro ⟨rest, split⟩
      rw [← split]
      exact text.other rest split.symm
    simp only [WrittenDirective.render, DirectiveWords.render, DirectiveWords.tool]
    rw [parseCommentPart_keyword .type front.spaces, trimmed, other]
    rfl

theorem hash_not_mem_render (d : WrittenDirective alphanumeric) : '#' ∉ d.render := by
  have front := d.front.spaces.not_mem (c := '#') rfl
  have middle := d.middle.spaces.not_mem (c := '#') rfl
  have back := d.back.spaces.not_mem (c := '#') rfl
  have keyword : '#' ∉ d.words.tool.keyword := by
    cases d.words.tool <;> decide
  have words : '#' ∉ d.words.render := by
    cases d.words with
    | ignore tool tail =>
      simp only [DirectiveWords.render, List.mem_append, not_or]
      exact ⟨by decide, hash_not_mem_tail tail⟩
    | typed text => exact text.part
  simp only [WrittenDirective.render, List.mem_append, not_or]
  exact ⟨⟨front, keyword⟩, ⟨middle, words⟩, back⟩

/-- A blank part gives nothing. -/
theorem parseCommentPart_blank {part : List Char} (blank : trimText part = []) :
    parseCommentPart alphanumeric part = none := by
  simp [parseCommentPart, blank]

/-- The loop over parts that all give directives keeps each of them. -/
theorem parseParts_render (skipCommented : Bool) (ds : List (WrittenDirective alphanumeric)) :
    parseParts alphanumeric skipCommented false (ds.map WrittenDirective.render)
      = ds.map WrittenDirective.directive := by
  induction ds with
  | nil => rfl
  | cons d ds ih =>
    have parsed := parseCommentPart_render d
    have visible : trimText d.render ≠ [] := by
      intro blank
      rw [parseCommentPart_blank blank] at parsed
      cases parsed
    rw [List.map_cons, parseParts, if_neg visible]
    simp only [Bool.false_eq_true, if_false, parsed, ih, List.map_cons]

/-- Every directive comes from a part. -/
theorem mem_parseParts {skipCommented ignoreNext : Bool} {parts : List (List Char)}
    {directive : TypeComment}
    (mem : directive ∈ parseParts alphanumeric skipCommented ignoreNext parts) :
    ∃ part ∈ parts, parseCommentPart alphanumeric part = some directive := by
  induction parts generalizing ignoreNext with
  | nil => cases mem
  | cons part parts ih =>
    have later {ignoreNext : Bool}
        (mem : directive ∈ parseParts alphanumeric skipCommented ignoreNext parts) :
        ∃ part' ∈ part :: parts, parseCommentPart alphanumeric part' = some directive := by
      obtain ⟨other, member, parsed⟩ := ih mem
      exact ⟨other, List.mem_cons_of_mem _ member, parsed⟩
    rw [parseParts] at mem
    split at mem
    · exact later mem
    split at mem
    · exact later mem
    cases parsed : parseCommentPart alphanumeric part with
    | none =>
      cases skipCommented with
      | true => simp [parsed] at mem
      | false =>
        simp only [parsed, Bool.false_eq_true, if_false] at mem
        exact later mem
    | some first =>
      simp only [parsed, List.mem_cons] at mem
      rcases mem with rfl | mem
      · exact ⟨part, List.mem_cons_self, parsed⟩
      · exact later mem

theorem parseCommentPart_codes {part : List Char} {directive : TypeComment}
    (parsed : parseCommentPart alphanumeric part = some directive) :
    ∀ code ∈ directive.codes, IsErrorCode alphanumeric code := by
  simp only [parseCommentPart] at parsed
  split at parsed
  · cases parsed
  split at parsed
  · split at parsed
    · obtain rfl := Option.some.inj parsed
      simp [TypeComment.codes]
    · rename_i codes found
      have valid := parseErrorCodes_codes found
      split at parsed <;> obtain rfl := Option.some.inj parsed <;> exact valid
  · split at parsed
    · cases parsed
    · obtain rfl := Option.some.inj parsed
      simp [TypeComment.codes]

theorem parseCommentPart_stray (s : StrayIgnore alphanumeric) :
    parseCommentPart alphanumeric s.render = some (.invalidIgnore s.tool.isMypy) := by
  have ends : endsIgnore s.tail = true := by
    obtain ⟨c, rest, whole, start⟩ := s.start
    rw [whole]
    simpa [endsIgnore] using start
  have none := parseErrorCodes_stray s.part s.visible s.stray
  rw [StrayIgnore.render, parseCommentPart_ignore s.tool s.front.spaces s.middle.spaces, ends,
    ignoreDirective, none]
  rfl

/-- What is written is read back in either mode; all codes that are read are codes; and anything
else behind `ignore` makes it invalid. -/
theorem parseTypeCommentsFull_written (alphanumeric : Alphanumeric) (skipCommented : Bool) :
    (∀ (d : WrittenDirective alphanumeric) (ds : List (WrittenDirective alphanumeric)),
      parseTypeCommentsFull alphanumeric (renderDirectives (d :: ds)) skipCommented
        = some ((d :: ds).map WrittenDirective.directive)) ∧
    (∀ (comment : List Char) (directives : List TypeComment),
      parseTypeCommentsFull alphanumeric comment skipCommented = some directives →
      ∀ directive ∈ directives, ∀ code ∈ directive.codes, IsErrorCode alphanumeric code) ∧
    (∀ s : StrayIgnore alphanumeric,
      parseCommentPart alphanumeric s.render = some (.invalidIgnore s.tool.isMypy)) := by
  refine ⟨?_, ?_, parseCommentPart_stray⟩
  · intro d ds
    have apart : ∀ text ∈ (d :: ds).map WrittenDirective.render, '#' ∉ text := by
      intro text mem
      obtain ⟨other, -, rfl⟩ := List.mem_map.mp mem
      exact hash_not_mem_render other
    have parts : hashParts (renderDirectives (d :: ds)) = (d :: ds).map WrittenDirective.render :=
      List.splitOn_intercalate '#' apart (by simp)
    rw [parseTypeCommentsFull, parts, parseParts_render]
    rfl
  · intro comment directives found directive mem
    have parts : parseParts alphanumeric skipCommented false (hashParts comment) = directives := by
      rw [parseTypeCommentsFull] at found
      cases all : parseParts alphanumeric skipCommented false (hashParts comment) with
      | nil =>
        rw [all] at found
        cases found
      | cons first later =>
        rw [all] at found
        exact Option.some.inj found
    rw [← parts] at mem
    obtain ⟨part, -, parsed⟩ := mem_parseParts mem
    exact parseCommentPart_codes parsed

/-- Two codes in one comment. -/
theorem parseTypeCommentsFull_written_codes :
    ∀ directive ∈ [TypeComment.typeIgnore ["attr-defined", "x"]], ∀ code ∈ directive.codes,
      IsErrorCode .basic code :=
  (parseTypeCommentsFull_written .basic true).2.1 "# type: ignore[attr-defined, , x ] # more".toList
    [.typeIgnore ["attr-defined", "x"]] (by decide)

end Directives

end AstSerialize
