import AstSerialize.TypeComment.Scan

/-! Ignores and inline configuration. Each comment should be one or the other,
and two tests for the word `ignore` decide which. -/
namespace AstSerialize
open SignatureComment (CommentParser)

/-- A `mypy: ignore`, valid or not. -/
def TypeComment.isMypyIgnore : TypeComment → Bool
  | .mypyIgnore _ => true
  | .invalidIgnore isMypy => isMypy
  | .typeIgnore _ | .typeAnnotationText _ => false

section Property

variable (alphanumeric : Alphanumeric) (parser : CommentParser) (options : Options)
  {src : SourceText}

/-- The first part of a comment is a `mypy: ignore` of the comment. -/
def ClassifiedIgnore (skipCommented : Bool) (comment : List Char) : Prop :=
  ∃ part parts directive others, hashParts comment = part :: parts ∧
    parseCommentPart alphanumeric part = some directive ∧ directive.isMypyIgnore = true ∧
    parseTypeCommentsFull alphanumeric comment skipCommented = some (directive :: others)

/-- A comment at the start of a line with text behind `# mypy:`. -/
structure MypyComment (src : SourceText) where
  token : Token
  after : List Char
  kind : token.kind = .comment
  column : (src.lineColumn token.range.start).column = 1
  text : commentText src token = "# mypy:".toList ++ after
  visible : ¬ Spaces after

/-- Behind any comments, the text of this one is added if and only if it is no ignore. -/
def Exclusive (m : MypyComment src) : Prop :=
  ∀ before : List Token,
    (extractTypeCommentsAndIgnores alphanumeric parser src options
        (before ++ [m.token])).mypyComments
      = (extractTypeCommentsAndIgnores alphanumeric parser src options before).mypyComments
        ++ [((src.lineColumn m.token.range.start).line, .ofList (trimText m.after))] ↔
    ¬ ClassifiedIgnore alphanumeric (skipCommented src options m.token) (commentText src m.token)

/-- The word `ignore` with a hash behind it, or with white space other than a blank. -/
def Overlooked (text : List Char) : Prop :=
  ∃ c rest, text = ignoreWord ++ c :: rest ∧ (c = '#' ∨ (isWhitespace c = true ∧ c ≠ ' '))

end Property

section Words

variable {alphanumeric : Alphanumeric}

/-- The text in front of the first hash. -/
def firstPart (text : List Char) : List Char := text.takeWhile (· ≠ '#')

theorem splitOn_firstPart (text : List Char) :
    ∃ parts, text.splitOn '#' = firstPart text :: parts := by
  have split := List.takeWhile_append_dropWhile (p := (· ≠ '#')) (l := text)
  have before : '#' ∉ firstPart text := by
    intro mem
    simpa using List.mem_takeWhile_imp mem
  cases rest : text.dropWhile (· ≠ '#') with
  | nil =>
    have whole : firstPart text = text := by rwa [rest, List.append_nil] at split
    rw [whole] at before
    exact ⟨[], by rw [List.splitOn_eq_singleton before, whole]⟩
  | cons c later =>
    have hash : c = '#' := by
      have head := List.head?_dropWhile_not (· ≠ '#') text
      rw [rest] at head
      simpa using head
    rw [rest, hash] at split
    refine ⟨later.splitOn '#', ?_⟩
    nth_rewrite 1 [← split]
    have head : (text.takeWhile (· ≠ '#')).splitOn '#' = [firstPart text] :=
      List.splitOn_eq_singleton before
    rw [List.splitOn_append_cons_self, head]
    rfl

theorem spaces_blank : Spaces [' '] := by decide

theorem begins_ignore_iff (text : List Char) :
    ignoreWord <+: trimText text ↔ ∃ a rest, Spaces a ∧ text = a ++ ignoreWord ++ rest := by
  constructor
  · rintro ⟨rest, begin⟩
    obtain ⟨a, b, ha, -, split⟩ := Coding.trim_split (p := isWhitespace) text
    refine ⟨a, rest ++ b, ha, ?_⟩
    rw [show Coding.trim isWhitespace text = ignoreWord ++ rest from begin.symm] at split
    simpa using split
  · rintro ⟨a, rest, ha, rfl⟩
    rw [trimText, Coding.trim_word ignoreWord_trimmed ha (by decide)]
    exact List.prefix_append _ _

theorem firstPart_ignore {a : List Char} (ha : Spaces a) (rest : List Char) :
    firstPart (a ++ ignoreWord ++ rest) = a ++ ignoreWord ++ firstPart rest := by
  have kept : ∀ c ∈ a ++ ignoreWord, decide (c ≠ '#') = true := by
    intro c mem
    have other : c ≠ '#' := by
      rintro rfl
      rcases List.mem_append.mp mem with mem | mem
      · exact ha.not_mem rfl mem
      · revert mem
        decide
    simpa using other
  rw [firstPart, List.takeWhile_append_of_pos kept]
  rfl

theorem ignoreDirective_isMypyIgnore (tail : List Char) :
    (ignoreDirective alphanumeric .mypy tail).isMypyIgnore = true := by
  unfold ignoreDirective
  split <;> rfl

/-- The first part alone decides, and it is never passed over. -/
theorem classifiedIgnore_iff (skipCommented : Bool) (after : List Char) :
    ClassifiedIgnore alphanumeric skipCommented ("# mypy:".toList ++ after) ↔
      ∃ directive, directive.isMypyIgnore = true ∧
        parseCommentPart alphanumeric ([' '] ++ Tool.mypy.keyword ++ firstPart after)
          = some directive := by
  obtain ⟨later, split⟩ := splitOn_firstPart ([' '] ++ Tool.mypy.keyword ++ after)
  have first : firstPart ([' '] ++ Tool.mypy.keyword ++ after)
      = [' '] ++ Tool.mypy.keyword ++ firstPart after := by rfl
  have parts : hashParts ("# mypy:".toList ++ after)
      = ([' '] ++ Tool.mypy.keyword ++ firstPart after) :: later := by
    rw [← first, ← split]
    rfl
  have visible : trimText ([' '] ++ Tool.mypy.keyword ++ firstPart after) ≠ [] := by
    rw [trimText, Coding.trim_word Tool.mypy.keyword_trimmed spaces_blank (by decide)]
    simp [Tool.keyword]
  constructor
  · rintro ⟨part, others, directive, -, whole, parsed, ignore, -⟩
    rw [parts] at whole
    rw [← (List.cons.inj whole).1] at parsed
    exact ⟨directive, ignore, parsed⟩
  · rintro ⟨directive, ignore, parsed⟩
    refine ⟨_, later, directive, parseParts alphanumeric skipCommented false later, parts, parsed,
      ignore, ?_⟩
    rw [parseTypeCommentsFull, parts, parseParts, if_neg visible]
    simp only [parsed, Bool.false_eq_true, if_false]
    rfl

theorem classifiedIgnore_ignore (skipCommented : Bool) {a : List Char} (ha : Spaces a)
    (rest : List Char) :
    ClassifiedIgnore alphanumeric skipCommented ("# mypy:".toList ++ (a ++ ignoreWord ++ rest)) ↔
      endsIgnore (firstPart rest) = true := by
  rw [classifiedIgnore_iff, firstPart_ignore ha,
    parseCommentPart_ignore .mypy spaces_blank ha]
  cases ends : endsIgnore (firstPart rest) with
  | false => simp [Tool.typed]
  | true => simp [ignoreDirective_isMypyIgnore]

/-- Without the word there is no ignore. -/
theorem not_classifiedIgnore (skipCommented : Bool) {after : List Char}
    (other : ¬ ignoreWord <+: trimText after) :
    ¬ ClassifiedIgnore alphanumeric skipCommented ("# mypy:".toList ++ after) := by
  rw [classifiedIgnore_iff, parseCommentPart_keyword .mypy spaces_blank]
  have part : ¬ ignoreWord <+: trimText (firstPart after) := by
    intro begin
    obtain ⟨a, rest, ha, split⟩ := (begins_ignore_iff _).mp begin
    refine other ((begins_ignore_iff after).mpr ⟨a, rest ++ after.dropWhile (· ≠ '#'), ha, ?_⟩)
    rw [← List.append_assoc, ← split]
    exact (List.takeWhile_append_dropWhile (p := (· ≠ '#')) (l := after)).symm
  have test : ignoreWord.isPrefixOf (trimText (firstPart after)) = false := by
    rwa [← Bool.not_eq_true, List.isPrefixOf_iff_prefix]
  simp [test, Tool.typed]

end Words

section Exclusion

variable {alphanumeric : Alphanumeric} {parser : CommentParser} {options : Options}
  {src : SourceText}

/-- The other test for the word. -/
def isIgnoreText (text : List Char) : Bool :=
  text = ignoreWord || (ignoreWord ++ ['[']).isPrefixOf text
    || (ignoreWord ++ [' ']).isPrefixOf text

theorem inlineConfigText_mypy {after : List Char} (visible : ¬ Spaces after) :
    inlineConfigText 1 ("# mypy:".toList ++ after) = some (.ofList (trimText after)) ↔
      isIgnoreText (trimText after) = false := by
  have some : trimText after ≠ [] := by
    intro none
    exact visible (Coding.trim_eq_nil_iff.mp none)
  have config : inlineConfigText 1 ("# mypy:".toList ++ after)
      = if !(trimText after).isEmpty && !isIgnoreText (trimText after) then
        Option.some (.ofList (trimText after)) else none := by rfl
  rw [config]
  cases ignore : isIgnoreText (trimText after) <;> simp [some]

/-- The characters that end the word for the other test. -/
theorem isIgnoreText_ignore (tail : List Char) :
    isIgnoreText (ignoreWord ++ tail) = true ↔
      tail = [] ∨ ['['] <+: tail ∨ [' '] <+: tail := by
  rw [isIgnoreText, Bool.or_eq_true, Bool.or_eq_true, decide_eq_true_eq,
    List.isPrefixOf_iff_prefix, List.isPrefixOf_iff_prefix, List.prefix_append_right_inj,
    List.prefix_append_right_inj, List.append_right_eq_self, or_assoc]

theorem not_isIgnoreText {text : List Char} (other : ¬ ignoreWord <+: text) :
    isIgnoreText text = false := by
  have word : text ≠ ignoreWord := by
    intro same
    exact other (same ▸ List.prefix_rfl)
  have longer (more : List Char) : ¬ (ignoreWord ++ more) <+: text := by
    intro begin
    exact other ((List.prefix_append _ _).trans begin)
  rw [← Bool.not_eq_true, isIgnoreText, Bool.or_eq_true, Bool.or_eq_true, decide_eq_true_eq,
    List.isPrefixOf_iff_prefix, List.isPrefixOf_iff_prefix]
  simp only [word, longer, or_self, not_false_iff]

theorem pushed_iff (m : MypyComment src) (before : List Token) :
    (extractTypeCommentsAndIgnores alphanumeric parser src options
        (before ++ [m.token])).mypyComments
      = (extractTypeCommentsAndIgnores alphanumeric parser src options before).mypyComments
        ++ [((src.lineColumn m.token.range.start).line, .ofList (trimText m.after))] ↔
    inlineConfigText 1 ("# mypy:".toList ++ m.after) = some (.ofList (trimText m.after)) := by
  have here : inlineConfigOf src m.token = (inlineConfigText 1 ("# mypy:".toList ++ m.after)).map
      ((src.lineColumn m.token.range.start).line, ·) := by
    rw [inlineConfigOf, m.column, m.text]
  have comment : [m.token].filter (·.kind = .comment) = [m.token] := by simp [m.kind]
  rw [extract_mypyComments, extract_mypyComments, List.filter_append, List.filterMap_append,
    comment, List.append_right_inj, List.filterMap_cons, here]
  cases inlineConfigText 1 ("# mypy:".toList ++ m.after) <;> simp

theorem overlooked_iff (tail : List Char) :
    Overlooked (ignoreWord ++ tail) ↔
      ∃ c rest, tail = c :: rest ∧ (c = '#' ∨ (isWhitespace c = true ∧ c ≠ ' ')) := by
  simp only [Overlooked, List.append_right_inj]

/-- The two tests agree on the end of the word, but for what is overlooked. -/
theorem ends_agree_iff (rest : List Char) :
    (isIgnoreText (ignoreWord ++ trimTextEnd rest) = true ↔ endsIgnore (firstPart rest) = true) ↔
      ¬ Overlooked (ignoreWord ++ trimTextEnd rest) := by
  rw [isIgnoreText_ignore, overlooked_iff]
  by_cases blank : Spaces rest
  · have none : trimTextEnd rest = [] := List.rdropWhile_eq_nil_iff.mpr blank
    have ends : endsIgnore (firstPart rest) = true := by
      cases rest with
      | nil => rfl
      | cons c rest =>
        have space : isWhitespace c = true := blank c List.mem_cons_self
        have other : c ≠ '#' := by
          rintro rfl
          cases space
        simp [firstPart, other, endsIgnore, space]
    simp [none, ends]
  cases rest with
  | nil => exact absurd Coding.blank_nil blank
  | cons c rest =>
    rw [trimTextEnd, Coding.trimEnd_cons blank]
    by_cases hash : c = '#'
    · simp [hash, firstPart, endsIgnore]
    have first : firstPart (c :: rest) = c :: firstPart rest := by simp [firstPart, hash]
    rw [first]
    by_cases bracket : c = '['
    · simp [bracket, endsIgnore, isWhitespace]
    by_cases space : c = ' '
    · simp [space, endsIgnore, isWhitespace]
    · simp [hash, Ne.symm bracket, Ne.symm space, bracket, space, endsIgnore]

/-- Each comment is an ignore or inline configuration, unless the word is overlooked. -/
theorem exclusive_iff (m : MypyComment src) :
    Exclusive alphanumeric parser options m ↔ ¬ Overlooked (trimText m.after) := by
  simp only [Exclusive, pushed_iff, inlineConfigText_mypy m.visible, m.text, forall_const]
  by_cases begin : ignoreWord <+: trimText m.after
  · obtain ⟨a, rest, ha, split⟩ := (begins_ignore_iff m.after).mp begin
    have trimmed : trimText m.after = ignoreWord ++ trimTextEnd rest := by
      rw [split]
      exact Coding.trim_word ignoreWord_trimmed ha (by decide) rest
    rw [trimmed, ← ends_agree_iff, split, classifiedIgnore_ignore _ ha, ← Bool.not_eq_true]
    exact not_iff_not
  · have plain := not_isIgnoreText begin
    have unclassified : ¬ ClassifiedIgnore alphanumeric (skipCommented src options m.token)
        ("# mypy:".toList ++ m.after) := not_classifiedIgnore _ begin
    have noted : ¬ Overlooked (trimText m.after) := by
      rintro ⟨c, rest, same, -⟩
      exact begin (same ▸ List.prefix_append _ _)
    exact iff_of_true (iff_of_true plain unclassified) noted

/-- An ignore with its reason right behind the word. -/
def reasonSource : SourceText := .ofText "# mypy: ignore# reason\n".toList

def reasonComment : MypyComment reasonSource where
  token := ⟨.comment, ⟨0, 22⟩⟩
  after := " ignore# reason".toList
  kind := rfl
  column := by decide
  text := by decide
  visible := by decide

/-- It is recorded as an ignore, and reported as configuration. -/
theorem reason_not_exclusive :
    ¬ Exclusive .basic SignatureComment.commaParser .default reasonComment := by
  intro exclusive
  refine (exclusive []).mp ?_ ⟨" mypy: ignore".toList, [" reason".toList], .mypyIgnore [], [], ?_⟩
  · rw [pushed_iff]
    decide
  · decide

end Exclusion

end AstSerialize
