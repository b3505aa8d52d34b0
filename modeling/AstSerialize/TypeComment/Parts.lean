import AstSerialize.TypeComment.Directives

/-! What one part of a comment gives, from the word it starts with. -/
namespace AstSerialize

/-- The tools that a directive is written for. -/
inductive Tool where
  | type
  | mypy
  deriving DecidableEq, Repr

namespace Tool

def keyword : Tool → List Char
  | .type => "type:".toList
  | .mypy => "mypy:".toList

def isMypy : Tool → Bool
  | .type => false
  | .mypy => true

def ignore : Tool → List String → TypeComment
  | .type => .typeIgnore
  | .mypy => .mypyIgnore

/-- Only the type checkers at large have types in comments. -/
def typed : Tool → List Char → Option TypeComment
  | .type, text => some (.typeAnnotationText (.ofList text))
  | .mypy, _ => none

theorem keyword_trimmed (tool : Tool) : trimText tool.keyword = tool.keyword := by
  cases tool <;> decide

theorem keyword_ne_nil (tool : Tool) : tool.keyword ≠ [] := by
  cases tool <;> decide

end Tool

def ignoreWord : List Char := "ignore".toList

theorem ignoreWord_trimmed : trimText ignoreWord = ignoreWord := by decide

section Parts

variable (alphanumeric : Alphanumeric)

/-- What an ignore gives, from the text behind the word. -/
def ignoreDirective (tool : Tool) (tail : List Char) : TypeComment :=
  match parseErrorCodes alphanumeric tail with
  | none => .invalidIgnore tool.isMypy
  | some errorCodes => tool.ignore errorCodes

variable {alphanumeric} {a b : List Char}

theorem parseCommentPart_keyword (tool : Tool) (ha : Spaces a) (text : List Char) :
    parseCommentPart alphanumeric (a ++ tool.keyword ++ text) =
      if ignoreWord.isPrefixOf (trimText text) && endsIgnore ((trimText text).drop 6) then
        some (ignoreDirective alphanumeric tool ((trimText text).drop 6))
      else tool.typed (trimText text) := by
  have trimmed : trimText (a ++ tool.keyword ++ text) = tool.keyword ++ trimTextEnd text :=
    Coding.trim_word tool.keyword_trimmed ha tool.keyword_ne_nil text
  have after : trimTextStart (trimTextEnd text) = trimText text := Coding.trimStart_trimEnd text
  have behind : (tool.keyword ++ trimTextEnd text).drop "type:".length = trimTextEnd text := by
    cases tool <;> rfl
  have type : "type:".toList.isPrefixOf (tool.keyword ++ trimTextEnd text) = !tool.isMypy := by
    cases tool <;> simp [Tool.keyword, Tool.isMypy, List.isPrefixOf]
  have mypy : "mypy:".toList.isPrefixOf (tool.keyword ++ trimTextEnd text) = tool.isMypy := by
    cases tool <;> simp [Tool.keyword, Tool.isMypy, List.isPrefixOf]
  have length : "ignore".length = 6 := by rfl
  simp only [parseCommentPart, trimmed, behind, type, mypy, after, length, ignoreDirective]
  generalize parseErrorCodes alphanumeric ((trimText text).drop 6) = codes
  cases tool <;> cases codes <;> rfl

/-- The end of a text decides on nothing. -/
theorem endsIgnore_trimEnd (tail : List Char) :
    endsIgnore (trimTextEnd tail) = endsIgnore tail := by
  cases tail with
  | nil => rfl
  | cons c tail =>
    by_cases blank : Spaces (c :: tail)
    · have none : trimTextEnd (c :: tail) = [] := List.rdropWhile_eq_nil_iff.mpr blank
      have space : isWhitespace c = true := blank c List.mem_cons_self
      simp [none, endsIgnore, space]
    · rw [trimTextEnd, Coding.trimEnd_cons blank]
      rfl

theorem parseCommentPart_ignore (tool : Tool) (ha : Spaces a) (hb : Spaces b) (tail : List Char) :
    parseCommentPart alphanumeric (a ++ tool.keyword ++ (b ++ ignoreWord ++ tail)) =
      if endsIgnore tail then some (ignoreDirective alphanumeric tool (trimTextEnd tail))
      else tool.typed (ignoreWord ++ trimTextEnd tail) := by
  have trimmed : trimText (b ++ ignoreWord ++ tail) = ignoreWord ++ trimTextEnd tail :=
    Coding.trim_word ignoreWord_trimmed hb (by decide) tail
  have word : ignoreWord.isPrefixOf (ignoreWord ++ trimTextEnd tail) = true := by
    simp
  have behind : (ignoreWord ++ trimTextEnd tail).drop 6 = trimTextEnd tail := by rfl
  rw [parseCommentPart_keyword tool ha, trimmed, word, behind, endsIgnore_trimEnd, Bool.true_and]

end Parts

end AstSerialize
