import AstSerialize.Coding.Trim

/-! White space and trimming of texts. -/
namespace AstSerialize

/-- `char::is_whitespace`, the property `White_Space`. -/
def isWhitespace (c : Char) : Bool :=
  let n := c.toNat
  (9 ≤ n && n ≤ 13) || n = 0x20 || n = 0x85 || n = 0xA0 || n = 0x1680 || (0x2000 ≤ n && n ≤ 0x200A)
    || n = 0x2028 || n = 0x2029 || n = 0x202F || n = 0x205F || n = 0x3000

/-- `str::trim_start`. -/
abbrev trimTextStart (text : List Char) : List Char := Coding.trimStart isWhitespace text

/-- `str::trim_end`. -/
abbrev trimTextEnd (text : List Char) : List Char := Coding.trimEnd isWhitespace text

/-- `str::trim`. -/
abbrev trimText (text : List Char) : List Char := Coding.trim isWhitespace text

/-- White space alone. -/
abbrev Spaces (text : List Char) : Prop := Coding.Blank isWhitespace text

theorem Spaces.not_mem {text : List Char} (spaces : Spaces text) {c : Char}
    (solid : isWhitespace c = false) : c ∉ text := by
  intro mem
  rw [spaces c mem] at solid
  cases solid

/-- White space that a layout may put anywhere between tokens. -/
structure Padding where
  text : List Char
  spaces : Spaces text

/-- A token: not empty, with neither blanks at its ends nor separators inside. -/
structure Word (separators : List Char) where
  text : List Char
  nonempty : text ≠ []
  trimmed : trimText text = text
  free : ∀ c ∈ separators, c ∉ text

/-- A word between blanks. -/
structure PaddedWord (separators : List Char) where
  before : Padding
  word : Word separators
  after : Padding

namespace PaddedWord

variable {separators : List Char}

def render (w : PaddedWord separators) : List Char := w.before.text ++ w.word.text ++ w.after.text

theorem trim_render (w : PaddedWord separators) : trimText w.render = w.word.text := by
  rw [render, trimText, Coding.trim_blank w.before.spaces w.after.spaces]
  exact w.word.trimmed

theorem not_mem_render (w : PaddedWord separators) {c : Char} (sep : c ∈ separators)
    (solid : isWhitespace c = false) : c ∉ w.render := by
  have before := w.before.spaces.not_mem solid
  have after := w.after.spaces.not_mem solid
  have inside := w.word.free c sep
  simp only [render, List.mem_append, not_or]
  exact ⟨⟨before, inside⟩, after⟩

end PaddedWord

end AstSerialize
