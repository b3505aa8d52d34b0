import AstSerialize.InlineConfig.Joining

/-! Entries written with quoted lists of names are read back. -/
namespace AstSerialize

/-- An entry of an inline configuration with its layout, `key = "n1, n2, ..."`. -/
structure ConfigEntry where
  beforeKey : Padding
  key : Word [',', '=', '"']
  afterKey : Padding
  beforeValue : Padding
  opening : Padding
  names : List (PaddedWord [',', '"'])
  afterValue : Padding

namespace ConfigEntry

/-- What stands between the quotes. -/
def quotedText (e : ConfigEntry) : List Char :=
  e.opening.text ++ [','].intercalate (e.names.map PaddedWord.render)

def render (e : ConfigEntry) : List Char :=
  e.beforeKey.text ++ e.key.text ++ e.afterKey.text ++ '=' ::
    (e.beforeValue.text ++ '"' :: (e.quotedText ++ '"' :: e.afterValue.text))

def keyText (e : ConfigEntry) : String := .ofList e.key.text

def nameTexts (e : ConfigEntry) : List String := e.names.map fun name => .ofList name.word.text

end ConfigEntry

def renderConfig (entries : List ConfigEntry) : String :=
  .ofList ([','].intercalate (entries.map ConfigEntry.render))

/-- The names under one key, in order. -/
def namesUnder (key : String) (entries : List ConfigEntry) : List String :=
  (entries.filter fun e => normalizeKey e.keyText = key).flatMap ConfigEntry.nameTexts

section Splitting

theorem splitQuoted_plain {s : List Char} (comma : ',' ∉ s) (quote : '"' ∉ s)
    (current t : List Char) :
    splitQuoted false current (s ++ t) = splitQuoted false (current ++ s) t := by
  induction s generalizing current with
  | nil => simp
  | cons c s ih =>
    simp only [List.mem_cons, not_or] at comma quote
    have rest := ih comma.2 quote.2 (current ++ [c])
    simpa [splitQuoted, Ne.symm comma.1, Ne.symm quote.1] using rest

theorem splitQuoted_inside {s : List Char} (quote : '"' ∉ s) (current t : List Char) :
    splitQuoted true current (s ++ '"' :: t) = splitQuoted false (current ++ s) t := by
  induction s generalizing current with
  | nil => simp [splitQuoted]
  | cons c s ih =>
    simp only [List.mem_cons, not_or] at quote
    have rest := ih quote.2 (current ++ [c])
    simpa [splitQuoted, Ne.symm quote.1] using rest

theorem splitRespectingQuotes_quoted {a b c : List Char} (commaA : ',' ∉ a) (quoteA : '"' ∉ a)
    (quoteB : '"' ∉ b) (commaC : ',' ∉ c) (quoteC : '"' ∉ c) :
    splitRespectingQuotes (a ++ '"' :: (b ++ '"' :: c)) = [a ++ b ++ c] := by
  have last := splitQuoted_plain commaC quoteC (a ++ b) []
  rw [List.append_nil] at last
  rw [splitRespectingQuotes, splitQuoted_plain commaA quoteA, List.nil_append]
  simp [splitQuoted, splitQuoted_inside quoteB, last]

/-- The first separator divides a text. -/
theorem splitOnce_of_not_mem {sep : Char} {s : List Char} (apart : sep ∉ s) (t : List Char) :
    splitOnce sep (s ++ sep :: t) = some (s, t) := by
  have kept : ∀ c ∈ s, decide (c ≠ sep) = true := by
    intro c mem
    have ne : c ≠ sep := fun same => apart (same ▸ mem)
    simpa using ne
  rw [splitOnce, List.dropWhile_append_of_pos kept, List.takeWhile_append_of_pos kept]
  simp

end Splitting

section Entries

/-- The trimmed value of a list option, split at its commas. -/
theorem namesOf_quotedText (e : ConfigEntry) : namesOf (trimText e.quotedText) = e.nameTexts := by
  have comma : isWhitespace ',' = false := by rfl
  have names := Coding.words_splitOn_intercalate comma e.opening.spaces
    (fun name : PaddedWord [',', '"'] => name.not_mem_render (by simp) rfl) PaddedWord.trim_render
    (fun name => name.word.nonempty) e.names
  rw [namesOf, splitCommas, trimText, Coding.map_trim_splitOn_trim comma, ConfigEntry.quotedText,
    names, List.map_map]
  rfl

theorem quote_not_mem_quotedText (e : ConfigEntry) : '"' ∉ e.quotedText := by
  intro mem
  rcases List.mem_append.mp mem with mem | mem
  · exact e.opening.spaces.not_mem rfl mem
  · rcases Coding.mem_intercalate mem with same | ⟨text, member, mem⟩
    · cases same
    · obtain ⟨word, -, rfl⟩ := List.mem_map.mp member
      exact word.not_mem_render (by simp) rfl mem

/-- The quotes are gone before the first equals sign is looked for. -/
theorem directiveEntry_render (e : ConfigEntry) :
    directiveEntry (e.beforeKey.text ++ e.key.text ++ e.afterKey.text ++ '=' :: e.beforeValue.text
        ++ e.quotedText ++ e.afterValue.text)
      = some (e.keyText, trimText e.quotedText) := by
  generalize left : e.beforeKey.text ++ e.key.text ++ e.afterKey.text = key
  generalize right : e.beforeValue.text ++ e.quotedText ++ e.afterValue.text = value
  have keyTrimmed : trimText (trimTextStart key) = e.key.text := by
    rw [trimText, Coding.trim_trimStart, ← left,
      Coding.trim_blank e.beforeKey.spaces e.afterKey.spaces]
    exact e.key.trimmed
  have valueTrimmed : trimText (trimTextEnd value) = trimText e.quotedText := by
    rw [trimText, Coding.trim_trimEnd, ← right,
      Coding.trim_blank e.beforeValue.spaces e.afterValue.spaces]
  have apart : '=' ∉ trimTextStart key := by
    intro mem
    have inside := (List.dropWhile_suffix isWhitespace).subset mem
    rw [← left] at inside
    simp only [List.mem_append, e.beforeKey.spaces.not_mem (c := '=') rfl,
      e.afterKey.spaces.not_mem (c := '=') rfl, false_or, or_false] at inside
    exact e.key.free '=' (by simp) inside
  have whole : key ++ '=' :: e.beforeValue.text ++ e.quotedText ++ e.afterValue.text
      = key ++ '=' :: value := by
    simp [← right]
  have trimmed : trimText (key ++ '=' :: value) = trimTextStart key ++ '=' :: trimTextEnd value :=
    Coding.trim_around rfl key value
  rw [directiveEntry, whole, trimmed]
  simp [splitOnce_of_not_mem apart, keyTrimmed, valueTrimmed, ConfigEntry.keyText]

/-- Neither separator is outside of the quotes. -/
theorem not_mem_layout (e : ConfigEntry) {c : Char} (sep : c ∈ [',', '"']) :
    c ∉ e.beforeKey.text ++ e.key.text ++ e.afterKey.text ++ '=' :: e.beforeValue.text
      ∧ c ∉ e.afterValue.text := by
  have either : c = ',' ∨ c = '"' := by simpa using sep
  have solid : isWhitespace c = false := by rcases either with rfl | rfl <;> rfl
  have equals : c ≠ '=' := by rcases either with rfl | rfl <;> decide
  have keySep : c ∈ [',', '=', '"'] := by rcases either with rfl | rfl <;> simp
  have inKey := e.key.free c keySep
  constructor
  · simp only [List.mem_append, List.mem_cons, not_or]
    exact ⟨⟨⟨e.beforeKey.spaces.not_mem solid, inKey⟩, e.afterKey.spaces.not_mem solid⟩, equals,
      e.beforeValue.spaces.not_mem solid⟩
  · exact e.afterValue.spaces.not_mem solid

theorem render_eq (e : ConfigEntry) :
    e.render = (e.beforeKey.text ++ e.key.text ++ e.afterKey.text ++ '=' :: e.beforeValue.text)
      ++ '"' :: (e.quotedText ++ '"' :: e.afterValue.text) := by
  simp [ConfigEntry.render]

theorem splitDirective_render (e : ConfigEntry) :
    splitDirective e.render = [(e.keyText, trimText e.quotedText)] := by
  obtain ⟨commaBefore, commaAfter⟩ := not_mem_layout e (c := ',') (by simp)
  obtain ⟨quoteBefore, quoteAfter⟩ := not_mem_layout e (c := '"') (by simp)
  have parts := splitRespectingQuotes_quoted commaBefore quoteBefore (quote_not_mem_quotedText e)
    commaAfter quoteAfter
  rw [splitDirective, render_eq, parts, List.filterMap_cons, directiveEntry_render]
  rfl

theorem even_count_quote (e : ConfigEntry) : Even (e.render.count '"') := by
  obtain ⟨before, after⟩ := not_mem_layout e (c := '"') (by simp)
  have inside := quote_not_mem_quotedText e
  have two : e.render.count '"' = 2 := by
    rw [render_eq]
    generalize e.beforeKey.text ++ e.key.text ++ e.afterKey.text ++ '=' :: e.beforeValue.text
      = layout at before
    simp [List.count_append, List.count_eq_zero_of_not_mem before,
      List.count_eq_zero_of_not_mem inside, List.count_eq_zero_of_not_mem after]
  rw [two]
  exact even_two

theorem splitDirective_renderConfig (entries : List ConfigEntry) :
    splitDirective (renderConfig entries).toList
      = entries.map fun e => (e.keyText, trimText e.quotedText) := by
  have closed : ∀ text ∈ entries.map ConfigEntry.render, Even (text.count '"') := by
    intro text mem
    obtain ⟨e, -, rfl⟩ := List.mem_map.mp mem
    exact even_count_quote e
  rw [renderConfig, String.toList_ofList, splitDirective_intercalate _ closed, List.flatMap_map]
  simp only [splitDirective_render, List.map_eq_flatMap]

end Entries

section Names

theorem applyEntry_alwaysTrue (r : InlineConfigOverrides) (entry : String × List Char) :
    (applyEntry r entry).alwaysTrue
      = r.alwaysTrue ++ if normalizeKey entry.1 = "always_true" then namesOf entry.2 else [] := by
  unfold applyEntry
  split
  · rename_i key
    simp [key]
  · rename_i key
    simp [key]
  · rename_i key
    cases parseBool entry.2 <;> simp [key]
  · rename_i other _ _
    rw [if_neg other, List.append_nil]

theorem applyEntry_alwaysFalse (r : InlineConfigOverrides) (entry : String × List Char) :
    (applyEntry r entry).alwaysFalse
      = r.alwaysFalse ++ if normalizeKey entry.1 = "always_false" then namesOf entry.2 else [] := by
  unfold applyEntry
  split
  · rename_i key
    simp [key]
  · rename_i key
    simp [key]
  · rename_i key
    cases parseBool entry.2 <;> simp [key]
  · rename_i _ other _
    rw [if_neg other, List.append_nil]

/-- A list of names that the loop extends, run over rendered entries. -/
theorem foldl_names (names : InlineConfigOverrides → List String) (key : String)
    (step : ∀ r entry, names (applyEntry r entry)
      = names r ++ if normalizeKey entry.1 = key then namesOf entry.2 else [])
    (entries : List ConfigEntry) (r : InlineConfigOverrides) :
    names ((entries.map fun e => (e.keyText, trimText e.quotedText)).foldl applyEntry r)
      = names r ++ namesUnder key entries := by
  induction entries generalizing r with
  | nil => simp [namesUnder]
  | cons e entries ih =>
    rw [List.map_cons, List.foldl_cons, ih, step, namesOf_quotedText, namesUnder, namesUnder]
    by_cases same : normalizeKey e.keyText = key
    · simp [same]
    · simp [same]

/-- The names under the two keys come back in order, and no others. -/
theorem parseSingleMypyComment_renderConfig (entries : List ConfigEntry) :
    (parseSingleMypyComment (renderConfig entries)).alwaysTrue = namesUnder "always_true" entries ∧
    (parseSingleMypyComment (renderConfig entries)).alwaysFalse
      = namesUnder "always_false" entries := by
  rw [parseSingleMypyComment, splitDirective_renderConfig]
  constructor
  · exact foldl_names (·.alwaysTrue) _ applyEntry_alwaysTrue entries .default
  · exact foldl_names (·.alwaysFalse) _ applyEntry_alwaysFalse entries .default

example : parseSingleMypyComment "always-true=\"A, B\",always_false=C" = ⟨["A", "B"], ["C"], none⟩ := by
  decide +kernel

end Names

end AstSerialize
