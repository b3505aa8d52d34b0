import AstSerialize.InlineConfig.Overrides
import Mathlib.Algebra.Ring.Parity

/-! Inline configuration over several comments is that of one comment, in which
they are joined by commas. -/
namespace AstSerialize

section Splitting

/-- Text outside of quotes whose quotes are closed ends before the next comma. -/
theorem splitQuoted_comma (quoted : Bool) (current s t : List Char)
    (closed : quoted = true ↔ ¬ Even (s.count '"')) :
    splitQuoted quoted current (s ++ ',' :: t)
      = splitQuoted quoted current s ++ splitQuoted false [] t := by
  induction s generalizing quoted current with
  | nil =>
    have outside : quoted = false := by simpa using closed
    subst outside
    simp [splitQuoted]
  | cons c s ih =>
    cases quoted with
    | false =>
      have even : Even ((c :: s).count '"') := by simpa using closed
      by_cases comma : c = ','
      · subst comma
        have rest : Even (s.count '"') := by simpa using even
        simp [splitQuoted, ih false [] (by simpa using rest)]
      by_cases quote : c = '"'
      · subst quote
        have rest : ¬ Even (s.count '"') := by simpa [Nat.even_add_one] using even
        simp [splitQuoted, ih true current (by simpa using rest)]
      · have rest : Even (s.count '"') := by simpa [List.count_cons, quote] using even
        simp [splitQuoted, comma, quote, ih false (current ++ [c]) (by simpa using rest)]
    | true =>
      have odd : ¬ Even ((c :: s).count '"') := by simpa using closed
      by_cases quote : c = '"'
      · subst quote
        have rest : Even (s.count '"') := by simpa [Nat.even_add_one] using odd
        simp [splitQuoted, ih false current (by simpa using rest)]
      · have rest : ¬ Even (s.count '"') := by simpa [List.count_cons, quote] using odd
        simp [splitQuoted, quote, ih true (current ++ [c]) (by simpa using rest)]

theorem splitDirective_comma {s : List Char} (closed : Even (s.count '"')) (t : List Char) :
    splitDirective (s ++ ',' :: t) = splitDirective s ++ splitDirective t := by
  have split := splitQuoted_comma false [] s t (by simpa using closed)
  simp only [splitDirective, splitRespectingQuotes, split, List.filterMap_append]

theorem splitDirective_nil : splitDirective [] = [] := by rfl

theorem splitDirective_intercalate (texts : List (List Char))
    (closed : ∀ text ∈ texts, Even (text.count '"')) :
    splitDirective ([','].intercalate texts) = texts.flatMap splitDirective := by
  induction texts with
  | nil => exact splitDirective_nil
  | cons text texts ih =>
    have first := closed text List.mem_cons_self
    have rest := ih fun other mem => closed other (List.mem_cons_of_mem _ mem)
    cases texts with
    | nil => simp
    | cons next texts =>
      rw [List.intercalate_cons_cons, List.append_assoc, List.singleton_append,
        splitDirective_comma first, rest]
      rfl

end Splitting

section Merging

namespace InlineConfigOverrides

theorem merge_default (r : InlineConfigOverrides) : r.merge default = r := by
  ext <;> simp [merge, default]

/-- The rounds of the loop only add to what is there. -/
theorem merge_applyEntry (r s : InlineConfigOverrides) (entry : String × List Char) :
    r.merge (applyEntry s entry) = applyEntry (r.merge s) entry := by
  unfold applyEntry
  split
  · simp [merge]
  · simp [merge]
  · split
    · simp [merge]
    · rfl
  · rfl

theorem merge_foldl (entries : List (String × List Char)) (r s : InlineConfigOverrides) :
    r.merge (entries.foldl applyEntry s) = entries.foldl applyEntry (r.merge s) := by
  induction entries generalizing s with
  | nil => rfl
  | cons entry entries ih => rw [List.foldl_cons, List.foldl_cons, ih, merge_applyEntry]

end InlineConfigOverrides

/-- All entries of the comments, in order. -/
def entriesOf (comments : List (Nat × String)) : List (String × List Char) :=
  comments.flatMap fun comment => splitDirective comment.2.toList

open InlineConfigOverrides in
theorem resolveOverrides_eq (comments : List (Nat × String)) :
    resolveOverrides comments = (entriesOf comments).foldl applyEntry .default := by
  have general (r : InlineConfigOverrides) :
      comments.foldl (fun result comment => result.merge (parseSingleMypyComment comment.2)) r
        = (entriesOf comments).foldl applyEntry r := by
    induction comments generalizing r with
    | nil => rfl
    | cons comment comments ih =>
      have first : r.merge (parseSingleMypyComment comment.2)
          = (splitDirective comment.2.toList).foldl applyEntry r := by
        simp only [parseSingleMypyComment, merge_foldl, merge_default]
      simp only [List.foldl_cons, ih, first, entriesOf, List.flatMap_cons, List.foldl_append]
  exact general .default

/-- The value of an `ignore_errors` entry that is recognised. -/
def recognisedBool (entry : String × List Char) : Option Bool :=
  if normalizeKey entry.1 = "ignore_errors" then parseBool entry.2 else none

theorem applyEntry_ignoreErrors (r : InlineConfigOverrides) (entry : String × List Char) :
    (applyEntry r entry).ignoreErrors = (recognisedBool entry).or r.ignoreErrors := by
  unfold applyEntry recognisedBool
  split
  · rename_i key
    simp [key]
  · rename_i key
    simp [key]
  · rename_i key
    rw [if_pos key]
    cases parseBool entry.2 <;> rfl
  · rename_i key
    rw [if_neg key]
    rfl

theorem foldl_ignoreErrors (entries : List (String × List Char)) (r : InlineConfigOverrides) :
    (entries.foldl applyEntry r).ignoreErrors
      = ((entries.filterMap recognisedBool).getLast?).or r.ignoreErrors := by
  induction entries generalizing r with
  | nil => rfl
  | cons entry entries ih =>
    rw [List.foldl_cons, ih, applyEntry_ignoreErrors, List.filterMap_cons]
    cases recognisedBool entry with
    | none => rfl
    | some b =>
      cases h : (entries.filterMap recognisedBool).getLast? <;> simp [List.getLast?_cons, h]

/-- Comments with closed quotes are read as one comment, and the last recognised boolean in them
wins. -/
theorem resolveOverrides_joined (comments : List (Nat × String))
    (closed : ∀ comment ∈ comments, Even (comment.2.toList.count '"')) :
    resolveOverrides comments = parseSingleMypyComment (",".intercalate (comments.map (·.2))) ∧
    (resolveOverrides comments).ignoreErrors
      = ((entriesOf comments).filterMap recognisedBool).getLast? := by
  constructor
  · have each : ∀ text ∈ comments.map (·.2.toList), Even (text.count '"') := by
      intro text mem
      obtain ⟨comment, member, rfl⟩ := List.mem_map.mp mem
      exact closed comment member
    have texts : splitDirective ([','].intercalate (comments.map (·.2.toList)))
        = entriesOf comments := by
      rw [splitDirective_intercalate _ each, entriesOf, List.flatMap_map]
    rw [resolveOverrides_eq, parseSingleMypyComment, String.toList_intercalate, List.map_map]
    exact congrArg (List.foldl applyEntry .default) texts.symm
  · rw [resolveOverrides_eq, foldl_ignoreErrors]
    exact Option.or_none

/-- Two comments, the first with a list in quotes. -/
theorem resolveOverrides_joined_lists :
    resolveOverrides [(1, "always-true=\"A, B\", ignore-errors"), (2, "ignore-errors=no")]
      = parseSingleMypyComment
        (",".intercalate ["always-true=\"A, B\", ignore-errors", "ignore-errors=no"]) :=
  (resolveOverrides_joined
    [(1, "always-true=\"A, B\", ignore-errors"), (2, "ignore-errors=no")] (by decide)).1

end Merging

end AstSerialize
