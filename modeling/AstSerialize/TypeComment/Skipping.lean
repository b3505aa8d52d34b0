import AstSerialize.TypeComment.Directives

/-! On a line of its own a comment gives its directives up to the first
unrecognised part, unless a blank part in front of it makes the loop pass over it. -/
namespace AstSerialize

section Stop

variable (alphanumeric : Alphanumeric)

def isBlankPart (part : List Char) : Bool := trimText part = []

def isDirective (part : List Char) : Bool := (parseCommentPart alphanumeric part).isSome

def isUnrecognised (part : List Char) : Bool := !isBlankPart part && !isDirective alphanumeric part

def partsBefore (parts : List (List Char)) : List (List Char) :=
  parts.takeWhile fun part => !isUnrecognised alphanumeric part

def withFront (front : Bool) (parts : List (List Char)) : List (Bool × List Char) :=
  (front :: parts.map isBlankPart).zip parts

/-- Neither blank nor right behind a blank part. -/
def isLive (part : Bool × List Char) : Bool := !part.1 && !isBlankPart part.2

def partsFrom (front : Bool) (parts : List (List Char)) : List (Bool × List Char) :=
  (withFront front parts).dropWhile fun part => !isUnrecognised alphanumeric part.2

def Starts (parts : List (Bool × List Char)) : Prop :=
  ∃ part, parts.find? isLive = some part ∧ isDirective alphanumeric part.2 = true

/-- The first unrecognised part is right behind a blank part, and what follows starts with a
directive. -/
def Resumes (front : Bool) (parts : List (List Char)) : Prop :=
  ∃ text rest, partsFrom alphanumeric front parts = (true, text) :: rest ∧ Starts alphanumeric rest

/-- On a line of its own the comment gives what its parts in front of unrecognised text give
elsewhere, and never more than the whole comment does there. -/
structure SkipExact (comment : List Char) : Prop where
  exact : parseTypeCommentsFull alphanumeric comment true = someDirectives
    (parseParts alphanumeric false false (partsBefore alphanumeric (hashParts comment)))
  initial : (parseTypeCommentsFull alphanumeric comment true).getD [] <+:
    (parseTypeCommentsFull alphanumeric comment false).getD []

end Stop

section Loop

variable {alphanumeric : Alphanumeric}

theorem withFront_cons (front : Bool) (part : List Char) (parts : List (List Char)) :
    withFront front (part :: parts) = (front, part) :: withFront (isBlankPart part) parts := by rfl

theorem parseParts_cons (skipCommented front : Bool) (part : List Char) (parts : List (List Char)) :
    parseParts alphanumeric skipCommented front (part :: parts) =
      if isLive (front, part) && isUnrecognised alphanumeric part && skipCommented then []
      else (if isLive (front, part) then (parseCommentPart alphanumeric part).toList else [])
        ++ parseParts alphanumeric skipCommented (isBlankPart part) parts := by
  by_cases blank : trimText part = []
  · simp [parseParts, isLive, isBlankPart, blank]
  cases front with
  | true => simp [parseParts, isLive, isBlankPart, blank]
  | false =>
    cases parsed : parseCommentPart alphanumeric part with
    | some directive =>
      simp [parseParts, isLive, isBlankPart, isUnrecognised, isDirective, blank, parsed]
    | none =>
      cases skipCommented <;>
        simp [parseParts, isLive, isBlankPart, isUnrecognised, isDirective, blank, parsed]

theorem parseParts_initial (front : Bool) (parts : List (List Char)) :
    parseParts alphanumeric true front parts <+: parseParts alphanumeric false front parts := by
  induction parts generalizing front with
  | nil => exact List.prefix_rfl
  | cons part parts ih =>
    rw [parseParts_cons, parseParts_cons, Bool.and_true, Bool.and_false]
    split
    · exact List.nil_prefix
    · simpa using ih (isBlankPart part)

theorem parseParts_nil_iff (front : Bool) (parts : List (List Char)) :
    parseParts alphanumeric true front parts = [] ↔
      ¬ Starts alphanumeric (withFront front parts) := by
  induction parts generalizing front with
  | nil => simp [parseParts, withFront, Starts]
  | cons part parts ih =>
    rw [parseParts_cons, withFront_cons]
    cases live : isLive (front, part) with
    | false => simpa [Starts, live] using ih (isBlankPart part)
    | true =>
      have solid : isBlankPart part = false := by
        simp only [isLive, Bool.and_eq_true, Bool.not_eq_true'] at live
        exact live.2
      cases parsed : parseCommentPart alphanumeric part with
      | none => simp [Starts, live, isUnrecognised, isDirective, solid, parsed]
      | some directive => simp [Starts, live, isUnrecognised, isDirective, parsed]

/-- What comes from behind the first unrecognised part. -/
theorem parseParts_extra (front : Bool) (parts : List (List Char)) :
    ∃ extra, parseParts alphanumeric true front parts
        = parseParts alphanumeric false front (partsBefore alphanumeric parts) ++ extra ∧
      (extra = [] ↔ ¬ Resumes alphanumeric front parts) := by
  induction parts generalizing front with
  | nil => exact ⟨[], rfl, by simp [Resumes, partsFrom, withFront]⟩
  | cons part parts ih =>
    cases unrecognised : isUnrecognised alphanumeric part with
    | true =>
      have solid : isBlankPart part = false := by
        simp only [isUnrecognised, Bool.and_eq_true, Bool.not_eq_true'] at unrecognised
        exact unrecognised.1
      have stop : partsFrom alphanumeric front (part :: parts)
          = (front, part) :: withFront false parts := by
        simp [partsFrom, withFront_cons, unrecognised, solid]
      have before : partsBefore alphanumeric (part :: parts) = [] := by
        simp [partsBefore, unrecognised]
      refine ⟨parseParts alphanumeric true front (part :: parts), by simp [before, parseParts], ?_⟩
      cases front with
      | false => simp [parseParts_cons, Resumes, stop, isLive, solid, unrecognised]
      | true =>
        -- the part is passed over, and the loop goes on behind it
        have rest := @parseParts_nil_iff alphanumeric false parts
        simpa [parseParts_cons, Resumes, stop, isLive, solid] using rest
    | false =>
      obtain ⟨extra, split, none⟩ := ih (isBlankPart part)
      have stop : partsFrom alphanumeric front (part :: parts)
          = partsFrom alphanumeric (isBlankPart part) parts := by
        simp [partsFrom, withFront_cons, unrecognised]
      have before : partsBefore alphanumeric (part :: parts)
          = part :: partsBefore alphanumeric parts := by
        simp [partsBefore, unrecognised]
      refine ⟨extra, ?_, by rw [none, Resumes, Resumes, stop]⟩
      simp [parseParts_cons, before, unrecognised, split]

theorem someDirectives_getD (parts : List TypeComment) :
    (someDirectives parts).getD [] = parts := by
  cases parts <;> rfl

/-- The directives behind an unrecognised part are left out, unless the part is passed over. -/
theorem skipExact_iff (alphanumeric : Alphanumeric) (comment : List Char) :
    SkipExact alphanumeric comment ↔ ¬ Resumes alphanumeric false (hashParts comment) := by
  obtain ⟨extra, split, none⟩ := @parseParts_extra alphanumeric false (hashParts comment)
  rw [← none]
  constructor
  · intro skip
    have same := congrArg (·.getD []) skip.exact
    simp only [parseTypeCommentsFull, someDirectives_getD, split] at same
    exact List.append_right_eq_self.mp same
  · intro nothing
    refine ⟨?_, ?_⟩
    · rw [parseTypeCommentsFull, split, nothing, List.append_nil]
    · simp only [parseTypeCommentsFull, someDirectives_getD]
      exact parseParts_initial false (hashParts comment)

example : parseTypeCommentsFull .basic "# type: int # x # mypy: ignore[a]".toList true
    = some [.typeAnnotationText "int"] := by decide

/-- Code behind a doubled hash is commented out, and the directive behind it is taken. -/
theorem doubled_hash_not_skipped :
    ¬ SkipExact .basic "## x = 1 # type: ignore".toList := by
  intro skip
  have taken : parseTypeCommentsFull .basic "## x = 1 # type: ignore".toList true
      = some [.typeIgnore []] := by decide
  have exact := skip.exact
  rw [taken] at exact
  revert exact
  decide

end Loop

end AstSerialize
