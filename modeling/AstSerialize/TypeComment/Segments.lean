import AstSerialize.TypeComment.Split

/-! What the parts of a comment are, and how their types relate to them. -/
namespace AstSerialize.SignatureComment
open Coding.Utf8

section Parts

/-- The arguments between the parentheses, and the tokens behind the arrow. -/
def commentParts (ls : List Lexeme) : Option (List (List Lexeme) × List Lexeme) :=
  match commentArguments ls with
  | some a =>
    match a.rest with
    | ⟨_, .rarrow, _⟩ :: ret => some (a.all, ret)
    | _ => none
  | none => none

/-- An argument without one leading star. -/
def bodyOf : List Lexeme → List Lexeme
  | [] => []
  | l :: ls => if l.kind.isStar = true then ls else l :: ls

end Parts

section Tokens

variable {before : Nat} {ls : List Lexeme} {a : Arguments}

theorem splitArguments_closed (found : splitArguments before ls = some a) :
    ∃ l ∈ ls, l.kind = .rpar := by
  induction ls generalizing before a with
  | nil => cases found
  | cons l ls ih =>
    obtain ⟨-, b, inside, rfl⟩ | ⟨closing, rfl⟩ | ⟨-, -, b, inside, rfl⟩ := splitArguments_cases found
    · obtain ⟨close, mem, kind⟩ := ih inside
      exact ⟨close, List.mem_cons_of_mem _ mem, kind⟩
    · exact ⟨l, List.mem_cons_self, closing.1⟩
    · obtain ⟨close, mem, kind⟩ := ih inside
      exact ⟨close, List.mem_cons_of_mem _ mem, kind⟩

/-- The tokens of the arguments are some of those that are split, and one that is not empty closes
them. -/
theorem splitArguments_mem (found : splitArguments before ls = some a)
    (solid : ls.Pairwise fun l l' => l.text = [] → l'.text = [])
    (closing : ∀ l ∈ ls, l.kind = .rpar → l.text ≠ []) :
    ∀ argument ∈ a.all, ∀ l ∈ argument, l ∈ ls ∧ l.text ≠ [] := by
  induction ls generalizing before a with
  | nil => cases found
  | cons l ls ih =>
    rw [List.pairwise_cons] at solid
    rw [List.forall_mem_cons] at closing
    have below : ∀ {b}, splitArguments (nestingAfter before l.kind) ls = some b →
        ∀ argument ∈ b.all, ∀ l' ∈ argument, l' ∈ l :: ls ∧ l'.text ≠ [] := by
      intro b inside argument mem l' mem'
      have here := ih inside solid.2 closing.2 argument mem l' mem'
      exact ⟨List.mem_cons_of_mem _ here.1, here.2⟩
    obtain ⟨-, b, inside, rfl⟩ | ⟨-, rfl⟩ | ⟨-, -, b, inside, rfl⟩ := splitArguments_cases found
    · simp only [Arguments.all, List.forall_mem_cons]
      exact ⟨fun _ mem => absurd mem List.not_mem_nil, List.forall_mem_cons.mp (below inside)⟩
    · simp [Arguments.all]
    · obtain ⟨close, mem, kind⟩ := splitArguments_closed inside
      have visible : l.text ≠ [] := fun empty =>
        closing.2 close mem kind (solid.1 close mem empty)
      have rest := List.forall_mem_cons.mp (below inside)
      simp only [Arguments.all, List.forall_mem_cons]
      exact ⟨⟨⟨List.mem_cons_self, visible⟩, rest.1⟩, rest.2⟩

theorem splitComment_eq (ls : List Lexeme) :
    splitComment ls = (commentParts ls).bind fun parts =>
      (parts.1.mapM segment).bind fun segments =>
        if parts.2 = [] then none else some (listed segments, parts.2) := by
  unfold splitComment commentParts commentArguments
  split
  case h_1 space text ls =>
    cases splitArguments 1 ls with
    | none => rfl
    | some a =>
      simp only [Option.bind_eq_bind, Option.bind_some]
      cases rest : a.rest with
      | nil => simp
      | cons arrow ret =>
        obtain ⟨space', kind, text'⟩ := arrow
        cases kind with
        | rarrow => cases ret <;> simp
        | _ => simp
  case h_2 => rfl

theorem mapM_isSome_iff {A B : Type} (f : A → Option B) (xs : List A) :
    (xs.mapM f).isSome ↔ ∀ x ∈ xs, (f x).isSome := by
  induction xs with
  | nil => simp
  | cons x xs ih =>
    rw [List.mapM_cons, List.forall_mem_cons, ← ih]
    cases f x with
    | none => simp
    | some y => cases xs.mapM f <;> simp

end Tokens

section Segments

/-- A span that has begun keeps all tokens, the last stars aside. -/
theorem run_read {before : Nat} {span read : Span} {ls : List Lexeme}
    (run : span.run before ls = some read) (begun : span.tokens ≠ [] ∨ span.starStripped = true)
    (stars : ∀ l ∈ span.skipped, l.kind.isStar = true) :
    read.tokens ++ read.skipped = span.tokens ++ span.skipped ++ ls ∧
      ∀ l ∈ read.skipped, l.kind.isStar = true := by
  induction ls generalizing before span with
  | nil =>
    cases run
    exact ⟨(List.append_nil _).symm, stars⟩
  | cons l ls ih =>
    rw [Span.run, Option.bind_eq_some_iff] at run
    obtain ⟨next, step, run⟩ := run
    unfold Span.step at step
    split at step
    case isTrue star =>
      split at step
      · cases step
      case isFalse stripped =>
        have tokens : span.tokens ≠ [] := begun.resolve_right stripped
        rw [if_neg tokens] at step
        cases step
        have rest := ih run (.inl tokens) (by simpa [or_imp, forall_and, star.1] using stars)
        simpa using rest
    case isFalse =>
      cases step
      have rest := ih run (.inl (by simp)) (by simp)
      simpa using rest

theorem segment_read {argument : List Lexeme} {read : Span}
    (run : Span.empty.run 1 argument = some read) :
    read.tokens ++ read.skipped = bodyOf argument ∧ ∀ l ∈ read.skipped, l.kind.isStar = true := by
  cases argument with
  | nil =>
    cases run
    exact ⟨rfl, fun _ mem => absurd mem List.not_mem_nil⟩
  | cons l ls =>
    rw [Span.run, Option.bind_eq_some_iff] at run
    obtain ⟨next, step, run⟩ := run
    rw [bodyOf]
    cases star : l.kind.isStar with
    | true =>
      have inside : nestingAfter 1 l.kind = 1 := by
        cases kind : l.kind <;> simp [kind, TokenKind.isStar, nestingAfter] at star ⊢
      simp only [Span.step, Span.empty, star, inside, and_self, if_true, Bool.false_eq_true,
        if_false, Option.some.injEq] at step
      subst step
      exact run_read run (.inr rfl) (by simp)
    | false =>
      simp only [Span.step, Span.empty, star, Bool.false_eq_true, false_and, if_false,
        Option.some.injEq] at step
      subst step
      exact run_read run (.inl (by simp)) (by simp)

theorem getLast_of_bodyOf {argument : List Lexeme} {l : Lexeme}
    (last : (bodyOf argument).getLast? = some l) : argument.getLast? = some l := by
  cases argument with
  | nil => cases last
  | cons first rest =>
    rw [bodyOf] at last
    split at last
    · rw [List.getLast?_cons, last]
      rfl
    · exact last

/-- Without a star at its end an argument is kept up to the star before it. -/
theorem segment_eq_bodyOf {argument kept : List Lexeme} (found : segment argument = some kept)
    (ends : ∀ l, argument.getLast? = some l → l.kind.isStar = false) : kept = bodyOf argument := by
  rw [segment, Option.map_eq_some_iff] at found
  obtain ⟨read, run, rfl⟩ := found
  obtain ⟨all, stars⟩ := segment_read run
  cases last : read.skipped.getLast? with
  | none =>
    rw [List.getLast?_eq_none_iff] at last
    rw [← all, last, List.append_nil]
  | some l =>
    have star := stars l (List.mem_of_getLast? last)
    have body : (bodyOf argument).getLast? = some l := by
      rw [← all, List.getLast?_append, last]
      rfl
    rw [ends l (getLast_of_bodyOf body)] at star
    cases star

theorem mem_listed {segment : List Lexeme} {segments : List (List Lexeme)} (mem : segment ∈ segments)
    (some : segment ≠ []) : segment ∈ listed segments := by
  induction segments with
  | nil => cases mem
  | cons first segments ih =>
    cases segments with
    | nil =>
      obtain rfl := List.mem_singleton.mp mem
      simp [listed, some]
    | cons next segments =>
      rw [listed, List.mem_cons]
      rcases List.mem_cons.mp mem with rfl | mem
      · exact .inl rfl
      · exact .inr (ih mem)
      · simp

theorem listed_subset (segments : List (List Lexeme)) :
    ∀ segment ∈ listed segments, segment ∈ segments := by
  induction segments with
  | nil => exact fun _ mem => mem
  | cons first segments ih =>
    cases segments with
    | nil =>
      rw [listed]
      split
      · exact fun _ mem => absurd mem List.not_mem_nil
      · exact fun _ mem => mem
    | cons next segments =>
      rw [listed_cons (List.cons_ne_nil _ _)]
      exact List.forall_mem_cons.mpr
        ⟨List.mem_cons_self, fun segment mem => List.mem_cons_of_mem _ (ih segment mem)⟩

/-- Each listed type is that of a listed argument. -/
theorem listed_mapM {arguments segments : List (List Lexeme)}
    (split : arguments.mapM segment = some segments) :
    ∀ kept ∈ listed segments, ∃ argument ∈ listed arguments, segment argument = some kept := by
  induction arguments generalizing segments with
  | nil =>
    cases split
    exact fun _ mem => absurd mem List.not_mem_nil
  | cons argument arguments ih =>
    rw [List.mapM_cons] at split
    simp only [Option.bind_eq_bind, Option.bind_eq_some_iff] at split
    obtain ⟨first, found, others, rest, returned⟩ := split
    cases returned
    intro kept mem
    cases arguments with
    | nil =>
      obtain rfl : others = [] := (Option.some.inj rest).symm
      have here : kept = first ∧ first ≠ [] := by
        rw [listed] at mem
        split at mem
        · cases mem
        case isFalse some => exact ⟨List.mem_singleton.mp mem, some⟩
      have some : argument ≠ [] := by
        rintro rfl
        cases found
        exact here.2 rfl
      rw [here.1]
      exact ⟨argument, mem_listed List.mem_cons_self some, found⟩
    | cons next arguments =>
      have more : others ≠ [] := by
        rintro rfl
        simp [List.mapM_cons, Option.bind_eq_some_iff] at rest
      rw [listed_cons more, List.mem_cons] at mem
      rw [listed_cons (List.cons_ne_nil _ _)]
      rcases mem with rfl | mem
      · exact ⟨argument, List.mem_cons_self, found⟩
      · obtain ⟨argument', mem', found'⟩ := ih rest kept mem
        exact ⟨argument', List.mem_cons_of_mem _ mem', found'⟩

theorem mapM_mem {A B : Type} {f : A → Option B} {xs : List A} {ys : List B}
    (found : xs.mapM f = some ys) {x : A} (mem : x ∈ xs) : ∃ y ∈ ys, f x = some y := by
  induction xs generalizing ys with
  | nil => cases mem
  | cons first xs ih =>
    rw [List.mapM_cons] at found
    simp only [Option.bind_eq_bind, Option.bind_eq_some_iff] at found
    obtain ⟨y, here, ys, rest, returned⟩ := found
    cases returned
    rcases List.mem_cons.mp mem with rfl | mem
    · exact ⟨y, List.mem_cons_self, here⟩
    · obtain ⟨y', mem', there⟩ := ih rest mem
      exact ⟨y', List.mem_cons_of_mem _ mem', there⟩

theorem textOf_getLast {ls : List Lexeme} {l : Lexeme} (last : ls.getLast? = some l)
    (visible : l.text ≠ []) : (textOf ls).getLast? = l.text.getLast? := by
  obtain ⟨front, rfl⟩ := List.getLast?_eq_some_iff.mp last
  obtain ⟨c, final⟩ : ∃ c, l.text.getLast? = some c :=
    Option.ne_none_iff_exists'.mp (mt List.getLast?_eq_none_iff.mp visible)
  cases front with
  | nil => simp [textOf]
  | cons first front => simp [textOf, Lexeme.spelling, final]

theorem textOf_subset {ls : List Lexeme} {c : Char} (mem : c ∈ textOf ls) :
    ∃ l ∈ ls, c ∈ l.spelling := by
  have all : c ∈ spell ls := by
    rw [← leading_textOf]
    exact List.mem_append_right _ mem
  exact List.mem_flatMap.mp all

theorem bodyOf_getLast {argument : List Lexeme} {l : Lexeme} (last : argument.getLast? = some l)
    (some : bodyOf argument ≠ []) : (bodyOf argument).getLast? = .some l := by
  cases argument with
  | nil => cases last
  | cons first rest =>
    rw [bodyOf] at some ⊢
    split
    case isTrue star =>
      rw [if_pos star] at some
      obtain ⟨next, others, rfl⟩ := List.exists_cons_of_ne_nil some
      exact last
    case isFalse => exact last

theorem bodyOf_subset (argument : List Lexeme) : ∀ l ∈ bodyOf argument, l ∈ argument := by
  cases argument with
  | nil => exact fun _ mem => mem
  | cons first rest =>
    rw [bodyOf]
    split
    · exact fun _ mem => List.mem_cons_of_mem _ mem
    · exact fun _ mem => mem

end Segments

end AstSerialize.SignatureComment
