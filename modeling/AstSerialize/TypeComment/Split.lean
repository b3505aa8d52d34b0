import AstSerialize.TypeComment.Parse

/-! The split of a comment, on tokens with their texts. -/
namespace AstSerialize.SignatureComment
open Coding.Utf8

section Lexemes

/-- A token with its text and the space before it. -/
structure Lexeme where
  space : List Char
  kind : TokenKind
  text : List Char
  deriving DecidableEq, Repr

def Lexeme.spelling (l : Lexeme) : List Char := l.space ++ l.text

/-- The text that the tokens were read from. -/
def spell (ls : List Lexeme) : List Char := ls.flatMap (·.spelling)

/-- The text from the first token to the last one. -/
def textOf : List Lexeme → List Char
  | [] => []
  | l :: ls => l.text ++ spell ls

/-- The space before the first token. -/
def leading : List Lexeme → List Char
  | [] => []
  | l :: _ => l.space

/-- The tokens in their places, from an offset on. -/
def place (offset : Nat) : List Lexeme → List Token
  | [] => []
  | l :: ls =>
    ⟨l.kind, ⟨offset + byteLen l.space, offset + byteLen l.spelling⟩⟩
      :: place (offset + byteLen l.spelling) ls

@[simp] theorem spell_nil : spell [] = [] := rfl

@[simp] theorem spell_cons (l : Lexeme) (ls : List Lexeme) :
    spell (l :: ls) = l.spelling ++ spell ls := rfl

@[simp] theorem spell_append (ls ls' : List Lexeme) : spell (ls ++ ls') = spell ls ++ spell ls' :=
  List.flatMap_append

theorem leading_textOf (ls : List Lexeme) : leading ls ++ textOf ls = spell ls := by
  cases ls with
  | nil => rfl
  | cons l ls => simp [leading, textOf, Lexeme.spelling]

theorem leading_append {ls : List Lexeme} (some : ls ≠ []) (ls' : List Lexeme) :
    leading (ls ++ ls') = leading ls := by
  cases ls with
  | nil => exact absurd rfl some
  | cons l ls => rfl

theorem slice_between (pre mid post : List Char) :
    slice (pre ++ mid ++ post) (byteLen pre) (byteLen pre + byteLen mid) = mid := by
  rw [slice, Nat.add_sub_cancel_left, List.append_assoc, dropBytes_byteLen, takeBytes_byteLen]

end Lexemes

section Arguments

/-- The comma-separated arguments behind an opening parenthesis, and the tokens behind the closing
one. -/
structure Arguments where
  first : List Lexeme
  others : List (List Lexeme)
  rest : List Lexeme

def Arguments.all (a : Arguments) : List (List Lexeme) := a.first :: a.others

/-- The arguments are separated by the commas in one pair of brackets. -/
def splitArguments (before : Nat) : List Lexeme → Option Arguments
  | [] => none
  | l :: ls =>
    let nesting := nestingAfter before l.kind
    if l.kind = .comma ∧ nesting = 1 then
      (splitArguments nesting ls).map fun a => ⟨[], a.all, a.rest⟩
    else if l.kind = .rpar ∧ nesting = 0 then some ⟨[], [], ls⟩
    else (splitArguments nesting ls).map fun a => { a with first := l :: a.first }

/-- An argument while its tokens are read: those that its type has, and the stars behind them. -/
structure Span where
  tokens : List Lexeme
  skipped : List Lexeme
  starStripped : Bool

namespace Span

def empty : Span := ⟨[], [], false⟩

def step (nesting : Nat) (l : Lexeme) (span : Span) : Option Span :=
  if l.kind.isStar = true ∧ nesting = 1 then
    if span.starStripped then none
    else if span.tokens = [] then some ⟨[], [], true⟩
    else some { span with skipped := span.skipped ++ [l] }
  else some ⟨span.tokens ++ span.skipped ++ [l], [], span.starStripped⟩

def run (before : Nat) (span : Span) : List Lexeme → Option Span
  | [] => some span
  | l :: ls =>
    (span.step (nestingAfter before l.kind) l).bind fun span =>
      span.run (nestingAfter before l.kind) ls

end Span

/-- The tokens of the type of an argument. -/
def segment (argument : List Lexeme) : Option (List Lexeme) :=
  (Span.empty.run 1 argument).map (·.tokens)

/-- The types of the arguments, where the current one is already read up to a span. -/
def segmentsFrom (before : Nat) (span : Span) (a : Arguments) : Option (List (List Lexeme)) := do
  let span ← span.run before a.first
  let others ← a.others.mapM segment
  pure (span.tokens :: others)

/-- The last type is left out if it is empty. -/
def listed : List (List Lexeme) → List (List Lexeme)
  | [] => []
  | [last] => if last = [] then [] else [last]
  | segment :: segments => segment :: listed segments

end Arguments

section Refinement

variable {comment : List Char} {trailing : List Char}

/-- The loop has read up to an offset, with the tokens that are left and the range of the span. -/
structure Reads (comment trailing : List Char) (span : Span) (ls : List Lexeme)
    (offset argStart argEnd : Nat) : Prop where
  place : ∃ before, comment = before ++ spell (span.tokens ++ span.skipped ++ ls) ++ trailing ∧
    offset = byteLen (before ++ spell (span.tokens ++ span.skipped)) ∧
    argStart = byteLen (before ++ leading (span.tokens ++ span.skipped ++ ls))
  stop : argEnd = argStart + byteLen (textOf span.tokens)
  skipped : span.tokens = [] → span.skipped = []
  solid : ∀ l ∈ span.tokens ++ span.skipped, l.text ≠ []

namespace Reads

variable {span : Span} {ls : List Lexeme} {l : Lexeme} {offset argStart argEnd : Nat}

theorem offset_eq (reads : Reads comment trailing span ls offset argStart argEnd) :
    offset + byteLen (spell ls ++ trailing) = byteLen comment := by
  obtain ⟨before, whole, here, -⟩ := reads.place
  rw [whole, here]
  simp only [spell_append, byteLen_append]
  omega

/-- The range of the span holds the text of its tokens. -/
theorem cut_eq (reads : Reads comment trailing span ls offset argStart argEnd) :
    cut comment argStart argEnd = .ofList (textOf span.tokens) := by
  obtain ⟨before, whole, -, start⟩ := reads.place
  rw [cut, reads.stop]
  congr 1
  cases tokens : span.tokens with
  | nil => simp [textOf, slice]
  | cons first more =>
    have split : comment = (before ++ leading (span.tokens ++ span.skipped ++ ls))
        ++ textOf span.tokens ++ (spell (span.skipped ++ ls) ++ trailing) := by
      rw [whole, List.append_assoc span.tokens, leading_append (by simp [tokens]), spell_append,
        ← leading_textOf span.tokens]
      simp only [List.append_assoc]
    rw [← tokens, start]
    conv_lhs => rw [split]
    exact slice_between ..

/-- Without tokens the span starts at the next token, otherwise it starts before. -/
theorem start_iff (reads : Reads comment trailing span (l :: ls) offset argStart argEnd) :
    argStart = offset + byteLen l.space ↔ span.tokens = [] := by
  obtain ⟨before, -, here, start⟩ := reads.place
  constructor
  · intro same
    cases tokens : span.tokens with
    | nil => rfl
    | cons first more =>
      have solid := reads.solid first (by simp [tokens])
      have visible : 0 < byteLen first.text :=
        (List.length_pos_iff.mpr solid).trans_le (length_le_byteLen _)
      rw [start, here, tokens] at same
      simp only [List.cons_append, leading, spell_cons, Lexeme.spelling, byteLen_append] at same
      omega
  · intro tokens
    rw [start, here, tokens, reads.skipped tokens]
    simp [leading]

theorem empty_iff (reads : Reads comment trailing span ls offset argStart argEnd) :
    argEnd = argStart ↔ span.tokens = [] := by
  rw [reads.stop]
  constructor
  · intro same
    cases tokens : span.tokens with
    | nil => rfl
    | cons first more =>
      have solid := reads.solid first (by simp [tokens])
      have visible : 0 < byteLen first.text :=
        (List.length_pos_iff.mpr solid).trans_le (length_le_byteLen _)
      rw [tokens, textOf, byteLen_append] at same
      omega
  · intro tokens
    rw [tokens]
    rfl

/-- A span that starts anew behind a token. -/
theorem restart (reads : Reads comment trailing span (l :: ls) offset argStart argEnd)
    {next : Lexeme} {more : List Lexeme} (head : ls = next :: more) (starStripped : Bool) :
    Reads comment trailing ⟨[], [], starStripped⟩ ls (offset + byteLen l.spelling)
      (offset + byteLen l.spelling + byteLen next.space)
      (offset + byteLen l.spelling + byteLen next.space) := by
  obtain ⟨before, whole, here, -⟩ := reads.place
  refine ⟨⟨before ++ spell (span.tokens ++ span.skipped ++ [l]), ?_, ?_, ?_⟩, rfl, fun _ => rfl, ?_⟩
  · rw [whole]
    simp
  · rw [here]
    simp [Nat.add_assoc]
  · rw [here, head]
    simp [leading, Nat.add_assoc]
  · intro _ mem
    cases mem

/-- A token of the argument. -/
theorem extend (reads : Reads comment trailing span (l :: ls) offset argStart argEnd)
    (visible : l.text ≠ []) :
    Reads comment trailing ⟨span.tokens ++ span.skipped ++ [l], [], span.starStripped⟩ ls
      (offset + byteLen l.spelling) argStart (offset + byteLen l.spelling) := by
  obtain ⟨before, whole, here, start⟩ := reads.place
  have same : leading (span.tokens ++ span.skipped ++ l :: ls)
      = leading (span.tokens ++ span.skipped ++ [l]) := by
    have some : span.tokens ++ span.skipped ++ [l] ≠ [] := by simp
    rw [← leading_append some ls]
    simp
  refine ⟨⟨before, ?_, ?_, ?_⟩, ?_, ?_, ?_⟩
  · rw [whole]
    simp
  · rw [here]
    simp [Nat.add_assoc]
  · rw [start]
    simp
  · have all := congrArg byteLen (leading_textOf (span.tokens ++ span.skipped ++ [l]))
    rw [byteLen_append] at all
    rw [start, same, here]
    simp only [spell_append, spell_cons, spell_nil, byteLen_append, byteLen_nil] at all ⊢
    omega
  · intro none
    simp at none
  · intro other mem
    rw [List.append_nil, List.mem_append, List.mem_singleton] at mem
    rcases mem with mem | rfl
    · exact reads.solid other mem
    · exact visible

/-- A star behind the argument so far. -/
theorem skip (reads : Reads comment trailing span (l :: ls) offset argStart argEnd)
    (some : span.tokens ≠ []) (visible : l.text ≠ []) :
    Reads comment trailing { span with skipped := span.skipped ++ [l] } ls
      (offset + byteLen l.spelling) argStart argEnd := by
  obtain ⟨before, whole, here, start⟩ := reads.place
  refine ⟨⟨before, ?_, ?_, ?_⟩, reads.stop, fun none => absurd none some, ?_⟩
  · rw [whole]
    simp
  · rw [here]
    simp [Nat.add_assoc]
  · rw [start]
    simp
  · intro other mem
    rw [← List.append_assoc, List.mem_append, List.mem_singleton] at mem
    rcases mem with mem | rfl
    · exact reads.solid other mem
    · exact visible

end Reads

theorem peekStart_place {next : Lexeme} {ls : List Lexeme} (offset : Nat) :
    peekStart (place offset (next :: ls)) = some (offset + byteLen next.space) := rfl

/-- A comma opens the next argument, the closing parenthesis ends the last one, and any other token
belongs to the current one. -/
theorem splitArguments_cases {before : Nat} {l : Lexeme} {ls : List Lexeme} {a : Arguments}
    (found : splitArguments before (l :: ls) = some a) :
    (l.kind = .comma ∧ nestingAfter before l.kind = 1) ∧
        (∃ b, splitArguments (nestingAfter before l.kind) ls = some b ∧ a = ⟨[], b.all, b.rest⟩) ∨
      (l.kind = .rpar ∧ nestingAfter before l.kind = 0) ∧ a = ⟨[], [], ls⟩ ∨
      ¬ (l.kind = .comma ∧ nestingAfter before l.kind = 1) ∧
        ¬ (l.kind = .rpar ∧ nestingAfter before l.kind = 0) ∧
        ∃ b, splitArguments (nestingAfter before l.kind) ls = some b ∧
          a = { b with first := l :: b.first } := by
  rw [splitArguments] at found
  split at found
  case isTrue comma =>
    rw [Option.map_eq_some_iff] at found
    obtain ⟨b, found, rfl⟩ := found
    exact .inl ⟨comma, b, found, rfl⟩
  case isFalse notComma =>
    split at found
    case isTrue closing =>
      cases found
      exact .inr (.inl ⟨closing, rfl⟩)
    case isFalse notClosing =>
      rw [Option.map_eq_some_iff] at found
      obtain ⟨b, found, rfl⟩ := found
      exact .inr (.inr ⟨notComma, notClosing, b, found, rfl⟩)

theorem splitArguments_suffix {before : Nat} {ls : List Lexeme} {a : Arguments}
    (found : splitArguments before ls = some a) : a.rest <:+ ls := by
  induction ls generalizing before a with
  | nil => cases found
  | cons l ls ih =>
    obtain ⟨-, b, inside, rfl⟩ | ⟨-, rfl⟩ | ⟨-, -, b, inside, rfl⟩ := splitArguments_cases found
    · exact (ih inside).trans (List.suffix_cons _ _)
    · exact List.suffix_cons _ _
    · exact (ih inside).trans (List.suffix_cons _ _)

theorem splitArguments_ne_nil {before : Nat} {ls : List Lexeme} {a : Arguments}
    (found : splitArguments before ls = some a) : ls ≠ [] := by
  rintro rfl
  cases found

/-- Without a closing parenthesis the loop runs to the end. -/
theorem parseArguments_none {before : Nat} {ls : List Lexeme}
    (missing : splitArguments before ls = none) (offset argStart argEnd : Nat)
    (starStripped : Bool) (argTypes : List String) :
    parseArguments comment (place offset ls) before argStart argEnd starStripped argTypes = none := by
  induction ls generalizing before offset argStart argEnd starStripped argTypes with
  | nil => rfl
  | cons l ls ih =>
    rw [splitArguments] at missing
    rw [place, parseArguments]
    dsimp only at missing ⊢
    split at missing
    case isTrue comma =>
      rw [if_pos comma]
      rw [Option.map_eq_none_iff] at missing
      simp only [ih missing, Option.bind_eq_bind, Option.bind_fun_none]
    case isFalse notComma =>
      rw [if_neg notComma]
      split at missing
      · cases missing
      case isFalse notClosing =>
        rw [Option.map_eq_none_iff] at missing
        rw [if_neg notClosing]
        simp only [ih missing, Option.bind_eq_bind, Option.bind_fun_none, ite_self]

theorem segmentsFrom_comma (before : Nat) (span : Span) (a : Arguments) :
    segmentsFrom before span ⟨[], a.all, a.rest⟩
      = (segmentsFrom 1 .empty a).map fun segments => span.tokens :: segments := by
  simp only [segmentsFrom, Span.run, Arguments.all, List.mapM_cons, segment, Option.bind_eq_bind,
    Option.bind_some, Option.pure_def]
  cases Span.empty.run 1 a.first with
  | none => rfl
  | some read => cases a.others.mapM segment <;> rfl

theorem segmentsFrom_cons (before : Nat) (span : Span) (l : Lexeme) (a : Arguments) :
    segmentsFrom before span { a with first := l :: a.first }
      = (span.step (nestingAfter before l.kind) l).bind fun span =>
        segmentsFrom (nestingAfter before l.kind) span a := by
  simp only [segmentsFrom, Span.run, Option.bind_eq_bind, Option.bind_assoc]

theorem segmentsFrom_ne_nil {before : Nat} {span : Span} {a : Arguments}
    {segments : List (List Lexeme)} (found : segmentsFrom before span a = some segments) :
    segments ≠ [] := by
  simp only [segmentsFrom, Option.bind_eq_bind, Option.bind_eq_some_iff] at found
  obtain ⟨read, -, others, -, returned⟩ := found
  cases returned
  exact List.cons_ne_nil _ _

theorem listed_cons {segments : List (List Lexeme)} (more : segments ≠ [])
    (segment : List Lexeme) : listed (segment :: segments) = segment :: listed segments := by
  cases segments with
  | nil => exact absurd rfl more
  | cons next others => rfl

/-- A token inside of an argument moves the loop as it moves the span. -/
theorem parseArguments_step {before : Nat} {span : Span} {l : Lexeme} {ls : List Lexeme}
    {offset argStart argEnd : Nat}
    (reads : Reads comment trailing span (l :: ls) offset argStart argEnd)
    (notComma : ¬ (l.kind = .comma ∧ nestingAfter before l.kind = 1))
    (notClosing : ¬ (l.kind = .rpar ∧ nestingAfter before l.kind = 0))
    (visible : l.text ≠ []) (more : ls ≠ []) (argTypes : List String) :
    match span.step (nestingAfter before l.kind) l with
    | some next => ∃ start stop,
      Reads comment trailing next ls (offset + byteLen l.spelling) start stop ∧
        parseArguments comment (place offset (l :: ls)) before argStart argEnd span.starStripped
            argTypes
          = parseArguments comment (place (offset + byteLen l.spelling) ls)
            (nestingAfter before l.kind) start stop next.starStripped argTypes
    | none => parseArguments comment (place offset (l :: ls)) before argStart argEnd
        span.starStripped argTypes = none := by
  obtain ⟨next, others, rfl⟩ := List.exists_cons_of_ne_nil more
  rw [place, parseArguments, Span.step]
  dsimp only
  rw [if_neg notComma, if_neg notClosing]
  by_cases star : l.kind.isStar = true ∧ nestingAfter before l.kind = 1
  · rw [if_pos star, if_pos star]
    cases stripped : span.starStripped with
    | true => rfl
    | false =>
      simp only [Bool.false_eq_true, if_false, reads.start_iff]
      by_cases tokens : span.tokens = []
      · rw [if_pos tokens, if_pos tokens]
        exact ⟨_, _, reads.restart rfl true, rfl⟩
      · rw [if_neg tokens, if_neg tokens]
        have behind := reads.skip tokens visible
        rw [stripped] at behind
        exact ⟨_, _, behind, rfl⟩
  · rw [if_neg star, if_neg star]
    exact ⟨_, _, reads.extend visible, rfl⟩

/-- The loop returns the types of the arguments. -/
theorem parseArguments_eq {before : Nat} {ls : List Lexeme} {a : Arguments}
    (found : splitArguments before ls = some a) {span : Span} {offset argStart argEnd : Nat}
    (reads : Reads comment trailing span ls offset argStart argEnd)
    (visible : ∀ argument ∈ a.all, ∀ l ∈ argument, l.text ≠ []) (argTypes : List String) :
    parseArguments comment (place offset ls) before argStart argEnd span.starStripped argTypes
      = (segmentsFrom before span a).map fun segments =>
        (argTypes ++ (listed segments).map fun segment => .ofList (textOf segment),
          place (byteLen comment - byteLen (spell a.rest ++ trailing)) a.rest) := by
  induction ls generalizing before a span offset argStart argEnd argTypes with
  | nil => cases found
  | cons l ls ih =>
    obtain ⟨comma, b, inside, rfl⟩ | ⟨closing, rfl⟩ | ⟨notComma, notClosing, b, inside, rfl⟩ :=
      splitArguments_cases found
    · rw [comma.2] at inside
      obtain ⟨next, more, rfl⟩ := List.exists_cons_of_ne_nil (splitArguments_ne_nil inside)
      have anew := reads.restart rfl false
      have rest := ih inside anew
        (fun argument mem => visible argument (List.mem_cons_of_mem _ mem))
        (argTypes ++ [cut comment argStart argEnd])
      rw [place, parseArguments]
      dsimp only
      rw [if_pos comma, comma.2, peekStart_place, Option.bind_eq_bind, Option.bind_some, rest,
        segmentsFrom_comma, Option.map_map, reads.cut_eq]
      apply Option.map_congr
      intro segments mem
      rw [Function.comp_apply, listed_cons (segmentsFrom_ne_nil mem)]
      simp
    · have notComma : ¬ (l.kind = .comma ∧ nestingAfter before l.kind = 1) := by
        rw [closing.1]
        rintro ⟨comma, -⟩
        cases comma
      have notStar : ¬ (l.kind.isStar = true ∧ nestingAfter before l.kind = 1) := by
        rw [closing.1]
        rintro ⟨star, -⟩
        cases star
      have next : offset + byteLen l.spelling = byteLen comment - byteLen (spell ls ++ trailing) := by
        have whole := reads.offset_eq
        simp only [spell_cons, byteLen_append] at whole ⊢
        omega
      rw [place, parseArguments]
      dsimp only
      rw [if_neg notComma, if_neg notStar, if_pos closing, reads.cut_eq, next]
      by_cases tokens : span.tokens = []
      · simp [segmentsFrom, Span.run, listed, reads.empty_iff.mpr tokens, tokens]
      · simp [segmentsFrom, Span.run, listed, mt reads.empty_iff.mp tokens, tokens]
    · have here : l.text ≠ [] := visible _ List.mem_cons_self l List.mem_cons_self
      have others : ∀ argument ∈ b.all, ∀ l ∈ argument, l.text ≠ [] := by
        intro argument mem
        rcases List.mem_cons.mp mem with rfl | mem
        · exact fun other mem => visible _ List.mem_cons_self other (List.mem_cons_of_mem _ mem)
        · exact visible argument (List.mem_cons_of_mem _ mem)
      have step := parseArguments_step reads notComma notClosing here
        (splitArguments_ne_nil inside) argTypes
      rw [segmentsFrom_cons]
      cases moved : span.step (nestingAfter before l.kind) l with
      | none =>
        rw [moved] at step
        exact step
      | some next =>
        rw [moved] at step
        obtain ⟨start, stop, reads, step⟩ := step
        rw [step]
        exact ih inside reads others argTypes

theorem segmentsFrom_empty (a : Arguments) :
    segmentsFrom 1 .empty a = a.all.mapM segment := by
  simp only [segmentsFrom, Arguments.all, List.mapM_cons, segment, Option.bind_eq_bind,
    Option.pure_def]
  cases Span.empty.run 1 a.first <;> rfl

/-- The tokens of the types in a comment, and those from the type of the result on. -/
def splitComment : List Lexeme → Option (List (List Lexeme) × List Lexeme)
  | ⟨_, .lpar, _⟩ :: ls => do
    let a ← splitArguments 1 ls
    let segments ← a.all.mapM segment
    match a.rest with
    | ⟨_, .rarrow, _⟩ :: first :: ret => some (listed segments, first :: ret)
    | _ => none
  | _ => none

/-- The arguments of a comment. -/
def commentArguments : List Lexeme → Option Arguments
  | ⟨_, .lpar, _⟩ :: ls => splitArguments 1 ls
  | _ => none

/-- The loop at the token behind the opening parenthesis. -/
theorem reads_initial (l next : Lexeme) (more : List Lexeme) (trailing : List Char) :
    Reads (spell (l :: next :: more) ++ trailing) trailing .empty (next :: more)
      (byteLen l.spelling) (byteLen l.spelling + byteLen next.space)
      (byteLen l.spelling + byteLen next.space) := by
  refine ⟨⟨l.spelling, ?_, ?_, ?_⟩, rfl, fun _ => rfl, ?_⟩
  · simp [Span.empty]
  · simp [Span.empty]
  · simp [Span.empty, leading]
  · intro _ mem
    cases mem

/-- The text behind the place of the next token. -/
theorem dropBytes_place (pre : List Char) (l : Lexeme) (ls : List Lexeme) (trailing : List Char) :
    dropBytes (byteLen pre + byteLen l.space) (pre ++ spell (l :: ls) ++ trailing)
      = textOf (l :: ls) ++ trailing := by
  have split : pre ++ spell (l :: ls) ++ trailing
      = (pre ++ l.space) ++ (textOf (l :: ls) ++ trailing) := by
    simp [textOf, Lexeme.spelling]
  rw [split, ← byteLen_append, dropBytes_byteLen]

/-- The type of the result behind the types of the arguments. -/
theorem returnType_eq (pre : List Char) (rest : List Lexeme) (trailing : List Char)
    (segments : List (List Lexeme)) :
    (match place (byteLen pre) rest with
      | ⟨.rarrow, _⟩ :: tokens => (peekStart tokens).bind fun start =>
          some (segments.map fun segment => String.ofList (textOf segment),
            String.ofList (dropBytes start (pre ++ spell rest ++ trailing)))
      | _ => none)
      = Option.map (fun split => (split.1.map fun segment => String.ofList (textOf segment),
          String.ofList (textOf split.2 ++ trailing)))
        (match rest with
        | ⟨_, .rarrow, _⟩ :: first :: ret => some (segments, first :: ret)
        | _ => none) := by
  cases rest with
  | nil => rfl
  | cons arrow ret =>
    obtain ⟨space, kind, text⟩ := arrow
    cases kind with
    | rarrow =>
      cases ret with
      | nil => rfl
      | cons first ret =>
        have behind := dropBytes_place (pre ++ Lexeme.spelling ⟨space, .rarrow, text⟩) first ret
          trailing
        rw [byteLen_append] at behind
        rw [place]
        dsimp only
        rw [peekStart_place, Option.bind_some, spell_cons ⟨space, .rarrow, text⟩,
          ← List.append_assoc, behind]
        rfl
    | _ => rfl

/-- The splitter returns the texts of what the tokens split into. -/
theorem parseFuncTypeComment_eq (lex : String → List Token) {ls : List Lexeme}
    (lexed : lex (.ofList (spell ls ++ trailing)) = place 0 ls)
    (visible : ∀ a, commentArguments ls = some a →
      ∀ argument ∈ a.all, ∀ l ∈ argument, l.text ≠ []) :
    parseFuncTypeComment lex (.ofList (spell ls ++ trailing))
      = (splitComment ls).map fun split =>
        (split.1.map fun segment => .ofList (textOf segment),
          .ofList (textOf split.2 ++ trailing)) := by
  unfold parseFuncTypeComment
  rw [lexed, String.toList_ofList]
  cases ls with
  | nil => rfl
  | cons l ls =>
    rw [place, Nat.zero_add, Nat.zero_add]
    cases l with
    | mk space kind text =>
    cases kind with
    | lpar =>
      dsimp only
      rw [splitComment]
      cases found : splitArguments 1 ls with
      | none =>
        simp only [Option.bind_eq_bind, parseArguments_none found, Option.bind_none,
          Option.bind_fun_none, Option.map_none]
      | some a =>
        obtain ⟨next, more, rfl⟩ := List.exists_cons_of_ne_nil (splitArguments_ne_nil found)
        have initial := reads_initial ⟨space, .lpar, text⟩ next more trailing
        have loop := parseArguments_eq found initial (visible a found) []
        rw [segmentsFrom_empty] at loop
        rw [peekStart_place, Option.bind_eq_bind, Option.bind_some]
        rw [show Span.empty.starStripped = false from rfl] at loop
        rw [loop, Option.bind_eq_bind, Option.bind_eq_bind, Option.bind_some]
        cases a.all.mapM segment with
        | none => rfl
        | some segments =>
          obtain ⟨used, split⟩ := splitArguments_suffix found
          have whole : spell (⟨space, .lpar, text⟩ :: next :: more) ++ trailing
              = spell (⟨space, .lpar, text⟩ :: used) ++ spell a.rest ++ trailing := by
            rw [← split]
            simp
          have here : byteLen (spell (⟨space, .lpar, text⟩ :: next :: more) ++ trailing)
              - byteLen (spell a.rest ++ trailing) = byteLen (spell (⟨space, .lpar, text⟩ :: used)) := by
            rw [whole, List.append_assoc, byteLen_append, Nat.add_sub_cancel]
          rw [here, whole, Option.map_some, Option.bind_some]
          exact returnType_eq _ _ _ _
    | _ => rfl

end Refinement

end AstSerialize.SignatureComment
