import AstSerialize.TypeComment.Scan

/-! What becomes of every directive of a file: of each kind the first one of a
comment is recorded, and all others are reported. -/
namespace AstSerialize
open SignatureComment (CommentParser recordTypeComment)

/-- The kinds of which a comment has one directive. -/
inductive DirectiveKind where
  | typeIgnore
  | mypyIgnore
  | typeText
  deriving DecidableEq, Repr

namespace TypeComment

def kind : TypeComment → Option DirectiveKind
  | .typeIgnore _ => some .typeIgnore
  | .mypyIgnore _ => some .mypyIgnore
  | .typeAnnotationText _ => some .typeText
  | .invalidIgnore _ => none

def typeIgnoreCodes : TypeComment → Option (List String)
  | .typeIgnore codes => some codes
  | _ => none

def mypyIgnoreCodes : TypeComment → Option (List String)
  | .mypyIgnore codes => some codes
  | _ => none

def annotationText : TypeComment → Option String
  | .typeAnnotationText text => some text
  | _ => none

/-- What is reported of a directive that is not recorded. -/
def complaint : TypeComment → String
  | .typeIgnore _ => "Multiple type ignores on the same line"
  | .mypyIgnore _ => "Multiple mypy ignores on the same line"
  | .typeAnnotationText _ => "Multiple type comments on the same line"
  | .invalidIgnore isMypy =>
    "Invalid \"" ++ (if isMypy then "mypy" else "type") ++ ": ignore\" comment"

/-- There is one of its kind before it, or it is of none. -/
def isRejected (before : List TypeComment) (directive : TypeComment) : Bool :=
  directive.kind = none || before.any fun other => other.kind = directive.kind

end TypeComment

open TypeComment

/-- The directives that are not recorded, behind those that come before. -/
def rejected : List TypeComment → List TypeComment → List TypeComment
  | _, [] => []
  | before, directive :: directives =>
    (if directive.isRejected before then [directive] else [])
      ++ rejected (before ++ [directive]) directives

theorem rejected_concat (before directives : List TypeComment) (directive : TypeComment) :
    rejected before (directives ++ [directive]) = rejected before directives
      ++ if directive.isRejected (before ++ directives) then [directive] else [] := by
  induction directives generalizing before with
  | nil => simp [rejected]
  | cons first directives ih =>
    simp only [List.cons_append, rejected, ih, List.append_assoc, List.nil_append]

section Kinds

/-- Of the directives of a comment as many are recorded, as there are kinds among them. -/
def recordedCount (directives : List TypeComment) : Nat :=
  (directives.findSome? typeIgnoreCodes).toList.length
    + (directives.findSome? mypyIgnoreCodes).toList.length
    + (directives.findSome? annotationText).toList.length

/-- The first directive of a kind is there if some directive is of the kind. -/
theorem findSome_isSome {α : Type} (part : TypeComment → Option α) (kind : DirectiveKind)
    (only : ∀ directive, (part directive).isSome = decide (directive.kind = some kind))
    (directives : List TypeComment) :
    (directives.findSome? part).isSome = directives.any fun other => other.kind = some kind := by
  induction directives with
  | nil => rfl
  | cons directive directives ih =>
    rw [List.findSome?_cons, List.any_cons, ← only]
    cases found : part directive with
    | none => exact ih
    | some a => rfl

theorem isRejected_typeIgnore (before : List TypeComment) (codes : List String) :
    (typeIgnore codes).isRejected before = (before.findSome? typeIgnoreCodes).isSome :=
  (findSome_isSome _ .typeIgnore (fun directive => by cases directive <;> rfl) before).symm

theorem isRejected_mypyIgnore (before : List TypeComment) (codes : List String) :
    (mypyIgnore codes).isRejected before = (before.findSome? mypyIgnoreCodes).isSome :=
  (findSome_isSome _ .mypyIgnore (fun directive => by cases directive <;> rfl) before).symm

theorem isRejected_typeText (before : List TypeComment) (text : String) :
    (typeAnnotationText text).isRejected before = (before.findSome? annotationText).isSome :=
  (findSome_isSome _ .typeText (fun directive => by cases directive <;> rfl) before).symm

/-- Each directive is recorded or rejected. -/
theorem recorded_add_rejected (directives : List TypeComment) :
    recordedCount directives + (rejected [] directives).length = directives.length := by
  induction directives using List.reverseRecOn with
  | nil => rfl
  | append_singleton directives directive ih =>
    rw [rejected_concat, List.nil_append, List.length_append, List.length_append,
      List.length_singleton, ← ih]
    cases directive with
    | invalidIgnore isMypy =>
      simp [recordedCount, List.findSome?_append, typeIgnoreCodes, mypyIgnoreCodes, annotationText,
        isRejected, kind]
      omega
    | typeIgnore codes =>
      rw [isRejected_typeIgnore]
      cases first : directives.findSome? typeIgnoreCodes <;>
        simp [recordedCount, List.findSome?_append, typeIgnoreCodes, mypyIgnoreCodes,
          annotationText, first] <;> omega
    | mypyIgnore codes =>
      rw [isRejected_mypyIgnore]
      cases first : directives.findSome? mypyIgnoreCodes <;>
        simp [recordedCount, List.findSome?_append, typeIgnoreCodes, mypyIgnoreCodes,
          annotationText, first] <;> omega
    | typeAnnotationText text =>
      rw [isRejected_typeText]
      cases first : directives.findSome? annotationText <;>
        simp [recordedCount, List.findSome?_append, typeIgnoreCodes, mypyIgnoreCodes,
          annotationText, first] <;> omega

theorem or_of_isSome {α : Type} {a b : Option α} (there : a.isSome = true) : a.or b = a := by
  cases a with
  | none => cases there
  | some a => rfl

end Kinds

section Comment

variable (parser : CommentParser) (location : LineColumn)

def reportOf (directive : TypeComment) : SyntaxError :=
  ⟨location.line, location.column, directive.complaint, false⟩

/-- What the loop over the directives of a comment has done behind the first ones. -/
structure Accounted (start : CommentScan) (directives : List TypeComment) (state : LineScan) :
    Prop where
  typeIgnores : state.scan.typeIgnoreLines = start.typeIgnoreLines
    ++ ((directives.findSome? typeIgnoreCodes).map (location.line, ·)).toList
  mypyIgnores : state.scan.mypyIgnoreLines = start.mypyIgnoreLines
    ++ ((directives.findSome? mypyIgnoreCodes).map (location.line, ·)).toList
  annotated : state.scan.typeComments location.line
    = (directives.findSome? annotationText).map (recordTypeComment parser)
  otherLines : ∀ line, line ≠ location.line →
    state.scan.typeComments line = start.typeComments line
  errors : state.scan.syntaxErrors
    = start.syntaxErrors ++ (rejected [] directives).map (reportOf location)
  seenTypeIgnore : state.seenTypeIgnore = (directives.findSome? typeIgnoreCodes).isSome
  seenMypyIgnore : state.seenMypyIgnore = (directives.findSome? mypyIgnoreCodes).isSome

variable {parser location}

theorem accounted_start {start : CommentScan} (fresh : start.typeComments location.line = none) :
    Accounted parser location start [] ⟨start, false, false⟩ where
  typeIgnores := by simp
  mypyIgnores := by simp
  annotated := fresh
  otherLines _ _ := rfl
  errors := by simp [rejected]
  seenTypeIgnore := rfl
  seenMypyIgnore := rfl

/-- A directive that is rejected is reported, and nothing else changes. -/
theorem accounted_report {start : CommentScan} {directives : List TypeComment} {state : LineScan}
    (before : Accounted parser location start directives state) {directive : TypeComment}
    (rejects : directive.isRejected directives = true)
    (typeIgnore : (directives.findSome? typeIgnoreCodes).or directive.typeIgnoreCodes
      = directives.findSome? typeIgnoreCodes)
    (mypyIgnore : (directives.findSome? mypyIgnoreCodes).or directive.mypyIgnoreCodes
      = directives.findSome? mypyIgnoreCodes)
    (annotated : (directives.findSome? annotationText).or directive.annotationText
      = directives.findSome? annotationText) :
    Accounted parser location start (directives ++ [directive])
      { state with scan := state.scan.pushError location directive.complaint } := by
  have types : (directives ++ [directive]).findSome? typeIgnoreCodes
      = directives.findSome? typeIgnoreCodes := by
    simpa [List.findSome?_append] using typeIgnore
  have mypys : (directives ++ [directive]).findSome? mypyIgnoreCodes
      = directives.findSome? mypyIgnoreCodes := by
    simpa [List.findSome?_append] using mypyIgnore
  have annotations : (directives ++ [directive]).findSome? annotationText
      = directives.findSome? annotationText := by
    simpa [List.findSome?_append] using annotated
  constructor
  · rw [types]
    exact before.typeIgnores
  · rw [mypys]
    exact before.mypyIgnores
  · rw [annotations]
    exact before.annotated
  · exact before.otherLines
  · rw [rejected_concat, List.nil_append, if_pos rejects, List.map_append, ← List.append_assoc,
      ← before.errors]
    rfl
  · rw [types]
    exact before.seenTypeIgnore
  · rw [mypys]
    exact before.seenMypyIgnore

/-- A directive that is not rejected leaves no error. -/
theorem rejected_concat_of_first {directives : List TypeComment} {directive : TypeComment}
    (first : directive.isRejected directives = false) :
    rejected [] (directives ++ [directive]) = rejected [] directives := by
  rw [rejected_concat, List.nil_append, first, if_neg Bool.false_ne_true, List.append_nil]

/-- One round of the loop. -/
theorem accounted_directive {start : CommentScan} {directives : List TypeComment}
    {state : LineScan} (before : Accounted parser location start directives state)
    (directive : TypeComment) :
    Accounted parser location start (directives ++ [directive])
      (recordDirective parser location state directive) := by
  rcases state with ⟨scan, seenType, seenMypy⟩
  cases directive with
  | invalidIgnore isMypy =>
    exact accounted_report before rfl Option.or_none Option.or_none Option.or_none
  | typeIgnore codes =>
    have rejects := isRejected_typeIgnore directives codes
    rw [← before.seenTypeIgnore] at rejects
    cases seenType with
    | true =>
      exact accounted_report before rejects (or_of_isSome before.seenTypeIgnore.symm) Option.or_none
        Option.or_none
    | false =>
      have none : directives.findSome? typeIgnoreCodes = none := by
        simpa using before.seenTypeIgnore.symm
      constructor
      · simpa [recordDirective, List.findSome?_append, none, typeIgnoreCodes]
          using before.typeIgnores
      · simpa [recordDirective, List.findSome?_append, mypyIgnoreCodes] using before.mypyIgnores
      · simpa [recordDirective, List.findSome?_append, annotationText] using before.annotated
      · exact before.otherLines
      · rw [rejected_concat_of_first rejects]
        exact before.errors
      · simp [recordDirective, List.findSome?_append, none, typeIgnoreCodes]
      · simpa [recordDirective, List.findSome?_append, mypyIgnoreCodes] using before.seenMypyIgnore
  | mypyIgnore codes =>
    have rejects := isRejected_mypyIgnore directives codes
    rw [← before.seenMypyIgnore] at rejects
    cases seenMypy with
    | true =>
      exact accounted_report before rejects Option.or_none (or_of_isSome before.seenMypyIgnore.symm)
        Option.or_none
    | false =>
      have none : directives.findSome? mypyIgnoreCodes = none := by
        simpa using before.seenMypyIgnore.symm
      constructor
      · simpa [recordDirective, List.findSome?_append, typeIgnoreCodes] using before.typeIgnores
      · simpa [recordDirective, List.findSome?_append, none, mypyIgnoreCodes]
          using before.mypyIgnores
      · simpa [recordDirective, List.findSome?_append, annotationText] using before.annotated
      · exact before.otherLines
      · rw [rejected_concat_of_first rejects]
        exact before.errors
      · simpa [recordDirective, List.findSome?_append, typeIgnoreCodes] using before.seenTypeIgnore
      · simp [recordDirective, List.findSome?_append, none, mypyIgnoreCodes]
  | typeAnnotationText text =>
    have rejects := isRejected_typeText directives text
    have seen : (scan.typeComments location.line).isSome
        = (directives.findSome? annotationText).isSome := by
      rw [before.annotated, Option.isSome_map]
    cases there : (directives.findSome? annotationText).isSome with
    | true =>
      rw [recordDirective, if_pos (seen.trans there)]
      exact accounted_report before (rejects.trans there) Option.or_none Option.or_none
        (or_of_isSome there)
    | false =>
      have none : directives.findSome? annotationText = none := by
        simpa using there
      rw [recordDirective, if_neg (by rw [seen, there]; exact Bool.false_ne_true)]
      unfold CommentScan.insertComment
      constructor
      · simpa [List.findSome?_append, typeIgnoreCodes] using before.typeIgnores
      · simpa [List.findSome?_append, mypyIgnoreCodes] using before.mypyIgnores
      · simp [List.findSome?_append, none, annotationText]
      · intro line other
        simpa [other] using before.otherLines line other
      · rw [rejected_concat_of_first (rejects.trans there)]
        exact before.errors
      · simpa [List.findSome?_append, typeIgnoreCodes] using before.seenTypeIgnore
      · simpa [List.findSome?_append, mypyIgnoreCodes] using before.seenMypyIgnore

/-- The whole loop. -/
theorem accounted_directives {start : CommentScan}
    (fresh : start.typeComments location.line = none) (directives : List TypeComment) :
    Accounted parser location start directives
      (directives.foldl (recordDirective parser location) ⟨start, false, false⟩) := by
  have general (rest before : List TypeComment) (state : LineScan)
      (behind : Accounted parser location start before state) :
      Accounted parser location start (before ++ rest)
        (rest.foldl (recordDirective parser location) state) := by
    induction rest generalizing before state with
    | nil =>
      rw [List.append_nil]
      exact behind
    | cons directive rest ih =>
      rw [List.foldl_cons, List.append_cons]
      exact ih _ _ (accounted_directive behind directive)
  exact general directives [] _ (accounted_start fresh)

end Comment

section File

variable (alphanumeric : Alphanumeric) (parser : CommentParser) (src : SourceText)
  (options : Options)

def tokenLine (token : Token) : Nat := (src.lineColumn token.range.start).line

/-- The comments among the tokens of a file. -/
def commentsOf (tokens : List Token) : List Token := tokens.filter (·.kind = .comment)

/-- Each comment is on a later line than those before it, as it ends with its line. -/
def CommentsInOrder (tokens : List Token) : Prop :=
  (commentsOf tokens).Pairwise fun token later => tokenLine src token < tokenLine src later

instance (tokens : List Token) : Decidable (CommentsInOrder src tokens) :=
  inferInstanceAs (Decidable (List.Pairwise _ _))

def directivesOf (token : Token) : List TypeComment :=
  (parseTypeCommentsFull alphanumeric (commentText src token)
    (skipCommented src options token)).getD []

/-- The line of a comment with the codes of its ignore. -/
def ignoreOf (codes : TypeComment → Option (List String)) (token : Token) : Option IgnoreLine :=
  ((directivesOf alphanumeric src options token).findSome? codes).map (tokenLine src token, ·)

def annotationOf (token : Token) : Option ParsedTypeComment :=
  ((directivesOf alphanumeric src options token).findSome? annotationText).map
    (recordTypeComment parser)

def errorsOf (token : Token) : List SyntaxError :=
  (rejected [] (directivesOf alphanumeric src options token)).map
    (reportOf (src.lineColumn token.range.start))

/-- All that the pass collects, comment by comment. -/
structure CommentsScanned (comments : List Token) (scan : CommentScan) : Prop where
  typeIgnores : scan.typeIgnoreLines
    = comments.filterMap (ignoreOf alphanumeric src options typeIgnoreCodes)
  mypyIgnores : scan.mypyIgnoreLines
    = comments.filterMap (ignoreOf alphanumeric src options mypyIgnoreCodes)
  annotations : ∀ line, scan.typeComments line = comments.findSome? fun token =>
    if tokenLine src token = line then annotationOf alphanumeric parser src options token else none
  mypyComments : scan.mypyComments = comments.filterMap (inlineConfigOf src)
  errors : scan.syntaxErrors = comments.flatMap (errorsOf alphanumeric src options)

/-- The ignores of a file are in the order of their lines. -/
def IgnoresInOrder (ignores : List IgnoreLine) : Prop :=
  ignores.Pairwise fun ignore later => ignore.1 < later.1

variable {alphanumeric parser src options}

/-- The scan when it comes to the directives of a comment. -/
def withConfig (src : SourceText) (token : Token) (scan : CommentScan) : CommentScan :=
  { scan with mypyComments := scan.mypyComments ++ (inlineConfigOf src token).toList }

theorem scanComment_eq (scan : CommentScan) (token : Token) :
    scanComment alphanumeric parser src options scan token
      = ((directivesOf alphanumeric src options token).foldl
        (recordDirective parser (src.lineColumn token.range.start))
        ⟨withConfig src token scan, false, false⟩).scan := by
  cases config : inlineConfigText (src.lineColumn token.range.start).column (commentText src token)
  all_goals
    cases directives : parseTypeCommentsFull alphanumeric (commentText src token)
      (skipCommented src options token) <;>
      simp [scanComment, withConfig, inlineConfigOf, directivesOf, config, directives]

theorem filterMap_concat {α β : Type} (f : α → Option β) (as : List α) (a : α) :
    (as ++ [a]).filterMap f = as.filterMap f ++ (f a).toList := by
  rw [List.filterMap_append]
  cases here : f a <;> simp [here]

/-- One comment, on a line of its own. -/
theorem scanned_comment {comments : List Token} {scan : CommentScan}
    (before : CommentsScanned alphanumeric parser src options comments scan) {token : Token}
    (apart : ∀ other ∈ comments, tokenLine src other < tokenLine src token) :
    CommentsScanned alphanumeric parser src options (comments ++ [token])
      (scanComment alphanumeric parser src options scan token) := by
  have fresh : scan.typeComments (tokenLine src token) = none := by
    rw [before.annotations, List.findSome?_eq_none_iff]
    intro other mem
    rw [if_neg (Nat.ne_of_lt (apart other mem))]
  have unseen : (withConfig src token scan).typeComments (tokenLine src token) = none := fresh
  have account := @accounted_directives parser _ _ unseen (directivesOf alphanumeric src options token)
  rw [scanComment_eq]
  constructor
  · rw [filterMap_concat, ← before.typeIgnores]
    exact account.typeIgnores
  · rw [filterMap_concat, ← before.mypyIgnores]
    exact account.mypyIgnores
  · intro line
    rw [List.findSome?_append, ← before.annotations, List.findSome?_singleton]
    by_cases here : tokenLine src token = line
    · subst line
      rw [if_pos rfl, fresh, Option.none_or]
      exact account.annotated
    · rw [if_neg here, Option.or_none]
      exact account.otherLines line (Ne.symm here)
  · rw [foldl_mypyComments, withConfig, before.mypyComments, filterMap_concat]
  · rw [List.flatMap_append, List.flatMap_singleton, ← before.errors]
    exact account.errors

/-- The whole pass: every directive of a comment is recorded for its line, the first of each kind,
or reported at the comment, and the ignores come in the order of the lines. -/
theorem extract_scanned {tokens : List Token} (order : CommentsInOrder src tokens) :
    CommentsScanned alphanumeric parser src options (commentsOf tokens)
      (extractTypeCommentsAndIgnores alphanumeric parser src options tokens) := by
  have general (rest before : List Token) (scan : CommentScan)
      (order : (before ++ commentsOf rest).Pairwise fun token later =>
        tokenLine src token < tokenLine src later)
      (behind : CommentsScanned alphanumeric parser src options before scan) :
      CommentsScanned alphanumeric parser src options (before ++ commentsOf rest)
        (rest.foldl (fun scan token => if token.kind = .comment then
          scanComment alphanumeric parser src options scan token else scan) scan) := by
    induction rest generalizing before scan with
    | nil =>
      rw [commentsOf, List.filter_nil, List.append_nil]
      exact behind
    | cons token rest ih =>
      rw [List.foldl_cons]
      by_cases comment : token.kind = .comment
      · have split : before ++ commentsOf (token :: rest)
            = before ++ [token] ++ commentsOf rest := by
          simp [commentsOf, comment]
        rw [split] at order ⊢
        rw [if_pos comment]
        apply ih _ _ order
        apply scanned_comment behind
        intro other mem
        have earlier := (List.pairwise_append.mp order).1
        exact (List.pairwise_append.mp earlier).2.2 other mem token (List.mem_singleton.mpr rfl)
      · have skip : commentsOf (token :: rest) = commentsOf rest := by
          simp [commentsOf, comment]
        rw [skip] at order ⊢
        rw [if_neg comment]
        exact ih _ _ order behind
  apply general tokens [] .empty order
  constructor
  · rfl
  · rfl
  · intro line
    rfl
  · rfl
  · rfl

theorem ignores_inOrder {comments : List Token}
    (order : comments.Pairwise fun token later => tokenLine src token < tokenLine src later)
    (codes : TypeComment → Option (List String)) :
    IgnoresInOrder (comments.filterMap (ignoreOf alphanumeric src options codes)) := by
  apply List.Pairwise.filterMap _ _ order
  intro token later before ignore here ignore' there
  simp only [ignoreOf, Option.map_eq_some_iff] at here there
  obtain ⟨_, -, rfl⟩ := here
  obtain ⟨_, -, rfl⟩ := there
  exact before

/-- What a maintainer relies on from the pass over the comments of a file. -/
structure ScanExact (alphanumeric : Alphanumeric) (parser : CommentParser) (src : SourceText)
    (options : Options) (tokens : List Token) (scan : CommentScan) : Prop where
  scanned : CommentsScanned alphanumeric parser src options (commentsOf tokens) scan
  typeIgnores : IgnoresInOrder scan.typeIgnoreLines
  mypyIgnores : IgnoresInOrder scan.mypyIgnoreLines
  accounted : ∀ token ∈ commentsOf tokens,
    recordedCount (directivesOf alphanumeric src options token)
        + (errorsOf alphanumeric src options token).length
      = (directivesOf alphanumeric src options token).length

/-- Every directive of a file is recorded or reported: of each kind the first one of a comment for
its line, all others as errors at the comment. The ignores come in the order of their lines. -/
theorem extract_exact (alphanumeric : Alphanumeric) (parser : CommentParser) (src : SourceText)
    (options : Options) (tokens : List Token) (order : CommentsInOrder src tokens) :
    ScanExact alphanumeric parser src options tokens
      (extractTypeCommentsAndIgnores alphanumeric parser src options tokens) := by
  have scanned : CommentsScanned alphanumeric parser src options (commentsOf tokens)
      (extractTypeCommentsAndIgnores alphanumeric parser src options tokens) :=
    extract_scanned order
  constructor
  · exact scanned
  · rw [scanned.typeIgnores]
    exact ignores_inOrder order _
  · rw [scanned.mypyIgnores]
    exact ignores_inOrder order _
  · intro token _
    rw [errorsOf, List.length_map]
    exact recorded_add_rejected _

def ignoredTwice : SourceText := .ofText "x # type: ignore # type: ignore\n# mypy: ignore\n".toList

def ignoredTokens : List Token := [⟨.other, ⟨0, 1⟩⟩, ⟨.comment, ⟨2, 31⟩⟩, ⟨.comment, ⟨32, 46⟩⟩]

theorem extract_exact_twice :
    CommentsInOrder ignoredTwice ignoredTokens ∧
    ScanExact .basic SignatureComment.commaParser ignoredTwice .default ignoredTokens
      (extractTypeCommentsAndIgnores .basic SignatureComment.commaParser ignoredTwice .default
        ignoredTokens) := by
  have order : CommentsInOrder ignoredTwice ignoredTokens := by decide
  refine ⟨order, ?_⟩
  exact extract_exact .basic SignatureComment.commaParser ignoredTwice .default ignoredTokens order

end File

end AstSerialize
