import AstSerialize.Serializer.Flags
import AstSerialize.Serializer.OtherOptions

/-! What is reported for one file with other options of the same cache version.
Unreachable code is reported for like any other, and of the options only the
Python version matters, to exception types that lack parentheses. -/
namespace AstSerialize
open Coding

/-- An error that other options do not take away. -/
def SyntaxError.lasts (error : SyntaxError) : Bool :=
  error.message ≠ "multiple exception types must be parenthesized"

/-- Before Python 3.14 several exception types need parentheses. -/
def Options.wantsParentheses (o : Options) : Bool :=
  o.pythonVersion.1 < 3 || (o.pythonVersion.1 = 3 && o.pythonVersion.2 < 14)

def Notes.lasting (n : Notes) : Notes := ⟨n.templates, n.errors.filter SyntaxError.lasts⟩

theorem Notes.lasting_add (n m : Notes) : (n + m).lasting = n.lasting + m.lasting := by
  ext
  · rfl
  · simp [lasting]

/-- A way to compare the notes of one serializer with those of another: part by part, and already
known for exception types. -/
structure Notes.Compares (c : Config) (o : Options) (R : Notes → Notes → Prop) : Prop where
  refl : ∀ n, R n n
  add : ∀ {n n' m m' : Notes}, R n n' → R m m' → R (n + m) (n' + m')
  handler : ∀ type name, R (handlerNotes c type name) (handlerNotes (c.under o) type name)

/-- What is reported with the one options is reported with the others too, where the others do not
accept exception types without parentheses that the one reports. -/
structure Notes.Extended (o o' : Options) (n n' : Notes) : Prop where
  templates : n.templates = true → n'.templates = true
  lasting : n.errors.filter SyntaxError.lasts <+: n'.errors.filter SyntaxError.lasts
  alike : o.wantsParentheses = o'.wantsParentheses → n.errors <+: n'.errors
  stricter : (o.wantsParentheses = true → o'.wantsParentheses = true) →
    n.errors.Sublist n'.errors

section Expressions

variable (c : Config) (o : Options)

theorem exprNotes_under (e : Expr) : exprNotes (c.under o) e = exprNotes c e := by
  delta exprNotes
  rfl

theorem exprsNotes_under (es : List Expr) : exprsNotes (c.under o) es = exprsNotes c es := by
  delta exprsNotes
  rfl

theorem optExprNotes_under (e : Option Expr) :
    optExprNotes (c.under o) e = optExprNotes c e := by
  delta optExprNotes
  rfl

theorem keywordsNotes_under (keywords : List Keyword) :
    keywordsNotes (c.under o) keywords = keywordsNotes c keywords := by
  delta keywordsNotes
  rfl

theorem parametersNotes_under (argComments : List (Option Expr)) (parameters : Parameters) :
    parametersNotes (c.under o) argComments parameters
      = parametersNotes c argComments parameters := by
  delta parametersNotes
  rfl

mutual

theorem patternNotes_under : ∀ pattern : Pattern,
    patternNotes (c.under o) pattern = patternNotes c pattern
  | .matchAs pattern _ _ => optPatternNotes_under pattern
  | .matchOr patterns _ | .matchSequence patterns _ => patternsNotes_under patterns
  | .matchValue value _ => exprNotes_under c o value
  | .matchSingleton _ _ | .matchStar _ _ => rfl
  | .matchMapping items _ _ => itemsNotes_under items
  | .matchClass cls patterns keywords _ => by
    simp only [patternNotes, exprNotes_under, patternsNotes_under patterns,
      keywordPatternsNotes_under keywords]

theorem optPatternNotes_under : ∀ pattern : Option Pattern,
    optPatternNotes (c.under o) pattern = optPatternNotes c pattern
  | none => rfl
  | some pattern => patternNotes_under pattern

theorem patternsNotes_under : ∀ patterns : List Pattern,
    patternsNotes (c.under o) patterns = patternsNotes c patterns
  | [] => rfl
  | pattern :: patterns => by
    simp only [patternsNotes, patternNotes_under pattern, patternsNotes_under patterns]

theorem itemsNotes_under : ∀ items : List (Expr × Pattern),
    itemsNotes (c.under o) items = itemsNotes c items
  | [] => rfl
  | (key, pattern) :: items => by
    simp only [itemsNotes, exprNotes_under, patternNotes_under pattern, itemsNotes_under items]

theorem keywordPatternsNotes_under : ∀ keywords : List (Identifier × Pattern),
    keywordPatternsNotes (c.under o) keywords = keywordPatternsNotes c keywords
  | [] => rfl
  | (_, pattern) :: keywords => by
    simp only [keywordPatternsNotes, patternNotes_under pattern,
      keywordPatternsNotes_under keywords]

end

theorem withItemsNotes_under (items : List WithItem) :
    withItemsNotes (c.under o) items = withItemsNotes c items := by
  induction items with
  | nil => rfl
  | cons item items ih =>
    simp only [withItemsNotes, exprNotes_under, optExprNotes_under, ih]

theorem functionNotes_under (skip inClass : Bool) (head : FunctionHead) (body : List Stmt)
    (inside : Notes) :
    functionNotes (c.under o) skip inClass head body inside
      = functionNotes c skip inClass head body inside := by
  have comments (range : TextRange) (errors : List String) :
      commentNotes (c.under o) range errors = commentNotes c range errors := by
    induction errors with
    | nil => rfl
    | cons error errors ih => exact congrArg (errorNote c error range false + ·) ih
  simp only [functionNotes, findFuncTypeComment_alike (c.under_alike o), comments,
    exprsNotes_under, parametersNotes_under]
  rfl

theorem handlerNotes_lasting (type : Option Expr) (name : Option Identifier) :
    (handlerNotes c type name).lasting = 0 := by
  unfold handlerNotes
  split <;> rfl

theorem handlerNotes_accepted (accepts : c.options.wantsParentheses = false)
    (type : Option Expr) (name : Option Identifier) : handlerNotes c type name = 0 := by
  have none : needsParentheses c.options type name = none := by
    unfold Options.wantsParentheses at accepts
    unfold needsParentheses
    rw [accepts]
    split <;> rfl
  rw [handlerNotes, none]

theorem handlerNotes_under (same : c.options.wantsParentheses = o.wantsParentheses)
    (type : Option Expr) (name : Option Identifier) :
    handlerNotes (c.under o) type name = handlerNotes c type name := by
  have needs : needsParentheses (c.under o).options type name
      = needsParentheses c.options type name := by
    unfold Options.wantsParentheses at same
    unfold needsParentheses
    rw [same]
    rfl
  rw [handlerNotes, needs]
  rfl

end Expressions

section Stmts

variable {c : Config} {o : Options} {R : Notes → Notes → Prop} (parts : Notes.Compares c o R)
  (skip : Bool)

include parts

theorem functionNotes_compare (inClass : Bool) (head : FunctionHead) (body : List Stmt)
    {inside inside' : Notes} (h : R inside inside') :
    R (functionNotes c skip inClass head body inside)
      (functionNotes (c.under o) skip inClass head body inside') := by
  rw [functionNotes_under]
  unfold functionNotes
  apply parts.add (parts.refl _)
  apply parts.add (parts.refl _)
  apply parts.add (parts.refl _)
  refine parts.add ?_ (parts.refl _)
  split
  · exact parts.refl 0
  · exact h

theorem handlerTypesNotes_compare (handlers : List ExceptHandler) :
    R (handlerTypesNotes c handlers) (handlerTypesNotes (c.under o) handlers) := by
  induction handlers with
  | nil => exact parts.refl 0
  | cons first handlers ih =>
    obtain ⟨type, name, body, range⟩ := first
    simp only [handlerTypesNotes, optExprNotes_under]
    exact parts.add (parts.refl _) (parts.add (parts.handler type name) ih)

mutual

theorem stmtNotes_compare : ∀ (stmt : Stmt) (inClass : Bool),
    R (stmtNotes c skip inClass stmt) (stmtNotes (c.under o) skip inClass stmt)
  | .functionDef head body, inClass =>
    functionNotes_compare parts skip inClass head body (stmtsNotes_compare body inClass)
  | .classDef head body, _ => by
    simp only [stmtNotes, exprsNotes_under, keywordsNotes_under]
    exact parts.add (stmtsNotes_compare body true) (parts.refl _)
  -- the branches that are unreachable differ, but they are reported for all the same
  | .if test body clauses _, inClass => by
    simp only [stmtNotes, exprNotes_under]
    exact parts.add (parts.refl _) <|
      parts.add (stmtsNotes_compare body inClass) (clausesNotes_compare clauses inClass)
  | .while test body orelse _, inClass => by
    simp only [stmtNotes, exprNotes_under]
    exact parts.add (parts.refl _) <|
      parts.add (stmtsNotes_compare body inClass) (stmtsNotes_compare orelse inClass)
  | .for _ target iter body orelse _, inClass => by
    simp only [stmtNotes, exprNotes_under]
    exact parts.add (parts.refl _) <| parts.add (parts.refl _) <|
      parts.add (stmtsNotes_compare body inClass) (stmtsNotes_compare orelse inClass)
  | .with _ items body _, inClass => by
    simp only [stmtNotes, withItemsNotes_under]
    exact parts.add (parts.refl _) (stmtsNotes_compare body inClass)
  | .try body handlers orelse finalbody _ _, inClass =>
    parts.add (stmtsNotes_compare body inClass) <|
      parts.add (handlerTypesNotes_compare parts handlers) <|
      parts.add (handlersNotes_compare handlers inClass) <|
      parts.add (stmtsNotes_compare orelse inClass) (stmtsNotes_compare finalbody inClass)
  | .match subject cases _, inClass => by
    simp only [stmtNotes, exprNotes_under]
    exact parts.add (parts.refl _) (casesNotes_compare cases inClass)
  | .expr .., _ | .assign .., _ | .annAssign .., _ | .augAssign .., _ | .return .., _
  | .raise .., _ | .assert .., _ | .delete .., _ | .typeAlias .., _ => by
    simp only [stmtNotes, exprNotes_under, exprsNotes_under, optExprNotes_under]
    exact parts.refl _
  | .import .., _ | .importFrom .., _ | .pass .., _ | .break .., _ | .continue .., _
  | .global .., _ | .nonlocal .., _ | .ipyEscapeCommand .., _ => parts.refl 0

theorem stmtsNotes_compare : ∀ (stmts : List Stmt) (inClass : Bool),
    R (stmtsNotes c skip inClass stmts) (stmtsNotes (c.under o) skip inClass stmts)
  | [], _ => parts.refl 0
  | stmt :: stmts, inClass =>
    parts.add (stmtNotes_compare stmt inClass) (stmtsNotes_compare stmts inClass)

theorem clausesNotes_compare : ∀ (clauses : ElifElseClauses) (inClass : Bool),
    R (clausesNotes c skip inClass clauses) (clausesNotes (c.under o) skip inClass clauses)
  | .nil, _ => parts.refl 0
  | .elif test body _ rest, inClass => by
    simp only [clausesNotes, exprNotes_under]
    exact parts.add (parts.refl _) <|
      parts.add (stmtsNotes_compare body inClass) (clausesNotes_compare rest inClass)
  | .else body _, inClass => stmtsNotes_compare body inClass

theorem handlersNotes_compare : ∀ (handlers : List ExceptHandler) (inClass : Bool),
    R (handlersNotes c skip inClass handlers) (handlersNotes (c.under o) skip inClass handlers)
  | [], _ => parts.refl 0
  | .mk _ _ body _ :: handlers, inClass =>
    parts.add (stmtsNotes_compare body inClass) (handlersNotes_compare handlers inClass)

theorem casesNotes_compare : ∀ (cases : List MatchCase) (inClass : Bool),
    R (casesNotes c skip inClass cases) (casesNotes (c.under o) skip inClass cases)
  | [], _ => parts.refl 0
  | .mk pattern guard body _ :: cases, inClass => by
    simp only [casesNotes, patternNotes_under, optExprNotes_under]
    exact parts.add (parts.refl _) <| parts.add (parts.refl _) <|
      parts.add (stmtsNotes_compare body inClass) (casesNotes_compare cases inClass)

end

end Stmts

section Modules

variable (c : Config) (o : Options)

theorem stmtsNotes_append (skip inClass : Bool) (stmts more : List Stmt) :
    stmtsNotes c skip inClass (stmts ++ more)
      = stmtsNotes c skip inClass stmts + stmtsNotes c skip inClass more := by
  induction stmts with
  | nil => exact (zero_add _).symm
  | cons stmt stmts ih => simp only [List.cons_append, stmtsNotes, ih, add_assoc]

theorem compares_lasting : Notes.Compares c o fun n n' => n.lasting = n'.lasting where
  refl _ := rfl
  add h h' := by rw [Notes.lasting_add, Notes.lasting_add, h, h']
  handler type name := by rw [handlerNotes_lasting, handlerNotes_lasting]

theorem compares_eq (same : c.options.wantsParentheses = o.wantsParentheses) :
    Notes.Compares c o Eq where
  refl _ := rfl
  add h h' := by rw [h, h']
  handler type name := (handlerNotes_under c o same type name).symm

theorem compares_sublist
    (stricter : c.options.wantsParentheses = true → o.wantsParentheses = true) :
    Notes.Compares c o fun n n' => n.errors.Sublist n'.errors where
  refl n := .refl n.errors
  add h h' := h.append h'
  handler type name := by
    cases wants : c.options.wantsParentheses with
    | false =>
      rw [handlerNotes_accepted c wants]
      exact List.nil_sublist _
    | true =>
      rw [handlerNotes_under c o (wants.trans (stricter wants).symm)]

/-- What is reported for a module where the other options keep no less of it. -/
theorem moduleNotes_extended (skip : Bool) {stmts : List Stmt} (less : KeepsLess c o stmts) :
    (moduleNotes c skip false stmts).Extended c.options o
      (moduleNotes (c.under o) skip false stmts) := by
  obtain ⟨more, split⟩ := splitModule_le less
  unfold moduleNotes
  rw [← split, stmtsNotes_append]
  generalize (splitModule c.options stmts).1 = kept
  have lasting := stmtsNotes_compare (compares_lasting c o) skip kept false
  have errors := congrArg Notes.errors lasting
  have templates := congrArg Notes.templates lasting
  change _ = (stmtsNotes (c.under o) skip false kept).templates at templates
  constructor
  · intro used
    rw [Notes.add_templates, ← templates]
    exact Bool.or_eq_true_iff.mpr (.inl used)
  · rw [Notes.add_errors, List.filter_append]
    exact ⟨_, congrArg (· ++ _) errors⟩
  · intro same
    rw [stmtsNotes_compare (compares_eq c o same) skip kept false]
    exact List.prefix_append _ _
  · intro stricter
    have within := stmtsNotes_compare (compares_sublist c o stricter) skip kept false
    exact within.trans (List.sublist_append_left _ _)

end Modules

namespace Notes.Extended

variable {o o' : Options} {n n' : Notes}

theorem same (n : Notes) : n.Extended o o' n where
  templates used := used
  lasting := List.prefix_rfl
  alike _ := List.prefix_rfl
  stricter _ := .refl n.errors

/-- What is reported before does not matter. -/
theorem after (h : n.Extended o o' n') (m : Notes) : (m + n).Extended o o' (m + n') where
  templates used := by
    rw [add_templates, Bool.or_eq_true] at used ⊢
    exact used.imp_right h.templates
  lasting := by
    rw [add_errors, add_errors, List.filter_append, List.filter_append]
    exact (List.prefix_append_right_inj _).mpr h.lasting
  alike accepts := (List.prefix_append_right_inj _).mpr (h.alike accepts)
  stricter wants := (h.stricter wants).append_left m.errors

end Notes.Extended

section Files

variable {c : Config} {o : Options} {skip : Bool} {file : ParsedFile} {out out' : SerializedFile}

theorem serializePythonFile_extended (less : KeepsLess c o file.body)
    (run : serializePythonFile c skip file = some out)
    (run' : serializePythonFile (c.under o) skip file = some out') :
    Notes.Extended c.options o ⟨out.usesTemplateStrings, out.syntaxErrors⟩
      ⟨out'.usesTemplateStrings, out'.syntaxErrors⟩ := by
  -- whether a file is ignored does not depend on the options
  cases ignored : file.moduleIgnore c with
  | some ignore =>
    have ignored' : file.moduleIgnore (c.under o) = some ignore := ignored
    rw [serializePythonFile_ignored_eq ignored] at run
    rw [serializePythonFile_ignored_eq ignored'] at run'
    obtain rfl := Option.some.inj run
    obtain rfl := Option.some.inj run'
    exact .same _
  | none =>
    have ignored' : file.moduleIgnore (c.under o) = none := ignored
    rw [serializePythonFile_notes ignored run, serializePythonFile_notes ignored' run']
    exact (moduleNotes_extended c o skip less).after _

end Files

section Requests

/-- What is reported for a file beside its tree. -/
def SerializedSource.notes (out : SerializedSource) : Notes :=
  ⟨out.usesTemplateStrings, out.syntaxErrors⟩

variable {v : Vendored} {request : Request} {o : Options} {out out' : SerializedSource}

theorem Request.serialize_extended (less : request.keeps v ≤ (request.under o).keeps v)
    (run : request.serialize v = some out) (run' : (request.under o).serialize v = some out') :
    out.notes.Extended request.options o out'.notes := by
  rw [request.serialize_eq v, Option.map_eq_some_iff] at run
  rw [(request.under o).serialize_eq v, request.skips_under v o, request.file_under v o,
    Option.map_eq_some_iff] at run'
  obtain ⟨file, written, rfl⟩ := run
  obtain ⟨file', written', rfl⟩ := run'
  rw [request.config_under v o] at written'
  have files := serializePythonFile_extended (request.keepsLess v o less) written written'
  exact ⟨files.templates, files.lasting, files.alike, files.stricter⟩

/-- What is reported for a file does not depend on what the options say is reachable. With other
options of the same cache version the errors are the same, as far as both keep the file, but for
exception types that lack parentheses, which are an error before Python 3.14. -/
theorem serialize_errors_stable (v : Vendored) (request : Request) (o : Options) :
    match request.serialize v, (request.under o).serialize v with
    | some out, some out' =>
      (request.keeps v ≤ (request.under o).keeps v →
        out.notes.Extended request.options o out'.notes) ∧
      ((request.under o).keeps v ≤ request.keeps v →
        out'.notes.Extended o request.options out.notes)
    | _, _ => True := by
  have same : (request.under o).under request.options = request := rfl
  cases run : request.serialize v with
  | none => trivial
  | some out =>
    cases run' : (request.under o).serialize v with
    | none => trivial
    | some out' =>
      constructor
      · intro less
        exact request.serialize_extended less run run'
      · intro less
        have back := (request.under o).serialize_extended (o := request.options) less run' run
        exact ⟨back.templates, back.lasting, back.alike, back.stricter⟩

end Requests

end AstSerialize
