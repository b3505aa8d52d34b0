import AstSerialize.Serializer.ExprCode
import AstSerialize.Serializer.Surrogates

/-! The flags of surrogates that strings are written with. All strings share one
flag, which each of them clears when it begins. -/
namespace AstSerialize
open Coding

/-- A literal part or element of a string. -/
structure LiteralPiece where
  value : String
  range : TextRange

/-- What happens to the flag, in the order in which an expression is written. -/
inductive FlagEvent where
  | begins
  | piece (p : LiteralPiece)

section Events

mutual

def flagEvents : Expr → List FlagEvent
  | .name _ _ | .numberLiteral _ _ | .booleanLiteral _ _ | .noneLiteral _ | .ellipsisLiteral _
  | .bytesLiteral _ _ | .ipyEscapeCommand _ => []
  | .attribute value _ _ | .unaryOp _ value _ | .yieldFrom value _ | .starred value _
  | .await value _ => flagEvents value
  | .binOp left _ right _ | .subscript left right _ | .named left right _ =>
    flagEvents left ++ flagEvents right
  | .call func args keywords _ =>
    flagEvents func ++ (callArgsEvents args ++ keywordsEvents keywords)
  | .list elts _ _ | .tuple elts _ _ | .set elts _ | .boolOp _ elts _ => exprsEvents elts
  | .generator elt generators _ | .listComp elt generators _ | .setComp elt generators _ =>
    flagEvents elt ++ (targetsEvents generators ++ (itersEvents generators
      ++ condsEvents generators))
  | .dictComp key value generators _ =>
    optEvents key ++ (flagEvents value ++ (targetsEvents generators ++ (itersEvents generators
      ++ condsEvents generators)))
  | .yield value _ => optEvents value
  | .compare left _ comparators _ => flagEvents left ++ exprsEvents comparators
  | .ifExp test body orelse _ => flagEvents body ++ (flagEvents test ++ flagEvents orelse)
  | .dict items _ => keysEvents items ++ valuesEvents items
  | .slice lower upper step _ => optEvents lower ++ (optEvents upper ++ optEvents step)
  | .stringLiteral value _ => .begins :: value.map fun part => .piece ⟨part.value, part.range⟩
  | .fString value _ => .begins :: fStringPartsEvents value
  | .tString elements _ => .begins :: elementsEvents elements
  | .lambda (some parameters) body _ => parametersEvents parameters ++ flagEvents body
  | .lambda none body _ => flagEvents body

def exprsEvents : List Expr → List FlagEvent
  | [] => []
  | e :: es => flagEvents e ++ exprsEvents es

def optEvents : Option Expr → List FlagEvent
  | none => []
  | some e => flagEvents e

def callArgsEvents : List Expr → List FlagEvent
  | [] => []
  | arg :: args => flagEvents arg ++ callArgsEvents args

def keywordsEvents : List Keyword → List FlagEvent
  | [] => []
  | .mk _ value :: keywords => flagEvents value ++ keywordsEvents keywords

def targetsEvents : List Comprehension → List FlagEvent
  | [] => []
  | .mk target _ _ _ :: generators => flagEvents target ++ targetsEvents generators

def itersEvents : List Comprehension → List FlagEvent
  | [] => []
  | .mk _ iter _ _ :: generators => flagEvents iter ++ itersEvents generators

def condsEvents : List Comprehension → List FlagEvent
  | [] => []
  | .mk _ _ ifs _ :: generators => exprsEvents ifs ++ condsEvents generators

def keysEvents : List DictItem → List FlagEvent
  | [] => []
  | .mk key _ :: items => optEvents key ++ keysEvents items

def valuesEvents : List DictItem → List FlagEvent
  | [] => []
  | .mk _ value :: items => flagEvents value ++ valuesEvents items

def parametersEvents : Parameters → List FlagEvent
  | .mk posonlyargs args _ kwonlyargs _ =>
    defaultsEvents posonlyargs ++ (defaultsEvents args ++ defaultsEvents kwonlyargs)

def defaultsEvents : List ParameterWithDefault → List FlagEvent
  | [] => []
  | .mk _ default _ :: parameters => optEvents default ++ defaultsEvents parameters

def fStringPartsEvents : List FStringPart → List FlagEvent
  | [] => []
  | .fString elements :: parts => elementsEvents elements ++ fStringPartsEvents parts
  | .literal lit :: parts => .piece ⟨lit.value, lit.range⟩ :: fStringPartsEvents parts

def elementsEvents : List InterpolatedStringElement → List FlagEvent
  | [] => []
  | .literal value range :: elements => .piece ⟨value, range⟩ :: elementsEvents elements
  | .interpolation expression _ _ formatSpec :: elements =>
    flagEvents expression ++ (formatSpecEvents formatSpec ++ elementsEvents elements)

def formatSpecEvents : Option FormatSpec → List FlagEvent
  | none => []
  | some (.mk elements _) => elementsEvents elements

end

end Events

section OwnPieces

mutual

/-- The literal elements, and those of the format specs. -/
def ownElements : List InterpolatedStringElement → List LiteralPiece
  | [] => []
  | element :: elements => ownElement element ++ ownElements elements

def ownElement : InterpolatedStringElement → List LiteralPiece
  | .literal value range => [⟨value, range⟩]
  | .interpolation _ _ _ formatSpec => ownFormatSpec formatSpec

def ownFormatSpec : Option FormatSpec → List LiteralPiece
  | none => []
  | some formatSpec => ownSpecElements formatSpec

def ownSpecElements : FormatSpec → List LiteralPiece
  | .mk elements _ => ownElements elements

end

def ownParts : List FStringPart → List LiteralPiece
  | [] => []
  | .fString elements :: parts => ownElements elements ++ ownParts parts
  | .literal lit :: parts => ⟨lit.value, lit.range⟩ :: ownParts parts

/-- The literal pieces of a string itself. -/
def Expr.ownPieces : Expr → Option (List LiteralPiece)
  | .stringLiteral value _ => some (value.map fun part => ⟨part.value, part.range⟩)
  | .fString value _ => some (ownParts value)
  | .tString elements _ => some (ownElements elements)
  | _ => none

end OwnPieces

section Follows

variable (c : Config)

/-- The check finds a surrogate in the piece. -/
def LiteralPiece.noted (p : LiteralPiece) : Bool :=
  p.value.toList.contains '\uFFFD' && scanSurrogates 0 (c.textAt p.range) == some true

def FlagEvent.apply (seen : Bool) : FlagEvent → Bool
  | .begins => false
  | .piece p => seen || p.noted c

/-- Where the serializer does not panic, the flag goes where the events take it. -/
def Follows (f : Bool → Option Bool) (events : List FlagEvent) : Prop :=
  ∀ b b', f b = some b' → b' = events.foldl (FlagEvent.apply c) b

namespace Follows

variable {c} {f g : Bool → Option Bool} {events events' : List FlagEvent}

theorem nothing : Follows c some [] := by
  rintro b b' ⟨⟩
  rfl

theorem next (first : Follows c f events) (second : Follows c g events') :
    Follows c (f >=> g) (events ++ events') := by
  intro b b' run
  rw [Bind.kleisliRight, Option.bind_eq_bind, Option.bind_eq_some_iff] at run
  obtain ⟨seen, run, run'⟩ := run
  rw [List.foldl_append, ← first b seen run]
  exact second seen b' run'

/-- A string starts from a cleared flag. -/
theorem begins (inside : Follows c f events) :
    Follows c (fun _ => f false) (.begins :: events) :=
  fun _ b' run => inside false b' run

theorem piece (p : LiteralPiece) :
    Follows c (surrogatesAfterLiteral c p.value p.range) [.piece p] := by
  intro b b' run
  unfold surrogatesAfterLiteral at run
  simp only [List.foldl_cons, List.foldl_nil, FlagEvent.apply, LiteralPiece.noted]
  split at run
  case isTrue replaced =>
    rw [replaced]
    split at run
    case isTrue seen =>
      cases run
      rw [seen]
      rfl
    case isFalse fresh =>
      rw [run, Bool.eq_false_of_not_eq_true fresh]
      cases b' <;> rfl
  case isFalse plain =>
    cases run
    rw [Bool.eq_false_of_not_eq_true plain, Bool.false_and, Bool.or_false]

end Follows

theorem follows_parts (parts : List StringLiteral) : Follows c (surrogatesAfterParts c parts)
    (parts.map fun part => .piece ⟨part.value, part.range⟩) := by
  induction parts with
  | nil => exact .nothing
  | cons part parts ih => exact .next (.piece ⟨part.value, part.range⟩) ih

mutual

theorem follows_expr : ∀ e : Expr, Follows c (surrogatesAfter c e) (flagEvents e)
  | .name _ _ | .numberLiteral _ _ | .booleanLiteral _ _ | .noneLiteral _ | .ellipsisLiteral _
  | .bytesLiteral _ _ => .nothing
  | .attribute value _ _ | .unaryOp _ value _ | .yieldFrom value _ | .starred value _
  | .await value _ => follows_expr value
  | .binOp left _ right _ | .subscript left right _ | .named left right _ =>
    .next (follows_expr left) (follows_expr right)
  | .call func args keywords _ =>
    .next (follows_expr func) (.next (follows_callArgs args) (follows_keywords keywords))
  | .list elts _ _ | .tuple elts _ _ | .set elts _ | .boolOp _ elts _ => follows_exprs elts
  | .generator elt generators _ | .listComp elt generators _ | .setComp elt generators _ =>
    .next (follows_expr elt) <| .next (follows_targets generators) <|
      .next (follows_iters generators) (follows_conds generators)
  | .dictComp key value generators _ =>
    .next (follows_optExpr key) <| .next (follows_expr value) <|
      .next (follows_targets generators) <| .next (follows_iters generators)
        (follows_conds generators)
  | .yield value _ => follows_optExpr value
  | .compare left _ comparators _ => .next (follows_expr left) (follows_exprs comparators)
  | .ifExp test body orelse _ =>
    .next (follows_expr body) (.next (follows_expr test) (follows_expr orelse))
  | .dict items _ => .next (follows_keys items) (follows_values items)
  | .slice lower upper step _ =>
    .next (follows_optExpr lower) (.next (follows_optExpr upper) (follows_optExpr step))
  | .stringLiteral value _ => .begins (follows_parts c value)
  | .fString value _ => .begins (follows_fStringParts value)
  | .tString elements _ => .begins (follows_tStringElements elements)
  | .ipyEscapeCommand _ => fun _ _ run => nomatch run
  | .lambda (some (.mk posonlyargs args _ kwonlyargs _)) body _ =>
    .next (.next (follows_defaults posonlyargs) <|
      .next (follows_defaults args) (follows_defaults kwonlyargs)) (follows_expr body)
  | .lambda none body _ => follows_expr body

theorem follows_exprs : ∀ es : List Expr, Follows c (surrogatesAfterExprs c es) (exprsEvents es)
  | [] => .nothing
  | e :: es => .next (follows_expr e) (follows_exprs es)

theorem follows_optExpr : ∀ e : Option Expr, Follows c (surrogatesAfterOpt c e) (optEvents e)
  | none => .nothing
  | some e => follows_expr e

theorem follows_callArgs : ∀ args : List Expr,
    Follows c (surrogatesAfterCallArgs c args) (callArgsEvents args)
  | [] => .nothing
  | arg :: args => by
    rw [surrogatesAfterCallArgs_cons, surrogatesAfter_unstarred]
    exact .next (follows_expr arg) (follows_callArgs args)

theorem follows_keywords : ∀ keywords : List Keyword,
    Follows c (surrogatesAfterKeywords c keywords) (keywordsEvents keywords)
  | [] => .nothing
  | .mk _ value :: keywords => .next (follows_expr value) (follows_keywords keywords)

theorem follows_targets : ∀ generators : List Comprehension,
    Follows c (surrogatesAfterTargets c generators) (targetsEvents generators)
  | [] => .nothing
  | .mk target _ _ _ :: generators => .next (follows_expr target) (follows_targets generators)

theorem follows_iters : ∀ generators : List Comprehension,
    Follows c (surrogatesAfterIters c generators) (itersEvents generators)
  | [] => .nothing
  | .mk _ iter _ _ :: generators => .next (follows_expr iter) (follows_iters generators)

theorem follows_conds : ∀ generators : List Comprehension,
    Follows c (surrogatesAfterConds c generators) (condsEvents generators)
  | [] => .nothing
  | .mk _ _ ifs _ :: generators => .next (follows_exprs ifs) (follows_conds generators)

theorem follows_keys : ∀ items : List DictItem,
    Follows c (surrogatesAfterKeys c items) (keysEvents items)
  | [] => .nothing
  | .mk key _ :: items => .next (follows_optExpr key) (follows_keys items)

theorem follows_values : ∀ items : List DictItem,
    Follows c (surrogatesAfterValues c items) (valuesEvents items)
  | [] => .nothing
  | .mk _ value :: items => .next (follows_expr value) (follows_values items)

theorem follows_defaults : ∀ parameters : List ParameterWithDefault,
    Follows c (surrogatesAfterDefaults c parameters) (defaultsEvents parameters)
  | [] => .nothing
  | .mk _ default _ :: parameters => .next (follows_optExpr default) (follows_defaults parameters)

theorem follows_fStringParts : ∀ parts : List FStringPart,
    Follows c (surrogatesAfterFStringParts c parts) (fStringPartsEvents parts)
  | [] => .nothing
  | .fString elements :: parts => .next (follows_elements elements) (follows_fStringParts parts)
  | .literal lit :: parts => .next (.piece ⟨lit.value, lit.range⟩) (follows_fStringParts parts)

theorem follows_elements : ∀ elements : List InterpolatedStringElement,
    Follows c (surrogatesAfterElements c elements) (elementsEvents elements)
  | [] => .nothing
  | .literal value range :: elements => .next (.piece ⟨value, range⟩) (follows_elements elements)
  | .interpolation expression _ _ formatSpec :: elements =>
    .next (follows_expr expression) (.next (follows_formatSpec formatSpec)
      (follows_elements elements))

theorem follows_formatSpec : ∀ formatSpec : Option FormatSpec,
    Follows c (surrogatesAfterFormatSpec c formatSpec) (formatSpecEvents formatSpec)
  | none => .nothing
  | some (.mk elements _) => follows_elements elements

theorem follows_tStringElements : ∀ elements : List InterpolatedStringElement,
    Follows c (surrogatesAfterTStringElements c elements) (elementsEvents elements)
  | [] => .nothing
  | .literal value range :: elements =>
    .next (.piece ⟨value, range⟩) (follows_tStringElements elements)
  | .interpolation expression _ _ formatSpec :: elements =>
    .next (follows_expr expression) (.next (follows_formatSpec formatSpec)
      (follows_tStringElements elements))

end

end Follows

section LastPieces

def FlagEvent.collect (pieces : List LiteralPiece) : FlagEvent → List LiteralPiece
  | .begins => []
  | .piece p => pieces ++ [p]

/-- The pieces that are written after the last string began. -/
def lastPieces (events : List FlagEvent) : List LiteralPiece :=
  events.foldl FlagEvent.collect []

theorem foldl_apply (c : Config) (events : List FlagEvent) (pieces : List LiteralPiece) :
    events.foldl (FlagEvent.apply c) (pieces.any (·.noted c))
      = (events.foldl FlagEvent.collect pieces).any (·.noted c) := by
  induction events generalizing pieces with
  | nil => rfl
  | cons event events ih =>
    cases event with
    | begins => exact ih []
    | piece p =>
      have grown : (pieces ++ [p]).any (·.noted c) = (pieces.any (·.noted c) || p.noted c) := by
        simp
      rw [List.foldl_cons, List.foldl_cons, FlagEvent.apply, FlagEvent.collect, ← ih, grown]

/-- Pieces are written only after a string began. -/
def Opened (events : List FlagEvent) : Prop := .begins ∉ events → events = []

namespace Opened

theorem nil : Opened [] := fun _ => rfl

theorem begins (events : List FlagEvent) : Opened (.begins :: events) :=
  fun none => absurd List.mem_cons_self none

theorem append {events events' : List FlagEvent} (first : Opened events)
    (second : Opened events') : Opened (events ++ events') := by
  intro none
  rw [List.mem_append, not_or] at none
  rw [first none.1, second none.2]
  rfl

end Opened

mutual

theorem opened_expr : ∀ e : Expr, Opened (flagEvents e)
  | .name _ _ | .numberLiteral _ _ | .booleanLiteral _ _ | .noneLiteral _ | .ellipsisLiteral _
  | .bytesLiteral _ _ | .ipyEscapeCommand _ => .nil
  | .attribute value _ _ | .unaryOp _ value _ | .yieldFrom value _ | .starred value _
  | .await value _ => opened_expr value
  | .binOp left _ right _ | .subscript left right _ | .named left right _ =>
    .append (opened_expr left) (opened_expr right)
  | .call func args keywords _ =>
    .append (opened_expr func) (.append (opened_callArgs args) (opened_keywords keywords))
  | .list elts _ _ | .tuple elts _ _ | .set elts _ | .boolOp _ elts _ => opened_exprs elts
  | .generator elt generators _ | .listComp elt generators _ | .setComp elt generators _ =>
    .append (opened_expr elt) <| .append (opened_targets generators) <|
      .append (opened_iters generators) (opened_conds generators)
  | .dictComp key value generators _ =>
    .append (opened_optExpr key) <| .append (opened_expr value) <|
      .append (opened_targets generators) <| .append (opened_iters generators)
        (opened_conds generators)
  | .yield value _ => opened_optExpr value
  | .compare left _ comparators _ => .append (opened_expr left) (opened_exprs comparators)
  | .ifExp test body orelse _ =>
    .append (opened_expr body) (.append (opened_expr test) (opened_expr orelse))
  | .dict items _ => .append (opened_keys items) (opened_values items)
  | .slice lower upper step _ =>
    .append (opened_optExpr lower) (.append (opened_optExpr upper) (opened_optExpr step))
  | .stringLiteral _ _ | .fString _ _ | .tString _ _ => .begins _
  | .lambda (some (.mk posonlyargs args _ kwonlyargs _)) body _ =>
    .append (.append (opened_defaults posonlyargs) <|
      .append (opened_defaults args) (opened_defaults kwonlyargs)) (opened_expr body)
  | .lambda none body _ => opened_expr body

theorem opened_exprs : ∀ es : List Expr, Opened (exprsEvents es)
  | [] => .nil
  | e :: es => .append (opened_expr e) (opened_exprs es)

theorem opened_optExpr : ∀ e : Option Expr, Opened (optEvents e)
  | none => .nil
  | some e => opened_expr e

theorem opened_callArgs : ∀ args : List Expr, Opened (callArgsEvents args)
  | [] => .nil
  | arg :: args => .append (opened_expr arg) (opened_callArgs args)

theorem opened_keywords : ∀ keywords : List Keyword, Opened (keywordsEvents keywords)
  | [] => .nil
  | .mk _ value :: keywords => .append (opened_expr value) (opened_keywords keywords)

theorem opened_targets : ∀ generators : List Comprehension, Opened (targetsEvents generators)
  | [] => .nil
  | .mk target _ _ _ :: generators => .append (opened_expr target) (opened_targets generators)

theorem opened_iters : ∀ generators : List Comprehension, Opened (itersEvents generators)
  | [] => .nil
  | .mk _ iter _ _ :: generators => .append (opened_expr iter) (opened_iters generators)

theorem opened_conds : ∀ generators : List Comprehension, Opened (condsEvents generators)
  | [] => .nil
  | .mk _ _ ifs _ :: generators => .append (opened_exprs ifs) (opened_conds generators)

theorem opened_keys : ∀ items : List DictItem, Opened (keysEvents items)
  | [] => .nil
  | .mk key _ :: items => .append (opened_optExpr key) (opened_keys items)

theorem opened_values : ∀ items : List DictItem, Opened (valuesEvents items)
  | [] => .nil
  | .mk _ value :: items => .append (opened_expr value) (opened_values items)

theorem opened_defaults : ∀ parameters : List ParameterWithDefault,
    Opened (defaultsEvents parameters)
  | [] => .nil
  | .mk _ default _ :: parameters => .append (opened_optExpr default) (opened_defaults parameters)

end

section Flat

/-! Without strings in its replacement fields a string has no other pieces than its own. -/

mutual

theorem elementsEvents_flat : ∀ elements : List InterpolatedStringElement,
    .begins ∉ elementsEvents elements →
    elementsEvents elements = (ownElements elements).map .piece
  | [], _ => rfl
  | .literal value range :: elements, flat => by
    rw [elementsEvents, List.mem_cons, not_or] at flat
    rw [elementsEvents, elementsEvents_flat elements flat.2]
    rfl
  | .interpolation expression _ _ formatSpec :: elements, flat => by
    rw [elementsEvents, List.mem_append, List.mem_append, not_or, not_or] at flat
    rw [elementsEvents, opened_expr expression flat.1, formatSpecEvents_flat formatSpec flat.2.1,
      elementsEvents_flat elements flat.2.2, ownElements, ownElement, List.map_append]
    rfl

theorem formatSpecEvents_flat : ∀ formatSpec : Option FormatSpec,
    .begins ∉ formatSpecEvents formatSpec →
    formatSpecEvents formatSpec = (ownFormatSpec formatSpec).map .piece
  | none, _ => rfl
  | some (.mk elements _), flat => elementsEvents_flat elements flat

end

theorem fStringPartsEvents_flat (parts : List FStringPart)
    (flat : .begins ∉ fStringPartsEvents parts) :
    fStringPartsEvents parts = (ownParts parts).map .piece := by
  induction parts with
  | nil => rfl
  | cons part parts ih =>
    cases part with
    | literal lit =>
      rw [fStringPartsEvents, List.mem_cons, not_or] at flat
      rw [fStringPartsEvents, ih flat.2]
      rfl
    | fString elements =>
      rw [fStringPartsEvents, List.mem_append, not_or] at flat
      rw [fStringPartsEvents, elementsEvents_flat elements flat.1, ih flat.2, ownParts,
        List.map_append]

theorem lastPieces_pieces (pieces : List LiteralPiece) :
    lastPieces (.begins :: pieces.map .piece) = pieces := by
  suffices h : ∀ before, (pieces.map FlagEvent.piece).foldl FlagEvent.collect before
      = before ++ pieces from h []
  induction pieces with
  | nil => simp
  | cons p pieces ih =>
    intro before
    rw [List.map_cons, List.foldl_cons, FlagEvent.collect, ih, List.append_assoc]
    rfl

theorem lastPieces_flat {e : Expr} {own : List LiteralPiece} (string : e.ownPieces = some own)
    (flat : .begins ∉ (flagEvents e).tail) : lastPieces (flagEvents e) = own := by
  unfold Expr.ownPieces at string
  split at string <;> cases string
  · rename_i value _
    have events : value.map (fun part => FlagEvent.piece ⟨part.value, part.range⟩)
        = (value.map fun part => (⟨part.value, part.range⟩ : LiteralPiece)).map .piece := by
      rw [List.map_map]
      rfl
    rw [flagEvents, events, lastPieces_pieces]
  · rw [flagEvents, fStringPartsEvents_flat _ flat, lastPieces_pieces]
  · rw [flagEvents, elementsEvents_flat _ flat, lastPieces_pieces]

end Flat

end LastPieces

section Flags

/-- The flag that a string is written with. -/
def WExpr.stringFlag {cv : Nat} (given : cvUnicodeSurrogate ≤ cv) : WExpr cv → Option Bool
  | .str _ surrogates _ | .fString _ surrogates _ | .tString _ surrogates _ =>
    some (surrogates given)
  | _ => none

variable (c : Config) (raw : LiteralPiece → Bool)

/-- A surrogate is escaped in the piece. -/
def LiteralPiece.HasSurrogate (p : LiteralPiece) : Prop :=
  raw p = false ∧ HasSurrogateEscape (c.textAt p.range)

/-- Whatever the state, the string is written with a flag that says whether one of its own pieces has
a surrogate. -/
def FlagRight (given : cvUnicodeSurrogate ≤ c.cacheVersion) (e : Expr)
    (own : List LiteralPiece) : Prop :=
  ∀ s s', (serializeExpr c e).run s = some ((), s') → ∃ w tree flag, s'.bytes = s.bytes ++ w ∧
    (∀ r, decExpr (w ++ r) = some (tree, r)) ∧ tree.stringFlag given = some flag ∧
    (flag = true ↔ ∃ p ∈ own, p.HasSurrogate c raw)

variable {c raw}

/-- The flag in the tree is that of the pieces since the last string began. -/
theorem toWireExpr_stringFlag (given : cvUnicodeSurrogate ≤ c.cacheVersion) {e : Expr}
    {own : List LiteralPiece} (string : e.ownPieces = some own) (scope : Scope)
    (supported : supportsExpr c e = true) :
    (toWireExpr c scope e).stringFlag given
      = some ((lastPieces (flagEvents e)).any (·.noted c)) := by
  obtain ⟨b, after⟩ := Option.isSome_iff_exists.mp supported
  have followed := follows_expr c e false b after
  have noted := foldl_apply c (flagEvents e) []
  rw [List.any_nil, ← followed] at noted
  unfold Expr.ownPieces at string
  split at string <;> cases string
  all_goals
    simp only [surrogatesAfter] at after
    simp only [toWireExpr, WExpr.stringFlag, surrogatesOf, after, Option.getD_some, noted,
      lastPieces]

theorem serializeExpr_returns (e : Expr) (s : Serializer) :
    (∃ s', (serializeExpr c e).run s = some ((), s')) ↔ supportsExpr c e = true := by
  have uniform : (surrogatesAfter c e s.hasSurrogates).isSome = supportsExpr c e :=
    uniform_expr c e _ _
  cases reached : surrogatesAfter c e s.hasSurrogates with
  | none =>
    have panics := (flags_expr c e).panics reached s rfl
    rw [reached] at uniform
    rw [panics, ← uniform]
    simp
  | some b =>
    obtain ⟨s', run, -⟩ := (flags_expr c e).emits reached s rfl
    rw [reached] at uniform
    rw [run, ← uniform]
    simp

theorem serializeExpr_flag (given : cvUnicodeSurrogate ≤ c.cacheVersion) {e : Expr}
    {own : List LiteralPiece} (string : e.ownPieces = some own) {s s' : Serializer}
    (run : (serializeExpr c e).run s = some ((), s')) :
    ∃ w tree, s'.bytes = s.bytes ++ w ∧ (∀ r, decExpr (w ++ r) = some (tree, r)) ∧
      tree.stringFlag given = some ((lastPieces (flagEvents e)).any (·.noted c)) := by
  have writes := writesCode_of_flags (s := s) (flags_expr c e) (reads_expr _)
  have supported := (serializeExpr_returns e s).mp ⟨s', run⟩
  rw [WritesCode, run] at writes
  obtain ⟨w, out, reads⟩ := writes
  exact ⟨w, _, out, reads, toWireExpr_stringFlag given string _ supported⟩

/-- The pieces of the string itself have a surrogate exactly if one is found in the pieces, its own
and those of the strings inside it, since the last string began. -/
def PiecesAgree (c : Config) (raw : LiteralPiece → Bool) (e : Expr) (own : List LiteralPiece) :
    Prop :=
  (∃ p ∈ own, p.HasSurrogate c raw) ↔ ∃ p ∈ lastPieces (flagEvents e), p.noted c = true

theorem piecesAgree_of_flagRight (given : cvUnicodeSurrogate ≤ c.cacheVersion) {e : Expr}
    {own : List LiteralPiece} (string : e.ownPieces = some own)
    (supported : supportsExpr c e = true) (right : FlagRight c raw given e own) :
    PiecesAgree c raw e own := by
  obtain ⟨s', run⟩ := (serializeExpr_returns e Serializer.initial).mpr supported
  obtain ⟨w, tree, flag, out, reads, flagged, correct⟩ := right _ _ run
  obtain ⟨w', tree', out', reads', flagged'⟩ := serializeExpr_flag given string run
  have sameWord : w = w' := List.append_cancel_left (out.symm.trans out')
  have sameTree : tree = tree' := by
    have first := reads []
    rw [sameWord, reads' []] at first
    cases first
    rfl
  rw [sameTree, flagged', Option.some.injEq] at flagged
  rw [PiecesAgree, ← List.any_eq_true, flagged]
  exact correct.symm

theorem flagRight_of_piecesAgree (given : cvUnicodeSurrogate ≤ c.cacheVersion) {e : Expr}
    {own : List LiteralPiece} (string : e.ownPieces = some own)
    (agree : supportsExpr c e = true → PiecesAgree c raw e own) :
    FlagRight c raw given e own := by
  intro s s' run
  obtain ⟨w, tree, out, reads, flagged⟩ := serializeExpr_flag given string run
  have supported := (serializeExpr_returns e s).mp ⟨s', run⟩
  refine ⟨w, tree, _, out, reads, flagged, ?_⟩
  rw [List.any_eq_true]
  exact (agree supported).symm

/-- A string that is written at all has the right flag exactly if its pieces agree with those since
the last string began. -/
theorem flagRight_iff (given : cvUnicodeSurrogate ≤ c.cacheVersion) {e : Expr}
    {own : List LiteralPiece} (string : e.ownPieces = some own) :
    FlagRight c raw given e own ↔ (supportsExpr c e = true → PiecesAgree c raw e own) := by
  constructor
  · intro right supported
    exact piecesAgree_of_flagRight given string supported right
  · exact flagRight_of_piecesAgree given string

/-- `f"{'x'}\ud800"` -/
def nestedThenSurrogate : Expr :=
  .fString [.fString [.interpolation (.stringLiteral [⟨"x", ⟨3, 6⟩⟩] ⟨3, 6⟩) none .none none,
    .literal "\uFFFD" ⟨7, 13⟩]] ⟨0, 14⟩

theorem flagRight_nestedThenSurrogate :
    FlagRight (.plain "f\"\x7b'x'\x7d\\ud800\"".toList) (fun _ => false) (by decide) nestedThenSurrogate
      [⟨"\uFFFD", ⟨7, 13⟩⟩] := by
  apply (flagRight_iff _ rfl).mpr
  intro _
  have escaped : HasSurrogateEscape
      ((Config.plain "f\"\x7b'x'\x7d\\ud800\"".toList).textAt ⟨7, 13⟩) :=
    hasSurrogateEscape_of_scan (by decide)
  have last : lastPieces (flagEvents nestedThenSurrogate)
      = [⟨"x", ⟨3, 6⟩⟩, ⟨"\uFFFD", ⟨7, 13⟩⟩] := rfl
  rw [PiecesAgree, last]
  constructor
  · intro _
    exact ⟨_, List.mem_cons_of_mem _ List.mem_cons_self, by decide⟩
  · intro _
    exact ⟨_, List.mem_cons_self, rfl, escaped⟩

/-- `f"\ud800{'x'}"` -/
def surrogateThenNested : Expr :=
  .fString [.fString [.literal "\uFFFD" ⟨2, 8⟩,
    .interpolation (.stringLiteral [⟨"x", ⟨9, 12⟩⟩] ⟨9, 12⟩) none .none none]] ⟨0, 14⟩

/-- A string inside a replacement field clears the flag of the string around it. -/
theorem nested_string_clears_flag :
    ¬ FlagRight (.plain "f\"\\ud800\x7b'x'\x7d\"".toList) (fun _ => false) (by decide)
      surrogateThenNested [⟨"\uFFFD", ⟨2, 8⟩⟩] := by
  intro right
  have escaped : HasSurrogateEscape
      ((Config.plain "f\"\\ud800\x7b'x'\x7d\"".toList).textAt ⟨2, 8⟩) :=
    hasSurrogateEscape_of_scan (by decide)
  have last : lastPieces (flagEvents surrogateThenNested) = [⟨"x", ⟨9, 12⟩⟩] := rfl
  have agree := piecesAgree_of_flagRight _ rfl (by decide) right
  rw [PiecesAgree, last] at agree
  obtain ⟨p, mem, noted⟩ := agree.mp ⟨_, List.mem_cons_self, rfl, escaped⟩
  rw [List.mem_singleton.mp mem] at noted
  exact absurd noted (by decide)

/-- The check finds the surrogates of a literal that is not raw. -/
theorem noted_iff_hasSurrogate {p : LiteralPiece} (escaped : raw p = false)
    (accepted : AcceptedLiteral (c.textAt p.range) (raw p) p.value) :
    p.noted c = true ↔ p.HasSurrogate c raw := by
  obtain ⟨found, result, has⟩ := scan_wellEscaped (accepted.escapes escaped)
  rw [LiteralPiece.noted, LiteralPiece.HasSurrogate, result, Bool.and_eq_true, beq_iff_eq,
    Option.some.injEq, has, List.contains_iff_mem]
  constructor
  · rintro ⟨-, surrogate⟩
    exact ⟨escaped, surrogate⟩
  · rintro ⟨-, surrogate⟩
    exact ⟨accepted.decoded escaped surrogate, surrogate⟩

/-- Without strings in its replacement fields and without raw pieces a string that the parser has
accepted has the right flag. -/
theorem flagRight_flat (given : cvUnicodeSurrogate ≤ c.cacheVersion) {e : Expr}
    {own : List LiteralPiece} (string : e.ownPieces = some own)
    (flat : .begins ∉ (flagEvents e).tail) (escaped : ∀ p ∈ own, raw p = false)
    (accepted : ∀ p ∈ own, AcceptedLiteral (c.textAt p.range) (raw p) p.value) :
    FlagRight c raw given e own := by
  apply flagRight_of_piecesAgree given string
  intro _
  rw [PiecesAgree, lastPieces_flat string flat]
  constructor
  · rintro ⟨p, mem, has⟩
    exact ⟨p, mem, (noted_iff_hasSurrogate (escaped p mem) (accepted p mem)).mpr has⟩
  · rintro ⟨p, mem, noted⟩
    exact ⟨p, mem, (noted_iff_hasSurrogate (escaped p mem) (accepted p mem)).mp noted⟩

end Flags

end AstSerialize
