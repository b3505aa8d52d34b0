import AstSerialize.Serializer.ExprCode
import AstSerialize.Serializer.Signature
import AstSerialize.Serializer.BytesText
import AstSerialize.Serializer.TypeRecursion
import AstSerialize.Wire.Closed

/-! Which expressions and patterns have the same tree. Besides what is no part of
an expression, such as parentheses, the format merges some forms on purpose; each
of them is a rule of its own here. -/
namespace AstSerialize
open Coding

section Images

variable {A B C : Type} {f : A → B} {R : A → A → Prop}

/-- Lists with the same images are related member by member. -/
def Separates (f : A → B) (R : A → A → Prop) (xs : List A) : Prop :=
  ∀ ys, xs.map f = ys.map f → List.Forall₂ R xs ys

namespace Separates

theorem nil : Separates f R [] := by
  intro ys same
  rw [List.map_nil, eq_comm, List.map_eq_nil_iff] at same
  rw [same]
  exact .nil

theorem cons {x : A} {xs : List A} (here : ∀ y, f x = f y → R x y) (rest : Separates f R xs) :
    Separates f R (x :: xs) := by
  intro ys same
  cases ys with
  | nil => cases same
  | cons y ys =>
    rw [List.map_cons, List.map_cons, List.cons.injEq] at same
    exact .cons (here y same.1) (rest ys same.2)

theorem append {xs ys : List A} (first : Separates f R xs) (second : Separates f R ys) :
    Separates f R (xs ++ ys) := by
  intro zs same
  rw [List.map_append, eq_comm, List.map_eq_append_iff] at same
  obtain ⟨front, back, rfl, front_eq, back_eq⟩ := same
  exact List.rel_append (first front front_eq.symm) (second back back_eq.symm)

end Separates

theorem map_pair_eq {g : A → C} {xs ys : List A} (first : xs.map f = ys.map f)
    (second : xs.map g = ys.map g) :
    (xs.map fun x => (f x, g x)) = ys.map fun y => (f y, g y) := by
  rw [← List.zip_map', ← List.zip_map', first, second]

end Images

section Forms

/-- The text that a name or a constant is written with. -/
def Expr.nameText : Expr → Option String
  | .name id _ => some id
  | .booleanLiteral value _ => some (if value then "True" else "False")
  | .noneLiteral _ => some "None"
  | _ => none

/-- The items of what is written as a tuple. -/
def Expr.tupleElts : Expr → Option (List Expr)
  | .tuple elts _ _ => some elts
  | .list elts ctx _ => if ctx = .store then some elts else none
  | _ => none

/-- Integers with one value are the same, whatever the parser has kept of them. -/
inductive Number.Same : Number → Number → Prop where
  | small {n n' : IntLiteral} {x : Int64} : n.asI64 = some x → n'.asI64 = some x →
    Same (.int n) (.int n')
  | big {n n' : IntLiteral} : n.asI64 = none → n'.asI64 = none → n.toText = n'.toText →
    Same (.int n) (.int n')
  | float (bits : UInt64) : Same (.float bits) (.float bits)
  | complex (real imag : UInt64) : Same (.complex real imag) (.complex real imag)

/-- An item of an f-string as it is written. The debug text of a field is a text before it. -/
inductive FStringItem where
  | text (text : Bytes) (loc : Location)
  | field (expression : Expr) (conversion : ConversionFlag) (formatSpec : Option FormatSpec)

def fStringItems (c : Config) : List InterpolatedStringElement → List FStringItem
  | [] => []
  | .literal value range :: elements =>
    .text (utf8 value) (c.location range) :: fStringItems c elements
  | .interpolation expression debugText conversion formatSpec :: elements =>
    (debugText.map fun text => FStringItem.text (debugBytes c text expression.range)
        (c.location expression.range)).toList
      ++ .field expression (debugConversion debugText conversion formatSpec) formatSpec
        :: fStringItems c elements

/-- A lambda without parameters is one with an empty list. -/
def lambdaEntries : Option Parameters → List ParameterEntry
  | none => []
  | some parameters => parameters.entries

def ParameterEntry.kind (entry : ParameterEntry) : Int :=
  if entry.default.isSome then entry.kindWithDefault else entry.kindNoDefault

end Forms

variable (c : Config) (scope : Scope)

mutual

/-- The expressions have the same tree. -/
inductive Merged : Expr → Expr → Prop where
  /-- Constants are written as names. -/
  | name {e e' : Expr} {text : String} : e.nameText = some text → e'.nameText = some text →
    c.location e.range = c.location e'.range → Merged e e'
  /-- The target list of an assignment is written as a tuple. -/
  | tuple {e e' : Expr} {elts elts' : List Expr} : e.tupleElts = some elts →
    e'.tupleElts = some elts' → List.Forall₂ Merged elts elts' →
    c.location e.range = c.location e'.range → Merged e e'
  | list {elts elts' : List Expr} {ctx ctx' : ExprContext} {r r' : TextRange} : ctx ≠ .store →
    ctx' ≠ .store → List.Forall₂ Merged elts elts' → c.location r = c.location r' →
    Merged (.list elts ctx r) (.list elts' ctx' r')
  | set {elts elts' : List Expr} {r r' : TextRange} : List.Forall₂ Merged elts elts' →
    c.location r = c.location r' → Merged (.set elts r) (.set elts' r')
  | number {n n' : Number} {r r' : TextRange} : n.Same n' → c.location r = c.location r' →
    Merged (.numberLiteral n r) (.numberLiteral n' r')
  /-- Of concatenated literals the text is kept. -/
  | string {parts parts' : List StringLiteral} {r r' : TextRange} :
    concatText parts = concatText parts' → c.location r = c.location r' →
    Merged (.stringLiteral parts r) (.stringLiteral parts' r')
  | bytes {parts parts' : List (List UInt8)} {r r' : TextRange} :
    parts.flatten = parts'.flatten → c.location r = c.location r' →
    Merged (.bytesLiteral parts r) (.bytesLiteral parts' r')
  | ellipsis {r r' : TextRange} : c.location r = c.location r' →
    Merged (.ellipsisLiteral r) (.ellipsisLiteral r')
  | attribute {value value' : Expr} {attr attr' : Identifier} {r r' : TextRange} :
    Merged value value' → attr.id = attr'.id → c.location r = c.location r' →
    Merged (.attribute value attr r) (.attribute value' attr' r')
  | subscript {value value' slice slice' : Expr} {r r' : TextRange} : Merged value value' →
    Merged slice slice' → c.location r = c.location r' →
    Merged (.subscript value slice r) (.subscript value' slice' r')
  | slice {lower lower' upper upper' step step' : Option Expr} {r r' : TextRange} :
    Option.Rel Merged lower lower' → Option.Rel Merged upper upper' →
    Option.Rel Merged step step' → c.location r = c.location r' →
    Merged (.slice lower upper step r) (.slice lower' upper' step' r')
  | call {func func' : Expr} {args args' : List Expr} {keywords keywords' : List Keyword}
    {r r' : TextRange} : Merged func func' → List.Forall₂ MergedArgument args args' →
    List.Forall₂ MergedKeyword keywords keywords' → c.location r = c.location r' →
    Merged (.call func args keywords r) (.call func' args' keywords' r')
  /-- Binary operators are written without their location. -/
  | binOp {left left' right right' : Expr} (op : Operator) {r r' : TextRange} :
    Merged left left' → Merged right right' →
    Merged (.binOp left op right r) (.binOp left' op right' r')
  | unaryOp (op : UnaryOp) {operand operand' : Expr} {r r' : TextRange} :
    Merged operand operand' → c.location r = c.location r' →
    Merged (.unaryOp op operand r) (.unaryOp op operand' r')
  | boolOp (op : BoolOp) {values values' : List Expr} {r r' : TextRange} :
    List.Forall₂ Merged values values' → c.location r = c.location r' →
    Merged (.boolOp op values r) (.boolOp op values' r')
  | compare {left left' : Expr} (ops : List CmpOp) {others others' : List Expr}
    {r r' : TextRange} : Merged left left' → List.Forall₂ Merged others others' →
    c.location r = c.location r' → Merged (.compare left ops others r) (.compare left' ops others' r')
  | ifExp {test test' body body' orelse orelse' : Expr} {r r' : TextRange} : Merged test test' →
    Merged body body' → Merged orelse orelse' → c.location r = c.location r' →
    Merged (.ifExp test body orelse r) (.ifExp test' body' orelse' r')
  | named {target target' value value' : Expr} {r r' : TextRange} : Merged target target' →
    Merged value value' → c.location r = c.location r' →
    Merged (.named target value r) (.named target' value' r')
  | starred {value value' : Expr} {r r' : TextRange} : Merged value value' →
    c.location r = c.location r' → Merged (.starred value r) (.starred value' r')
  | await {value value' : Expr} {r r' : TextRange} : Merged value value' →
    c.location r = c.location r' → Merged (.await value r) (.await value' r')
  | yield {value value' : Option Expr} {r r' : TextRange} : Option.Rel Merged value value' →
    c.location r = c.location r' → Merged (.yield value r) (.yield value' r')
  | yieldFrom {value value' : Expr} {r r' : TextRange} : Merged value value' →
    c.location r = c.location r' → Merged (.yieldFrom value r) (.yieldFrom value' r')
  | generator {elt elt' : Expr} {generators generators' : List Comprehension} {r r' : TextRange} :
    Merged elt elt' → List.Forall₂ MergedComprehension generators generators' →
    c.location r = c.location r' → Merged (.generator elt generators r) (.generator elt' generators' r')
  | listComp {elt elt' : Expr} {generators generators' : List Comprehension} {r r' : TextRange} :
    Merged elt elt' → List.Forall₂ MergedComprehension generators generators' →
    c.location r = c.location r' → Merged (.listComp elt generators r) (.listComp elt' generators' r')
  | setComp {elt elt' : Expr} {generators generators' : List Comprehension} {r r' : TextRange} :
    Merged elt elt' → List.Forall₂ MergedComprehension generators generators' →
    c.location r = c.location r' → Merged (.setComp elt generators r) (.setComp elt' generators' r')
  | dictComp {key key' : Option Expr} {value value' : Expr}
    {generators generators' : List Comprehension} {r r' : TextRange} : Option.Rel Merged key key' →
    Merged value value' → List.Forall₂ MergedComprehension generators generators' →
    c.location r = c.location r' →
    Merged (.dictComp key value generators r) (.dictComp key' value' generators' r')
  /-- Where a key is required, a missing one is recovered as `None`. -/
  | recovered {key key' : Option Expr} {value value' : Expr}
    {generators generators' : List Comprehension} {r r' : TextRange} :
    c.cacheVersion < cvDictKeyOpt →
    Merged (key.getD (.noneLiteral r)) (key'.getD (.noneLiteral r')) → Merged value value' →
    List.Forall₂ MergedComprehension generators generators' → c.location r = c.location r' →
    Merged (.dictComp key value generators r) (.dictComp key' value' generators' r')
  | dict {items items' : List DictItem} {r r' : TextRange} :
    List.Forall₂ MergedDictItem items items' → c.location r = c.location r' →
    Merged (.dict items r) (.dict items' r')
  | fString {parts parts' : List FStringPart} {r r' : TextRange} :
    List.Forall₂ MergedPart parts parts' → c.location r = c.location r' →
    Merged (.fString parts r) (.fString parts' r')
  | tString {elements elements' : List InterpolatedStringElement} {r r' : TextRange} :
    List.Forall₂ MergedElement elements elements' → c.location r = c.location r' →
    Merged (.tString elements r) (.tString elements' r')
  | lambda {parameters parameters' : Option Parameters} {body body' : Expr} {r r' : TextRange} :
    List.Forall₂ MergedEntry (lambdaEntries parameters) (lambdaEntries parameters') →
    Merged body body' → c.location body.range = c.location body'.range →
    c.location r = c.location r' →
    Merged (.lambda parameters body r) (.lambda parameters' body' r')
  /-- The serializer panics at both. -/
  | command {r r' : TextRange} : Merged (.ipyEscapeCommand r) (.ipyEscapeCommand r')

/-- A starred argument is written as its value, and its kind says that it is one. -/
inductive MergedArgument : Expr → Expr → Prop where
  | mk {e e' : Expr} : argKind e = argKind e' → Merged e.unstarred e'.unstarred →
    MergedArgument e e'

inductive MergedKeyword : Keyword → Keyword → Prop where
  | mk {arg arg' : Option Identifier} {value value' : Expr} : arg.map (·.id) = arg'.map (·.id) →
    Merged value value' → MergedKeyword (.mk arg value) (.mk arg' value')

inductive MergedComprehension : Comprehension → Comprehension → Prop where
  | mk {target target' iter iter' : Expr} {ifs ifs' : List Expr} (isAsync : Bool) :
    Merged target target' → Merged iter iter' → List.Forall₂ Merged ifs ifs' →
    MergedComprehension (.mk target iter ifs isAsync) (.mk target' iter' ifs' isAsync)

inductive MergedDictItem : DictItem → DictItem → Prop where
  | mk {key key' : Option Expr} {value value' : Expr} : Option.Rel Merged key key' →
    Merged value value' → MergedDictItem (.mk key value) (.mk key' value')

inductive MergedEntry : ParameterEntry → ParameterEntry → Prop where
  | mk {entry entry' : ParameterEntry} : entry.parameter.name.id = entry'.parameter.name.id →
    entry.kind = entry'.kind →
    toWireParameterType c scope entry.parameter none
      = toWireParameterType c scope entry'.parameter none →
    Option.Rel Merged entry.default entry'.default → entry.posOnly = entry'.posOnly →
    c.location entry.parameter.range = c.location entry'.parameter.range →
    MergedEntry entry entry'

inductive MergedPart : FStringPart → FStringPart → Prop where
  | literal {lit lit' : StringLiteral} : lit.value = lit'.value →
    c.location lit.range = c.location lit'.range → MergedPart (.literal lit) (.literal lit')
  | fString {elements elements' : List InterpolatedStringElement} :
    List.Forall₂ MergedItem (fStringItems c elements) (fStringItems c elements') →
    MergedPart (.fString elements) (.fString elements')

inductive MergedItem : FStringItem → FStringItem → Prop where
  | text (text : Bytes) (loc : Location) : MergedItem (.text text loc) (.text text loc)
  | field {expression expression' : Expr} (conversion : ConversionFlag)
    {formatSpec formatSpec' : Option FormatSpec} : Merged expression expression' →
    Option.Rel MergedFormatSpec formatSpec formatSpec' →
    MergedItem (.field expression conversion formatSpec) (.field expression' conversion formatSpec')

inductive MergedFormatSpec : FormatSpec → FormatSpec → Prop where
  | mk {elements elements' : List InterpolatedStringElement} {r r' : TextRange} :
    List.Forall₂ MergedItem (fStringItems c elements) (fStringItems c elements') →
    c.location r = c.location r' → MergedFormatSpec (.mk elements r) (.mk elements' r')

/-- In a t-string the text of a field is kept with it, and no debug text. -/
inductive MergedElement : InterpolatedStringElement → InterpolatedStringElement → Prop where
  | literal (value : String) {r r' : TextRange} : c.location r = c.location r' →
    MergedElement (.literal value r) (.literal value r')
  | interpolation {expression expression' : Expr} {debugText debugText' : Option DebugText}
    (conversion : ConversionFlag) {formatSpec formatSpec' : Option FormatSpec} :
    Merged expression expression' → c.textAt expression.range = c.textAt expression'.range →
    Option.Rel MergedFormatSpec formatSpec formatSpec' →
    MergedElement (.interpolation expression debugText conversion formatSpec)
      (.interpolation expression' debugText' conversion formatSpec')

end

mutual

/-- Patterns have a form for each tag. -/
inductive MergedPattern : Pattern → Pattern → Prop where
  | matchAs {pattern pattern' : Option Pattern} {name name' : Option Identifier}
    {r r' : TextRange} : Option.Rel MergedPattern pattern pattern' →
    name.map (fun n => (n.id, c.location n.range)) = name'.map (fun n => (n.id, c.location n.range)) →
    c.location r = c.location r' → MergedPattern (.matchAs pattern name r) (.matchAs pattern' name' r')
  | matchOr {patterns patterns' : List Pattern} {r r' : TextRange} :
    List.Forall₂ MergedPattern patterns patterns' → c.location r = c.location r' →
    MergedPattern (.matchOr patterns r) (.matchOr patterns' r')
  | matchValue {value value' : Expr} {r r' : TextRange} : Merged c scope value value' →
    c.location r = c.location r' → MergedPattern (.matchValue value r) (.matchValue value' r')
  | matchSingleton (value : Singleton) {r r' : TextRange} : c.location r = c.location r' →
    MergedPattern (.matchSingleton value r) (.matchSingleton value r')
  | matchSequence {patterns patterns' : List Pattern} {r r' : TextRange} :
    List.Forall₂ MergedPattern patterns patterns' → c.location r = c.location r' →
    MergedPattern (.matchSequence patterns r) (.matchSequence patterns' r')
  | matchStar {name name' : Option Identifier} {r r' : TextRange} :
    name.map (fun n => (n.id, c.location n.range)) = name'.map (fun n => (n.id, c.location n.range)) →
    c.location r = c.location r' → MergedPattern (.matchStar name r) (.matchStar name' r')
  | matchMapping {items items' : List (Expr × Pattern)} {rest rest' : Option Identifier}
    {r r' : TextRange} : List.Forall₂ MergedMappingItem items items' →
    rest.map (fun n => (n.id, c.location n.range)) = rest'.map (fun n => (n.id, c.location n.range)) →
    c.location r = c.location r' →
    MergedPattern (.matchMapping items rest r) (.matchMapping items' rest' r')
  | matchClass {cls cls' : Expr} {patterns patterns' : List Pattern}
    {keywords keywords' : List (Identifier × Pattern)} {r r' : TextRange} :
    Merged c scope cls cls' → List.Forall₂ MergedPattern patterns patterns' →
    List.Forall₂ MergedKeywordPattern keywords keywords' → c.location r = c.location r' →
    MergedPattern (.matchClass cls patterns keywords r) (.matchClass cls' patterns' keywords' r')

inductive MergedMappingItem : Expr × Pattern → Expr × Pattern → Prop where
  | mk {key key' : Expr} {pattern pattern' : Pattern} : Merged c scope key key' →
    MergedPattern pattern pattern' → MergedMappingItem (key, pattern) (key', pattern')

inductive MergedKeywordPattern : Identifier × Pattern → Identifier × Pattern → Prop where
  | mk {attr attr' : Identifier} {pattern pattern' : Pattern} : attr.id = attr'.id →
    MergedPattern pattern pattern' → MergedKeywordPattern (attr, pattern) (attr', pattern')

end

section Trees

/-- The tree of an expression, with an expression for every key. -/
def Expr.tree (e : Expr) : WExpr c.cacheVersion := (toWireExpr c scope e).close

def Comprehension.tree : Comprehension → WComprehension c.cacheVersion
  | .mk target iter ifs isAsync =>
    .mk (target.tree c scope) (iter.tree c scope) (ifs.map (Expr.tree c scope)) isAsync

def ParameterEntry.tree (entry : ParameterEntry) : WParameter c.cacheVersion :=
  .mk entry.parameter.name.bytes entry.kind (toWireParameterType c scope entry.parameter none)
    (entry.default.map (Expr.tree c scope)) entry.posOnly (c.location entry.parameter.range)

def FormatSpec.tree (formatSpec : Option FormatSpec) : Option (WFormatSpec c.cacheVersion) :=
  closeFormatSpec (toWireFormatSpec c scope formatSpec)

def FStringItem.tree : FStringItem → WFStringElement c.cacheVersion
  | .text value loc => .literal value loc
  | .field expression conversion formatSpec =>
    .interpolation (expression.tree c scope) (fStringConversion conversion)
      (FormatSpec.tree c scope formatSpec)

def FStringPart.tree : FStringPart → WFStringPart c.cacheVersion
  | .literal lit => .literal (utf8 lit.value) (c.location lit.range)
  | .fString elements => .fString ((fStringItems c elements).map (FStringItem.tree c scope))

def InterpolatedStringElement.tree : InterpolatedStringElement → WTStringPart c.cacheVersion
  | .literal value range => .literal (utf8 value) (c.location range)
  | .interpolation expression _ conversion formatSpec =>
    .interpolation (expression.tree c scope)
      ((c.textAt expression.range).flatMap String.utf8EncodeChar) (tStringConversion conversion)
      (FormatSpec.tree c scope formatSpec)

def Pattern.tree (p : Pattern) : WPattern c.cacheVersion := (toWirePattern c scope p).close

variable {c scope}

theorem closeExprs_append {cv : Nat} (es es' : List (WExpr cv)) :
    closeExprs (es ++ es') = closeExprs es ++ closeExprs es' := by
  induction es with
  | nil => rfl
  | cons e es ih => rw [List.cons_append, closeExprs, closeExprs, ih, List.cons_append]

theorem trees_exprs (es : List Expr) :
    closeExprs (toWireExprs c scope es) = es.map (Expr.tree c scope) := by
  induction es with
  | nil => rfl
  | cons e es ih =>
    rw [toWireExprs, closeExprs, ih]
    rfl

theorem trees_optExpr (e : Option Expr) :
    closeOptExpr (toWireOptExpr c scope e) = e.map (Expr.tree c scope) := by
  cases e <;> rfl

theorem trees_callArgs (args : List Expr) :
    closeExprs (toWireCallArgs c scope args) = args.map fun arg => arg.unstarred.tree c scope := by
  induction args with
  | nil => rfl
  | cons arg args ih =>
    rw [toWireCallArgs_cons, closeExprs, ih]
    rfl

theorem trees_keywords (keywords : List Keyword) :
    closeExprs (toWireKeywordValues c scope keywords)
      = keywords.map fun keyword => keyword.value.tree c scope := by
  induction keywords with
  | nil => rfl
  | cons keyword keywords ih =>
    obtain ⟨arg, value⟩ := keyword
    rw [toWireKeywordValues, closeExprs, ih]
    rfl

theorem trees_comprehensions (generators : List Comprehension) :
    closeComprehensions (toWireComprehensions c scope generators)
      = generators.map (Comprehension.tree c scope) := by
  induction generators with
  | nil => rfl
  | cons generator generators ih =>
    obtain ⟨target, iter, ifs, isAsync⟩ := generator
    rw [toWireComprehensions, closeComprehensions, ih, trees_exprs]
    rfl

theorem trees_dictKeys (items : List DictItem) :
    closeKeys (toWireDictKeys c scope items)
      = items.map fun item => item.key.map (Expr.tree c scope) := by
  induction items with
  | nil => rfl
  | cons item items ih =>
    obtain ⟨key, value⟩ := item
    rw [toWireDictKeys, closeKeys, ih, trees_optExpr]
    rfl

theorem trees_dictValues (items : List DictItem) :
    closeExprs (toWireDictValues c scope items)
      = items.map fun item => item.value.tree c scope := by
  induction items with
  | nil => rfl
  | cons item items ih =>
    obtain ⟨key, value⟩ := item
    rw [toWireDictValues, closeExprs, ih]
    rfl

theorem trees_fStringItems (elements : List InterpolatedStringElement) :
    closeElements (toWireElements c scope elements)
      = (fStringItems c elements).map (FStringItem.tree c scope) := by
  induction elements with
  | nil => rfl
  | cons element elements ih =>
    cases element with
    | literal value range =>
      rw [toWireElements, closeElements, ih]
      rfl
    | interpolation expression debugText conversion formatSpec =>
      cases debugText with
      | none =>
        simp only [toWireElements, List.nil_append, closeElements, ih]
        rfl
      | some text =>
        simp only [toWireElements, List.cons_append, List.nil_append, closeElements, ih]
        rfl

theorem trees_fStringParts (parts : List FStringPart) :
    closeFStringParts (toWireFStringParts c scope parts)
      = parts.map (FStringPart.tree c scope) := by
  induction parts with
  | nil => rfl
  | cons part parts ih =>
    cases part with
    | literal lit =>
      rw [toWireFStringParts, closeFStringParts, ih]
      rfl
    | fString elements =>
      rw [toWireFStringParts, closeFStringParts, ih, trees_fStringItems]
      rfl

theorem trees_tStringElements (elements : List InterpolatedStringElement) :
    closeTStringParts (toWireTStringElements c scope elements)
      = elements.map (InterpolatedStringElement.tree c scope) := by
  induction elements with
  | nil => rfl
  | cons element elements ih =>
    cases element <;>
    · rw [toWireTStringElements, closeTStringParts, ih]
      rfl

theorem tree_entry (entry : ParameterEntry) :
    closeParameters [toWireEntry c scope entry none] = [entry.tree c scope] := by
  obtain ⟨parameter, start, default, kind, kind', posOnly⟩ := entry
  cases default <;> rfl

theorem trees_entries (parameters : Parameters) :
    closeParameters (toWireParameters c scope (List.replicate parameters.len none) parameters)
      = parameters.entries.map (ParameterEntry.tree c scope) := by
  rw [toWireParameters_zip c scope _ _ List.length_replicate]
  have length : parameters.entries.length = parameters.len := by
    rw [← parameters.starts_length, ← entries_starts, List.length_map]
  rw [← length]
  generalize parameters.entries = entries
  induction entries with
  | nil => rfl
  | cons entry entries ih =>
    have here := @tree_entry c scope entry
    rw [List.length_cons, List.replicate_succ, List.zipWith_cons_cons, List.map_cons, ← ih]
    rw [toWireEntry, toWireArgument, closeParameters, closeParameters] at here
    rw [toWireEntry, toWireArgument, closeParameters, (List.cons.inj here).1]

theorem trees_optPattern (p : Option Pattern) :
    closeOptPattern (toWireOptPattern c scope p) = p.map (Pattern.tree c scope) := by
  cases p <;> rfl

theorem trees_patterns (ps : List Pattern) :
    closePatterns (toWirePatterns c scope ps) = ps.map (Pattern.tree c scope) := by
  induction ps with
  | nil => rfl
  | cons p ps ih =>
    rw [toWirePatterns, closePatterns, ih]
    rfl

theorem trees_mappingItems (items : List (Expr × Pattern)) :
    closeItems (toWireMappingItems c scope items)
      = items.map fun item => (item.1.tree c scope, item.2.tree c scope) := by
  induction items with
  | nil => rfl
  | cons item items ih =>
    obtain ⟨key, pattern⟩ := item
    rw [toWireMappingItems, closeItems, ih]
    rfl

theorem trees_keywordPatterns (keywords : List (Identifier × Pattern)) :
    closeKeywordPatterns (toWireKeywordPatterns c scope keywords)
      = keywords.map fun keyword => (keyword.1.bytes, keyword.2.tree c scope) := by
  induction keywords with
  | nil => rfl
  | cons keyword keywords ih =>
    obtain ⟨attr, pattern⟩ := keyword
    rw [toWireKeywordPatterns, closeKeywordPatterns, ih]
    rfl

end Trees

section Names

theorem utf8EncodeChar_injective {s t : List Char}
    (same : s.flatMap String.utf8EncodeChar = t.flatMap String.utf8EncodeChar) : s = t := by
  have strings : utf8 (String.ofList s) = utf8 (String.ofList t) := by
    rwa [utf8, utf8, String.toList_ofList, String.toList_ofList]
  exact String.ofList_injective (utf8_injective strings)

theorem fStringConversion_injective : Function.Injective fStringConversion := by
  intro conversion conversion' same
  cases conversion <;> cases conversion' <;> first | rfl | exact absurd same (by decide)

theorem tStringConversion_injective : Function.Injective tStringConversion := by
  intro conversion conversion' same
  cases conversion <;> cases conversion' <;> first | rfl | exact absurd same (by decide)

theorem names_eq {name name' : Option Identifier}
    (same : name.map Identifier.bytes = name'.map Identifier.bytes) :
    name.map (·.id) = name'.map (·.id) := by
  cases name <;> cases name'
  · rfl
  · cases same
  · cases same
  · exact congrArg some (utf8_injective (Option.some.inj same))

end Names

end AstSerialize
