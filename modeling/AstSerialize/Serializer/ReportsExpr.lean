import AstSerialize.Serializer.Pattern
import AstSerialize.Serializer.Reports

/-! What expressions are reported for: template strings, dictionary comprehensions
that lack a key, and types that a lambda cannot have. -/
namespace AstSerialize
open Coding

section Notes

variable (c : Config)

/-- A parameter may have its type in an annotation or in a comment. -/
def argumentNotes (param : Parameter) (argComment : Option Expr) : Notes :=
  if param.annotated.isSome && argComment.isSome then
    errorNote c "Function has duplicate type signatures" param.range false
  else 0

def variadicNotes (argComments : List (Option Expr)) (idx : Nat) : Option Parameter → Notes
  | none => 0
  | some param => argumentNotes c param argComments[idx]?.join

mutual

/-- What an expression is reported for, in the order in which its parts are written. -/
def exprNotes : Expr → Notes
  | .name .. | .stringLiteral .. | .numberLiteral .. | .booleanLiteral .. | .noneLiteral ..
  | .ellipsisLiteral .. | .bytesLiteral .. | .ipyEscapeCommand _ => 0
  | .attribute value _ _ | .unaryOp _ value _ | .yieldFrom value _ | .starred value _
  | .await value _ => exprNotes value
  | .binOp left _ right _ | .subscript left right _ | .named left right _ =>
    exprNotes left + exprNotes right
  | .call func args keywords _ => exprNotes func + (exprsNotes args + keywordsNotes keywords)
  | .list elts _ _ | .tuple elts _ _ | .set elts _ | .boolOp _ elts _ => exprsNotes elts
  | .generator elt generators _ | .listComp elt generators _ | .setComp elt generators _ =>
    exprNotes elt + (targetsNotes generators + (itersNotes generators + condsNotes generators))
  | .dictComp key value generators range =>
    (if cvDictKeyOpt ≤ c.cacheVersion then optExprNotes key else keyNotes range key)
      + (exprNotes value
        + (targetsNotes generators + (itersNotes generators + condsNotes generators)))
  | .yield value _ => optExprNotes value
  | .compare left _ comparators _ => exprNotes left + exprsNotes comparators
  | .ifExp test body orelse _ => exprNotes body + (exprNotes test + exprNotes orelse)
  | .dict items _ => keysNotes items + valuesNotes items
  | .slice lower upper step _ => optExprNotes lower + (optExprNotes upper + optExprNotes step)
  | .fString value _ => fStringPartsNotes value
  | .lambda (some parameters) body _ =>
    parametersNotes (List.replicate parameters.len none) parameters + exprNotes body
  | .lambda none body _ => exprNotes body
  | .tString elements _ => ⟨true, []⟩ + tStringElementsNotes elements

def exprsNotes : List Expr → Notes
  | [] => 0
  | e :: es => exprNotes e + exprsNotes es

def optExprNotes : Option Expr → Notes
  | none => 0
  | some e => exprNotes e

/-- A key that cannot be left out yet. -/
def keyNotes (range : TextRange) : Option Expr → Notes
  | none => errorNote c "PEP 798 is not supported yet" range true
  | some key => exprNotes key

def keywordsNotes : List Keyword → Notes
  | [] => 0
  | .mk _ value :: keywords => exprNotes value + keywordsNotes keywords

def targetsNotes : List Comprehension → Notes
  | [] => 0
  | .mk target _ _ _ :: generators => exprNotes target + targetsNotes generators

def itersNotes : List Comprehension → Notes
  | [] => 0
  | .mk _ iter _ _ :: generators => exprNotes iter + itersNotes generators

def condsNotes : List Comprehension → Notes
  | [] => 0
  | .mk _ _ ifs _ :: generators => exprsNotes ifs + condsNotes generators

def keysNotes : List DictItem → Notes
  | [] => 0
  | .mk key _ :: items => optExprNotes key + keysNotes items

def valuesNotes : List DictItem → Notes
  | [] => 0
  | .mk _ value :: items => exprNotes value + valuesNotes items

def parametersNotes (argComments : List (Option Expr)) : Parameters → Notes
  | .mk posonlyargs args vararg kwonlyargs kwarg =>
    defaultsNotes argComments 0 posonlyargs
      + (defaultsNotes argComments posonlyargs.length args
      + (variadicNotes c argComments (posonlyargs.length + args.length) vararg
      + (defaultsNotes argComments (posonlyargs.length + args.length + vararg.toList.length)
          kwonlyargs
      + variadicNotes c argComments
          (posonlyargs.length + args.length + vararg.toList.length + kwonlyargs.length) kwarg)))

def defaultsNotes (argComments : List (Option Expr)) (idx : Nat) :
    List ParameterWithDefault → Notes
  | [] => 0
  | .mk parameter default _ :: parameters =>
    argumentNotes c parameter argComments[idx]?.join + optExprNotes default
      + defaultsNotes argComments (idx + 1) parameters

def fStringPartsNotes : List FStringPart → Notes
  | [] => 0
  | .fString elements :: parts => elementsNotes elements + fStringPartsNotes parts
  | .literal _ :: parts => fStringPartsNotes parts

def elementsNotes : List InterpolatedStringElement → Notes
  | [] => 0
  | .literal _ _ :: elements => elementsNotes elements
  | .interpolation expression _ _ formatSpec :: elements =>
    exprNotes expression + (formatSpecNotes formatSpec + elementsNotes elements)

def formatSpecNotes : Option FormatSpec → Notes
  | none => 0
  | some (.mk elements _) => elementsNotes elements

def tStringElementsNotes : List InterpolatedStringElement → Notes
  | [] => 0
  | .literal _ _ :: elements => tStringElementsNotes elements
  | .interpolation expression _ _ formatSpec :: elements =>
    exprNotes expression + (formatSpecNotes formatSpec + tStringElementsNotes elements)

end

end Notes

section Strings

variable {inClass : Bool} (c : Config)

theorem silent_optBytes (b : Option Bytes) : Reports inClass (writeOptBytes b) 0 := by
  cases b with
  | none => exact silent_bool _
  | some b => exact .pass (silent_bool _) (silent_bytes b)

theorem silent_ints (is : List Int) : Reports inClass (writeInts is) 0 := by
  induction is with
  | nil => exact .pure
  | cons i is ih => exact .pass (silent_int i) ih

theorem silent_names (names : List (Option Bytes)) : Reports inClass (writeNames names) 0 := by
  induction names with
  | nil => exact .pure
  | cons name names ih => exact .pass (silent_bytesOrNone name) ih

theorem silent_float (bits : UInt64) : Reports inClass (writeFloat bits) 0 :=
  .pass (silent_tag _) (silent_extend _)

theorem silent_asyncs (generators : List Comprehension) :
    Reports inClass (writeAsyncs generators) 0 := by
  induction generators with
  | nil => exact .pure
  | cons generator generators ih =>
    obtain ⟨target, iter, ifs, isAsync⟩ := generator
    exact .pass (silent_bool isAsync) ih

theorem silent_surrogates : Reports inClass (writeSurrogates c) 0 := by
  unfold writeSurrogates
  split
  · exact .read fun _ _ => silent_bool _
  · exact .pure

theorem silent_reset : Reports inClass resetSurrogates 0 :=
  silent_modify (fun _ here => here) fun _ => rfl

theorem silent_check (value : String) (range : TextRange) :
    Reports inClass (checkSurrogateCodepoint c value range) 0 := by
  unfold checkSurrogateCodepoint
  split
  · refine .read fun s _ => ?_
    split
    · exact .pure
    · cases scanSurrogates 0 (c.textAt range) with
      | none => exact silent_panic
      | some found =>
        cases found with
        | false => exact .pure
        | true => exact silent_modify (fun _ here => here) fun _ => rfl
  · exact .pure

theorem silent_stringParts (parts : List StringLiteral) :
    Reports inClass (serializeStringParts c parts) 0 := by
  induction parts with
  | nil => exact .pure
  | cons part parts ih =>
    exact .pass (silent_extend _) <| .pass (silent_check c part.value part.range) ih

theorem silent_number (value : Number) : Reports inClass (serializeNumber value) 0 := by
  cases value with
  | int n =>
    simp only [serializeNumber]
    cases n.asI64 with
    | some x => exact .pass (silent_tag _) (silent_taggedInt _)
    | none => exact .pass (silent_tag _) (silent_bytes _)
  | float bits => exact .pass (silent_tag _) (silent_float bits)
  | complex real imag => exact .pass (silent_tag _) <| .pass (silent_float real) (silent_float imag)

theorem reports_comprehension {elt targets iters conds : SerM Unit} {a b d e : Notes}
    (first : Reports inClass elt a) (second : Reports inClass targets b)
    (third : Reports inClass iters d) (last : Reports inClass conds e)
    (generators : List Comprehension) (range : TextRange) :
    Reports inClass (serializeComprehension c elt targets iters conds generators range)
      (a + (b + (d + e))) :=
  .bind first <| .pass (silent_taggedInt _) <| .bind second <| .bind third <|
    .close last <| .pass (silent_asyncs generators) (silent_location c range)

theorem reports_argument {writeDefault : SerM Unit} {n : Notes}
    (default : Reports inClass writeDefault n) (param : Parameter) (argComment : Option Expr)
    (hasDefault : Bool) (kindNoDefault kindWithDefault : Int) (posOnly : Bool) :
    Reports inClass (serializeArgument c param argComment hasDefault writeDefault kindNoDefault
      kindWithDefault posOnly) (argumentNotes c param argComment + n) := by
  have rest : Reports inClass (do
      writeDefault
      writeBool posOnly
      writeLocation c param.range) n :=
    .close default <| .pass (silent_bool _) (silent_location c param.range)
  unfold serializeArgument argumentNotes
  refine .pass (silent_bytes _) <| .pass (silent_taggedInt _) ?_
  cases param.annotated with
  | none =>
    refine .congr ?_ (zero_add n).symm
    cases argComment with
    | none => exact .pass (silent_bool false) rest
    | some comment =>
      exact .pass (silent_bool true) <| .pass (reports_unevaluated (silent_type _)) rest
  | some ann =>
    have annotated : Reports inClass (do
        writeBool true
        serializeType c ann
        writeDefault
        writeBool posOnly
        writeLocation c param.range) n := .pass (silent_bool true) <| .pass (silent_type ann) rest
    cases argComment with
    | none => exact .congr annotated (zero_add n).symm
    | some comment => exact .bind (reports_error c _ _ false) annotated

theorem reports_variadic (argComments : List (Option Expr)) (idx : Nat) (kind : Int)
    (param : Option Parameter) :
    Reports inClass (serializeVariadic c argComments idx kind param)
      (variadicNotes c argComments idx param) := by
  cases param with
  | none => exact .pure
  | some param =>
    unfold serializeVariadic variadicNotes
    cases argComments[idx]? with
    | none => exact silent_panic
    | some comment =>
      exact .congr (reports_argument c (silent_bool _) param comment false kind kind false)
        (add_zero _)

end Strings

section Exprs

variable {inClass : Bool} {c : Config}

/-- In place of a key that is missing the name `None` is written. -/
theorem reports_missingKey (range : TextRange) :
    Reports inClass (serializeKey c range none)
      (errorNote c "PEP 798 is not supported yet" range true) :=
  .close (reports_error c _ range true) <|
    .pass (silent_tag _) <| .pass (silent_bytes _) (silent_location c range)

theorem reports_vec {items : SerM Unit} {n : Notes} (len : Nat) (h : Reports inClass items n) :
    Reports inClass (serializeVec len items) n :=
  .pass (silent_tag _) <| .pass (silent_count _) h

/-- The block of a lambda reports what its expression does. -/
theorem reports_lambdaBody {m : SerM Unit} {n : Notes} (body : Reports inClass m n)
    (bodyRange range : TextRange) :
    Reports inClass (do
      writeTag .block
      writeTag .listGen
      writeInt 1
      writeBool (← (·.currentUnreachable) <$> get)
      writeTag .return
      writeBool true
      m
      writeLocation c bodyRange
      writeEndTag
      writeEndTag
      writeLocation c range
      writeEndTag) n := by
  refine .pass (silent_tag _) <| .pass (silent_tag _) <| .pass (silent_int _) ?_
  refine .read fun _ _ => .pass (silent_bool _) ?_
  refine .pass (silent_tag _) <| .pass (silent_bool _) <| .close body ?_
  refine .pass (silent_location c bodyRange) <| .pass silent_end ?_
  exact .pass silent_end (silent_close c range)

mutual

theorem reports_expr : ∀ e : Expr,
    Reports inClass (serializeExpr c e) (exprNotes c e)
  | .name _ range => .pass (silent_tag _) <| .pass (silent_bytes _) (silent_close c range)
  | .attribute value _ range =>
    .pass (silent_tag _) <| .close (reports_expr value) <|
      .pass (silent_bytes _) (silent_close c range)
  | .stringLiteral value range =>
    .pass (silent_tag _) <| .pass (silent_tag _) <| .pass (silent_count _) <|
      .pass silent_reset <| .pass (silent_stringParts c value) <|
      .pass (silent_surrogates c) (silent_close c range)
  | .call func args keywords range => by
    refine .pass (silent_tag _) <| .bind (reports_expr func) ?_
    refine .pass (silent_tag _) <| .pass (silent_int _) ?_
    refine .bind (reports_callArgs args) <| .close (reports_keywordValues keywords) ?_
    -- after the last value come the kinds and the names, which report nothing
    refine .pass (silent_tag _) <| .pass (silent_int _) ?_
    refine .pass (silent_ints _) <| .pass (silent_ints _) ?_
    refine .pass (silent_tag _) <| .pass (silent_int _) ?_
    exact .pass (silent_names _) <| .pass (silent_names _) (silent_close c range)
  | .binOp left op right _ =>
    .pass (silent_tag _) <| .pass (silent_taggedInt _) <| .bind (reports_expr left) <|
      .close (reports_expr right) silent_end
  | .numberLiteral value range =>
    .pass (silent_number value) (silent_close c range)
  | .subscript value slice range =>
    .pass (silent_tag _) <| .bind (reports_expr value) <| .close (reports_expr slice) <|
      silent_close c range
  | .list elts _ range | .tuple elts _ range | .set elts range =>
    .pass (silent_tag _) <| .close (reports_vec _ (reports_exprs elts)) (silent_close c range)
  | .generator elt generators range | .listComp elt generators range
  | .setComp elt generators range =>
    .pass (silent_tag _) <| .close (reports_comprehension c (reports_expr elt)
      (reports_targets generators) (reports_iters generators) (reports_conds generators)
      generators range) silent_end
  | .dictComp key value generators range => by
    have rest := reports_comprehension c (reports_expr value) (reports_targets generators)
      (reports_iters generators) (reports_conds generators) generators range
    simp only [serializeExpr, exprNotes]
    split
    · exact .pass (silent_tag _) <| .bind (reports_optExpr key) <|
        .close rest silent_end
    · cases key with
      | none =>
        exact .pass (silent_tag _) <| .bind (reports_missingKey range) <|
          .close rest silent_end
      | some key =>
        exact .pass (silent_tag _) <| .bind (reports_expr key) <|
          .close rest silent_end
  | .yield value range =>
    .pass (silent_tag _) <| .close (reports_optExpr value) (silent_close c range)
  | .yieldFrom value range | .starred value range | .await value range =>
    .pass (silent_tag _) <| .close (reports_expr value) (silent_close c range)
  | .boolOp _ values range =>
    .pass (silent_tag _) <| .pass (silent_taggedInt _) <|
      .close (reports_vec _ (reports_exprs values)) (silent_close c range)
  | .compare left ops comparators range =>
    .pass (silent_tag _) <| .bind (reports_expr left) <| .pass (silent_tag _) <|
      .pass (silent_count _) <| .pass (silent_ints _) <|
      .close (reports_vec _ (reports_exprs comparators)) (silent_close c range)
  | .booleanLiteral _ range => .pass (silent_tag _) <| .pass (silent_bytes _) (silent_close c range)
  | .noneLiteral range => .pass (silent_tag _) <| .pass (silent_bytes _) (silent_close c range)
  | .ellipsisLiteral range => .pass (silent_tag _) (silent_close c range)
  | .ifExp test body orelse range =>
    .pass (silent_tag _) <| .bind (reports_expr body) <| .bind (reports_expr test) <|
      .close (reports_expr orelse) (silent_close c range)
  | .unaryOp _ operand range =>
    .pass (silent_tag _) <| .pass (silent_taggedInt _) <| .close (reports_expr operand)
      (silent_close c range)
  | .dict items range => by
    refine .pass (silent_tag _) <| .pass (silent_tag _) <| .pass (silent_int _) ?_
    refine .bind (reports_dictKeys items) <| .pass (silent_tag _) <| .pass (silent_int _) ?_
    exact .close (reports_dictValues items) (silent_close c range)
  | .slice lower upper step range =>
    .pass (silent_tag _) <| .bind (reports_optExpr lower) <|
      .bind (reports_optExpr upper) <| .close (reports_optExpr step) (silent_close c range)
  | .fString value range =>
    .pass (silent_tag _) <| .pass (silent_taggedInt _) <| .pass silent_reset <|
      .close (reports_fStringParts value) <| .pass (silent_surrogates c) (silent_close c range)
  | .lambda (some parameters) body range => by
    have header := reports_parameters (List.replicate parameters.len none) parameters
    refine .pass (silent_tag _) <| .bind header ?_
    exact reports_lambdaBody (reports_expr body) body.range range
  | .lambda none body range => by
    refine .pass (silent_tag _) <| .pass (silent_tag _) <| .pass (silent_int _) ?_
    exact reports_lambdaBody (reports_expr body) body.range range
  | .named target value range =>
    .pass (silent_tag _) <| .bind (reports_expr target) <|
      .close (reports_expr value) (silent_close c range)
  | .bytesLiteral _ range => .pass (silent_tag _) <| .pass (silent_bytes _) (silent_close c range)
  | .tString elements range => by
    have noted : Reports inClass (modify fun s => { s with usesTemplateStrings := true })
        ⟨true, []⟩ :=
      .modify (fun _ here => here) fun s => by simp [Serializer.notes, Notes.ext_iff]
    exact .bind noted <| .pass (silent_tag _) <| .pass (silent_taggedInt _) <|
      .pass silent_reset <| .close (reports_tStringElements elements) <|
      .pass (silent_surrogates c) (silent_close c range)
  | .ipyEscapeCommand _ => silent_panic

theorem reports_exprs : ∀ es : List Expr,
    Reports inClass (serializeExprs c es) (exprsNotes c es)
  | [] => .pure
  | e :: es => .bind (reports_expr e) (reports_exprs es)

theorem reports_optExpr : ∀ e : Option Expr,
    Reports inClass (serializeOptExpr c e) (optExprNotes c e)
  | none => silent_bool false
  | some e => .pass (silent_bool true) (reports_expr e)

theorem reports_callArgs : ∀ args : List Expr,
    Reports inClass (serializeCallArgs c args) (exprsNotes c args)
  | [] => .pure
  | arg :: args => by
    have rest := reports_callArgs args
    cases arg with
    | starred value range => exact .bind (reports_expr value) rest
    | _ => exact .bind (reports_expr _) rest

theorem reports_keywordValues : ∀ keywords : List Keyword,
    Reports inClass (serializeKeywordValues c keywords) (keywordsNotes c keywords)
  | [] => .pure
  | .mk _ value :: keywords =>
    .bind (reports_expr value) (reports_keywordValues keywords)

theorem reports_targets : ∀ generators : List Comprehension,
    Reports inClass (serializeTargets c generators) (targetsNotes c generators)
  | [] => .pure
  | .mk target _ _ _ :: generators =>
    .bind (reports_expr target) (reports_targets generators)

theorem reports_iters : ∀ generators : List Comprehension,
    Reports inClass (serializeIters c generators) (itersNotes c generators)
  | [] => .pure
  | .mk _ iter _ _ :: generators =>
    .bind (reports_expr iter) (reports_iters generators)

theorem reports_conds : ∀ generators : List Comprehension,
    Reports inClass (serializeConds c generators) (condsNotes c generators)
  | [] => .pure
  | .mk _ _ ifs _ :: generators =>
    .bind (reports_vec _ (reports_exprs ifs)) (reports_conds generators)

theorem reports_dictKeys : ∀ items : List DictItem,
    Reports inClass (serializeDictKeys c items) (keysNotes c items)
  | [] => .pure
  | .mk key _ :: items => .bind (reports_optExpr key) (reports_dictKeys items)

theorem reports_dictValues : ∀ items : List DictItem,
    Reports inClass (serializeDictValues c items) (valuesNotes c items)
  | [] => .pure
  | .mk _ value :: items => .bind (reports_expr value) (reports_dictValues items)

theorem reports_parameters (argComments : List (Option Expr)) : ∀ parameters : Parameters,
    Reports inClass (serializeParameters c argComments parameters)
      (parametersNotes c argComments parameters)
  | .mk posonlyargs args vararg kwonlyargs kwarg =>
    .pass (silent_tag _) <| .pass (silent_int _) <|
      .bind (reports_defaults argComments _ _ _ _ posonlyargs) <|
      .bind (reports_defaults argComments _ _ _ _ args) <|
      .bind (reports_variadic c argComments _ _ vararg) <|
      .bind (reports_defaults argComments _ _ _ _ kwonlyargs) <|
      reports_variadic c argComments _ _ kwarg

theorem reports_defaults (argComments : List (Option Expr)) (idx : Nat)
    (kindNoDefault kindWithDefault : Int) (posOnly : Parameter → Bool) :
    ∀ parameters : List ParameterWithDefault,
    Reports inClass
      (serializeDefaults c argComments idx kindNoDefault kindWithDefault posOnly parameters)
      (defaultsNotes c argComments idx parameters)
  | [] => .pure
  | .mk parameter default _ :: parameters => by
    have rest := reports_defaults argComments (idx + 1) kindNoDefault kindWithDefault posOnly
      parameters
    simp only [serializeDefaults, defaultsNotes]
    cases argComments[idx]? with
    | none => exact .bind silent_panic rest
    | some comment =>
      exact .bind (reports_argument c (reports_optExpr default) parameter comment default.isSome
        kindNoDefault kindWithDefault (posOnly parameter)) rest

theorem reports_fStringParts : ∀ parts : List FStringPart,
    Reports inClass (serializeFStringParts c parts) (fStringPartsNotes c parts)
  | [] => .pure
  | .fString elements :: parts =>
    .pass (silent_bool true) <| .pass (silent_taggedInt _) <|
      .bind (reports_elements elements) (reports_fStringParts parts)
  | .literal _ :: parts =>
    .pass (silent_bool false) <| .pass (silent_bytes _) <| .pass (silent_check c _ _) <|
      .pass (silent_location c _) (reports_fStringParts parts)

theorem reports_elements : ∀ elements : List InterpolatedStringElement,
    Reports inClass (serializeFStringElements c elements) (elementsNotes c elements)
  | [] => .pure
  | .literal _ range :: elements =>
    .pass (silent_bytes _) <| .pass (silent_check c _ range) <| .pass (silent_location c range)
      (reports_elements elements)
  | .interpolation expression debugText conversion formatSpec :: elements => by
    have item : Reports inClass (do
        writeTag .fstringInterpolation
        serializeExpr c expression
        writeOptBytes (fStringConversion (debugConversion debugText conversion formatSpec))
        serializeFormatSpec c formatSpec
        writeEndTag
        serializeFStringElements c elements)
        (exprNotes c expression + (formatSpecNotes c formatSpec + elementsNotes c elements)) :=
      .pass (silent_tag _) <| .bind (reports_expr expression) <|
        .pass (silent_optBytes _) <| .bind (reports_formatSpec formatSpec) <|
        .pass silent_end (reports_elements elements)
    cases debugText with
    | none => exact item
    | some text => exact .pass (silent_bytes _) <| .pass (silent_location c _) item

theorem reports_formatSpec : ∀ formatSpec : Option FormatSpec,
    Reports inClass (serializeFormatSpec c formatSpec) (formatSpecNotes c formatSpec)
  | none => silent_bool false
  | some (.mk elements range) =>
    .pass (silent_bool true) <| .pass (silent_taggedInt _) <|
      .close (reports_elements elements) (silent_location c range)

theorem reports_tStringElements : ∀ elements : List InterpolatedStringElement,
    Reports inClass (serializeTStringElements c elements) (tStringElementsNotes c elements)
  | [] => .pure
  | .interpolation expression _ _ formatSpec :: elements =>
    .pass (silent_bool true) <| .bind (reports_expr expression) <|
      .pass (silent_bytes _) <| .pass (silent_optBytes _) <|
      .bind (reports_formatSpec formatSpec) (reports_tStringElements elements)
  | .literal _ range :: elements =>
    .pass (silent_bool false) <| .pass (silent_bytes _) <| .pass (silent_check c _ range) <|
      .pass (silent_location c range) (reports_tStringElements elements)

end

end Exprs

end AstSerialize
