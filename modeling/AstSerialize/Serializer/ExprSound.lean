import AstSerialize.Serializer.ExprTree
import AstSerialize.Serializer.TypesSound
import AstSerialize.Wire.ExprDecoder

/-! Serializing an expression emits the encoding of its tree, moves the flag of
surrogates and leaves the rest of the state as it was. -/
namespace AstSerialize
open Coding

section Lists

variable {cv : Nat}

theorem encExprs_append (es fs : List (WExpr cv)) :
    encExprs (es ++ fs) = encExprs es ++ encExprs fs := by
  induction es with
  | nil => rfl
  | cons e es ih => simp [encExprs, ih]

theorem encInts_append (is js : List Int) : encInts (is ++ js) = encInts is ++ encInts js := by
  induction is with
  | nil => rfl
  | cons i is ih => simp [encInts, ih]

theorem encNames_append (names more : List (Option Bytes)) :
    encNames (names ++ more) = encNames names ++ encNames more := by
  induction names with
  | nil => rfl
  | cons name names ih => simp [encNames, ih]

theorem encParameters_append (parameters more : List (WParameter cv)) :
    encParameters (parameters ++ more) = encParameters parameters ++ encParameters more := by
  induction parameters with
  | nil => rfl
  | cons parameter parameters ih =>
    cases parameter
    simp [encParameters, ih]

variable (c : Config) (scope : Scope)

theorem toWireExprs_length (es : List Expr) : (toWireExprs c scope es).length = es.length := by
  induction es with
  | nil => rfl
  | cons e es ih => simp [toWireExprs, ih]

theorem toWireCallArgs_length (args : List Expr) :
    (toWireCallArgs c scope args).length = args.length := by
  induction args with
  | nil => rfl
  | cons arg args ih => cases arg <;> simp [toWireCallArgs, ih]

theorem toWireKeywordValues_length (keywords : List Keyword) :
    (toWireKeywordValues c scope keywords).length = keywords.length := by
  induction keywords with
  | nil => rfl
  | cons keyword keywords ih =>
    cases keyword
    simp [toWireKeywordValues, ih]

theorem toWireComprehensions_length (generators : List Comprehension) :
    (toWireComprehensions c scope generators).length = generators.length := by
  induction generators with
  | nil => rfl
  | cons generator generators ih =>
    cases generator
    simp [toWireComprehensions, ih]

theorem toWireDictKeys_length (items : List DictItem) :
    (toWireDictKeys c scope items).length = items.length := by
  induction items with
  | nil => rfl
  | cons item items ih =>
    cases item
    simp [toWireDictKeys, ih]

theorem toWireDictValues_length (items : List DictItem) :
    (toWireDictValues c scope items).length = items.length := by
  induction items with
  | nil => rfl
  | cons item items ih =>
    cases item
    simp [toWireDictValues, ih]

theorem toWireDefaults_length (argComments : List (Option Expr)) (idx : Nat) (kind kind' : Int)
    (posOnly : Parameter → Bool) (parameters : List ParameterWithDefault) :
    (toWireDefaults c scope argComments idx kind kind' posOnly parameters).length
      = parameters.length := by
  induction parameters generalizing idx with
  | nil => rfl
  | cons parameter parameters ih =>
    cases parameter
    simp [toWireDefaults, ih]

theorem toWireVariadic_length (argComments : List (Option Expr)) (idx : Nat) (kind : Int)
    (parameter : Option Parameter) :
    (toWireVariadic c scope argComments idx kind parameter).length = parameter.toList.length := by
  cases parameter <;> rfl

theorem toWireParameters_length (argComments : List (Option Expr)) (parameters : Parameters) :
    (toWireParameters c scope argComments parameters).length = parameters.len := by
  cases parameters
  simp [toWireParameters, toWireDefaults_length, toWireVariadic_length, Parameters.len,
    Nat.add_assoc]

theorem toWireFStringParts_length (parts : List FStringPart) :
    (toWireFStringParts c scope parts).length = parts.length := by
  induction parts with
  | nil => rfl
  | cons part parts ih => cases part <;> simp [toWireFStringParts, ih]

/-- The number written before the elements counts the debug texts. -/
theorem toWireElements_length (elements : List InterpolatedStringElement) :
    (toWireElements c scope elements).length = elementCount elements := by
  induction elements with
  | nil => rfl
  | cons element elements ih =>
    cases element with
    | literal value range => simp [toWireElements, elementCount, ih]
    | interpolation expression debugText conversion formatSpec =>
      cases debugText <;> simp [toWireElements, elementCount, ih, Nat.add_comm]

theorem toWireTStringElements_length (elements : List InterpolatedStringElement) :
    (toWireTStringElements c scope elements).length = elements.length := by
  induction elements with
  | nil => rfl
  | cons element elements ih => cases element <;> simp [toWireTStringElements, ih]

end Lists

section Scalars

variable {V : Type} {P : Port Serializer V UInt8} [Observes P] {v : V}

theorem emits_ints (is : List Int) : Emits P (writeInts is) v (encInts is) v := by
  induction is with
  | nil => exact .pure
  | cons i is ih => exact (emits_int i).bind ih

theorem emits_names (names : List (Option Bytes)) :
    Emits P (writeNames names) v (encNames names) v := by
  induction names with
  | nil => exact .pure
  | cons name names ih => exact (emits_bytesOrNone name).bind ih

theorem emits_float (bits : UInt64) : Emits P (writeFloat bits) v (encFloat bits) v :=
  .step (emits_tag _) (.last (emits_extend _))

theorem emits_optBytes (b : Option Bytes) :
    Emits P (writeOptBytes b) v (encOption encBytes b) v := by
  cases b with
  | none => exact emits_bool false
  | some b => exact .step (emits_bool true) (.last (emits_bytes b))

theorem emits_number (c : Config) (value : Number) (range : TextRange) :
    Emits P (do serializeNumber value; writeLocation c range; writeEndTag) v
      (encExpr (toWireNumber c value (c.location range))) v := by
  cases value with
  | int n =>
    simp only [serializeNumber, toWireNumber]
    cases n.asI64 with
    | none =>
      have fields : Emits P (do writeTag .bigIntExpr; writeBytes (utf8 n.toText)) v
          [encTag .bigIntExpr, encBytes (utf8 n.toText)].flatten v :=
        .step (emits_tag _) (.last (emits_bytes _))
      exact fields.steps (emits_close c range)
    | some x =>
      have fields : Emits P (do writeTag .intExpr; writeTaggedInt x.toInt) v
          [encTag .intExpr, encTaggedInt x.toInt].flatten v :=
        .step (emits_tag _) (.last (emits_taggedInt _))
      exact fields.steps (emits_close c range)
  | float bits =>
    have fields : Emits P (serializeNumber (.float bits)) v
        [encTag .floatExpr, encFloat bits].flatten v :=
      .step (emits_tag _) (.last (emits_float bits))
    exact fields.steps (emits_close c range)
  | complex real imag =>
    have fields : Emits P (serializeNumber (.complex real imag)) v
        [encTag .complexExpr, encFloat real, encFloat imag].flatten v :=
      .step (emits_tag _) <| .step (emits_float real) (.last (emits_float imag))
    exact fields.steps (emits_close c range)

end Scalars

/-- Moving only the flag of surrogates. -/
abbrev Tracked.flagged (t : Tracked) (b : Bool) : Tracked × Bool := (t, b)

/-- The action moves the flag of surrogates as `f` says. -/
abbrev Flags (t : Tracked) (m : SerM Unit) (f : Bool → Option Bool) (w : Bytes) : Prop :=
  Threads exprPort t.flagged m f w

section Flags

variable {c : Config} {t : Tracked}

theorem emits_surrogatesFound (found : Bool) :
    Emits exprPort (noteSurrogates (some found)) (t, false) [] (t, found) := by
  cases found with
  | false => exact .pure
  | true =>
    apply Emits.modify
    · rintro s hs
      rw [← (Prod.mk.inj hs).left]
      rfl
    · exact fun _ => rfl

theorem flags_literal (value : String) (range : TextRange) :
    Flags t (checkSurrogateCodepoint c value range) (surrogatesAfterLiteral c value range) [] := by
  intro b
  unfold checkSurrogateCodepoint surrogatesAfterLiteral
  by_cases replaced : value.toList.contains '\uFFFD' = true
  · simp only [if_pos replaced]
    cases b with
    | true => exact .read (g := Prod.snd) (fun _ => rfl) .pure
    | false =>
      simp only [Bool.false_eq_true, if_false]
      cases scanSurrogates 0 (c.textAt range) with
      | some found => exact .read (g := Prod.snd) (fun _ => rfl) (emits_surrogatesFound found)
      | none => exact Panics.read (g := Prod.snd) (fun _ => rfl) fun _ _ => rfl
  · simp only [if_neg replaced]
    exact .pure

theorem flags_parts (parts : List StringLiteral) :
    Flags t (serializeStringParts c parts) (surrogatesAfterParts c parts)
      (utf8 (concatText parts)) := by
  induction parts with
  | nil => exact .still fun _ => .pure
  | cons part parts ih =>
    rw [concatText, utf8_append]
    apply Threads.bind (f := some)
    · exact .still fun _ => emits_extend _
    · exact (flags_literal part.value part.range).bind ih

theorem flags_vec {m : SerM Unit} {f : Bool → Option Bool} {w : Bytes} (n : Nat)
    (items : Flags t m f w) : Flags t (serializeVec n m) f (encListed n w) :=
  .pass (fun _ => emits_tag _) <| .pass (fun _ => emits_count _) <| .last items

theorem emits_surrogates (b : Bool) :
    Emits exprPort (writeSurrogates c) (t, b)
      (encGated encBool fun _ : cvUnicodeSurrogate ≤ c.cacheVersion => b) (t, b) := by
  unfold writeSurrogates encGated
  split
  · exact .read (g := Prod.snd) (fun _ => rfl) (emits_bool b)
  · exact .pure

theorem emits_resetSurrogates (b : Bool) :
    Emits exprPort resetSurrogates (t, b) [] (t, false) := by
  apply Emits.modify
  · intro s hs
    rw [← (Prod.mk.inj hs).left]
    rfl
  · exact fun _ => rfl

/-- A string starts from a cleared flag and writes where its parts leave it. -/
theorem flags_string {m : SerM Unit} {f : Bool → Option Bool} {w : Bytes} (range : TextRange)
    (parts : Flags t m f w) :
    Flags t (do resetSurrogates; m; writeSurrogates c; writeLocation c range; writeEndTag)
      (fun _ => f false)
      [w, encGated encBool fun _ : cvUnicodeSurrogate ≤ c.cacheVersion => surrogatesOf f,
        encLocation (c.location range), encTag .end].flatten := by
  intro b
  cases reached : f false with
  | none => exact .after (emits_resetSurrogates b) (parts.panics reached).bind
  | some b' =>
    have flag : surrogatesOf f = b' := by simp [surrogatesOf, reached]
    rw [flag]
    exact .skip (emits_resetSurrogates b) <| .step (parts.emits reached) <|
      .step (emits_surrogates b') <| emits_close c range

theorem emits_asyncs (scope : Scope) (generators : List Comprehension) {v : Tracked × Bool} :
    Emits exprPort (writeAsyncs generators) v (encAsyncs (toWireComprehensions c scope generators))
      v := by
  induction generators with
  | nil => exact .pure
  | cons generator generators ih =>
    cases generator with
    | mk target iter ifs isAsync => exact (emits_bool isAsync).bind ih

theorem flags_comprehension {elt targets iters conds : SerM Unit}
    {f g h k : Bool → Option Bool} {w wTargets wIters wConds : Bytes}
    (generators : List Comprehension) (range : TextRange) (flagsElt : Flags t elt f w)
    (flagsTargets : Flags t targets g wTargets) (flagsIters : Flags t iters h wIters)
    (flagsConds : Flags t conds k wConds) :
    Flags t (serializeComprehension c elt targets iters conds generators range)
      (f >=> g >=> h >=> k)
      [w, encTaggedCount (toWireComprehensions c t.scope generators).length, wTargets, wIters,
        wConds, encAsyncs (toWireComprehensions c t.scope generators),
        encLocation (c.location range)].flatten := by
  rw [toWireComprehensions_length]
  exact .step flagsElt <| .pass (fun _ => emits_taggedInt _) <| .step flagsTargets <|
    .step flagsIters <| .close flagsConds fun _ => .step (emits_asyncs t.scope generators) <|
    .last (emits_location c range)

/-- The type comment of a parameter is read as if it stood where the parameter stands. -/
theorem emits_argComment (comment : Expr) (range : TextRange) (b : Bool) :
    Emits exprPort (unevaluated (serializeType c (comment.relocate range))) (t, b)
      (encType (toWireType c false (comment.relocate range))) (t, b) :=
  emits_unevaluated (emits_type (t.setEvaluated false) b _)

theorem flags_argument {m : SerM Unit} {f : Bool → Option Bool}
    {default : Option (WExpr c.cacheVersion)} {hasDefault : Bool} (param : Parameter)
    (argComment : Option Expr) (kindNoDefault kindWithDefault : Int) (posOnly : Bool)
    (given : default.isSome = hasDefault) (flagsDefault : Flags t m f (encOptExpr default)) :
    Flags t (serializeArgument c param argComment hasDefault m kindNoDefault kindWithDefault
        posOnly) f
      (encParameters [toWireArgument c t.scope param argComment default kindNoDefault
        kindWithDefault posOnly]) := by
  have rest : Flags t (do m; writeBool posOnly; writeLocation c param.range) f
      [encOptExpr default, encBool posOnly, encLocation (c.location param.range)].flatten :=
    .close flagsDefault fun _ => .step (emits_bool _) <| .last (emits_location c _)
  simp only [encParameters, toWireArgument, toWireParameterType, List.append_nil]
  subst given
  unfold serializeArgument
  refine .pass (fun _ => emits_bytes _) <| .pass (fun _ => emits_taggedInt _) ?_
  cases param.annotated with
  | none =>
    cases argComment with
    | none => exact .pass (fun _ => emits_bool false) rest
    | some comment =>
      exact Threads.congr (.pass (fun _ => emits_bool true) <|
        .pass (fun _ => emits_argComment comment _ _) rest) (by simp [encOption])
  | some ann =>
    have annotated : Flags t (do
        writeBool true
        serializeType c ann
        m
        writeBool posOnly
        writeLocation c param.range) f
        [encOption encType (some (toWireType c t.scope.isEvaluated ann)), encOptExpr default,
          encBool posOnly, encLocation (c.location param.range)].flatten :=
      Threads.congr (.pass (fun _ => emits_bool true) <| .pass (fun _ => emits_type t _ ann) rest)
        (by simp [encOption])
    cases argComment with
    | none => exact annotated
    | some comment => exact .skip (fun _ => emits_error c _ _ _) annotated

theorem emits_variadic {b : Bool} (argComments : List (Option Expr)) (idx : Nat) (kind : Int)
    (param : Option Parameter) (covered : idx + param.toList.length ≤ argComments.length) :
    Emits exprPort (serializeVariadic c argComments idx kind param) (t, b)
      (encParameters (toWireVariadic c t.scope argComments idx kind param)) (t, b) := by
  cases param with
  | none => exact .pure
  | some param =>
    have there : idx < argComments.length := covered
    unfold serializeVariadic toWireVariadic
    rw [List.getElem?_eq_getElem there]
    have noDefault : Flags t (writeBool false) some
        (encOptExpr (none : Option (WExpr c.cacheVersion))) :=
      .still fun _ => emits_bool false
    exact (flags_argument param _ kind kind false rfl noDefault).emits rfl

end Flags

section Exprs

variable (c : Config) {t : Tracked}

/-- The two parts of each of the three lists of a call. -/
theorem encExpr_call {cv : Nat} (func : WExpr cv) (args more : List (WExpr cv))
    (kinds kinds' : List Int) (names names' : List (Option Bytes)) (loc : Location) :
    encExpr (.call func (args ++ more) (kinds ++ kinds') (names ++ names') loc)
      = [encTag .callExpr, encExpr func, encTag .listGen, encCount (args.length + more.length),
        encExprs args, encExprs more, encTag .listInt, encCount (kinds.length + kinds'.length),
        encInts kinds, encInts kinds', encTag .listGen, encCount (names.length + names'.length),
        encNames names, encNames names', encLocation loc, encTag .end].flatten := by
  simp [encExpr, encListed, encExprs_append, encInts_append, encNames_append]

/-- The argument without its star. -/
def Expr.unstarred : Expr → Expr
  | .starred value _ => value
  | e => e

theorem serializeCallArgs_cons (arg : Expr) (args : List Expr) :
    serializeCallArgs c (arg :: args) = (do
      serializeExpr c arg.unstarred
      serializeCallArgs c args) := by
  cases arg <;> rfl

theorem surrogatesAfter_unstarred (arg : Expr) :
    surrogatesAfter c arg.unstarred = surrogatesAfter c arg := by
  cases arg <;> rfl

theorem surrogatesAfterCallArgs_cons (arg : Expr) (args : List Expr) :
    surrogatesAfterCallArgs c (arg :: args)
      = surrogatesAfter c arg.unstarred >=> surrogatesAfterCallArgs c args := by
  cases arg <;> rfl

theorem toWireCallArgs_cons (scope : Scope) (arg : Expr) (args : List Expr) :
    toWireCallArgs c scope (arg :: args)
      = toWireExpr c scope arg.unstarred :: toWireCallArgs c scope args := by
  cases arg <;> rfl

/-- A lambda is a function whose body is one return statement. -/
theorem flags_lambdaBody {m : SerM Unit} {f : Bool → Option Bool} {w : Bytes}
    {bodyRange : TextRange} (range : TextRange) (body : Flags t m f w) :
    Flags t (do
      writeTag .block
      writeTag .listGen
      writeInt 1
      writeBool (← (·.currentUnreachable) <$> get)
      writeTag .return
      writeBool true
      m
      writeLocation c bodyRange
      writeEndTag
      writeEndTag
      writeLocation c range
      writeEndTag) f
      [encTag .block, encTag .listGen, encCount 1, encBool t.scope.unreachable, encTag .return,
        encBool true, w, encLocation (c.location bodyRange), encTag .end, encTag .end,
        encLocation (c.location range), encTag .end].flatten := by
  have unreachable (b : Bool) : Emits exprPort
      ((·.currentUnreachable) <$> get >>= writeBool) (t, b) (encBool t.scope.unreachable) (t, b) :=
    .read (g := fun v => v.1.scope.unreachable) (fun _ => rfl) (emits_bool _)
  simp only [← bind_assoc _ writeBool]
  have closing (b : Bool) : Emits exprPort (do
      writeLocation c bodyRange
      writeEndTag
      writeEndTag
      writeLocation c range
      writeEndTag) (t, b) _ (t, b) :=
    .step (emits_location c _) <| .step emits_end <| .step emits_end <| emits_close c range
  refine .pass (fun _ => emits_tag _) <| .pass (fun _ => emits_tag _) ?_
  refine .pass (fun _ => emits_int 1) <| .pass unreachable ?_
  refine .pass (fun _ => emits_tag _) <| .pass (fun _ => emits_bool true) ?_
  exact .close body closing

mutual

/-- The serializer writes the tree of the expression, or panics where the flag is lost. -/
theorem flags_expr : ∀ e : Expr,
    Flags t (serializeExpr c e) (surrogatesAfter c e) (encExpr (toWireExpr c t.scope e))
  | .name id range =>
    .still fun _ => .step (emits_tag _) <| .step (emits_bytes _) <| emits_close c range
  | .numberLiteral value range => .still fun _ => emits_number c value range
  | .booleanLiteral value range =>
    .still fun _ => .step (emits_tag _) <| .step (emits_bytes _) <| emits_close c range
  | .noneLiteral range =>
    .still fun _ => .step (emits_tag _) <| .step (emits_bytes _) <| emits_close c range
  | .ellipsisLiteral range => .still fun _ => .step (emits_tag _) <| emits_close c range
  | .bytesLiteral value range =>
    .still fun _ => .step (emits_tag _) <| .step (emits_bytes _) <| emits_close c range
  | .attribute value attr range =>
    .pass (fun _ => emits_tag _) <| .close (flags_expr value) fun _ =>
      .step (emits_bytes _) <| emits_close c range
  | .unaryOp op operand range =>
    .pass (fun _ => emits_tag _) <| .pass (fun _ => emits_taggedInt _) <|
      .close (flags_expr operand) fun _ => emits_close c range
  | .yieldFrom value range | .starred value range | .await value range =>
    .pass (fun _ => emits_tag _) <| .close (flags_expr value) fun _ => emits_close c range
  | .binOp left op right range =>
    .pass (fun _ => emits_tag _) <| .pass (fun _ => emits_taggedInt _) <|
      .step (flags_expr left) <| .close (flags_expr right) fun _ => .last emits_end
  | .subscript value slice range | .named value slice range =>
    .pass (fun _ => emits_tag _) <| .step (flags_expr value) <|
      .close (flags_expr slice) fun _ => emits_close c range
  | .call func args keywords range => by
    rw [toWireExpr, encExpr_call, toWireCallArgs_length, toWireKeywordValues_length]
    simp only [List.length_map]
    refine .pass (fun _ => emits_tag _) <| .step (flags_expr func) ?_
    refine .pass (fun _ => emits_tag _) <| .pass (fun _ => emits_int _) ?_
    refine .step (flags_callArgs args) <| .close (flags_keywordValues keywords) fun _ => ?_
    -- after the last value come the kinds and the names, which leave the flag
    refine .step (emits_tag _) <| .step (emits_int _) ?_
    refine .step (emits_ints _) <| .step (emits_ints _) ?_
    refine .step (emits_tag _) <| .step (emits_int _) ?_
    exact .step (emits_names _) <| .step (emits_names _) <| emits_close c range
  | .list elts ctx range => by
    have items := flags_vec (t := t) elts.length (flags_exprs elts)
    simp only [serializeExpr, toWireExpr]
    split <;> rw [encExpr, toWireExprs_length] <;>
      exact .pass (fun _ => emits_tag _) <| .close items fun _ => emits_close c range
  | .tuple elts parenthesized range => by
    simp only [toWireExpr, encExpr, toWireExprs_length]
    exact .pass (fun _ => emits_tag _) <| .close (flags_vec _ (flags_exprs elts)) fun _ =>
      emits_close c range
  | .set elts range => by
    simp only [toWireExpr, encExpr, toWireExprs_length]
    exact .pass (fun _ => emits_tag _) <| .close (flags_vec _ (flags_exprs elts)) fun _ =>
      emits_close c range
  | .boolOp op values range => by
    simp only [toWireExpr, encExpr, toWireExprs_length]
    exact .pass (fun _ => emits_tag _) <| .pass (fun _ => emits_taggedInt _) <|
      .close (flags_vec _ (flags_exprs values)) fun _ => emits_close c range
  | .generator elt generators range | .listComp elt generators range
  | .setComp elt generators range =>
    .pass (fun _ => emits_tag _) <| (flags_comprehension generators range (flags_expr elt)
      (flags_targets generators) (flags_iters generators) (flags_conds generators)).closes
        fun _ => .last emits_end
  | .dictComp key value generators range => by
    have columns := flags_comprehension (c := c) generators range (flags_expr value)
      (flags_targets generators) (flags_iters generators) (flags_conds generators)
    simp only [serializeExpr, toWireExpr]
    split
    · exact .pass (fun _ => emits_tag _) <| .step (flags_optExpr key) <|
        columns.closes fun _ => .last emits_end
    · exact .pass (fun _ => emits_tag _) <| .step (flags_key range key) <|
        columns.closes fun _ => .last emits_end
  | .yield value range =>
    .pass (fun _ => emits_tag _) <| .close (flags_optExpr value) fun _ => emits_close c range
  | .compare left ops comparators range => by
    simp only [toWireExpr, encExpr, toWireExprs_length, List.length_map]
    exact .pass (fun _ => emits_tag _) <| .step (flags_expr left) <|
      .pass (fun _ => emits_tag _) <| .pass (fun _ => emits_count _) <|
      .pass (fun _ => emits_ints _) <| .close (flags_vec _ (flags_exprs comparators)) fun _ =>
        emits_close c range
  | .ifExp test body orelse range =>
    .pass (fun _ => emits_tag _) <| .step (flags_expr body) <| .step (flags_expr test) <|
      .close (flags_expr orelse) fun _ => emits_close c range
  | .dict items range => by
    simp only [toWireExpr, encExpr, toWireDictKeys_length, toWireDictValues_length]
    refine .pass (fun _ => emits_tag _) <| .pass (fun _ => emits_tag _) ?_
    refine .pass (fun _ => emits_int _) <| .step (flags_dictKeys items) ?_
    refine .pass (fun _ => emits_tag _) <| .pass (fun _ => emits_int _) ?_
    exact .close (flags_dictValues items) fun _ => emits_close c range
  | .slice lower upper step range =>
    .pass (fun _ => emits_tag _) <| .step (flags_optExpr lower) <| .step (flags_optExpr upper) <|
      .close (flags_optExpr step) fun _ => emits_close c range
  | .stringLiteral value range =>
    .congr (.pass (fun _ => emits_tag _) <| .pass (fun _ => emits_tag _) <|
      .pass (fun _ => emits_count _) <| flags_string range (flags_parts value)) <| by
        simp [toWireExpr, encExpr, encBytes, encRaw, concatLen_eq]
  | .fString value range => by
    rw [toWireExpr, encExpr, toWireFStringParts_length]
    exact .pass (fun _ => emits_tag _) <| .pass (fun _ => emits_taggedInt _) <|
      flags_string range (flags_fStringParts value)
  | .tString elements range => by
    rw [toWireExpr, encExpr, toWireTStringElements_length]
    exact .skip (fun _ => .modify (fun _ => id) fun _ => rfl) <|
      .pass (fun _ => emits_tag _) <| .pass (fun _ => emits_taggedInt _) <|
      flags_string range (flags_tStringElements elements)
  | .lambda (some parameters) body range => by
    have covered : parameters.len ≤ (List.replicate parameters.len (none : Option Expr)).length := by
      simp
    exact .pass (fun _ => emits_tag _) <| .step (flags_parameters _ parameters covered) <|
      flags_lambdaBody c range (flags_expr body)
  | .lambda none body range =>
    .congr (.pass (fun _ => emits_tag _) <| .pass (fun _ => emits_tag _) <|
      .pass (fun _ => emits_int 0) <| flags_lambdaBody c range (flags_expr body)) <| by
        simp [toWireExpr, encExpr, encListed, encParameters, encCount]
  | .ipyEscapeCommand _ => fun _ _ _ => rfl

theorem flags_exprs : ∀ es : List Expr,
    Flags t (serializeExprs c es) (surrogatesAfterExprs c es) (encExprs (toWireExprs c t.scope es))
  | [] => .still fun _ => .pure
  | e :: es => (flags_expr e).bind (flags_exprs es)

theorem flags_optExpr : ∀ e : Option Expr,
    Flags t (serializeOptExpr c e) (surrogatesAfterOpt c e)
      (encOptExpr (toWireOptExpr c t.scope e))
  | none => .still fun _ => emits_bool false
  | some e => .pass (fun _ => emits_bool true) <| .last (flags_expr e)

theorem flags_key (range : TextRange) : ∀ key : Option Expr,
    Flags t (serializeKey c range key) (surrogatesAfterOpt c key)
      (encKey (toWireKey c t.scope range key))
  | none => .still fun _ => .skip (emits_error c _ _ _) <| .step (emits_tag _) <|
      .step (emits_bytes _) <| .last (emits_location c range)
  | some key => flags_expr key

theorem flags_callArgs : ∀ args : List Expr,
    Flags t (serializeCallArgs c args) (surrogatesAfterCallArgs c args)
      (encExprs (toWireCallArgs c t.scope args))
  | [] => .still fun _ => .pure
  | arg :: args => by
    rw [serializeCallArgs_cons, surrogatesAfterCallArgs_cons, toWireCallArgs_cons]
    exact (flags_callArg arg (flags_expr arg)).bind (flags_callArgs args)

/-- A starred argument is written as its value. -/
theorem flags_callArg : ∀ arg : Expr,
    Flags t (serializeExpr c arg) (surrogatesAfter c arg) (encExpr (toWireExpr c t.scope arg)) →
    Flags t (serializeExpr c arg.unstarred) (surrogatesAfter c arg.unstarred)
      (encExpr (toWireExpr c t.scope arg.unstarred))
  | .starred value _, _ => flags_expr value
  | .name .., one | .attribute .., one | .subscript .., one | .noneLiteral .., one
  | .booleanLiteral .., one | .numberLiteral .., one | .binOp .., one | .list .., one
  | .dict .., one | .tuple .., one | .ellipsisLiteral .., one | .call .., one
  | .unaryOp .., one | .stringLiteral .., one | .bytesLiteral .., one | .boolOp .., one
  | .named .., one | .lambda .., one | .ifExp .., one | .set .., one | .listComp .., one
  | .setComp .., one | .dictComp .., one | .generator .., one | .await .., one | .yield .., one
  | .yieldFrom .., one | .compare .., one | .fString .., one | .tString .., one | .slice .., one
  | .ipyEscapeCommand .., one => one

theorem flags_keywordValues : ∀ keywords : List Keyword,
    Flags t (serializeKeywordValues c keywords) (surrogatesAfterKeywords c keywords)
      (encExprs (toWireKeywordValues c t.scope keywords))
  | [] => .still fun _ => .pure
  | .mk _ value :: keywords => (flags_expr value).bind (flags_keywordValues keywords)

theorem flags_targets : ∀ generators : List Comprehension,
    Flags t (serializeTargets c generators) (surrogatesAfterTargets c generators)
      (encTargets (toWireComprehensions c t.scope generators))
  | [] => .still fun _ => .pure
  | .mk target _ _ _ :: generators => (flags_expr target).bind (flags_targets generators)

theorem flags_iters : ∀ generators : List Comprehension,
    Flags t (serializeIters c generators) (surrogatesAfterIters c generators)
      (encIters (toWireComprehensions c t.scope generators))
  | [] => .still fun _ => .pure
  | .mk _ iter _ _ :: generators => (flags_expr iter).bind (flags_iters generators)

theorem flags_conds : ∀ generators : List Comprehension,
    Flags t (serializeConds c generators) (surrogatesAfterConds c generators)
      (encConds (toWireComprehensions c t.scope generators))
  | [] => .still fun _ => .pure
  | .mk _ _ ifs _ :: generators => by
    simp only [toWireComprehensions, encConds, toWireExprs_length]
    exact (flags_vec _ (flags_exprs ifs)).bind (flags_conds generators)

theorem flags_dictKeys : ∀ items : List DictItem,
    Flags t (serializeDictKeys c items) (surrogatesAfterKeys c items)
      (encOptExprs (toWireDictKeys c t.scope items))
  | [] => .still fun _ => .pure
  | .mk key _ :: items => (flags_optExpr key).bind (flags_dictKeys items)

theorem flags_dictValues : ∀ items : List DictItem,
    Flags t (serializeDictValues c items) (surrogatesAfterValues c items)
      (encExprs (toWireDictValues c t.scope items))
  | [] => .still fun _ => .pure
  | .mk _ value :: items => (flags_expr value).bind (flags_dictValues items)

theorem flags_parameters (argComments : List (Option Expr)) : ∀ parameters : Parameters,
    parameters.len ≤ argComments.length →
    Flags t (serializeParameters c argComments parameters) (surrogatesAfterParameters c parameters)
      (encListed (toWireParameters c t.scope argComments parameters).length
        (encParameters (toWireParameters c t.scope argComments parameters)))
  | .mk posonlyargs args vararg kwonlyargs kwarg, covered => by
    rw [toWireParameters_length]
    rw [Parameters.len] at covered
    refine .congr (.pass (fun _ => emits_tag _) <| .pass (fun _ => emits_int _) <|
      .step (flags_defaults argComments 0 _ _ _ posonlyargs ?_) <|
      .step (flags_defaults argComments _ _ _ _ args ?_) <|
      .pass (fun _ => emits_variadic argComments _ _ vararg ?_) <|
      .close (flags_defaults argComments _ _ _ _ kwonlyargs ?_) fun _ =>
      .last (emits_variadic argComments _ _ kwarg ?_)) ?_
    any_goals omega
    simp [toWireParameters, encListed, encParameters_append, encCount]

theorem flags_defaults (argComments : List (Option Expr)) (idx : Nat)
    (kindNoDefault kindWithDefault : Int) (posOnly : Parameter → Bool) :
    ∀ parameters : List ParameterWithDefault, idx + parameters.length ≤ argComments.length →
    Flags t
      (serializeDefaults c argComments idx kindNoDefault kindWithDefault posOnly parameters)
      (surrogatesAfterDefaults c parameters)
      (encParameters (toWireDefaults c t.scope argComments idx kindNoDefault kindWithDefault
        posOnly parameters))
  | [], _ => .still fun _ => .pure
  | .mk parameter default _ :: parameters, covered => by
    rw [List.length_cons] at covered
    have there : idx < argComments.length := by omega
    have given : (toWireOptExpr c t.scope default).isSome = default.isSome := by
      cases default <;> rfl
    have rest := flags_defaults argComments (idx + 1) kindNoDefault kindWithDefault posOnly
      parameters (by omega)
    simp only [serializeDefaults, toWireDefaults, List.getElem?_eq_getElem there]
    refine .congr ((flags_argument parameter argComments[idx] kindNoDefault kindWithDefault _ given
      (flags_optExpr default)).bind rest) ?_
    rw [← encParameters_append]
    rfl

theorem flags_fStringParts : ∀ parts : List FStringPart,
    Flags t (serializeFStringParts c parts) (surrogatesAfterFStringParts c parts)
      (encFStringParts (toWireFStringParts c t.scope parts))
  | [] => .still fun _ => .pure
  | .fString elements :: parts =>
    .congr (.pass (fun _ => emits_bool true) <| .pass (fun _ => emits_taggedInt _) <|
      .step (flags_elements elements) <| .last (flags_fStringParts parts)) <| by
        simp [toWireFStringParts, encFStringParts, toWireElements_length, encTaggedCount]
  | .literal lit :: parts =>
    .congr (.pass (fun _ => emits_bool false) <| .pass (fun _ => emits_bytes _) <|
      .bind (flags_literal lit.value lit.range) <| .pass (fun _ => emits_location c _) <|
      .last (flags_fStringParts parts)) <| by
        simp [toWireFStringParts, encFStringParts]

theorem flags_elements : ∀ elements : List InterpolatedStringElement,
    Flags t (serializeFStringElements c elements) (surrogatesAfterElements c elements)
      (encElements (toWireElements c t.scope elements))
  | [] => .still fun _ => .pure
  | .literal value range :: elements =>
    .congr (.pass (fun _ => emits_bytes _) <| .bind (flags_literal value range) <|
      .pass (fun _ => emits_location c _) <| .last (flags_elements elements)) <| by
        simp [toWireElements, encElements]
  | .interpolation expression debugText conversion formatSpec :: elements => by
    have item : Flags t (do
        writeTag .fstringInterpolation
        serializeExpr c expression
        writeOptBytes (fStringConversion (debugConversion debugText conversion formatSpec))
        serializeFormatSpec c formatSpec
        writeEndTag
        serializeFStringElements c elements) _ _ :=
      .pass (fun _ => emits_tag _) <| .step (flags_expr expression) <|
        .pass (fun _ => emits_optBytes _) <| .step (flags_formatSpec formatSpec) <|
        .pass (fun _ => emits_end) <| .last (flags_elements elements)
    cases debugText with
    | none => exact item.congr (by simp [toWireElements, encElements])
    | some text =>
      exact .congr (.pass (fun _ => emits_bytes _) <| .pass (fun _ => emits_location c _) item) <| by
        simp [toWireElements, encElements]

theorem flags_formatSpec : ∀ formatSpec : Option FormatSpec,
    Flags t (serializeFormatSpec c formatSpec) (surrogatesAfterFormatSpec c formatSpec)
      (encFormatSpec (toWireFormatSpec c t.scope formatSpec))
  | none => .still fun _ => emits_bool false
  | some (.mk elements range) =>
    .congr (.pass (fun _ => emits_bool true) <| .pass (fun _ => emits_taggedInt _) <|
      .close (flags_elements elements) fun _ => .last (emits_location c range)) <| by
        simp [toWireFormatSpec, encFormatSpec, toWireElements_length, encTaggedCount]

theorem flags_tStringElements : ∀ elements : List InterpolatedStringElement,
    Flags t (serializeTStringElements c elements) (surrogatesAfterTStringElements c elements)
      (encTStringParts (toWireTStringElements c t.scope elements))
  | [] => .still fun _ => .pure
  | .literal value range :: elements =>
    .congr (.pass (fun _ => emits_bool false) <| .pass (fun _ => emits_bytes _) <|
      .bind (flags_literal value range) <| .pass (fun _ => emits_location c _) <|
      .last (flags_tStringElements elements)) <| by
        simp [toWireTStringElements, encTStringParts]
  | .interpolation expression _ conversion formatSpec :: elements =>
    .congr (.pass (fun _ => emits_bool true) <| .step (flags_expr expression) <|
      .pass (fun _ => emits_bytes _) <| .pass (fun _ => emits_optBytes _) <|
      .step (flags_formatSpec formatSpec) <| .last (flags_tStringElements elements)) <| by
        simp [toWireTStringElements, encTStringParts]

end

end Exprs

end AstSerialize
