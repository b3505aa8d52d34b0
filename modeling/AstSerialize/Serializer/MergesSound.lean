import AstSerialize.Serializer.Merges

/-! Expressions and patterns are written in a self-delimiting code, which merges
nothing but what it merges on purpose. -/
namespace AstSerialize
open Coding

section Inversion

/-- Tags of which forms are told apart only by what follows. -/
def Tag.form : Tag → Tag
  | .listExpr => .tupleExpr
  | .bigIntExpr | .floatExpr | .complexExpr => .intExpr
  | tag => tag

def Expr.form : Expr → Tag
  | .name .. | .booleanLiteral .. | .noneLiteral .. => .nameExpr
  | .list .. | .tuple .. => .tupleExpr
  | .numberLiteral .. => .intExpr
  | .attribute .. => .memberExpr
  | .stringLiteral .. => .strExpr
  | .call .. => .callExpr
  | .binOp .. => .opExpr
  | .subscript .. => .index
  | .set .. => .setExpr
  | .generator .. => .generatorExpr
  | .listComp .. => .listComprehension
  | .setComp .. => .setComprehension
  | .dictComp .. => .dictComprehension
  | .yield .. => .yieldExpr
  | .yieldFrom .. => .yieldFromExpr
  | .boolOp .. => .boolOpExpr
  | .compare .. => .comparisonExpr
  | .ellipsisLiteral .. => .ellipsisExpr
  | .ifExp .. => .conditionalExpr
  | .unaryOp .. => .unaryExpr
  | .dict .. => .dictExpr
  | .slice .. => .sliceExpr
  | .fString .. => .fstringExpr
  | .lambda .. => .lambdaExpr
  | .named .. => .assignmentExpr
  | .starred .. => .starExpr
  | .bytesLiteral .. => .bytesExpr
  | .await .. => .awaitExpr
  | .tString .. => .tstringExpr
  | .ipyEscapeCommand .. => .tempNode

variable {c : Config} {scope : Scope}

theorem tree_form (e : Expr) : (exprTag (e.tree c scope)).form = e.form := by
  cases e with
  | numberLiteral value range =>
    rcases value with n | bits | ⟨real, imag⟩
    · simp only [Expr.tree, toWireExpr, toWireNumber, Expr.form]
      cases n.asI64 <;> rfl
    · rfl
    · rfl
  | list elts ctx range =>
    simp only [Expr.tree, toWireExpr, Expr.form]
    split <;> rfl
  | dictComp key value generators range =>
    simp only [Expr.tree, toWireExpr, Expr.form]
    split <;> rfl
  | lambda parameters body range => cases parameters <;> rfl
  | _ => rfl

theorem form_eq {e e' : Expr} (same : e.tree c scope = e'.tree c scope) : e.form = e'.form := by
  rw [← @tree_form c scope, same, tree_form]

theorem tree_name {e : Expr} {text : String} (named : e.nameText = some text) :
    e.tree c scope = .name (utf8 text) (c.location e.range) := by
  cases e with
  | name | booleanLiteral | noneLiteral =>
    cases named
    rfl
  | _ => cases named

theorem nameText_of_form {e : Expr} (named : e.form = .nameExpr) :
    ∃ text, e.nameText = some text := by
  cases e with
  | name | booleanLiteral | noneLiteral => exact ⟨_, rfl⟩
  | _ => cases named

/-- Names and constants are told apart by their texts. -/
theorem merged_name {e e' : Expr} {text : String} (named : e.nameText = some text)
    (form : e'.form = .nameExpr) (same : e.tree c scope = e'.tree c scope) :
    Merged c scope e e' := by
  obtain ⟨text', named'⟩ := nameText_of_form form
  rw [tree_name named, tree_name named', WExpr.name.injEq] at same
  rw [← utf8_injective same.1] at named'
  exact .name named named' same.2

theorem number_same {n n' : Number} {loc loc' : Location}
    (same : (toWireNumber c n loc).close = (toWireNumber c n' loc').close) :
    n.Same n' ∧ loc = loc' := by
  rcases n with n | bits | ⟨real, imag⟩ <;> rcases n' with n' | bits' | ⟨real', imag'⟩
  all_goals simp only [toWireNumber] at same
  · cases small : n.asI64 <;> cases small' : n'.asI64 <;>
      simp only [small, small', WExpr.close, WExpr.int.injEq, WExpr.bigInt.injEq,
        reduceCtorEq] at same
    · exact ⟨.big small small' (utf8_injective same.1), same.2⟩
    · rw [Int64.toInt_inj] at same
      rw [← same.1] at small'
      exact ⟨.small small small', same.2⟩
  case float.float =>
    simp only [WExpr.close, WExpr.float.injEq] at same
    obtain ⟨rfl, rfl⟩ := same
    exact ⟨.float bits, rfl⟩
  case complex.complex =>
    simp only [WExpr.close, WExpr.complex.injEq] at same
    obtain ⟨rfl, rfl, rfl⟩ := same
    exact ⟨.complex real imag, rfl⟩
  all_goals
    first
      | cases same
      | cases small : n.asI64 <;> rw [small] at same <;> cases same
      | cases small : n'.asI64 <;> rw [small] at same <;> cases same

/-- What is under a star can be read off a merge of the starred expressions. -/
theorem merged_unstarred (arg : Expr)
    (one : ∀ e', arg.tree c scope = e'.tree c scope → Merged c scope arg e') (e' : Expr)
    (same : arg.unstarred.tree c scope = e'.tree c scope) : Merged c scope arg.unstarred e' := by
  cases arg with
  | starred value range =>
    have starred : (Expr.starred value range).tree c scope
        = (Expr.starred e' range).tree c scope := by
      change WExpr.star (value.tree c scope) _ = .star (e'.tree c scope) _
      rw [show value.tree c scope = e'.tree c scope from same]
    cases one _ starred with
    | starred inside _ => exact inside
    | name named => cases named
    | tuple elts => cases elts
  | _ => exact one e' same

theorem argKinds_length {args args' : List Expr} {keywords keywords' : List Keyword}
    (same : args.map argKind ++ keywords.map keywordKind
      = args'.map argKind ++ keywords'.map keywordKind) : args.length = args'.length := by
  have positional (arg : Expr) : argKind arg = argPos ∨ argKind arg = argStar := by
    cases arg <;> first | exact .inl rfl | exact .inr rfl
  have count (args : List Expr) (keywords : List Keyword) :
      (args.map argKind ++ keywords.map keywordKind).countP
        (fun kind => kind = argPos ∨ kind = argStar) = args.length := by
    rw [List.countP_append, List.countP_eq_length.mpr, List.length_map,
      List.countP_eq_zero.mpr, Nat.add_zero]
    · intro kind mem
      obtain ⟨keyword, -, rfl⟩ := List.mem_map.mp mem
      unfold keywordKind
      split <;> decide
    · intro kind mem
      obtain ⟨arg, -, rfl⟩ := List.mem_map.mp mem
      exact decide_eq_true (positional arg)
  rw [← count args keywords, same, count]

theorem merged_text {text : Bytes} {loc : Location} (item : FStringItem)
    (same : FStringItem.tree c scope (.text text loc) = item.tree c scope) :
    MergedItem c scope (.text text loc) item := by
  cases item with
  | text =>
    cases same
    exact .text text loc
  | field => cases same

theorem merged_entry {entry entry' : ParameterEntry}
    (default : entry.default.map (Expr.tree c scope) = entry'.default.map (Expr.tree c scope) →
      Option.Rel (Merged c scope) entry.default entry'.default)
    (same : entry.tree c scope = entry'.tree c scope) : MergedEntry c scope entry entry' := by
  rw [ParameterEntry.tree, ParameterEntry.tree, WParameter.mk.injEq] at same
  obtain ⟨name, kind, type, defaults, posOnly, loc⟩ := same
  exact .mk (utf8_injective name) kind type (default defaults) posOnly loc

end Inversion

section Pieces

variable {c : Config} {scope : Scope}

theorem tree_lambda (parameters : Option Parameters) (body : Expr) (range : TextRange) :
    (Expr.lambda parameters body range).tree c scope
      = .lambda ((lambdaEntries parameters).map (ParameterEntry.tree c scope)) scope.unreachable
        (body.tree c scope) (c.location body.range) (c.location range) := by
  cases parameters with
  | none => rfl
  | some parameters =>
    rw [Expr.tree, toWireExpr, WExpr.close, trees_entries]
    rfl

theorem escapedString_injective {parts parts' : List (List UInt8)}
    (same : serializeBytesToEscapedString parts = serializeBytesToEscapedString parts') :
    parts.flatten = parts'.flatten := by
  have texts := congrArg unescape same
  rwa [serializeBytesToEscapedString_flatten, serializeBytesToEscapedString_flatten,
    unescape_escaped, unescape_escaped, Option.some.injEq] at texts

theorem merged_variadic (kind : Int) (parameter : Option Parameter) :
    Separates (ParameterEntry.tree c scope) (MergedEntry c scope)
      (parameter.map (·.entry kind)).toList := by
  cases parameter with
  | none => exact .nil
  | some parameter =>
    refine .cons ?_ .nil
    intro entry same
    apply merged_entry ?_ same
    intro defaults
    cases absent : entry.default with
    | none => exact .none
    | some default =>
      rw [absent] at defaults
      cases defaults

/-- Where a key is required the missing one is the constant `None`. -/
theorem merged_key {key key' : Option Expr} {range range' : TextRange}
    (keys : ∀ key', key.map (Expr.tree c scope) = key'.map (Expr.tree c scope) →
      Option.Rel (Merged c scope) key key')
    (same : (toWireKey c scope range key).close = (toWireKey c scope range' key').close) :
    Merged c scope (key.getD (.noneLiteral range)) (key'.getD (.noneLiteral range')) := by
  have tree (range : TextRange) (key : Option Expr) : (toWireKey c scope range key).close
      = (key.getD (.noneLiteral range)).tree c scope := by
    cases key <;> rfl
  rw [tree, tree] at same
  cases key with
  | none => exact merged_name rfl (form_eq same).symm same
  | some key =>
    cases keys (some (key'.getD (.noneLiteral range'))) (congrArg some same) with
    | some inside => exact inside

end Pieces

section Recursion

variable {c : Config} {scope : Scope}

mutual

/-- What has the same tree is merged on purpose: by recursion on one side, with the form of the other
from its tag. -/
theorem merged_expr : ∀ e e' : Expr, e.tree c scope = e'.tree c scope → Merged c scope e e'
  | .name _ _, _, same | .booleanLiteral _ _, _, same | .noneLiteral _, _, same =>
    merged_name rfl (form_eq same).symm same
  | .list elts ctx range, e', same => by
    have items := merged_exprs elts
    have form := form_eq same
    cases e' with
    | list elts' ctx' range' =>
      by_cases store : ctx = .store <;> by_cases store' : ctx' = .store <;>
        simp only [Expr.tree, toWireExpr, store, store', if_true, if_false, WExpr.close, trees_exprs,
          WExpr.tuple.injEq, WExpr.list.injEq, reduceCtorEq] at same
      · exact .tuple (if_pos store) (if_pos store') (items elts' same.1) same.2
      · exact .list store store' (items elts' same.1) same.2
    | tuple elts' parenthesized' range' =>
      by_cases store : ctx = .store <;>
        simp only [Expr.tree, toWireExpr, store, if_true, if_false, WExpr.close, trees_exprs,
          WExpr.tuple.injEq, reduceCtorEq] at same
      exact .tuple (if_pos store) rfl (items elts' same.1) same.2
    | _ => cases form
  | .tuple elts parenthesized range, e', same => by
    have items := merged_exprs elts
    have form := form_eq same
    cases e' with
    | list elts' ctx' range' =>
      by_cases store' : ctx' = .store <;>
        simp only [Expr.tree, toWireExpr, store', if_true, if_false, WExpr.close, trees_exprs,
          WExpr.tuple.injEq, reduceCtorEq] at same
      exact .tuple rfl (if_pos store') (items elts' same.1) same.2
    | tuple elts' parenthesized' range' =>
      simp only [Expr.tree, toWireExpr, WExpr.close, trees_exprs, WExpr.tuple.injEq] at same
      exact .tuple rfl rfl (items elts' same.1) same.2
    | _ => cases form
  | .set elts range, e', same => by
    have form := form_eq same
    cases e' with
    | set elts' range' =>
      simp only [Expr.tree, toWireExpr, WExpr.close, trees_exprs, WExpr.set.injEq] at same
      obtain ⟨items, loc⟩ := same
      exact .set (merged_exprs elts elts' items) loc
    | _ => cases form
  | .numberLiteral n range, e', same => by
    have form := form_eq same
    cases e' with
    | numberLiteral n' range' =>
      obtain ⟨value, loc⟩ := number_same same
      exact .number value loc
    | _ => cases form
  | .stringLiteral parts range, e', same => by
    have form := form_eq same
    cases e' with
    | stringLiteral parts' range' =>
      simp only [Expr.tree, toWireExpr, WExpr.close, WExpr.str.injEq] at same
      obtain ⟨text, -, loc⟩ := same
      exact .string (utf8_injective text) loc
    | _ => cases form
  | .bytesLiteral parts range, e', same => by
    have form := form_eq same
    cases e' with
    | bytesLiteral parts' range' =>
      simp only [Expr.tree, toWireExpr, WExpr.close, WExpr.bytes.injEq] at same
      obtain ⟨text, loc⟩ := same
      exact .bytes (escapedString_injective text) loc
    | _ => cases form
  | .ellipsisLiteral range, e', same => by
    have form := form_eq same
    cases e' with
    | ellipsisLiteral range' =>
      simp only [Expr.tree, toWireExpr, WExpr.close, WExpr.ellipsis.injEq] at same
      exact .ellipsis same
    | _ => cases form
  | .attribute value attr range, e', same => by
    have form := form_eq same
    cases e' with
    | «attribute» value' attr' range' =>
      simp only [Expr.tree, toWireExpr, WExpr.close, WExpr.member.injEq] at same
      obtain ⟨inside, name, loc⟩ := same
      exact .attribute (merged_expr value value' inside) (utf8_injective name) loc
    | _ => cases form
  | .subscript value slice range, e', same => by
    have form := form_eq same
    cases e' with
    | subscript value' slice' range' =>
      simp only [Expr.tree, toWireExpr, WExpr.close, WExpr.index.injEq] at same
      obtain ⟨inside, index, loc⟩ := same
      exact .subscript (merged_expr value value' inside) (merged_expr slice slice' index) loc
    | _ => cases form
  | .slice lower upper step range, e', same => by
    have form := form_eq same
    cases e' with
    | slice lower' upper' step' range' =>
      simp only [Expr.tree, toWireExpr, WExpr.close, trees_optExpr, WExpr.slice.injEq] at same
      obtain ⟨first, last, by_, loc⟩ := same
      exact .slice (merged_optExpr lower lower' first) (merged_optExpr upper upper' last)
        (merged_optExpr step step' by_) loc
    | _ => cases form
  | .call func args keywords range, e', same => by
    have form := form_eq same
    cases e' with
    | call func' args' keywords' range' =>
      simp only [Expr.tree, toWireExpr, WExpr.close, closeExprs_append, trees_callArgs,
        trees_keywords, WExpr.call.injEq] at same
      obtain ⟨callee, values, kinds, names, loc⟩ := same
      -- the kinds say how many of the values are positional
      have length := argKinds_length kinds
      obtain ⟨argKinds, -⟩ := List.append_inj kinds (by simp [length])
      obtain ⟨argValues, keywordValues⟩ := List.append_inj values (by simp [length])
      obtain ⟨-, keywordNames⟩ := List.append_inj names (by simp [length])
      exact .call (merged_expr func func' callee)
        (merged_args args args' (map_pair_eq argKinds argValues))
        (merged_keywords keywords keywords' (map_pair_eq keywordNames keywordValues)) loc
    | _ => cases form
  | .binOp left op right range, e', same => by
    have form := form_eq same
    cases e' with
    | binOp left' op' right' range' =>
      simp only [Expr.tree, toWireExpr, WExpr.close, WExpr.op.injEq] at same
      obtain ⟨ops, first, second⟩ := same
      obtain rfl := operator_toInt_injective ops
      exact .binOp op (merged_expr left left' first) (merged_expr right right' second)
    | _ => cases form
  | .unaryOp op operand range, e', same => by
    have form := form_eq same
    cases e' with
    | unaryOp op' operand' range' =>
      simp only [Expr.tree, toWireExpr, WExpr.close, WExpr.unary.injEq] at same
      obtain ⟨ops, inside, loc⟩ := same
      obtain rfl := unaryOp_toInt_injective ops
      exact .unaryOp op (merged_expr operand operand' inside) loc
    | _ => cases form
  | .boolOp op values range, e', same => by
    have form := form_eq same
    cases e' with
    | boolOp op' values' range' =>
      simp only [Expr.tree, toWireExpr, WExpr.close, trees_exprs, WExpr.boolOp.injEq] at same
      obtain ⟨ops, operands, loc⟩ := same
      obtain rfl := boolOp_toInt_injective ops
      exact .boolOp op (merged_exprs values values' operands) loc
    | _ => cases form
  | .compare left ops others range, e', same => by
    have form := form_eq same
    cases e' with
    | compare left' ops' others' range' =>
      simp only [Expr.tree, toWireExpr, WExpr.close, trees_exprs, WExpr.comparison.injEq] at same
      obtain ⟨first, operators, operands, loc⟩ := same
      obtain rfl := cmpOp_toInt_injective.list_map operators
      exact .compare ops (merged_expr left left' first) (merged_exprs others others' operands) loc
    | _ => cases form
  | .ifExp test body orelse range, e', same => by
    have form := form_eq same
    cases e' with
    | ifExp test' body' orelse' range' =>
      simp only [Expr.tree, toWireExpr, WExpr.close, WExpr.conditional.injEq] at same
      obtain ⟨bodies, tests, others, loc⟩ := same
      exact .ifExp (merged_expr test test' tests) (merged_expr body body' bodies)
        (merged_expr orelse orelse' others) loc
    | _ => cases form
  | .named target value range, e', same => by
    have form := form_eq same
    cases e' with
    | named target' value' range' =>
      simp only [Expr.tree, toWireExpr, WExpr.close, WExpr.assignment.injEq] at same
      obtain ⟨targets, values, loc⟩ := same
      exact .named (merged_expr target target' targets) (merged_expr value value' values) loc
    | _ => cases form
  | .starred value range, e', same => by
    have form := form_eq same
    cases e' with
    | starred value' range' =>
      simp only [Expr.tree, toWireExpr, WExpr.close, WExpr.star.injEq] at same
      obtain ⟨inside, loc⟩ := same
      exact .starred (merged_expr value value' inside) loc
    | _ => cases form
  | .await value range, e', same => by
    have form := form_eq same
    cases e' with
    | await value' range' =>
      simp only [Expr.tree, toWireExpr, WExpr.close, WExpr.await.injEq] at same
      obtain ⟨inside, loc⟩ := same
      exact .await (merged_expr value value' inside) loc
    | _ => cases form
  | .yieldFrom value range, e', same => by
    have form := form_eq same
    cases e' with
    | yieldFrom value' range' =>
      simp only [Expr.tree, toWireExpr, WExpr.close, WExpr.yieldFrom.injEq] at same
      obtain ⟨inside, loc⟩ := same
      exact .yieldFrom (merged_expr value value' inside) loc
    | _ => cases form
  | .yield value range, e', same => by
    have form := form_eq same
    cases e' with
    | yield value' range' =>
      simp only [Expr.tree, toWireExpr, WExpr.close, trees_optExpr, WExpr.yield.injEq] at same
      obtain ⟨inside, loc⟩ := same
      exact .yield (merged_optExpr value value' inside) loc
    | _ => cases form
  | .generator elt generators range, e', same => by
    have form := form_eq same
    cases e' with
    | generator elt' generators' range' =>
      simp only [Expr.tree, toWireExpr, WExpr.close, trees_comprehensions, WExpr.generator.injEq] at same
      obtain ⟨inside, clauses, loc⟩ := same
      exact .generator (merged_expr elt elt' inside) (merged_comprehensions generators generators' clauses)
        loc
    | _ => cases form
  | .listComp elt generators range, e', same => by
    have form := form_eq same
    cases e' with
    | listComp elt' generators' range' =>
      simp only [Expr.tree, toWireExpr, WExpr.close, trees_comprehensions, WExpr.listComp.injEq] at same
      obtain ⟨inside, clauses, loc⟩ := same
      exact .listComp (merged_expr elt elt' inside) (merged_comprehensions generators generators' clauses)
        loc
    | _ => cases form
  | .setComp elt generators range, e', same => by
    have form := form_eq same
    cases e' with
    | setComp elt' generators' range' =>
      simp only [Expr.tree, toWireExpr, WExpr.close, trees_comprehensions, WExpr.setComp.injEq] at same
      obtain ⟨inside, clauses, loc⟩ := same
      exact .setComp (merged_expr elt elt' inside) (merged_comprehensions generators generators' clauses)
        loc
    | _ => cases form
  | .dictComp key value generators range, e', same => by
    have keys := merged_optExpr key
    have form := form_eq same
    cases e' with
    | dictComp key' value' generators' range' =>
      by_cases optional : cvDictKeyOpt ≤ c.cacheVersion
      · simp only [Expr.tree, toWireExpr, optional, dif_pos, WExpr.close, trees_optExpr,
          trees_comprehensions, WExpr.dictComp.injEq] at same
        obtain ⟨first, inside, clauses, loc⟩ := same
        exact .dictComp (keys key' first) (merged_expr value value' inside)
          (merged_comprehensions generators generators' clauses) loc
      · simp only [Expr.tree, toWireExpr, optional, dif_neg, not_false_eq_true, WExpr.close,
          trees_comprehensions, WExpr.dictCompKeyed.injEq, WKey.expr.injEq] at same
        obtain ⟨first, inside, clauses, loc⟩ := same
        exact .recovered (Nat.lt_of_not_le optional) (merged_key keys first)
          (merged_expr value value' inside) (merged_comprehensions generators generators' clauses)
          loc
    | _ => cases form
  | .dict items range, e', same => by
    have form := form_eq same
    cases e' with
    | dict items' range' =>
      simp only [Expr.tree, toWireExpr, WExpr.close, trees_dictKeys, trees_dictValues,
        WExpr.dict.injEq] at same
      obtain ⟨keys, values, loc⟩ := same
      exact .dict (merged_dictItems items items' (map_pair_eq keys values)) loc
    | _ => cases form
  | .fString parts range, e', same => by
    have form := form_eq same
    cases e' with
    | fString parts' range' =>
      simp only [Expr.tree, toWireExpr, WExpr.close, trees_fStringParts, WExpr.fString.injEq] at same
      obtain ⟨inside, -, loc⟩ := same
      exact .fString (merged_parts parts parts' inside) loc
    | _ => cases form
  | .tString elements range, e', same => by
    have form := form_eq same
    cases e' with
    | tString elements' range' =>
      simp only [Expr.tree, toWireExpr, WExpr.close, trees_tStringElements, WExpr.tString.injEq] at same
      obtain ⟨inside, -, loc⟩ := same
      exact .tString (merged_elements elements elements' inside) loc
    | _ => cases form
  | .lambda none body range, e', same => by
    have form := form_eq same
    cases e' with
    | lambda parameters' body' range' =>
      rw [tree_lambda, tree_lambda, WExpr.lambda.injEq] at same
      obtain ⟨entries, -, inside, bodyLoc, loc⟩ := same
      exact .lambda (Separates.nil _ entries) (merged_expr body body' inside) bodyLoc loc
    | _ => cases form
  | .lambda (some parameters) body range, e', same => by
    have form := form_eq same
    cases e' with
    | lambda parameters' body' range' =>
      rw [tree_lambda, tree_lambda, WExpr.lambda.injEq] at same
      obtain ⟨entries, -, inside, bodyLoc, loc⟩ := same
      exact .lambda (merged_parameters parameters _ entries) (merged_expr body body' inside)
        bodyLoc loc
    | _ => cases form
  | .ipyEscapeCommand range, e', same => by
    have form := form_eq same
    cases e' with
    | ipyEscapeCommand range' => exact .command
    | _ => cases form

theorem merged_exprs : ∀ es : List Expr, Separates (Expr.tree c scope) (Merged c scope) es
  | [] => .nil
  | e :: es => .cons (merged_expr e) (merged_exprs es)

theorem merged_optExpr : ∀ e e' : Option Expr,
    e.map (Expr.tree c scope) = e'.map (Expr.tree c scope) → Option.Rel (Merged c scope) e e'
  | none, none, _ => .none
  | some e, some e', same => .some (merged_expr e e' (Option.some.inj same))
  | none, some _, same | some _, none, same => by cases same

theorem merged_args : ∀ args : List Expr, Separates
    (fun arg => (argKind arg, arg.unstarred.tree c scope)) (MergedArgument c scope) args
  | [] => .nil
  | arg :: args => by
    have inside := @merged_unstarred c scope arg (merged_expr arg)
    refine .cons ?_ (merged_args args)
    intro arg' same
    rw [Prod.mk.injEq] at same
    exact .mk same.1 (inside arg'.unstarred same.2)

theorem merged_keywords : ∀ keywords : List Keyword, Separates
    (fun keyword => (keywordName keyword, keyword.value.tree c scope)) (MergedKeyword c scope)
      keywords
  | [] => .nil
  | .mk arg value :: keywords => by
    refine .cons ?_ (merged_keywords keywords)
    rintro ⟨arg', value'⟩ same
    rw [Prod.mk.injEq] at same
    exact .mk (names_eq same.1) (merged_expr value value' same.2)

theorem merged_comprehensions : ∀ generators : List Comprehension,
    Separates (Comprehension.tree c scope) (MergedComprehension c scope) generators
  | [] => .nil
  | .mk target iter ifs isAsync :: generators => by
    refine .cons ?_ (merged_comprehensions generators)
    rintro ⟨target', iter', ifs', isAsync'⟩ same
    rw [Comprehension.tree, Comprehension.tree, WComprehension.mk.injEq] at same
    obtain ⟨targets, iters, conds, rfl⟩ := same
    exact .mk isAsync (merged_expr target target' targets) (merged_expr iter iter' iters)
      (merged_exprs ifs ifs' conds)

theorem merged_dictItems : ∀ items : List DictItem, Separates
    (fun item => (item.key.map (Expr.tree c scope), item.value.tree c scope))
      (MergedDictItem c scope) items
  | [] => .nil
  | .mk key value :: items => by
    refine .cons ?_ (merged_dictItems items)
    rintro ⟨key', value'⟩ same
    rw [Prod.mk.injEq] at same
    exact .mk (merged_optExpr key key' same.1) (merged_expr value value' same.2)

theorem merged_parts : ∀ parts : List FStringPart,
    Separates (FStringPart.tree c scope) (MergedPart c scope) parts
  | [] => .nil
  | .literal lit :: parts => by
    refine .cons ?_ (merged_parts parts)
    intro part same
    cases part with
    | literal lit' =>
      rw [FStringPart.tree, FStringPart.tree, WFStringPart.literal.injEq] at same
      exact .literal (utf8_injective same.1) same.2
    | fString => cases same
  | .fString elements :: parts => by
    have items := merged_items elements
    refine .cons ?_ (merged_parts parts)
    intro part same
    cases part with
    | literal => cases same
    | fString elements' =>
      rw [FStringPart.tree, FStringPart.tree, WFStringPart.fString.injEq] at same
      exact .fString (items _ same)

/-- The items are compared with those of any other list, in which a text may be a debug text. -/
theorem merged_items : ∀ elements : List InterpolatedStringElement,
    Separates (FStringItem.tree c scope) (MergedItem c scope) (fStringItems c elements)
  | [] => .nil
  | .literal value range :: elements => .cons merged_text (merged_items elements)
  | .interpolation expression debugText conversion formatSpec :: elements => by
    have spec := merged_formatSpec formatSpec
    have inside := merged_expr expression
    have rest := merged_items elements
    rw [fStringItems]
    apply Separates.append
    · cases debugText with
      | none => exact .nil
      | some text => exact .cons merged_text .nil
    · refine .cons ?_ rest
      intro item same
      cases item with
      | text => cases same
      | field expression' conversion' formatSpec' =>
        rw [FStringItem.tree, FStringItem.tree, WFStringElement.interpolation.injEq] at same
        obtain ⟨fields, conversions, specs⟩ := same
        rw [← fStringConversion_injective conversions]
        exact .field _ (inside expression' fields) (spec formatSpec' specs)

theorem merged_formatSpec : ∀ formatSpec formatSpec' : Option FormatSpec,
    FormatSpec.tree c scope formatSpec = FormatSpec.tree c scope formatSpec' →
    Option.Rel (MergedFormatSpec c scope) formatSpec formatSpec'
  | none, none, _ => .none
  | some (.mk elements range), some (.mk elements' range'), same => by
    have items := merged_items elements
    simp only [FormatSpec.tree, toWireFormatSpec, closeFormatSpec, trees_fStringItems,
      Option.some.injEq, WFormatSpec.mk.injEq] at same
    exact .some (.mk (items _ same.1) same.2)
  | none, some (.mk _ _), same | some (.mk _ _), none, same => by cases same

theorem merged_elements : ∀ elements : List InterpolatedStringElement,
    Separates (InterpolatedStringElement.tree c scope) (MergedElement c scope) elements
  | [] => .nil
  | .literal value range :: elements => by
    refine .cons ?_ (merged_elements elements)
    intro element same
    cases element with
    | literal value' range' =>
      rw [InterpolatedStringElement.tree, InterpolatedStringElement.tree,
        WTStringPart.literal.injEq] at same
      rw [← utf8_injective same.1]
      exact .literal value same.2
    | interpolation => cases same
  | .interpolation expression debugText conversion formatSpec :: elements => by
    have spec := merged_formatSpec formatSpec
    have inside := merged_expr expression
    refine .cons ?_ (merged_elements elements)
    intro element same
    cases element with
    | literal => cases same
    | interpolation expression' debugText' conversion' formatSpec' =>
      rw [InterpolatedStringElement.tree, InterpolatedStringElement.tree,
        WTStringPart.interpolation.injEq] at same
      obtain ⟨fields, text, conversions, specs⟩ := same
      rw [← tStringConversion_injective conversions]
      exact .interpolation conversion (inside expression' fields) (utf8EncodeChar_injective text)
        (spec formatSpec' specs)

theorem merged_parameters : ∀ parameters : Parameters,
    Separates (ParameterEntry.tree c scope) (MergedEntry c scope) parameters.entries
  | .mk posonlyargs args vararg kwonlyargs kwarg =>
    .append (.append (.append (.append (merged_defaults _ _ _ posonlyargs)
      (merged_defaults _ _ _ args)) (merged_variadic _ vararg))
      (merged_defaults _ _ _ kwonlyargs)) (merged_variadic _ kwarg)

theorem merged_defaults (kind kind' : Int) (posOnly : Parameter → Bool) :
    ∀ parameters : List ParameterWithDefault, Separates (ParameterEntry.tree c scope)
      (MergedEntry c scope) (parameters.map (·.entry kind kind' posOnly))
  | [] => .nil
  | .mk parameter default range :: parameters => by
    have inside := merged_optExpr default
    refine .cons ?_ (merged_defaults kind kind' posOnly parameters)
    intro entry same
    exact merged_entry (inside entry.default) same

end

end Recursion

section Patterns

variable {c : Config} {scope : Scope}

theorem captures_eq {name name' : Option Identifier}
    (same : toWireCapture c name = toWireCapture c name') :
    name.map (fun n => (n.id, c.location n.range))
      = name'.map (fun n => (n.id, c.location n.range)) := by
  cases name <;> cases name'
  · rfl
  · cases same
  · cases same
  · have both := Option.some.inj same
    rw [Prod.mk.injEq] at both
    exact congrArg some (Prod.ext (utf8_injective both.1) both.2)

theorem toWireSingleton_injective : Function.Injective toWireSingleton := by
  intro value value' same
  cases value <;> cases value' <;> first | rfl | cases same

mutual

theorem merged_pattern : ∀ p p' : Pattern, p.tree c scope = p'.tree c scope →
    MergedPattern c scope p p'
  | .matchAs pattern name range, p', same => by
    cases p' with
    | matchAs pattern' name' range' =>
      simp only [Pattern.tree, toWirePattern, WPattern.close, trees_optPattern,
        WPattern.as.injEq] at same
      obtain ⟨inside, names, loc⟩ := same
      exact .matchAs (merged_optPattern pattern pattern' inside) (captures_eq names) loc
    | _ => cases same
  | .matchOr patterns range, p', same => by
    cases p' with
    | matchOr patterns' range' =>
      simp only [Pattern.tree, toWirePattern, WPattern.close, trees_patterns,
        WPattern.or.injEq] at same
      exact .matchOr (merged_patterns patterns patterns' same.1) same.2
    | _ => cases same
  | .matchValue value range, p', same => by
    cases p' with
    | matchValue value' range' =>
      simp only [Pattern.tree, toWirePattern, WPattern.close, WPattern.value.injEq] at same
      exact .matchValue (merged_expr value value' same.1) same.2
    | _ => cases same
  | .matchSingleton value range, p', same => by
    cases p' with
    | matchSingleton value' range' =>
      simp only [Pattern.tree, toWirePattern, WPattern.close, WPattern.singleton.injEq] at same
      rw [← toWireSingleton_injective same.1]
      exact .matchSingleton value same.2
    | _ => cases same
  | .matchSequence patterns range, p', same => by
    cases p' with
    | matchSequence patterns' range' =>
      simp only [Pattern.tree, toWirePattern, WPattern.close, trees_patterns,
        WPattern.sequence.injEq] at same
      exact .matchSequence (merged_patterns patterns patterns' same.1) same.2
    | _ => cases same
  | .matchStar name range, p', same => by
    cases p' with
    | matchStar name' range' =>
      simp only [Pattern.tree, toWirePattern, WPattern.close, WPattern.starred.injEq] at same
      exact .matchStar (captures_eq same.1) same.2
    | _ => cases same
  | .matchMapping items rest range, p', same => by
    cases p' with
    | matchMapping items' rest' range' =>
      simp only [Pattern.tree, toWirePattern, WPattern.close, trees_mappingItems,
        WPattern.mapping.injEq] at same
      obtain ⟨inside, names, loc⟩ := same
      exact .matchMapping (merged_mappingItems items items' inside) (captures_eq names) loc
    | _ => cases same
  | .matchClass cls patterns keywords range, p', same => by
    cases p' with
    | matchClass cls' patterns' keywords' range' =>
      simp only [Pattern.tree, toWirePattern, WPattern.close, trees_patterns,
        trees_keywordPatterns, WPattern.class.injEq] at same
      obtain ⟨classes, positional, named, loc⟩ := same
      exact .matchClass (merged_expr cls cls' classes)
        (merged_patterns patterns patterns' positional)
        (merged_keywordPatterns keywords keywords' named) loc
    | _ => cases same

theorem merged_optPattern : ∀ p p' : Option Pattern,
    p.map (Pattern.tree c scope) = p'.map (Pattern.tree c scope) →
    Option.Rel (MergedPattern c scope) p p'
  | none, none, _ => .none
  | some p, some p', same => .some (merged_pattern p p' (Option.some.inj same))
  | none, some _, same | some _, none, same => by cases same

theorem merged_patterns : ∀ ps : List Pattern,
    Separates (Pattern.tree c scope) (MergedPattern c scope) ps
  | [] => .nil
  | p :: ps => .cons (merged_pattern p) (merged_patterns ps)

theorem merged_mappingItems : ∀ items : List (Expr × Pattern), Separates
    (fun item => (item.1.tree c scope, item.2.tree c scope)) (MergedMappingItem c scope) items
  | [] => .nil
  | (key, pattern) :: items => by
    refine .cons ?_ (merged_mappingItems items)
    rintro ⟨key', pattern'⟩ same
    rw [Prod.mk.injEq] at same
    exact .mk (merged_expr key key' same.1) (merged_pattern pattern pattern' same.2)

theorem merged_keywordPatterns : ∀ keywords : List (Identifier × Pattern), Separates
    (fun keyword => (keyword.1.bytes, keyword.2.tree c scope)) (MergedKeywordPattern c scope)
      keywords
  | [] => .nil
  | (attr, pattern) :: keywords => by
    refine .cons ?_ (merged_keywordPatterns keywords)
    rintro ⟨attr', pattern'⟩ same
    rw [Prod.mk.injEq] at same
    exact .mk (utf8_injective same.1) (merged_pattern pattern pattern' same.2)

end

end Patterns

section Words

end Words

end AstSerialize
