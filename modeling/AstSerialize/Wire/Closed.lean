import AstSerialize.Wire.Search

/-! Trees in which every key is an expression. In place of a missing key there is
the name `None`, which has no end tag in the stream; a reader that takes the tag
for optional there finds the same tree as for a key that is written out. -/
namespace AstSerialize
open Coding

variable {cv : Nat}

section Closing

mutual

def WExpr.close : WExpr cv → WExpr cv
  | .name id loc => .name id loc
  | .member value attr loc => .member value.close attr loc
  | .str value surrogates loc => .str value surrogates loc
  | .call func args kinds names loc => .call func.close (closeExprs args) kinds names loc
  | .op op left right => .op op left.close right.close
  | .int value loc => .int value loc
  | .bigInt text loc => .bigInt text loc
  | .float bits loc => .float bits loc
  | .complex real imag loc => .complex real imag loc
  | .index value slice loc => .index value.close slice.close loc
  | .list elts loc => .list (closeExprs elts) loc
  | .tuple elts loc => .tuple (closeExprs elts) loc
  | .set elts loc => .set (closeExprs elts) loc
  | .generator elt generators loc => .generator elt.close (closeComprehensions generators) loc
  | .listComp elt generators loc => .listComp elt.close (closeComprehensions generators) loc
  | .setComp elt generators loc => .setComp elt.close (closeComprehensions generators) loc
  | .dictComp optional key value generators loc =>
    .dictComp optional (closeOptExpr key) value.close (closeComprehensions generators) loc
  | .dictCompKeyed required key value generators loc =>
    .dictCompKeyed required (.expr key.close) value.close (closeComprehensions generators) loc
  | .yield value loc => .yield (closeOptExpr value) loc
  | .yieldFrom value loc => .yieldFrom value.close loc
  | .boolOp op values loc => .boolOp op (closeExprs values) loc
  | .comparison left ops comparators loc => .comparison left.close ops (closeExprs comparators) loc
  | .ellipsis loc => .ellipsis loc
  | .conditional body test orelse loc => .conditional body.close test.close orelse.close loc
  | .unary op operand loc => .unary op operand.close loc
  | .dict keys values loc => .dict (closeKeys keys) (closeExprs values) loc
  | .slice lower upper step loc =>
    .slice (closeOptExpr lower) (closeOptExpr upper) (closeOptExpr step) loc
  | .fString parts surrogates loc => .fString (closeFStringParts parts) surrogates loc
  | .lambda parameters unreachable body bodyLoc loc =>
    .lambda (closeParameters parameters) unreachable body.close bodyLoc loc
  | .assignment target value loc => .assignment target.close value.close loc
  | .star value loc => .star value.close loc
  | .bytes text loc => .bytes text loc
  | .await value loc => .await value.close loc
  | .tString parts surrogates loc => .tString (closeTStringParts parts) surrogates loc
  | .temp => .temp

/-- The missing key is the name at its place. -/
def WKey.close : WKey cv → WExpr cv
  | .expr key => key.close
  | .recovered loc => .name (utf8 "None") loc

def closeExprs : List (WExpr cv) → List (WExpr cv)
  | [] => []
  | e :: es => e.close :: closeExprs es

def closeOptExpr : Option (WExpr cv) → Option (WExpr cv)
  | none => none
  | some e => some e.close

def closeKeys : List (Option (WExpr cv)) → List (Option (WExpr cv))
  | [] => []
  | key :: keys => closeOptExpr key :: closeKeys keys

def closeComprehensions : List (WComprehension cv) → List (WComprehension cv)
  | [] => []
  | .mk target iter ifs isAsync :: generators =>
    .mk target.close iter.close (closeExprs ifs) isAsync :: closeComprehensions generators

def closeParameters : List (WParameter cv) → List (WParameter cv)
  | [] => []
  | .mk name kind type default posOnly loc :: parameters =>
    .mk name kind type (closeOptExpr default) posOnly loc :: closeParameters parameters

def closeFStringParts : List (WFStringPart cv) → List (WFStringPart cv)
  | [] => []
  | .literal value loc :: parts => .literal value loc :: closeFStringParts parts
  | .fString elements :: parts => .fString (closeElements elements) :: closeFStringParts parts

def closeElements : List (WFStringElement cv) → List (WFStringElement cv)
  | [] => []
  | .literal value loc :: elements => .literal value loc :: closeElements elements
  | .interpolation expression conversion formatSpec :: elements =>
    .interpolation expression.close conversion (closeFormatSpec formatSpec)
      :: closeElements elements

def closeFormatSpec : Option (WFormatSpec cv) → Option (WFormatSpec cv)
  | none => none
  | some (.mk elements loc) => some (.mk (closeElements elements) loc)

def closeTStringParts : List (WTStringPart cv) → List (WTStringPart cv)
  | [] => []
  | .literal value loc :: parts => .literal value loc :: closeTStringParts parts
  | .interpolation expression text conversion formatSpec :: parts =>
    .interpolation expression.close text conversion (closeFormatSpec formatSpec)
      :: closeTStringParts parts

end

mutual

def WPattern.close : WPattern cv → WPattern cv
  | .as pattern name loc => .as (closeOptPattern pattern) name loc
  | .or patterns loc => .or (closePatterns patterns) loc
  | .value value loc => .value value.close loc
  | .singleton value loc => .singleton value loc
  | .sequence patterns loc => .sequence (closePatterns patterns) loc
  | .starred name loc => .starred name loc
  | .mapping items rest loc => .mapping (closeItems items) rest loc
  | .class cls patterns keywords loc =>
    .class cls.close (closePatterns patterns) (closeKeywordPatterns keywords) loc

def closeOptPattern : Option (WPattern cv) → Option (WPattern cv)
  | none => none
  | some pattern => some pattern.close

def closePatterns : List (WPattern cv) → List (WPattern cv)
  | [] => []
  | pattern :: patterns => pattern.close :: closePatterns patterns

def closeItems : List (WExpr cv × WPattern cv) → List (WExpr cv × WPattern cv)
  | [] => []
  | (key, pattern) :: items => (key.close, pattern.close) :: closeItems items

def closeKeywordPatterns : List (Bytes × WPattern cv) → List (Bytes × WPattern cv)
  | [] => []
  | (attr, pattern) :: keywords => (attr, pattern.close) :: closeKeywordPatterns keywords

end

end Closing

section Keys

/-- A comprehension that is written with the name `None` for a key. -/
def WExpr.isKeyless : WExpr cv → Bool
  | .dictCompKeyed _ (.recovered _) _ _ _ => true
  | _ => false

mutual

theorem keyed_expr : ∀ e : WExpr cv, e.close.any WExpr.isKeyless = false
  | .name .. | .str .. | .int .. | .bigInt .. | .float .. | .complex .. | .ellipsis .. | .bytes ..
  | .temp => rfl
  | .member value _ _ | .yieldFrom value _ | .unary _ value _ | .star value _ | .await value _ => by
    simp only [WExpr.close, WExpr.any, WExpr.isKeyless, keyed_expr value, Bool.or_false]
  | .call func args _ _ _ => by
    simp only [WExpr.close, WExpr.any, WExpr.isKeyless, keyed_expr func, keyed_exprs args,
      Bool.or_false]
  | .op _ left right | .index left right _ | .assignment left right _ => by
    simp only [WExpr.close, WExpr.any, WExpr.isKeyless, keyed_expr left, keyed_expr right,
      Bool.or_false]
  | .list elts _ | .tuple elts _ | .set elts _ | .boolOp _ elts _ => by
    simp only [WExpr.close, WExpr.any, WExpr.isKeyless, keyed_exprs elts, Bool.or_false]
  | .generator elt generators _ | .listComp elt generators _ | .setComp elt generators _ => by
    simp only [WExpr.close, WExpr.any, WExpr.isKeyless, keyed_expr elt, keyed_targets generators,
      keyed_iters generators, keyed_conds generators, Bool.or_false]
  | .dictComp _ key value generators _ => by
    simp only [WExpr.close, WExpr.any, WExpr.isKeyless, keyed_optExpr key, keyed_expr value,
      keyed_targets generators, keyed_iters generators, keyed_conds generators, Bool.or_false]
  | .dictCompKeyed _ key value generators _ => by
    simp only [WExpr.close, WExpr.any, WExpr.isKeyless, WKey.any, keyed_key key, keyed_expr value,
      keyed_targets generators, keyed_iters generators, keyed_conds generators, Bool.or_false]
  | .yield value _ => by
    simp only [WExpr.close, WExpr.any, WExpr.isKeyless, keyed_optExpr value, Bool.or_false]
  | .comparison left _ comparators _ => by
    simp only [WExpr.close, WExpr.any, WExpr.isKeyless, keyed_expr left, keyed_exprs comparators,
      Bool.or_false]
  | .conditional body test orelse _ => by
    simp only [WExpr.close, WExpr.any, WExpr.isKeyless, keyed_expr body, keyed_expr test,
      keyed_expr orelse, Bool.or_false]
  | .dict keys values _ => by
    simp only [WExpr.close, WExpr.any, WExpr.isKeyless, keyed_keys keys, keyed_exprs values,
      Bool.or_false]
  | .slice lower upper step _ => by
    simp only [WExpr.close, WExpr.any, WExpr.isKeyless, keyed_optExpr lower, keyed_optExpr upper,
      keyed_optExpr step, Bool.or_false]
  | .fString parts _ _ => by
    simp only [WExpr.close, WExpr.any, WExpr.isKeyless, keyed_fStringParts parts, Bool.or_false]
  | .lambda parameters _ body _ _ => by
    simp only [WExpr.close, WExpr.any, WExpr.isKeyless, keyed_parameters parameters,
      keyed_expr body, Bool.or_false]
  | .tString parts _ _ => by
    simp only [WExpr.close, WExpr.any, WExpr.isKeyless, keyed_tStringParts parts, Bool.or_false]

theorem keyed_key : ∀ key : WKey cv, key.close.any WExpr.isKeyless = false
  | .expr key => keyed_expr key
  | .recovered _ => rfl

theorem keyed_exprs : ∀ es : List (WExpr cv), exprsAny WExpr.isKeyless (closeExprs es) = false
  | [] => rfl
  | e :: es => by
    simp only [closeExprs, exprsAny, keyed_expr e, keyed_exprs es, Bool.or_false]

theorem keyed_optExpr : ∀ e : Option (WExpr cv),
    optExprAny WExpr.isKeyless (closeOptExpr e) = false
  | none => rfl
  | some e => keyed_expr e

theorem keyed_keys : ∀ keys : List (Option (WExpr cv)),
    keysAny WExpr.isKeyless (closeKeys keys) = false
  | [] => rfl
  | key :: keys => by
    simp only [closeKeys, keysAny, keyed_optExpr key, keyed_keys keys, Bool.or_false]

theorem keyed_targets : ∀ generators : List (WComprehension cv),
    targetsAny WExpr.isKeyless (closeComprehensions generators) = false
  | [] => rfl
  | .mk target _ _ _ :: generators => by
    simp only [closeComprehensions, targetsAny, keyed_expr target, keyed_targets generators,
      Bool.or_false]

theorem keyed_iters : ∀ generators : List (WComprehension cv),
    itersAny WExpr.isKeyless (closeComprehensions generators) = false
  | [] => rfl
  | .mk _ iter _ _ :: generators => by
    simp only [closeComprehensions, itersAny, keyed_expr iter, keyed_iters generators,
      Bool.or_false]

theorem keyed_conds : ∀ generators : List (WComprehension cv),
    condsAny WExpr.isKeyless (closeComprehensions generators) = false
  | [] => rfl
  | .mk _ _ ifs _ :: generators => by
    simp only [closeComprehensions, condsAny, keyed_exprs ifs, keyed_conds generators,
      Bool.or_false]

theorem keyed_parameters : ∀ parameters : List (WParameter cv),
    parametersAny WExpr.isKeyless (closeParameters parameters) = false
  | [] => rfl
  | .mk _ _ _ default _ _ :: parameters => by
    simp only [closeParameters, parametersAny, keyed_optExpr default, keyed_parameters parameters,
      Bool.or_false]

theorem keyed_fStringParts : ∀ parts : List (WFStringPart cv),
    fStringPartsAny WExpr.isKeyless (closeFStringParts parts) = false
  | [] => rfl
  | .literal _ _ :: parts => keyed_fStringParts parts
  | .fString elements :: parts => by
    simp only [closeFStringParts, fStringPartsAny, keyed_elements elements,
      keyed_fStringParts parts, Bool.or_false]

theorem keyed_elements : ∀ elements : List (WFStringElement cv),
    elementsAny WExpr.isKeyless (closeElements elements) = false
  | [] => rfl
  | .literal _ _ :: elements => keyed_elements elements
  | .interpolation expression _ formatSpec :: elements => by
    simp only [closeElements, elementsAny, keyed_expr expression, keyed_formatSpec formatSpec,
      keyed_elements elements, Bool.or_false]

theorem keyed_formatSpec : ∀ formatSpec : Option (WFormatSpec cv),
    formatSpecAny WExpr.isKeyless (closeFormatSpec formatSpec) = false
  | none => rfl
  | some (.mk elements _) => keyed_elements elements

theorem keyed_tStringParts : ∀ parts : List (WTStringPart cv),
    tStringPartsAny WExpr.isKeyless (closeTStringParts parts) = false
  | [] => rfl
  | .literal _ _ :: parts => keyed_tStringParts parts
  | .interpolation expression _ _ formatSpec :: parts => by
    simp only [closeTStringParts, tStringPartsAny, keyed_expr expression,
      keyed_formatSpec formatSpec, keyed_tStringParts parts, Bool.or_false]

end

mutual

theorem keyed_pattern : ∀ p : WPattern cv, p.close.any WExpr.isKeyless = false
  | .as pattern _ _ => keyed_optPattern pattern
  | .or patterns _ | .sequence patterns _ => keyed_patterns patterns
  | .value value _ => keyed_expr value
  | .singleton _ _ | .starred _ _ => rfl
  | .mapping items _ _ => keyed_items items
  | .class cls patterns keywords _ => by
    simp only [WPattern.close, WPattern.any, keyed_expr cls, keyed_patterns patterns,
      keyed_keywordPatterns keywords, Bool.or_false]

theorem keyed_optPattern : ∀ p : Option (WPattern cv),
    optPatternAny WExpr.isKeyless (closeOptPattern p) = false
  | none => rfl
  | some pattern => keyed_pattern pattern

theorem keyed_patterns : ∀ ps : List (WPattern cv),
    patternsAny WExpr.isKeyless (closePatterns ps) = false
  | [] => rfl
  | pattern :: patterns => by
    simp only [closePatterns, patternsAny, keyed_pattern pattern, keyed_patterns patterns,
      Bool.or_false]

theorem keyed_items : ∀ items : List (WExpr cv × WPattern cv),
    itemsAny WExpr.isKeyless (closeItems items) = false
  | [] => rfl
  | (key, pattern) :: items => by
    simp only [closeItems, itemsAny, keyed_expr key, keyed_pattern pattern, keyed_items items,
      Bool.or_false]

theorem keyed_keywordPatterns : ∀ keywords : List (Bytes × WPattern cv),
    keywordPatternsAny WExpr.isKeyless (closeKeywordPatterns keywords) = false
  | [] => rfl
  | (_, pattern) :: keywords => by
    simp only [closeKeywordPatterns, keywordPatternsAny, keyed_pattern pattern,
      keyed_keywordPatterns keywords, Bool.or_false]

end

end Keys

/-- A tree with one constructor for each tag, and whose children are all trees. -/
structure ClosedExpr (cv : Nat) where
  tree : WExpr cv
  keyed : tree.any WExpr.isKeyless = false

structure ClosedPattern (cv : Nat) where
  tree : WPattern cv
  keyed : tree.any WExpr.isKeyless = false

def WExpr.closed (e : WExpr cv) : ClosedExpr cv := ⟨e.close, keyed_expr e⟩

def WPattern.closed (p : WPattern cv) : ClosedPattern cv := ⟨p.close, keyed_pattern p⟩

end AstSerialize
