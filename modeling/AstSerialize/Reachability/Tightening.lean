import AstSerialize.Reachability.Verdict
import AstSerialize.Serializer.Position

/-! More names. Options that decide more names decide more conditions, and every
block that was unreachable stays so. -/
namespace AstSerialize
open Kleene IfReachabilityAnalyzer

/-- The names that the options decide are decided in the same way. -/
structure Options.Extends (o o' : Options) : Prop where
  pythonVersion : o'.pythonVersion = o.pythonVersion
  platform : o'.platform = o.platform
  alwaysTrue : ∀ name ∈ o.alwaysTrue, name ∈ o'.alwaysTrue
  alwaysFalse : ∀ name ∈ o.alwaysFalse, name ∈ o'.alwaysFalse
  kept : ∀ name ∈ o.alwaysFalse, name ∈ o'.alwaysTrue → name ∈ o.alwaysTrue

section Conditions

variable {o o' : Options}

theorem checkName_refines (extend : o.Extends o') (name : String) :
    Verdict.Refines (checkNameTruthValue o name).verdict (checkNameTruthValue o' name).verdict := by
  intro b known
  unfold checkNameTruthValue at known ⊢
  split at known
  · rename_i special
    rw [if_pos special]
    exact known
  · rename_i special
    rw [if_neg special]
    split at known
    · rename_i py2
      rw [if_pos py2]
      exact known
    · rename_i py2
      rw [if_neg py2]
      split at known
      · rename_i py3
        rw [if_pos py3]
        exact known
      · rename_i py3
        rw [if_neg py3]
        split at known
        · rename_i listed
          rw [if_pos (extend.alwaysTrue name listed)]
          exact known
        · rename_i unlisted
          split at known
          · rename_i listed
            rw [if_neg fun mem => unlisted (extend.kept name listed mem),
              if_pos (extend.alwaysFalse name listed)]
            exact known
          · cases known

theorem consider_congr (extend : o.Extends o') (expr : Expr) :
    considerSysVersionInfo o' expr = considerSysVersionInfo o expr ∧
      considerSysPlatform o' expr = considerSysPlatform o expr := by
  obtain ⟨version, platform, alwaysTrue, alwaysFalse, cacheVersion⟩ := o
  obtain ⟨version', platform', alwaysTrue', alwaysFalse', cacheVersion'⟩ := o'
  obtain rfl : version' = version := extend.pythonVersion
  obtain rfl : platform' = platform := extend.platform
  exact ⟨rfl, rfl⟩

theorem listed_refines {name : String} {names names' : List String} (truth : TruthValue)
    (sub : name ∈ names → name ∈ names') :
    Verdict.Refines (if name ∈ names then truth else .unknown).verdict
      (if name ∈ names' then truth else .unknown).verdict := by
  by_cases listed : name ∈ names
  · rw [if_pos listed, if_pos (sub listed)]
    exact .refl _
  · rw [if_neg listed]
    exact Verdict.open_refines _

theorem atomVerdict_boolean (o : Options) (range : TextRange) :
    atomVerdict o (.booleanLiteral true range)
      = (if "True" ∈ o.alwaysTrue then .alwaysTrue else .unknown : TruthValue).verdict ∧
    atomVerdict o (.booleanLiteral false range)
      = (if "False" ∈ o.alwaysFalse then .alwaysFalse else .unknown : TruthValue).verdict :=
  ⟨rfl, rfl⟩

theorem atomVerdict_refines (extend : o.Extends o') (expr : Expr) :
    Verdict.Refines (atomVerdict o expr) (atomVerdict o' expr) := by
  obtain ⟨version, platform⟩ := consider_congr extend expr
  cases expr with
  | boolOp => exact Verdict.open_refines _
  | name id range => exact checkName_refines extend id
  | «attribute» value attr range => exact checkName_refines extend attr.id
  | booleanLiteral value range =>
    cases value with
    | true =>
      rw [(atomVerdict_boolean o range).1, (atomVerdict_boolean o' range).1]
      exact listed_refines .alwaysTrue (extend.alwaysTrue _)
    | false =>
      rw [(atomVerdict_boolean o range).2, (atomVerdict_boolean o' range).2]
      exact listed_refines .alwaysFalse (extend.alwaysFalse _)
  | unaryOp op operand range =>
    cases op with
    | not => exact Verdict.open_refines _
    | _ =>
      simp only [atomVerdict, Expr.isJunction, inferConditionValue, version, platform]
      exact .refl _
  | _ =>
    simp only [atomVerdict, Expr.isJunction, inferConditionValue, version, platform]
    exact .refl _

/-- A condition that is decided stays decided. -/
theorem inferConditionValue_refines (extend : o.Extends o') (expr : Expr) :
    Verdict.Refines (inferConditionValue o expr).verdict (inferConditionValue o' expr).verdict := by
  rw [verdict_inferConditionValue, verdict_inferConditionValue]
  exact Formula.verdict_mono (atomVerdict_refines extend) (condition expr)

end Conditions

section Flags

variable {o o' : Options}

theorem isTrue_kept (extend : o.Extends o') {expr : Expr}
    (isTrue : isAlwaysOrMypyTrue (inferConditionValue o expr) = true) :
    isAlwaysOrMypyTrue (inferConditionValue o' expr) = true :=
  verdict_eq_true.mp (inferConditionValue_refines extend expr _ (verdict_eq_true.mpr isTrue))

theorem isFalse_kept (extend : o.Extends o') {expr : Expr}
    (isFalse : isAlwaysOrMypyFalse (inferConditionValue o expr) = true) :
    isAlwaysOrMypyFalse (inferConditionValue o' expr) = true :=
  verdict_eq_false.mp (inferConditionValue_refines extend expr _ (verdict_eq_false.mpr isFalse))

/-- What is unreachable stays so. -/
def BranchFlags.Tightens (flags flags' : BranchFlags) : Prop :=
  flags.unreachable = true → flags'.unreachable = true

/-- The analyzer has seen at least what the other one has. -/
def IfReachabilityAnalyzer.Tightens (a a' : IfReachabilityAnalyzer) : Prop :=
  a.tailUnreachable = true → a'.tailUnreachable = true

theorem or_kept {a b a' b' : Bool} (left : a = true → a' = true) (right : b = true → b' = true) :
    (a || b) = true → (a' || b') = true := by
  rw [Bool.or_eq_true, Bool.or_eq_true]
  exact Or.imp left right

theorem conditionFlags_tightens (extend : o.Extends o') {a a' : IfReachabilityAnalyzer}
    (seen : a.Tightens a') (expr : Expr) :
    (a.conditionFlags o expr).1.Tightens (a'.conditionFlags o' expr).1 ∧
      (a.conditionFlags o expr).2.Tightens (a'.conditionFlags o' expr).2 :=
  ⟨or_kept seen (isFalse_kept extend), or_kept seen (isTrue_kept extend)⟩

theorem clauseFlags_tightens (extend : o.Extends o') : ∀ (clauses : ElifElseClauses)
    (a a' : IfReachabilityAnalyzer), a.Tightens a' →
    List.Forall₂ BranchFlags.Tightens (a.clauseFlags o clauses).1 (a'.clauseFlags o' clauses).1
  | .nil, _, _, _ => .nil
  | .elif test _ _ rest, a, a', seen => by
    obtain ⟨flags, next⟩ := conditionFlags_tightens extend seen test
    exact .cons flags (clauseFlags_tightens extend rest _ _ next)
  | .else _ _, _, _, seen => .cons seen .nil

theorem guardValue_kept (extend : o.Extends o') (guard : Option Expr) :
    (isAlwaysOrMypyTrue (guardValue o guard) = true →
      isAlwaysOrMypyTrue (guardValue o' guard) = true) ∧
    (isAlwaysOrMypyFalse (guardValue o guard) = true →
      isAlwaysOrMypyFalse (guardValue o' guard) = true) := by
  cases guard with
  | none => exact ⟨fun _ => rfl, fun h => (nomatch h)⟩
  | some guard => exact ⟨isTrue_kept extend, isFalse_kept extend⟩

theorem caseFlags_tightens (extend : o.Extends o') (cases' : List MatchCase)
    {a a' : IfReachabilityAnalyzer} (seen : a.Tightens a') :
    List.Forall₂ BranchFlags.Tightens (a.caseFlags o cases') (a'.caseFlags o' cases') := by
  induction cases' generalizing a a' with
  | nil => exact .nil
  | cons c rest ih =>
    obtain ⟨isTrue, isFalse⟩ := guardValue_kept extend c.guard
    rw [caseFlags_cons, caseFlags_cons]
    constructor
    · unfold BranchFlags.Tightens
      rw [matchCaseFlags_unreachable, matchCaseFlags_unreachable]
      exact or_kept seen isFalse
    · apply ih
      unfold IfReachabilityAnalyzer.Tightens
      rw [matchCaseFlags_closes, matchCaseFlags_closes]
      apply or_kept seen
      simp only [MatchCase.closes, Bool.and_eq_true]
      exact And.imp_left isTrue

end Flags

section Modules

/-- The same frame, at least as unreachable. -/
inductive Frame.Tightens : Frame → Frame → Prop where
  | function (omittable : Bool) : Tightens (.function omittable) (.function omittable)
  | classDef : Tightens .classDef .classDef
  | branch {flags flags' : BranchFlags} (tightens : flags.Tightens flags') :
    Tightens (.branch flags) (.branch flags')

/-- The same part, at a position that is at least as unreachable. -/
structure Occurrence.Tightens (occ occ' : Occurrence) : Prop where
  frames : List.Forall₂ Frame.Tightens occ.position occ'.position
  part : occ'.part = occ.part

variable {o o' : Options}

theorem unreachable_kept {p p' : Position} (frames : List.Forall₂ Frame.Tightens p p')
    (unreachable : p.scope.unreachable = true) : p'.scope.unreachable = true := by
  induction frames with
  | nil => cases unreachable
  | cons here _ ih =>
    revert unreachable
    apply or_kept _ ih
    cases here with
    | function => exact id
    | classDef => exact id
    | branch tightens => exact tightens

theorem inClass_kept {p p' : Position} (frames : List.Forall₂ Frame.Tightens p p') :
    p'.scope.inClass = p.scope.inClass := by
  induction frames with
  | nil => rfl
  | @cons frame frame' p p' here _ ih =>
    change (frame'.isClass || (Position.scope p').inClass)
      = (frame.isClass || (Position.scope p).inClass)
    rw [ih]
    cases here <;> rfl

theorem functionFrame_kept {p p' : Position} (frames : List.Forall₂ Frame.Tightens p p')
    (head : FunctionHead) (body : List Stmt) :
    (functionFrame p head body).Tightens (functionFrame p' head body) := by
  rw [functionFrame, functionFrame, inClass_kept frames]
  exact .function _

theorem headD_tightens {flags flags' : List BranchFlags}
    (tightens : List.Forall₂ BranchFlags.Tightens flags flags') :
    (flags.headD ⟨false, false⟩).Tightens (flags'.headD ⟨false, false⟩) ∧
      List.Forall₂ BranchFlags.Tightens flags.tail flags'.tail := by
  cases tightens with
  | nil => exact ⟨id, .nil⟩
  | cons here rest => exact ⟨here, rest⟩

mutual

theorem occurrences_tighten (extend : o.Extends o') : ∀ (stmt : Stmt) (p p' : Position),
    List.Forall₂ Frame.Tightens p p' →
    List.Forall₂ Occurrence.Tightens (occurrences o p stmt) (occurrences o' p' stmt)
  | .functionDef head body, p, p', frames => by
    have inside := List.Forall₂.cons (functionFrame_kept frames head body) frames
    exact .cons ⟨frames, rfl⟩ (.cons ⟨inside, rfl⟩ (stmtsOccurrences_tighten extend body _ _ inside))
  | .classDef head body, p, p', frames => by
    have inside := List.Forall₂.cons Frame.Tightens.classDef frames
    exact .cons ⟨inside, rfl⟩ (stmtsOccurrences_tighten extend body _ _ inside)
  | .if test body clauses range, p, p', frames => by
    obtain ⟨flags, next⟩ :=
      conditionFlags_tightens extend (fun seen => seen : Tightens new new) test
    have inside := List.Forall₂.cons (Frame.Tightens.branch flags) frames
    exact List.rel_append
      (.cons ⟨inside, rfl⟩ (stmtsOccurrences_tighten extend body _ _ inside))
      (clausesOccurrences_tighten extend clauses p p' _ _ frames
        (clauseFlags_tightens extend clauses _ _ next))
  | .while test body orelse range, p, p', frames
  | .for isAsync target iter body orelse range, p, p', frames => by
    exact List.rel_append
      (.cons ⟨frames, rfl⟩ (stmtsOccurrences_tighten extend body p p' frames))
      (.cons ⟨frames, rfl⟩ (stmtsOccurrences_tighten extend orelse p p' frames))
  | .with isAsync items body range, p, p', frames =>
    .cons ⟨frames, rfl⟩ (stmtsOccurrences_tighten extend body p p' frames)
  | .try body handlers orelse finalbody isStar range, p, p', frames => by
    apply List.rel_append
    · exact .cons ⟨frames, rfl⟩ (stmtsOccurrences_tighten extend body p p' frames)
    · apply List.rel_append (handlersOccurrences_tighten extend handlers p p' frames)
      exact List.rel_append
        (.cons ⟨frames, rfl⟩ (stmtsOccurrences_tighten extend orelse p p' frames))
        (.cons ⟨frames, rfl⟩ (stmtsOccurrences_tighten extend finalbody p p' frames))
  | .match subject cases range, p, p', frames =>
    casesOccurrences_tighten extend cases p p' _ _ frames
      (caseFlags_tightens extend cases (fun seen => seen : Tightens new new))
  | .return .., p, p', frames | .delete .., p, p', frames | .typeAlias .., p, p', frames
  | .assign .., p, p', frames | .augAssign .., p, p', frames | .annAssign .., p, p', frames
  | .raise .., p, p', frames | .assert .., p, p', frames | .import .., p, p', frames
  | .importFrom .., p, p', frames | .global .., p, p', frames | .nonlocal .., p, p', frames
  | .expr .., p, p', frames | .pass .., p, p', frames | .break .., p, p', frames
  | .continue .., p, p', frames | .ipyEscapeCommand .., p, p', frames =>
    .cons ⟨frames, rfl⟩ .nil

theorem stmtsOccurrences_tighten (extend : o.Extends o') : ∀ (stmts : List Stmt)
    (p p' : Position), List.Forall₂ Frame.Tightens p p' →
    List.Forall₂ Occurrence.Tightens (stmtsOccurrences o p stmts) (stmtsOccurrences o' p' stmts)
  | [], _, _, _ => .nil
  | stmt :: stmts, p, p', frames =>
    List.rel_append (occurrences_tighten extend stmt p p' frames)
      (stmtsOccurrences_tighten extend stmts p p' frames)

theorem clausesOccurrences_tighten (extend : o.Extends o') : ∀ (clauses : ElifElseClauses)
    (p p' : Position) (flags flags' : List BranchFlags), List.Forall₂ Frame.Tightens p p' →
    List.Forall₂ BranchFlags.Tightens flags flags' →
    List.Forall₂ Occurrence.Tightens (clausesOccurrences o p flags clauses)
      (clausesOccurrences o' p' flags' clauses)
  | .nil, _, _, _, _, _, _ => .nil
  | .elif test body range rest, p, p', flags, flags', frames, tightens => by
    obtain ⟨here, later⟩ := headD_tightens tightens
    have inside := List.Forall₂.cons (Frame.Tightens.branch here) frames
    exact List.rel_append
      (.cons ⟨inside, rfl⟩ (stmtsOccurrences_tighten extend body _ _ inside))
      (clausesOccurrences_tighten extend rest p p' _ _ frames later)
  | .else body range, p, p', flags, flags', frames, tightens => by
    have inside := List.Forall₂.cons (Frame.Tightens.branch (headD_tightens tightens).1) frames
    exact .cons ⟨inside, rfl⟩ (stmtsOccurrences_tighten extend body _ _ inside)

theorem handlersOccurrences_tighten (extend : o.Extends o') : ∀ (handlers : List ExceptHandler)
    (p p' : Position), List.Forall₂ Frame.Tightens p p' →
    List.Forall₂ Occurrence.Tightens (handlersOccurrences o p handlers)
      (handlersOccurrences o' p' handlers)
  | [], _, _, _ => .nil
  | .mk _ _ body _ :: handlers, p, p', frames =>
    List.rel_append (.cons ⟨frames, rfl⟩ (stmtsOccurrences_tighten extend body p p' frames))
      (handlersOccurrences_tighten extend handlers p p' frames)

theorem casesOccurrences_tighten (extend : o.Extends o') : ∀ (cases : List MatchCase)
    (p p' : Position) (flags flags' : List BranchFlags), List.Forall₂ Frame.Tightens p p' →
    List.Forall₂ BranchFlags.Tightens flags flags' →
    List.Forall₂ Occurrence.Tightens (casesOccurrences o p flags cases)
      (casesOccurrences o' p' flags' cases)
  | [], _, _, _, _, _, _ => .nil
  | .mk pattern guard body range :: cases, p, p', flags, flags', frames, tightens => by
    obtain ⟨here, later⟩ := headD_tightens tightens
    have inside := List.Forall₂.cons (Frame.Tightens.branch here) frames
    exact List.rel_append
      (.cons ⟨inside, rfl⟩ (stmtsOccurrences_tighten extend body _ _ inside))
      (casesOccurrences_tighten extend cases p p' _ _ frames later)

end

theorem assertWillAlwaysFail_kept (extend : o.Extends o') {stmt : Stmt}
    (fails : assertWillAlwaysFail o stmt = true) : assertWillAlwaysFail o' stmt = true := by
  cases stmt with
  | assert test msg range => exact isFalse_kept extend fails
  | _ => cases fails

/-- A module is cut at the same assertion or before it. -/
theorem splitModule_prefix (extend : o.Extends o') (stmts : List Stmt) :
    (splitModule o' stmts).1 <+: (splitModule o stmts).1 := by
  induction stmts with
  | nil => exact List.prefix_rfl
  | cons stmt stmts ih =>
    rw [splitModule, splitModule]
    cases fails : assertWillAlwaysFail o stmt with
    | true =>
      rw [assertWillAlwaysFail_kept extend fails]
      exact List.prefix_rfl
    | false =>
      cases assertWillAlwaysFail o' stmt with
      | true => exact (List.prefix_cons_inj stmt).mpr List.nil_prefix
      | false => exact (List.prefix_cons_inj stmt).mpr ih

theorem stmtsOccurrences_append (o : Options) (p : Position) (stmts stmts' : List Stmt) :
    stmtsOccurrences o p (stmts ++ stmts')
      = stmtsOccurrences o p stmts ++ stmtsOccurrences o p stmts' := by
  induction stmts with
  | nil => rfl
  | cons stmt stmts ih =>
    rw [List.cons_append, stmtsOccurrences, stmtsOccurrences, ih, List.append_assoc]

/-- With more names decided a module is cut no later, and of what is left nothing that was
unreachable is reachable. -/
theorem moduleOccurrences_tighten (extend : o.Extends o') (stmts : List Stmt) :
    ∃ kept, kept <+: moduleOccurrences o stmts ∧
      List.Forall₂ (fun occ occ' => occ.Tightens occ' ∧
        (occ.position.scope.unreachable = true → occ'.position.scope.unreachable = true))
        kept (moduleOccurrences o' stmts) := by
  obtain ⟨stripped, split⟩ := splitModule_prefix extend stmts
  refine ⟨stmtsOccurrences o [] (splitModule o' stmts).1, ?_, ?_⟩
  · rw [moduleOccurrences, ← split, stmtsOccurrences_append]
    exact List.prefix_append _ _
  · apply (stmtsOccurrences_tighten extend _ [] [] .nil).imp
    intro occ occ' tightens
    exact ⟨tightens, unreachable_kept tightens.frames⟩

theorem extends_inline {o : Options} {alwaysTrue alwaysFalse : List String}
    (apart : ∀ name ∈ alwaysTrue, name ∈ o.alwaysFalse → name ∈ o.alwaysTrue) :
    o.Extends ((o.extendAlwaysTrue alwaysTrue).extendAlwaysFalse alwaysFalse) where
  pythonVersion := rfl
  platform := rfl
  alwaysTrue := fun _ mem => List.mem_append_left _ mem
  alwaysFalse := fun _ mem => List.mem_append_left _ mem
  kept := by
    intro name isFalse mem
    rcases List.mem_append.mp mem with isTrue | added
    · exact isTrue
    · exact apart name added isFalse

/-- Names that a file adds to the lists of the options, none of them true that is false without it,
only make more of the file unreachable. -/
theorem inline_names_tighten (o : Options) (alwaysTrue alwaysFalse : List String)
    (apart : ∀ name ∈ alwaysTrue, name ∈ o.alwaysFalse → name ∈ o.alwaysTrue) (stmts : List Stmt) :
    (∀ expr, Verdict.Refines (inferConditionValue o expr).verdict
      (inferConditionValue ((o.extendAlwaysTrue alwaysTrue).extendAlwaysFalse alwaysFalse)
        expr).verdict) ∧
    ∃ kept, kept <+: moduleOccurrences o stmts ∧
      List.Forall₂ (fun occ occ' => occ.Tightens occ' ∧
        (occ.position.scope.unreachable = true → occ'.position.scope.unreachable = true))
        kept (moduleOccurrences
          ((o.extendAlwaysTrue alwaysTrue).extendAlwaysFalse alwaysFalse) stmts) := by
  constructor
  · exact inferConditionValue_refines (extends_inline apart)
  · exact moduleOccurrences_tighten (extends_inline apart) stmts

/-- `assert not DEBUG` before an import, with `DEBUG` added to the true names. -/
theorem inline_names_tighten_debug :
    (∀ expr, Verdict.Refines (inferConditionValue .default expr).verdict
      (inferConditionValue ((Options.default.extendAlwaysTrue ["DEBUG"]).extendAlwaysFalse [])
        expr).verdict) ∧
    ∃ kept, kept <+: moduleOccurrences .default
        [.assert (.unaryOp .not (.name "DEBUG" ⟨11, 16⟩) ⟨7, 16⟩) none ⟨0, 16⟩,
          .import [⟨⟨"a", ⟨24, 25⟩⟩, none, ⟨24, 25⟩⟩] false ⟨17, 25⟩] ∧
      List.Forall₂ (fun occ occ' => occ.Tightens occ' ∧
        (occ.position.scope.unreachable = true → occ'.position.scope.unreachable = true))
        kept (moduleOccurrences
          ((Options.default.extendAlwaysTrue ["DEBUG"]).extendAlwaysFalse [])
          [.assert (.unaryOp .not (.name "DEBUG" ⟨11, 16⟩) ⟨7, 16⟩) none ⟨0, 16⟩,
            .import [⟨⟨"a", ⟨24, 25⟩⟩, none, ⟨24, 25⟩⟩] false ⟨17, 25⟩]) :=
  inline_names_tighten .default ["DEBUG"] [] (fun _ _ mem => absurd mem List.not_mem_nil) _

end Modules

end AstSerialize
