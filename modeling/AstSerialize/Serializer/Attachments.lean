import AstSerialize.Serializer.Methods

/-! Which parameters and assignments get their types from the same type comment. -/
namespace AstSerialize
open Coding

section Targets

/-- What can get its type from a regular type comment: a parameter, with the type that the comment
of the signature has given to it, or an assignment. -/
inductive TypeTarget where
  | parameter (start : Nat) (signature : Option Expr)
  | assignment (range : TextRange)

namespace TypeTarget

variable (c : Config)

/-- The line of the regular comment that is attached to the target, by the lookups of
`find_func_type_comment` and of the assignments. -/
def attached : TypeTarget → Option Nat
  | .parameter start none => (c.regularAt (c.lineOf start)).map fun _ => c.lineOf start
  | .parameter _ (some _) => none
  | .assignment range =>
    match c.typeComments (c.lineOf range.start) with
    | some (.regular _) => some (c.lineOf range.start)
    | some _ => none
    | none => (c.regularAt (c.lineOf range.stop)).map fun _ => c.lineOf range.stop

def type : TypeTarget → Option Expr
  | .parameter _ (some type) => some type
  | target@(.parameter _ none) | target@(.assignment _) => (target.attached c).bind c.regularAt

/-- The lines at which the layout puts the comment of the target: the line where a parameter starts,
unless the signature has its type, and the line where an assignment starts, or the one where it
stops if there is no comment on the first. -/
inductive LooksAt : TypeTarget → Nat → Prop
  | parameter (start : Nat) : LooksAt (.parameter start none) (c.lineOf start)
  | first (range : TextRange) : LooksAt (.assignment range) (c.lineOf range.start)
  | last (range : TextRange) (uncommented : c.typeComments (c.lineOf range.start) = none) :
    LooksAt (.assignment range) (c.lineOf range.stop)

variable {c}

theorem attached_iff (target : TypeTarget) (line : Nat) :
    target.attached c = some line ↔ target.LooksAt c line ∧ (c.regularAt line).isSome := by
  constructor
  · intro attached
    unfold TypeTarget.attached at attached
    split at attached
    case h_1 start =>
      rw [Option.map_eq_some_iff] at attached
      obtain ⟨type, found, rfl⟩ := attached
      exact ⟨.parameter start, by rw [found]; rfl⟩
    case h_2 => cases attached
    case h_3 range =>
      split at attached
      case h_1 type found =>
        cases attached
        exact ⟨.first range, by rw [regularAt_eq_some.mpr found]; rfl⟩
      case h_2 => cases attached
      case h_3 uncommented =>
        rw [Option.map_eq_some_iff] at attached
        obtain ⟨type, found, rfl⟩ := attached
        exact ⟨.last range uncommented, by rw [found]; rfl⟩
  · rintro ⟨looks, regular⟩
    obtain ⟨type, found⟩ := Option.isSome_iff_exists.mp regular
    cases looks with
    | parameter start => simp [TypeTarget.attached, found]
    | first range =>
      have comment := regularAt_eq_some.mp found
      simp [TypeTarget.attached, comment]
    | last range uncommented => simp [TypeTarget.attached, uncommented, found]

end TypeTarget

end Targets

section Statements

variable (c : Config)

/-- The targets of a statement. Without a body or without tokens no comment of the function is
looked for. -/
def StmtSite.targets (site : StmtSite) : List TypeTarget :=
  match site.stmt with
  | .functionDef head body =>
    match body, c.tokens with
    | _ :: _, some _ =>
      List.zipWith .parameter head.parameters.starts
        (applyFuncComment site.position.scope.inClass head.parameters.len
          (headerComment c body)).1
    | _, _ => []
  | .assign _ _ range => [.assignment range]
  | _ => []

def StmtSite.Attaches (site : StmtSite) : Prop :=
  match site.stmt with
  | .functionDef head body =>
    ∃ comment, findFuncTypeComment c site.position.scope.inClass head.parameters body
        = some comment ∧
      ∀ i : Nat, comment.argTypes[i]?.join = ((site.targets c)[i]?).bind (TypeTarget.type c)
  | .assign _ _ range =>
    ∀ type, c.assignComment range = some (.regular type)
      ↔ ∃ target ∈ site.targets c, target.type c = some type
  | _ => site.targets c = []

variable {c}

theorem addParameterComments_types (starts : List Nat) (argTypes : List (Option Expr))
    (covered : argTypes.length = starts.length) :
    (addParameterComments c starts argTypes).1
      = (List.zipWith TypeTarget.parameter starts argTypes).map (TypeTarget.type c) := by
  induction starts generalizing argTypes with
  | nil =>
    obtain rfl := List.length_eq_zero_iff.mp covered
    rfl
  | cons start starts ih =>
    cases argTypes with
    | nil => cases covered
    | cons argType argTypes =>
      have rest := ih argTypes (Nat.succ.inj covered)
      rw [List.zipWith_cons_cons, List.map_cons, ← rest, addParameterComments]
      dsimp only
      split
      case h_1 type found =>
        cases argType with
        | none => simp [TypeTarget.type, TypeTarget.attached, Config.regularAt, found]
        | some argType => rfl
      case h_2 other =>
        cases argType with
        | none =>
          have missing : c.regularAt (c.lineOf start) = none := by
            unfold Config.regularAt
            split
            case h_1 type found => exact absurd found (other type)
            case h_2 => rfl
          simp [TypeTarget.type, TypeTarget.attached, missing]
        | some argType => rfl

theorem findFuncTypeComment_types {inClass : Bool} {parameters : Parameters} {first : Stmt}
    {rest : List Stmt} {tokens : List Token} {comment : FuncComment}
    (given : c.tokens = some tokens)
    (found : findFuncTypeComment c inClass parameters (first :: rest) = some comment) :
    comment.argTypes = (addParameterComments c parameters.starts
      (applyFuncComment inClass parameters.len (headerComment c (first :: rest))).1).1 := by
  unfold findFuncTypeComment at found
  unfold headerComment
  simp only [given, Option.bind_eq_bind, Option.bind_eq_some_iff] at found ⊢
  obtain ⟨before, before_eq, signature, scanned, returned⟩ := found
  cases returned
  simp only [before_eq, Option.bind_some, scanned, Option.join_some]

theorem assignComment_regular (range : TextRange) (type : Expr) :
    c.assignComment range = some (.regular type)
      ↔ (TypeTarget.assignment range).type c = some type := by
  unfold Config.assignComment TypeTarget.type
  dsimp only [TypeTarget.attached]
  cases comment : c.typeComments (c.lineOf range.start) with
  | none =>
    dsimp only
    rw [← regularAt_eq_some]
    cases found : c.regularAt (c.lineOf range.stop) with
    | none => simp
    | some type' => simp [found]
  | some comment' =>
    dsimp only
    cases comment' with
    | regular type' => simp [regularAt_eq_some, comment]
    | function | invalid => simp

theorem attaches_of_supported {skip : Bool} {site : StmtSite}
    (supported : supportsStmt c skip site.position.scope.inClass site.stmt = true) :
    site.Attaches c := by
  rcases site with ⟨position, stmt⟩
  cases stmt with
  | functionDef head body =>
    simp only [supportsStmt, Bool.and_eq_true] at supported
    obtain ⟨comment, found⟩ := Option.isSome_iff_exists.mp supported.1
    refine ⟨comment, found, ?_⟩
    intro i
    unfold StmtSite.targets
    dsimp only
    split
    case h_1 first rest tokens given =>
      rw [findFuncTypeComment_types given found, addParameterComments_types, List.getElem?_map]
      · cases (List.zipWith TypeTarget.parameter head.parameters.starts
          (applyFuncComment position.scope.inClass head.parameters.len
            (headerComment c (first :: rest))).1)[i]? <;> rfl
      · rw [applyFuncComment_length, Parameters.starts_length]
    case h_2 unsearched =>
      unfold findFuncTypeComment at found
      split at found
      case h_1 first rest tokens given => exact (unsearched first rest tokens rfl given).elim
      case h_2 =>
        cases found
        rw [List.getElem?_replicate]
        split <;> rfl
  | assign targets value range =>
    intro type
    rw [assignComment_regular]
    simp [StmtSite.targets]
  | _ => rfl

end Statements

section Modules

variable (c : Config) (skip : Bool)

def moduleTargets (stmts : List Stmt) : List TypeTarget :=
  (moduleStmtSites c skip stmts).flatMap (·.targets c)

/-- No regular comment is attached to two targets. -/
def AttachedOnce (targets : List TypeTarget) : Prop :=
  ∀ line, (targets.filter fun target => target.attached c = some line).length ≤ 1

def LinesApart (targets : List TypeTarget) : Prop :=
  ∀ line, (c.regularAt line).isSome →
    targets.Pairwise fun target other => ¬ (target.LooksAt c line ∧ other.LooksAt c line)

variable {c}

theorem filter_length_le_one_iff {A : Type} (p : A → Bool) (xs : List A) :
    (xs.filter p).length ≤ 1 ↔ xs.Pairwise fun x y => ¬ (p x = true ∧ p y = true) := by
  induction xs with
  | nil => simp
  | cons x xs ih =>
    rw [List.pairwise_cons, List.filter_cons]
    cases here : p x with
    | false => simpa using ih
    | true =>
      rw [if_pos rfl, List.length_cons, Nat.succ_le_succ_iff, Nat.le_zero, List.length_eq_zero_iff,
        List.filter_eq_nil_iff]
      constructor
      · intro others
        refine ⟨fun y mem both => others y mem both.2, ?_⟩
        apply List.Pairwise.imp_of_mem ?_ (List.pairwise_of_forall fun _ _ => trivial)
        intro y z mem _ _ both
        exact others y mem both.1
      · rintro ⟨apart, -⟩ y mem there
        exact apart y mem ⟨rfl, there⟩

theorem attachedOnce_iff (targets : List TypeTarget) :
    AttachedOnce c targets ↔ LinesApart c targets := by
  apply forall_congr'
  intro line
  simp only [filter_length_le_one_iff, decide_eq_true_eq, TypeTarget.attached_iff]
  cases (c.regularAt line).isSome with
  | false =>
    simp only [Bool.false_eq_true, and_false, and_self, not_false_eq_true, false_implies,
      iff_true]
    exact List.pairwise_of_forall fun _ _ => trivial
  | true => simp only [and_true, true_implies]

/-- Every target gets its type from the comment that is attached to it, and no comment is attached
twice exactly if no two targets look at one line with a comment. -/
theorem serializeModule_attachments_iff (c : Config) (skip : Bool) (stmts : List Stmt) :
    match (serializeModule c skip stmts).run Serializer.initial with
    | some ((), s) =>
      ∃ tree : List (WStmt c.cacheVersion), (∀ r, decModule (s.bytes ++ r) = some (tree, r)) ∧
        treesStmts tree = (moduleStmtSites c skip stmts).map (·.tree c skip) ∧
        (∀ site ∈ moduleStmtSites c skip stmts, site.Attaches c) ∧
        (AttachedOnce c (moduleTargets c skip stmts) ↔ LinesApart c (moduleTargets c skip stmts))
    | none => supportsModule c skip false stmts = false := by
  apply serializeModule_sites c skip stmts
  intro s tree sites
  refine ⟨tree, sites.reads, sites.written, ?_, attachedOnce_iff _⟩
  intro site mem
  exact attaches_of_supported (moduleStmtSites_supported c skip sites.supported mem)

/-- `x = 1; y = 2  # type: int`. -/
def commentedAssignments : Config :=
  .commented "x = 1; y = 2  # type: int"
    [⟨.other, ⟨0, 1⟩⟩, ⟨.other, ⟨2, 3⟩⟩, ⟨.other, ⟨4, 5⟩⟩, ⟨.other, ⟨5, 6⟩⟩, ⟨.other, ⟨7, 8⟩⟩,
      ⟨.other, ⟨9, 10⟩⟩, ⟨.other, ⟨11, 12⟩⟩, ⟨.comment, ⟨14, 25⟩⟩, ⟨.other, ⟨25, 25⟩⟩]
    1 (.regular (.name "int" ⟨22, 25⟩))

def assignmentsModule : List Stmt :=
  [.assign [.name "x" ⟨0, 1⟩] (.numberLiteral (.int (.small 1)) ⟨4, 5⟩) ⟨0, 5⟩,
    .assign [.name "y" ⟨7, 8⟩] (.numberLiteral (.int (.small 2)) ⟨11, 12⟩) ⟨7, 12⟩]

theorem comment_attached_twice :
    commentedAssignments.regularAt 1 = some (.name "int" ⟨22, 25⟩) ∧
    moduleTargets commentedAssignments false assignmentsModule
      = [.assignment ⟨0, 5⟩, .assignment ⟨7, 12⟩] ∧
    (TypeTarget.assignment ⟨0, 5⟩).attached commentedAssignments = some 1 ∧
    (TypeTarget.assignment ⟨7, 12⟩).attached commentedAssignments = some 1 ∧
    ¬ AttachedOnce commentedAssignments
      (moduleTargets commentedAssignments false assignmentsModule) := by
  have targets : moduleTargets commentedAssignments false assignmentsModule
      = [.assignment ⟨0, 5⟩, .assignment ⟨7, 12⟩] := rfl
  have first : (TypeTarget.assignment ⟨0, 5⟩).attached commentedAssignments = some 1 := rfl
  have second : (TypeTarget.assignment ⟨7, 12⟩).attached commentedAssignments = some 1 := rfl
  refine ⟨rfl, targets, first, second, ?_⟩
  intro once
  have twice := once 1
  rw [targets] at twice
  simp [first, second] at twice

end Modules

end AstSerialize
