import AstSerialize.Reachability.Chain

/-! How statements run. A run passes the simple statements and the definitions it
gets to, in order, and the blocks that it is in; what a condition may evaluate to
is a parameter. -/
namespace AstSerialize

/-- What can be said of a condition or a pattern each time it is evaluated. -/
structure Choices where
  holds : Expr → Bool → Prop
  matched : Pattern → Bool → Prop

/-- A block that encloses a statement. Those of one `if` or `match` statement share the conditions
or the cases and are numbered. -/
inductive Enclosure where
  | function (head : FunctionHead)
  | classDef (head : ClassHead)
  | clause (conditions : List Expr) (i : Nat)
  | case (heads : List (Pattern × Option Expr)) (i : Nat)

/-- The enclosing blocks, innermost first. -/
abbrev Context := List Enclosure

inductive Event where
  | simple (stmt : Stmt)
  | function (head : FunctionHead)

structure Visit where
  context : Context
  event : Event

/-- How a run ends; `stopped` is a run that is only looked at so far. -/
inductive Outcome where
  | normal
  | raised
  | returned
  | broken
  | continued
  | stopped
  deriving DecidableEq, Repr

/-- The code that is left to run. -/
inductive Code where
  | stmt (stmt : Stmt)
  | block (stmts : List Stmt)
  /-- Calls of a function, any number of them and at any time. -/
  | calls (body : List Stmt)
  /-- A loop before the next iteration; only `while` has a condition. -/
  | loop (test : Option Expr) (body orelse : List Stmt)
  /-- A `try` statement without its `finally` block. -/
  | guarded (body : List Stmt) (handlers : List ExceptHandler) (orelse : List Stmt)
  /-- The handlers of an exception; several can run for an exception group. -/
  | handlers (handlers : List ExceptHandler)

def Stmt.isSimple : Stmt → Bool
  | .functionDef .. | .classDef .. | .for .. | .while .. | .if .. | .with .. | .match .. | .try .. =>
    false
  | _ => true

def ExceptHandler.body : ExceptHandler → List Stmt
  | .mk _ _ body _ => body

def MatchCase.body : MatchCase → List Stmt
  | .mk _ _ body _ => body

def MatchCase.head (c : MatchCase) : Pattern × Option Expr := (c.pattern, c.guard)

/-- The bodies of the clauses in order, that of an `else` last. -/
def ElifElseClauses.bodies : ElifElseClauses → List (List Stmt)
  | .nil => []
  | .elif _ body _ rest => body :: rest.bodies
  | .else body _ => [body]

def ifBlocks (body : List Stmt) (clauses : ElifElseClauses) : List (List Stmt) :=
  body :: clauses.bodies

/-- What a run passes when it begins a statement. -/
def visits (context : Context) (stmt : Stmt) : List Visit :=
  match stmt with
  | .functionDef head _ => [⟨context, .function head⟩]
  | stmt => if stmt.isSimple then [⟨context, .simple stmt⟩] else []

namespace Choices

variable (choices : Choices)

/-- The ends of a simple statement, apart from an exception. -/
def Completes : Stmt → Outcome → Prop
  | .return .., out => out = .returned
  | .break .., out => out = .broken
  | .continue .., out => out = .continued
  | .raise .., _ => False
  | .assert test _ _, out => out = .normal ∧ choices.holds test true
  | _, out => out = .normal

/-- The first `i` conditions fail, and the next one, if there is one, holds. -/
structure Selects (conditions : List Expr) (i : Nat) : Prop where
  inside : i ≤ conditions.length
  before : ∀ j e, j < i → conditions[j]? = some e → choices.holds e false
  here : ∀ e, conditions[i]? = some e → choices.holds e true

def Takes (c : MatchCase) : Prop :=
  choices.matched c.pattern true ∧ ∀ guard ∈ c.guard, choices.holds guard true

def Passes (c : MatchCase) : Prop :=
  choices.matched c.pattern false ∨ ∃ guard ∈ c.guard, choices.holds guard false

end Choices

/-- What a run over the code passes, and how it ends. Every statement may raise, as may the
expressions that a compound statement evaluates before its blocks. -/
inductive Exec (choices : Choices) : Context → Code → List Visit → Outcome → Prop where
  | stop {ctx code} : Exec choices ctx code [] .stopped
  | raise {ctx stmt} : Exec choices ctx (.stmt stmt) (visits ctx stmt) .raised
  | simple {ctx stmt out} : stmt.isSimple = true → choices.Completes stmt out →
    Exec choices ctx (.stmt stmt) (visits ctx stmt) out
  | functionDef {ctx head body vs} : Exec choices (.function head :: ctx) (.calls body) vs .normal →
    Exec choices ctx (.stmt (.functionDef head body)) (visits ctx (.functionDef head body) ++ vs)
      .normal
  | classDef {ctx head body vs out} : Exec choices (.classDef head :: ctx) (.block body) vs out →
    Exec choices ctx (.stmt (.classDef head body)) vs out
  | ifTaken {ctx test body clauses range i block vs out} :
    choices.Selects (chain test clauses) i → (ifBlocks body clauses)[i]? = some block →
    Exec choices (.clause (chain test clauses) i :: ctx) (.block block) vs out →
    Exec choices ctx (.stmt (.if test body clauses range)) vs out
  | ifSkipped {ctx test body clauses range i} :
    choices.Selects (chain test clauses) i → (ifBlocks body clauses)[i]? = none →
    Exec choices ctx (.stmt (.if test body clauses range)) [] .normal
  | while {ctx test body orelse range vs out} :
    Exec choices ctx (.loop (some test) body orelse) vs out →
    Exec choices ctx (.stmt (.while test body orelse range)) vs out
  | for {ctx isAsync target iter body orelse range vs out} :
    Exec choices ctx (.loop none body orelse) vs out →
    Exec choices ctx (.stmt (.for isAsync target iter body orelse range)) vs out
  | with {ctx isAsync items body range vs out} : Exec choices ctx (.block body) vs out →
    Exec choices ctx (.stmt (.with isAsync items body range)) vs out
  /-- A context manager can take an exception. -/
  | withTaken {ctx isAsync items body range vs} : Exec choices ctx (.block body) vs .raised →
    Exec choices ctx (.stmt (.with isAsync items body range)) vs .normal
  /-- The `finally` block runs last, and its end counts unless it is the normal one. -/
  | try {ctx body handlers orelse finalbody isStar range vs ws out last} : out ≠ .stopped →
    Exec choices ctx (.guarded body handlers orelse) vs out →
    Exec choices ctx (.block finalbody) ws last →
    Exec choices ctx (.stmt (.try body handlers orelse finalbody isStar range)) (vs ++ ws)
      (if last = .normal then out else last)
  | tryStopped {ctx body handlers orelse finalbody isStar range vs} :
    Exec choices ctx (.guarded body handlers orelse) vs .stopped →
    Exec choices ctx (.stmt (.try body handlers orelse finalbody isStar range)) vs .stopped
  | matchTaken {ctx subject cases range i c vs out} : cases[i]? = some c →
    (∀ passed ∈ cases.take i, choices.Passes passed) → choices.Takes c →
    Exec choices (.case (cases.map (·.head)) i :: ctx) (.block c.body) vs out →
    Exec choices ctx (.stmt (.match subject cases range)) vs out
  | matchPassed {ctx subject cases range} : (∀ passed ∈ cases, choices.Passes passed) →
    Exec choices ctx (.stmt (.match subject cases range)) [] .normal
  | nil {ctx} : Exec choices ctx (.block []) [] .normal
  | cons {ctx stmt stmts vs ws out} : Exec choices ctx (.stmt stmt) vs .normal →
    Exec choices ctx (.block stmts) ws out →
    Exec choices ctx (.block (stmt :: stmts)) (vs ++ ws) out
  | leave {ctx stmt stmts vs out} : out ≠ .normal → Exec choices ctx (.stmt stmt) vs out →
    Exec choices ctx (.block (stmt :: stmts)) vs out
  | uncalled {ctx body} : Exec choices ctx (.calls body) [] .normal
  | called {ctx body vs ws out} : Exec choices ctx (.block body) vs out →
    Exec choices ctx (.calls body) ws .normal → Exec choices ctx (.calls body) (vs ++ ws) .normal
  | loopRaise {ctx test body orelse} : Exec choices ctx (.loop test body orelse) [] .raised
  | loopEnd {ctx test body orelse vs out} : (∀ e ∈ test, choices.holds e false) →
    Exec choices ctx (.block orelse) vs out → Exec choices ctx (.loop test body orelse) vs out
  | loopNext {ctx test body orelse vs ws out last} : (∀ e ∈ test, choices.holds e true) →
    out = .normal ∨ out = .continued → Exec choices ctx (.block body) vs out →
    Exec choices ctx (.loop test body orelse) ws last →
    Exec choices ctx (.loop test body orelse) (vs ++ ws) last
  | loopBreak {ctx test body orelse vs} : (∀ e ∈ test, choices.holds e true) →
    Exec choices ctx (.block body) vs .broken → Exec choices ctx (.loop test body orelse) vs .normal
  | loopLeave {ctx test body orelse vs out} : (∀ e ∈ test, choices.holds e true) →
    out = .raised ∨ out = .returned ∨ out = .stopped → Exec choices ctx (.block body) vs out →
    Exec choices ctx (.loop test body orelse) vs out
  | guardedElse {ctx body handlers orelse vs ws out} : Exec choices ctx (.block body) vs .normal →
    Exec choices ctx (.block orelse) ws out →
    Exec choices ctx (.guarded body handlers orelse) (vs ++ ws) out
  | caught {ctx body handlers orelse vs ws out} : Exec choices ctx (.block body) vs .raised →
    Exec choices ctx (.handlers handlers) ws out →
    Exec choices ctx (.guarded body handlers orelse) (vs ++ ws) out
  | uncaught {ctx body handlers orelse vs out} : out ≠ .normal →
    Exec choices ctx (.block body) vs out →
    Exec choices ctx (.guarded body handlers orelse) vs out
  | handled {ctx handlers handler vs out} : handler ∈ handlers →
    Exec choices ctx (.block handler.body) vs out →
    Exec choices ctx (.handlers handlers) vs out
  | handledNext {ctx handlers handler vs ws out last} : handler ∈ handlers →
    Exec choices ctx (.block handler.body) vs out → Exec choices ctx (.handlers handlers) ws last →
    Exec choices ctx (.handlers handlers) (vs ++ ws) last

/-- What a condition can be in the worlds that agree with the options. An irrefutable pattern
always matches. -/
def mypyChoices (o : Options) : Choices where
  holds e b := ∃ w value, Consistent o w ∧ World.eval w e = some value ∧ value.truthy = b
  matched pattern b := pattern.isIrrefutable = true → b = true

/-- The choices do not contradict the analysis. -/
structure Choices.Agree (o : Options) (choices : Choices) : Prop where
  inferredTrue : ∀ e, isAlwaysOrMypyTrue (inferConditionValue o e) = true → ¬ choices.holds e false
  inferredFalse : ∀ e, isAlwaysOrMypyFalse (inferConditionValue o e) = true → ¬ choices.holds e true
  irrefutable : ∀ pattern, inferPatternValue pattern = .alwaysTrue → ¬ choices.matched pattern false

theorem mypyChoices_agree {o : Options} (major : componentFits o.pythonVersion.1 = true)
    (minor : componentFits o.pythonVersion.2 = true) : (mypyChoices o).Agree o where
  inferredTrue := by
    rintro e isTrue ⟨w, value, consistent, eval, fails⟩
    have sound := soundAt_of_fits consistent e (versionFits_of_fits major minor e) value eval
    rw [sound.1 isTrue] at fails
    cases fails
  inferredFalse := by
    rintro e isFalse ⟨w, value, consistent, eval, holds⟩
    have sound := soundAt_of_fits consistent e (versionFits_of_fits major minor e) value eval
    rw [sound.2 isFalse] at holds
    cases holds
  irrefutable := by
    intro pattern always passed
    cases passed (isIrrefutable_of_alwaysTrue pattern always)

section Stripping

variable {o : Options} {choices : Choices} {ctx : Context}

/-- No run gets past an assertion that always fails. -/
theorem assert_not_normal (agree : choices.Agree o) {stmt : Stmt} {vs : List Visit}
    (fails : assertWillAlwaysFail o stmt = true) : ¬ Exec choices ctx (.stmt stmt) vs .normal := by
  intro run
  cases stmt with
  | assert test msg range =>
    cases run with
    | simple _ completes => exact agree.inferredFalse test fails completes.2
  | _ => cases fails

/-- A block that begins with such an assertion runs as the assertion alone. -/
theorem exec_assert (agree : choices.Agree o) {stmt : Stmt} (stmts stmts' : List Stmt)
    {vs : List Visit} {out : Outcome} (fails : assertWillAlwaysFail o stmt = true)
    (run : Exec choices ctx (.block (stmt :: stmts)) vs out) :
    Exec choices ctx (.block (stmt :: stmts')) vs out := by
  cases run with
  | stop => exact .stop
  | cons first rest => exact absurd first (assert_not_normal agree fails)
  | leave abnormal first => exact .leave abnormal first

end Stripping

end AstSerialize
