import AstSerialize.Serializer.Walks

/-! For which files the serializer comes to a node that it does not support. -/
namespace AstSerialize

section Module

variable (c : Config) (skip : Bool)

theorem stmtsCommand_splitModule (o : Options) (stmts : List Stmt)
    (command : stmtsCommand (splitModule o stmts).1 = true) : stmtsCommand stmts = true := by
  induction stmts with
  | nil => exact command
  | cons stmt stmts ih =>
    rw [splitModule] at command
    rw [stmtsCommand, Bool.or_eq_true]
    split at command
    · left
      simpa [stmtsCommand] using command
    · simp only [stmtsCommand, Bool.or_eq_true] at command
      exact command.imp_right ih

theorem passes_module (stmts : List Stmt) :
    Passes c (supportsModule c skip false stmts) (moduleCheckpoints c skip stmts)
      (stmtsCommand stmts) :=
  (passes_stmts (splitModule c.options stmts).1 false).wider (stmtsCommand_splitModule c.options stmts)

end Module

section Parsed

variable (c : Config) (skip : Bool) (file : ParsedFile)

/-- `serialize_python_file`, from the tree that the parser has returned. -/
def serializeParsed : Mod → Option SerializedFile
  | .module body => serializePythonFile c skip { file with body := body }
  -- `first_statement_line` panics
  | .expression _ => none

def panicOf : Mod → Option Panic
  | .module body =>
    match ({ file with body := body } : ParsedFile).moduleIgnore c with
    | some _ => none
    | none =>
      match outcome c (moduleCheckpoints c skip body) false with
      | .ok _ => none
      | .error panic => some panic
  | .expression _ => some .expression

theorem panicOf_isSome_iff (tree : Mod) :
    (panicOf c skip file tree).isSome ↔ serializeParsed c skip file tree = none := by
  cases tree with
  | expression body => exact ⟨fun _ => rfl, fun _ => rfl⟩
  | module body =>
    rw [panicOf, serializeParsed]
    cases ignored : ({ file with body := body } : ParsedFile).moduleIgnore c with
    | some ignore =>
      obtain ⟨out, written, -⟩ := serializePythonFile_ignored c skip ignored
      simp [written]
    | none =>
      have ran := serializePythonFile_run c skip ignored
      have agrees := (passes_module c skip body).agrees false
      cases run : serializePythonFile c skip { file with body := body } with
      | some out =>
        rw [run] at ran
        rw [ran.supported] at agrees
        cases stops : outcome c (moduleCheckpoints c skip body) false with
        | ok seen => simp
        | error panic =>
          rw [stops] at agrees
          cases agrees
      | none =>
        rw [run] at ran
        have panics : supportsModule c skip false body = false := ran
        rw [panics] at agrees
        cases stops : outcome c (moduleCheckpoints c skip body) false with
        | ok seen =>
          rw [stops] at agrees
          cases agrees
        | error panic => simp

/-- The serializer does not panic at an unsupported node, at a tree that is no module, or for want
of the comment of a parameter. -/
structure NodesSupported (panic : Option Panic) : Prop where
  unsupported : panic ≠ some .unsupported
  expression : panic ≠ some .expression
  argComment : panic ≠ some .argComment

/-- The module is not ignored, and one of its commands has nothing before it that panics. -/
def Mod.ReachesCommand : Mod → Prop
  | .module body =>
    ({ file with body := body } : ParsedFile).moduleIgnore c = none ∧
      ∃ before after, moduleCheckpoints c skip body = before ++ .unsupported :: after ∧
        ∃ seen, outcome c before false = .ok seen
  | .expression _ => False

variable {c skip file}

theorem panicOf_unsupported_iff (tree : Mod) :
    panicOf c skip file tree = some .unsupported ↔ tree.ReachesCommand c skip file := by
  cases tree with
  | expression body => simp [panicOf, Mod.ReachesCommand]
  | module body =>
    rw [panicOf, Mod.ReachesCommand, ← outcome_unsupported_iff]
    cases ({ file with body := body } : ParsedFile).moduleIgnore c with
    | some ignore => simp
    | none => cases outcome c (moduleCheckpoints c skip body) false <;> simp

/-- The reason is that of the step at which the serializer stops: the steps before it run. -/
theorem panicOf_eq_some_iff (body : List Stmt) (panic : Panic) :
    panicOf c skip file (.module body) = some panic ↔
      ({ file with body := body } : ParsedFile).moduleIgnore c = none ∧
      ∃ before p after, moduleCheckpoints c skip body = before ++ p :: after ∧
        ∃ s, (before.forM (Checkpoint.step c)).run Serializer.initial = some ((), s) ∧
          (p.step c).run s = none ∧ p.pass c s.hasSurrogates = .error panic := by
  have stops := outcome_error_iff c (moduleCheckpoints c skip body) false panic
  have reason : panicOf c skip file (.module body) = some panic ↔
      ({ file with body := body } : ParsedFile).moduleIgnore c = none ∧
        outcome c (moduleCheckpoints c skip body) false = .error panic := by
    rw [panicOf]
    cases ({ file with body := body } : ParsedFile).moduleIgnore c with
    | some ignore => simp
    | none => cases outcome c (moduleCheckpoints c skip body) false <;> simp
  rw [reason, stops]
  apply and_congr_right
  intro _
  constructor
  · rintro ⟨before, p, after, split, seen, reached, fails⟩
    have ran := steps_run c before Serializer.initial
    change _ = (outcome c before false).toOption.map _ at ran
    rw [reached] at ran
    refine ⟨before, p, after, split, _, ran, ?_, fails⟩
    rw [step_run]
    change (p.pass c seen).toOption.map _ = none
    rw [fails]
    rfl
  · rintro ⟨before, p, after, split, s, ran, -, fails⟩
    rw [steps_run] at ran
    change (outcome c before false).toOption.map _ = _ at ran
    cases reached : outcome c before false with
    | error panic' =>
      rw [reached] at ran
      cases ran
    | ok seen =>
      rw [reached] at ran
      cases ran
      exact ⟨before, p, after, split, seen, reached, fails⟩

theorem hasCommand_of_reaches {tree : Mod} (reaches : tree.ReachesCommand c skip file) :
    tree.hasCommand = true := by
  cases tree with
  | expression body => exact reaches.elim
  | module body =>
    obtain ⟨-, before, after, points, -⟩ := reaches
    apply (passes_module c skip body).commanded
    rw [points]
    exact List.mem_append_right before List.mem_cons_self

theorem panicOf_module {body : List Stmt} {panic : Panic}
    (stopped : panicOf c skip file (.module body) = some panic) :
    panic ≠ .argComment ∧ panic ≠ .expression := by
  rw [panicOf] at stopped
  split at stopped
  · cases stopped
  · split at stopped
    · cases stopped
    case h_2 stops =>
      cases stopped
      exact outcome_indexed c (passes_module c skip body).indexed stops

/-- Whatever the name of a file and its text: the serializer panics where `panicOf` says so. It
panics at an unsupported node exactly in notebooks, at the first command of IPython, and nowhere for
the other two reasons. -/
theorem parse_supported_iff (parser : FileParser) (path : List Char) (c : Config) (skip : Bool)
    (file : ParsedFile) :
    let tree := parser.parseUnchecked c.source.text (PySourceType.ofPath path).asMode
    (serializeParsed c skip file tree = none ↔ (panicOf c skip file tree).isSome) ∧
      (NodesSupported (panicOf c skip file tree) ↔
        ¬ (pathExtension path = some "ipynb".toList ∧ tree.ReachesCommand c skip file)) := by
  intro tree
  refine ⟨(panicOf_isSome_iff c skip file tree).symm, ?_⟩
  obtain ⟨body, parsed⟩ := parser.yieldsModule c.source.text _ (PySourceType.ofPath path).asMode_ne_expression
  constructor
  · rintro supported ⟨-, reaches⟩
    exact supported.unsupported ((panicOf_unsupported_iff tree).mpr reaches)
  · intro spared
    have others {panic : Panic} (stopped : panicOf c skip file tree = some panic) :
        panic ≠ .argComment ∧ panic ≠ .expression := by
      have inModule : panicOf c skip file (.module body) = some panic := by
        rw [← parsed]
        exact stopped
      exact panicOf_module inModule
    constructor
    · intro stopped
      have reaches := (panicOf_unsupported_iff tree).mp stopped
      have mode := parser.commandMode _ _ (hasCommand_of_reaches reaches)
      rw [PySourceType.asMode_eq_ipython_iff, PySourceType.ofPath_eq_ipynb_iff] at mode
      exact spared ⟨mode, reaches⟩
    · exact fun stopped => (others stopped).2 rfl
    · exact fun stopped => (others stopped).1 rfl

def commandParser : FileParser where
  parseUnchecked text mode :=
    if mode = .ipython ∧ text = "!ls".toList then .module [.ipyEscapeCommand ⟨0, 3⟩] else .module []
  yieldsModule text mode _ := by
    split
    · exact ⟨_, rfl⟩
    · exact ⟨_, rfl⟩
  commandMode text mode command := by
    split at command
    case isTrue known => exact known.1
    case isFalse => cases command

theorem notebook_command_panics :
    let tree := commandParser.parseUnchecked "!ls".toList (PySourceType.ofPath "x.ipynb".toList).asMode
    tree = .module [.ipyEscapeCommand ⟨0, 3⟩] ∧
      serializeParsed (.plain "!ls".toList) false ⟨false, [], [], [], []⟩ tree = none ∧
      panicOf (.plain "!ls".toList) false ⟨false, [], [], [], []⟩ tree = some .unsupported ∧
      ¬ NodesSupported (panicOf (.plain "!ls".toList) false ⟨false, [], [], [], []⟩ tree) := by
  intro tree
  have notebook : PySourceType.ofPath "x.ipynb".toList = .ipynb := by decide
  have parsed : tree = .module [.ipyEscapeCommand ⟨0, 3⟩] := by
    change commandParser.parseUnchecked _ (PySourceType.ofPath "x.ipynb".toList).asMode = _
    rw [notebook]
    rfl
  have stopped : panicOf (.plain "!ls".toList) false ⟨false, [], [], [], []⟩ tree
      = some .unsupported := by
    rw [parsed]
    rfl
  refine ⟨parsed, ?_, stopped, fun supported => supported.unsupported stopped⟩
  rw [parsed]
  rfl

end Parsed

end AstSerialize
