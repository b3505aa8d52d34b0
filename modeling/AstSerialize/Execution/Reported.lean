import AstSerialize.Execution.Located
import AstSerialize.Serializer.Imports

/-! What the caller is told of the imports that run. -/
namespace AstSerialize
open Coding

def Enclosure.isFunction : Enclosure → Bool
  | .function _ => true
  | _ => false

/-- The run is in no function. -/
def Context.outside (ctx : Context) : Prop := ∀ enclosure ∈ ctx, enclosure.isFunction = false

/-- The entries for an import statement with the given flags. -/
def Stmt.importEntries (flags : UInt8) : Stmt → List ImportStatement
  | .import names _ _ => names.map (importEntry flags)
  | .importFrom module names level _ range => [fromEntry module names level range flags]
  | _ => []

def Stmt.isLazy : Stmt → Bool
  | .import _ isLazy _ | .importFrom _ _ _ isLazy _ => isLazy
  | _ => false

theorem importSites_entries (p : Position) (stmt : Stmt) :
    (Occurrence.importSites ⟨p, .simple stmt⟩).map (·.entry)
      = stmt.importEntries (importFlags p.scope stmt.isLazy) := by
  cases stmt with
  | «import» names isLazy range =>
    rw [Occurrence.importSites, Stmt.importEntries, List.map_map]
    rfl
  | _ => rfl

section Frames

variable {o : Options}

theorem Enclosure.Frames.isFunction {enclosure : Enclosure} {frame : Frame}
    (frames : enclosure.Frames o frame) : frame.isFunction = enclosure.isFunction := by
  cases enclosure with
  | function head =>
    obtain ⟨omittable, rfl⟩ := frames
    rfl
  | classDef head =>
    obtain rfl := frames
    rfl
  | clause conditions i =>
    obtain ⟨flags, rfl, -⟩ := frames
    rfl
  | case heads i =>
    obtain ⟨flags, cases', rfl, -⟩ := frames
    rfl

theorem inFunction_iff {ctx : Context} {p : Position}
    (frames : List.Forall₂ (Enclosure.Frames o) ctx p) :
    p.scope.inFunction = false ↔ ctx.outside := by
  induction frames with
  | nil => exact ⟨fun _ _ mem => absurd mem List.not_mem_nil, fun _ => rfl⟩
  | @cons enclosure frame ctx p here _ ih =>
    change (frame.isFunction || (Position.scope p).inFunction) = false ↔ _
    rw [Bool.or_eq_false_iff, here.isFunction, ih]
    exact (List.forall_mem_cons (p := fun e => Enclosure.isFunction e = false)).symm

/-- Outside functions everything is written. -/
theorem written_outside (skip : Bool) {p : Position} (outside : p.scope.inFunction = false) :
    p.written skip = true := by
  induction p with
  | nil => cases skip <;> rfl
  | cons frame p ih =>
    obtain ⟨here, rest⟩ := Bool.or_eq_false_iff.mp outside
    cases frame with
    | function omittable => cases here
    | classDef => exact ih rest
    | branch flags => exact ih rest

end Frames

section Reports

/-- The entries that are returned for a statement that a run passes in the context. -/
structure Reported (out : SerializedFile) (ctx : Context) (stmt : Stmt) (flags : UInt8) :
    Prop where
  listed : ∀ entry ∈ stmt.importEntries flags, entry ∈ out.imports
  reachable : flags &&& importFlagUnreachable = 0
  topLevel : flags &&& importFlagTopLevel ≠ 0 ↔ ctx.outside
  isLazy : flags &&& importFlagLazy ≠ 0 ↔ stmt.isLazy = true

variable {c : Config} {skip : Bool} {file : ParsedFile}

theorem entries_listed {out : SerializedFile} (ran : FileRun c skip file out) {occ : Occurrence}
    (mem : occ ∈ moduleOccurrences c.options file.body) (here : occ.position.written skip = true)
    {stmt : Stmt} (simple : occ.part = .simple stmt) :
    ∀ entry ∈ stmt.importEntries (importFlags occ.position.scope stmt.isLazy),
      entry ∈ out.imports := by
  obtain ⟨p, part⟩ := occ
  obtain rfl : part = .simple stmt := simple
  intro entry listed
  rw [ran.imports, moduleTrace_imports, moduleSites]
  rw [← importSites_entries, List.mem_map] at listed
  obtain ⟨site, inside, rfl⟩ := listed
  apply List.mem_map_of_mem
  rw [List.mem_flatMap]
  exact ⟨_, List.mem_filter.mpr ⟨mem, here⟩, inside⟩

theorem live_reported {out : SerializedFile} (ran : FileRun c skip file out) {visit : Visit}
    {occ : Occurrence} (mem : occ ∈ moduleOccurrences c.options file.body)
    (live : Live c.options visit occ) (here : occ.position.written skip = true) {stmt : Stmt}
    (simple : visit.event = .simple stmt) :
    Reported out visit.context stmt (importFlags occ.position.scope stmt.isLazy) := by
  have part : occ.part = .simple stmt := live.part.trans (congrArg Event.part simple)
  obtain ⟨topLevel, unreachable, -, isLazy⟩ := ImportSite.makeImportFlags_bits
    occ.position.scope.inFunction occ.position.scope.unreachable occ.position.scope.mypyOnly
    stmt.isLazy
  constructor
  · exact entries_listed ran mem here part
  · by_contra flagged
    have dead := unreachable.mp flagged
    rw [live.reachable] at dead
    cases dead
  · exact topLevel.trans (inFunction_iff live.frames)
  · exact isLazy

/-- What the caller is told of a simple statement that a run passes. The position of an occurrence
says of each function around it whether its body can be left out. -/
structure ToldOf (c : Config) (skip : Bool) (file : ParsedFile) (out : SerializedFile)
    (visit : Visit) (stmt : Stmt) : Prop where
  located : ∃ occ ∈ moduleOccurrences c.options file.body, Live c.options visit occ
  reported : ∀ occ ∈ moduleOccurrences c.options file.body, Live c.options visit occ →
    occ.position.written skip = true →
    Reported out visit.context stmt (importFlags occ.position.scope stmt.isLazy)
  written : skip = false ∨ visit.context.outside →
    ∀ occ, Live c.options visit occ → occ.position.written skip = true

/-- Every import that runs is returned, and not as unreachable, unless it is in a body that is left
out. -/
theorem run_imports_reported (c : Config) (major : componentFits c.options.pythonVersion.1 = true)
    (minor : componentFits c.options.pythonVersion.2 = true) (skip : Bool) (file : ParsedFile)
    (live : file.moduleIgnore c = none) {vs : List Visit} {outcome : Outcome}
    (run : Exec (mypyChoices c.options) [] (.block file.body) vs outcome) :
    match serializePythonFile c skip file with
    | some out => ∀ visit ∈ vs, ∀ stmt, visit.event = .simple stmt →
        ToldOf c skip file out visit stmt
    | none => supportsModule c skip false file.body = false := by
  have ran := serializePythonFile_run c skip live
  cases result : serializePythonFile c skip file with
  | none =>
    rw [result] at ran
    exact ran
  | some out =>
    rw [result] at ran
    intro visit passed stmt simple
    have agree := mypyChoices_agree major minor
    constructor
    · exact exec_live agree (exec_splitModule agree run) ⟨.nil, rfl⟩ visit passed
    · intro occ mem here written
      exact live_reported ran mem here written simple
    · intro kept occ here
      rcases kept with rfl | outside
      · rfl
      · exact written_outside skip ((inFunction_iff here.frames).mpr outside)

def checkedFile : ParsedFile where
  isStubPackage := false
  body := checkedImports
  syntaxErrors := []
  typeIgnoreLines := []
  mypyIgnoreLines := []

def checkedText : List Char :=
  "if TYPE_CHECKING:\n    import a\nelse:\n    import b\n".toList

theorem run_imports_reported_checked :
    match serializePythonFile (.plain checkedText) false checkedFile with
    | some out => ∀ visit ∈ [checkedVisit], ∀ stmt, visit.event = .simple stmt →
        ToldOf (.plain checkedText) false checkedFile out visit stmt
    | none => supportsModule (.plain checkedText) false false checkedFile.body = false :=
  run_imports_reported (.plain checkedText) rfl rfl false checkedFile rfl checkedImports_exec

end Reports

end AstSerialize
