import AstSerialize.Wire.ImportTable
import AstSerialize.Serializer.Sites
import AstSerialize.Serializer.SkipBodies

/-! `serialize_imports`: the list of imports in bytes of its own, and that a
reader of both finds in them what the tree says. -/
namespace AstSerialize
open Coding

section Writers

/-- The serializer of the list has neither tokens nor comments, and the default options. -/
def Config.forImports (c : Config) : Config where
  source := c.source
  tokens := none
  typeComments := fun _ => none
  options := .default
  locationOverride := none
  parser := c.parser

def writeImportNames : List (String × Option String) → SerM Unit
  | [] => pure ()
  | (name, asName) :: names => do
    writeBytes (utf8 name)
    writeOptBytes (asName.map utf8)
    writeImportNames names

variable (c : Config)

/-- One round of the loop over the list. -/
def writeImportStatement : ImportStatement → SerM Unit
  | .import name relative asName range flags => do
    writeTag .importMetadata
    writeBytes (utf8 name)
    writeTaggedInt relative
    writeOptBytes (asName.map utf8)
    writeLocation c range
    writeTaggedInt flags.toNat
  | .importFrom module relative names range flags => do
    writeTag .importfromMetadata
    writeBytes (utf8 module)
    writeTaggedInt relative
    writeTag .listGen
    writeUsize names.length
    writeImportNames names
    writeLocation c range
    writeTaggedInt flags.toNat
  | .importAll module relative range flags => do
    writeTag .importallMetadata
    writeBytes (utf8 module)
    writeTaggedInt relative
    writeLocation c range
    writeTaggedInt flags.toNat

def writeImportStatements : List ImportStatement → SerM Unit
  | [] => pure ()
  | entry :: entries => do
    writeImportStatement c entry
    writeImportStatements entries

def serializeImports (imports : List ImportStatement) : Option Bytes := do
  let ((), ser) ← (do
    writeTag .listGen
    writeUsize imports.length
    writeImportStatements c.forImports imports).run Serializer.initial
  some ser.bytes

end Writers

section Emitted

variable (c : Config)

def ImportStatement.toWire : ImportStatement → WImport
  | .import name relative asName range flags =>
    .import (utf8 name) relative (asName.map utf8) (c.source.location range) flags.toNat
  | .importFrom module relative names range flags =>
    .importFrom (utf8 module) relative (names.map fun (name, asName) => (utf8 name, asName.map utf8))
      (c.source.location range) flags.toNat
  | .importAll module relative range flags =>
    .importAll (utf8 module) relative (c.source.location range) flags.toNat

variable {V : Type} {P : Port Serializer V UInt8} [Observes P] {v : V}

theorem emits_importNames (names : List (String × Option String)) :
    Emits P (writeImportNames names) v
      (encAliases (names.map fun (name, asName) => (utf8 name, asName.map utf8))) v := by
  induction names with
  | nil => exact .pure
  | cons name names ih =>
    apply Emits.congr (.step (emits_bytes _) <| .step (emits_optBytes _) <| .last ih)
    simp [encAliases]

theorem emits_importStatement (entry : ImportStatement) :
    Emits P (writeImportStatement c.forImports entry) v (encImport (entry.toWire c)) v := by
  cases entry with
  | «import» name relative asName range flags =>
    exact .step (emits_tag _) <| .step (emits_bytes _) <| .step (emits_taggedInt _) <|
      .step (emits_optBytes _) <| .step (emits_location c.forImports range) <|
      .last (emits_taggedInt _)
  | importFrom module relative names range flags =>
    apply Emits.congr (.step (emits_tag _) <| .step (emits_bytes _) <| .step (emits_taggedInt _) <|
      .step (emits_tag _) <| .step (emits_count _) <| .step (emits_importNames names) <|
      .step (emits_location c.forImports range) <| .last (emits_taggedInt _))
    simp [encImport, ImportStatement.toWire, encListed, Config.location, Config.forImports]
  | importAll module relative range flags =>
    exact .step (emits_tag _) <| .step (emits_bytes _) <| .step (emits_taggedInt _) <|
      .step (emits_location c.forImports range) <| .last (emits_taggedInt _)

theorem emits_importStatements (entries : List ImportStatement) :
    Emits P (writeImportStatements c.forImports entries) v
      (encImports (entries.map (·.toWire c))) v := by
  induction entries with
  | nil => exact .pure
  | cons entry entries ih => exact (emits_importStatement c entry).bind ih

/-- The list is always written, and as its table. -/
theorem serializeImports_eq (imports : List ImportStatement) :
    serializeImports c imports = some (encImportTable (imports.map (·.toWire c))) := by
  have table : Emits stmtPort (do
      writeTag .listGen
      writeUsize imports.length
      writeImportStatements c.forImports imports) Serializer.initial.tracked
      (encImportTable (imports.map (·.toWire c))) Serializer.initial.tracked := by
    rw [encImportTable, List.length_map]
    exact .step (emits_tag _) <| .step (emits_count _) <| .last (emits_importStatements c imports)
  obtain ⟨s, run, -, out⟩ := table Serializer.initial rfl
  unfold serializeImports
  rw [run]
  exact congrArg some out

end Emitted

section Trees

/-- The imports of a statement of the tree, each with the location of the statement. -/
def WStmt.imports {cv : Nat} : WStmt cv → List (ImportNode cv × Location)
  | .import names loc flags => names.map fun name => (.import name.1 0 name.2 flags, loc)
  | .importAll module level loc flags => [(.importAll module level flags, loc)]
  | .importFrom level module names loc flags => [(.importFrom module level names flags, loc)]
  | _ => []

namespace WImport

/-- The flags of an entry are there in every version. -/
def node (cv : Nat) : WImport → ImportNode cv
  | .import name relative asname _ flags => .import name relative asname fun _ => flags
  | .importFrom module relative names _ flags => .importFrom module relative names fun _ => flags
  | .importAll module relative _ flags => .importAll module relative fun _ => flags

def loc : WImport → Location
  | .import _ _ _ loc _ | .importFrom _ _ _ loc _ | .importAll _ _ loc _ => loc

/-- The entry is for one name of an `import` statement. -/
def isName : WImport → Bool
  | .import .. => true
  | _ => false

/-- The entry says what the tree says; one for a name has the location of the name. -/
structure Tells {cv : Nat} (entry : WImport) (written : ImportNode cv × Location) : Prop where
  node : entry.node cv = written.1
  loc : entry.isName = false → entry.loc = written.2

end WImport

def StmtSite.importSites (site : StmtSite) : List ImportSite :=
  Occurrence.importSites ⟨site.position, .simple site.stmt⟩

section Sites

variable (o : Options)

mutual

/-- Both walks over a statement come by the same imports. -/
theorem occurrences_importSites : ∀ (stmt : Stmt) (p : Position),
    (occurrences o p stmt).flatMap (·.importSites)
      = (stmtSites o p stmt).flatMap (·.importSites)
  | .functionDef head body, p => by
    simp only [occurrences, stmtSites, List.flatMap_cons, stmtsOccurrences_importSites body]
    rfl
  | .classDef _ body, p | .with _ _ body _, p => by
    simp only [occurrences, stmtSites, List.flatMap_cons, stmtsOccurrences_importSites body]
    rfl
  | .if test body clauses _, p => by
    simp only [occurrences, stmtSites, List.flatMap_append, List.flatMap_cons,
      stmtsOccurrences_importSites body, clausesOccurrences_importSites clauses]
    rfl
  | .while _ body orelse _, p | .for _ _ _ body orelse _, p => by
    simp only [occurrences, stmtSites, List.flatMap_append, List.flatMap_cons,
      stmtsOccurrences_importSites body, stmtsOccurrences_importSites orelse]
    rfl
  | .try body handlers orelse finalbody _ _, p => by
    simp only [occurrences, stmtSites, List.flatMap_append, List.flatMap_cons,
      stmtsOccurrences_importSites body, stmtsOccurrences_importSites orelse,
      stmtsOccurrences_importSites finalbody, handlersOccurrences_importSites handlers]
    rfl
  | .match _ cases _, p => by
    simp only [occurrences, stmtSites, List.flatMap_cons, casesOccurrences_importSites cases]
    rfl
  | .return .., _ | .delete .., _ | .typeAlias .., _ | .assign .., _ | .augAssign .., _
  | .annAssign .., _ | .raise .., _ | .assert .., _ | .import .., _ | .importFrom .., _
  | .global .., _ | .nonlocal .., _ | .expr .., _ | .pass .., _ | .break .., _ | .continue .., _
  | .ipyEscapeCommand .., _ => rfl

theorem stmtsOccurrences_importSites : ∀ (stmts : List Stmt) (p : Position),
    (stmtsOccurrences o p stmts).flatMap (·.importSites)
      = (blockSites o p stmts).flatMap (·.importSites)
  | [], _ => rfl
  | stmt :: stmts, p => by
    simp only [stmtsOccurrences, blockSites, List.flatMap_append, occurrences_importSites stmt,
      stmtsOccurrences_importSites stmts]

theorem clausesOccurrences_importSites : ∀ (clauses : ElifElseClauses) (p : Position)
    (flags : List BranchFlags), (clausesOccurrences o p flags clauses).flatMap (·.importSites)
      = (clausesSites o p flags clauses).flatMap (·.importSites)
  | .nil, _, _ => rfl
  | .elif _ body _ rest, p, flags => by
    simp only [clausesOccurrences, clausesSites, List.flatMap_append, List.flatMap_cons,
      stmtsOccurrences_importSites body, clausesOccurrences_importSites rest]
    rfl
  | .else body _, p, flags => by
    simp only [clausesOccurrences, clausesSites, List.flatMap_cons,
      stmtsOccurrences_importSites body]
    rfl

theorem handlersOccurrences_importSites : ∀ (handlers : List ExceptHandler) (p : Position),
    (handlersOccurrences o p handlers).flatMap (·.importSites)
      = (handlersSites o p handlers).flatMap (·.importSites)
  | [], _ => rfl
  | .mk _ _ body _ :: handlers, p => by
    simp only [handlersOccurrences, handlersSites, List.flatMap_append, List.flatMap_cons,
      stmtsOccurrences_importSites body, handlersOccurrences_importSites handlers]
    rfl

theorem casesOccurrences_importSites : ∀ (cases : List MatchCase) (p : Position)
    (flags : List BranchFlags), (casesOccurrences o p flags cases).flatMap (·.importSites)
      = (casesSites o p flags cases).flatMap (·.importSites)
  | [], _, _ => rfl
  | .mk _ _ body _ :: cases, p, flags => by
    simp only [casesOccurrences, casesSites, List.flatMap_append, List.flatMap_cons,
      stmtsOccurrences_importSites body, casesOccurrences_importSites cases]
    rfl

end

end Sites

end Trees

section Written

/-- The imports of a statement with its range. -/
def StmtSite.located (site : StmtSite) : List (ImportSite × TextRange) :=
  site.importSites.map fun item => (item, site.stmt.range)

/-- Whether an import is written is up to its position, so it does not matter when this is asked. -/
theorem filter_importSites {α : Type} (position : α → Position) (items : α → List ImportSite)
    (own : ∀ a, ∀ item ∈ items a, item.position = position a) (skip : Bool) (as : List α) :
    (as.filter fun a => (position a).written skip).flatMap items
      = (as.flatMap items).filter fun item => item.position.written skip := by
  induction as with
  | nil => rfl
  | cons a as ih =>
    rw [List.flatMap_cons, List.filter_append, ← ih, List.filter_cons]
    cases here : (position a).written skip with
    | true =>
      rw [if_pos rfl, List.flatMap_cons]
      congr 1
      symm
      apply List.filter_eq_self.mpr
      intro item mem
      rw [own a item mem, here]
    | false =>
      have none : (items a).filter (fun item => item.position.written skip) = [] := by
        apply List.filter_eq_nil_iff.mpr
        intro item mem
        rw [own a item mem, here]
        exact Bool.false_ne_true
      rw [if_neg Bool.false_ne_true, none, List.nil_append]

variable (c : Config) (skip : Bool)

theorem moduleSites_eq (stmts : List Stmt) :
    moduleSites c skip stmts = (moduleStmtSites c skip stmts).flatMap (·.importSites) := by
  have occs := filter_importSites Occurrence.position Occurrence.importSites
    (fun _ => importSites_position) skip (moduleOccurrences c.options stmts)
  have sites := filter_importSites StmtSite.position StmtSite.importSites
    (fun _ => importSites_position) skip
    (blockSites c.options [] (splitModule c.options stmts).1)
  have walks := stmtsOccurrences_importSites c.options (splitModule c.options stmts).1 []
  have both : (moduleOccurrences c.options stmts).flatMap (·.importSites) = _ := walks
  calc moduleSites c skip stmts = _ := occs
    _ = _ := congrArg (List.filter fun item => item.position.written skip) both
    _ = _ := sites.symm

/-- The imports that are written, with the ranges of their statements. -/
def moduleLocated (stmts : List Stmt) : List (ImportSite × TextRange) :=
  (moduleStmtSites c skip stmts).flatMap (·.located)

theorem moduleLocated_fst (stmts : List Stmt) :
    (moduleLocated c skip stmts).map Prod.fst = moduleSites c skip stmts := by
  rw [moduleSites_eq, moduleLocated, List.map_flatMap]
  congr 1
  funext site
  rw [StmtSite.located, List.map_map]
  exact List.map_id _

theorem imports_functionDef (scope : Scope) (head : FunctionHead) (comment : FuncComment)
    (body : WBlock c.cacheVersion) : (toWireFunctionDef c scope head comment body).imports = [] := by
  unfold toWireFunctionDef
  cases head.decoratorList <;> rfl

theorem imports_tree (site : StmtSite) :
    (site.tree c skip).imports
      = site.located.map fun item => (item.1.node c.cacheVersion, c.location item.2) := by
  obtain ⟨p, stmt⟩ := site
  cases stmt with
  | functionDef head body => exact imports_functionDef ..
  | «import» names isLazy range =>
    simp only [StmtSite.located, StmtSite.importSites, Occurrence.importSites, List.map_map]
    exact List.map_map
  | importFrom module names level isLazy range =>
    change (toWireImportFrom c p.scope module names level isLazy range).imports = [_]
    unfold toWireImportFrom
    simp only [ImportSite.node]
    split <;> rfl
  | _ => rfl

/-- The imports in the tree, each with the location of its statement. -/
theorem imports_toWireModule (stmts : List Stmt) :
    (treesStmts (toWireModule c skip .initial stmts)).flatMap (·.imports)
      = (moduleLocated c skip stmts).map
        fun item => (item.1.node c.cacheVersion, c.location item.2) := by
  rw [treesStmts_toWireModule, List.flatMap_map, moduleLocated, List.map_flatMap]
  congr 1
  funext site
  exact imports_tree c skip site

/-- The range that an entry has its location from. -/
def ImportSite.range (site : ImportSite) : TextRange :=
  match site.item with
  | .name name => name.range
  | .fromModule _ _ _ range => range

theorem toWire_node (cv : Nat) (entry : ImportStatement) :
    (entry.toWire c).node cv = entry.node cv := by
  cases entry <;> rfl

theorem toWire_loc (site : ImportSite) :
    (site.entry.toWire c).loc = c.source.location site.range := by
  obtain ⟨position, isLazy, item⟩ := site
  cases item with
  | name name => rfl
  | fromModule module names level range =>
    simp only [ImportSite.entry, fromEntry]
    split <;> rfl

/-- An import of a `from` statement has the range of the statement. -/
theorem located_range {site : StmtSite} {item : ImportSite × TextRange}
    (mem : item ∈ site.located) (wide : (item.1.entry.toWire c).isName = false) :
    item.1.range = item.2 := by
  obtain ⟨p, stmt⟩ := site
  cases stmt with
  | «import» names isLazy range =>
    obtain ⟨entry, inside, rfl⟩ := List.mem_map.mp mem
    obtain ⟨name, -, rfl⟩ := List.mem_map.mp inside
    cases wide
  | importFrom module names level isLazy range =>
    obtain rfl := List.mem_singleton.mp mem
    rfl
  | _ => exact absurd mem List.not_mem_nil

variable {c}

theorem tells_iff (here : c.locationOverride = none) {site : StmtSite}
    {item : ImportSite × TextRange} (mem : item ∈ site.located) :
    (item.1.entry.toWire c).Tells (item.1.node c.cacheVersion, c.location item.2) ↔
      item.1.fits = true := by
  have location : c.location item.2 = c.source.location item.2 := by
    rw [Config.location, here]
  constructor
  · intro tells
    apply (entry_node_iff c.cacheVersion item.1).mp
    rw [← toWire_node c]
    exact tells.node
  · intro fits
    refine ⟨?_, ?_⟩
    · rw [toWire_node c]
      exact (entry_node_iff c.cacheVersion item.1).mpr fits
    · intro wide
      rw [location, toWire_loc, located_range c mem wide]

/-- The table tells what the tree does, as long as the levels fit. -/
theorem table_tells_iff (here : c.locationOverride = none) (stmts : List Stmt) :
    List.Forall₂ WImport.Tells
        ((moduleSites c skip stmts).map fun site => site.entry.toWire c)
        ((treesStmts (toWireModule c skip .initial stmts)).flatMap (·.imports)) ↔
      ∀ site ∈ moduleSites c skip stmts, site.fits = true := by
  rw [imports_toWireModule, ← moduleLocated_fst, List.map_map, List.forall₂_map_left_iff,
    List.forall₂_map_right_iff, List.forall₂_same, List.forall_mem_map]
  apply forall₂_congr
  intro item mem
  obtain ⟨site, -, inside⟩ := List.mem_flatMap.mp mem
  exact tells_iff here inside

end Written

end AstSerialize
