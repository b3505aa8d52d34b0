import AstSerialize.Serializer.StmtSound

/-! Modules, and the code that the serializer writes. Every position of a block
decides how an empty one is read. -/
namespace AstSerialize
open Coding

section Trees

variable (c : Config) (skip : Bool)

def toWireModule (scope : Scope) (stmts : List Stmt) : List (WStmt c.cacheVersion) :=
  toWireStmts c skip scope (splitModule c.options stmts).1

def moduleTrace (scope : Scope) (stmts : List Stmt) : Trace :=
  ⟨[], skippedBlock c true (splitModule c.options stmts).2, false⟩
    + stmtsTrace c skip scope (splitModule c.options stmts).1

def supportsModule (inClass : Bool) (stmts : List Stmt) : Bool :=
  supportsStmts c skip inClass (splitModule c.options stmts).1

theorem records_module (scope : Scope) (stmts : List Stmt) :
    Records scope (serializeModule c skip stmts) (supportsModule c skip scope.inClass stmts)
      (moduleTrace c skip scope stmts) (encModule (toWireModule c skip scope stmts)) := by
  have skipped : Records scope (skipBlock c true (splitModule c.options stmts).2) true
      ⟨[], skippedBlock c true (splitModule c.options stmts).2, false⟩ [] :=
    records_skipBlock true _
  have body : Records scope (do
      writeTaggedInt (splitModule c.options stmts).1.length
      serializeStmts c skip (splitModule c.options stmts).1) _ _ _ :=
    .pass (fun _ => emits_taggedInt _) <| .last (records_stmts c skip _ scope)
  have whole := skipped.bind (k := fun _ => do
    writeTaggedInt (splitModule c.options stmts).1.length
    serializeStmts c skip (splitModule c.options stmts).1) body
  rw [encModule, toWireModule, toWireStmts_length]
  exact whole

end Trees

section Tags

/-- The tag that the serializer writes first for a statement. -/
def Stmt.tag : Stmt → Tag
  | .functionDef head _ => if head.decoratorList.isEmpty then .funcDef else .decorator
  | .classDef _ _ => .classDef
  | .return _ _ => .return
  | .delete _ _ => .delStmt
  | .typeAlias _ _ _ _ => .typeAliasStmt
  | .assign _ _ _ | .annAssign _ _ _ _ => .assign
  | .augAssign _ _ _ _ => .operatorAssignmentStmt
  | .for _ _ _ _ _ _ => .forStmt
  | .while _ _ _ _ => .while
  | .if _ _ _ _ => .if
  | .with _ _ _ _ => .withStmt
  | .match _ _ _ => .matchStmt
  | .raise _ _ _ => .raiseStmt
  | .try _ _ _ _ _ _ => .tryStmt
  | .assert _ _ _ => .assertStmt
  | .import _ _ _ => .import
  | .importFrom _ names _ _ _ => if isWildcard names then .importAll else .importFrom
  | .global _ _ => .globalDecl
  | .nonlocal _ _ => .nonlocalDecl
  | .expr _ _ => .exprStmt
  | .break _ => .breakStmt
  | .continue _ => .continueStmt
  -- the serializer panics on the last form
  | .pass _ | .ipyEscapeCommand _ => .passStmt

def stmtTag {cv : Nat} : WStmt cv → Tag
  | .funcDef _ => .funcDef
  | .decorator _ _ _ _ => .decorator
  | .classDef _ _ _ _ _ _ _ => .classDef
  | .expr _ => .exprStmt
  | .assign _ _ _ _ _ => .assign
  | .operatorAssignment _ _ _ _ => .operatorAssignmentStmt
  | .import _ _ _ => .import
  | .importAll _ _ _ _ => .importAll
  | .importFrom _ _ _ _ _ => .importFrom
  | .return _ _ => .return
  | .raise _ _ _ => .raiseStmt
  | .assert _ _ _ => .assertStmt
  | .if _ _ _ _ _ => .if
  | .while _ _ _ _ => .while
  | .for _ _ _ _ _ _ => .forStmt
  | .with _ _ _ _ => .withStmt
  | .pass _ => .passStmt
  | .break _ => .breakStmt
  | .continue _ => .continueStmt
  | .try _ _ _ _ _ _ => .tryStmt
  | .del _ _ => .delStmt
  | .global _ _ => .globalDecl
  | .nonlocal _ _ => .nonlocalDecl
  | .match _ _ _ => .matchStmt
  | .typeAlias _ _ _ _ => .typeAliasStmt

theorem stmtTag_toWireStmt (c : Config) (skip : Bool) (scope : Scope) (stmt : Stmt) :
    stmtTag (toWireStmt c skip scope stmt) = stmt.tag := by
  cases stmt with
  | functionDef head body =>
    rw [toWireStmt, toWireFunctionDef, Stmt.tag]
    cases head.decoratorList with
    | nil => rfl
    | cons first rest => rfl
  | importFrom module names level isLazy range =>
    rw [toWireStmt, toWireImportFrom, Stmt.tag]
    split
    · rfl
    · rfl
  | _ => rfl

end Tags

section Codes

/-- The action writes a word that the decoder takes off every stream with the value `a`; it panics
unless `ok`. -/
def WritesTree {α : Type} (s : Serializer) (m : SerM Unit) (ok : Bool) (d : Decoder UInt8 α)
    (a : α) : Prop :=
  match m.run s with
  | some ((), s') => ok = true ∧ ∃ w, s'.bytes = s.bytes ++ w ∧ ∀ r, d (w ++ r) = some (a, r)
  | none => ok = false

theorem writesTree_of_records {α : Type} {s : Serializer} {m : SerM Unit} {ok : Bool} {e : Trace}
    {d : Decoder UInt8 α} {w : Bytes} {a : α} (records : Records s.tracked.scope m ok e w)
    (reads : Reads d w a) : WritesTree s m ok d a := by
  unfold WritesTree
  cases ok with
  | false => rw [records.panics s.tracked.trace s rfl]
  | true =>
    obtain ⟨s', run, -, out⟩ := records.emits s.tracked.trace s rfl
    rw [run]
    exact ⟨rfl, w, out, reads.run_eq⟩

def decBlock {cv : Nat} : Decoder UInt8 (WBlock cv) := bounded fun n => readBlock (decStmtAt n)

def decElse {cv : Nat} : Decoder UInt8 (WElse cv) := bounded fun n => readElse (decStmtAt n)

/-- A block without statements; only a fallback puts a location into it. -/
def encEmpty (c : Config) (unreachable : Bool) (fallback : Option TextRange) : Bytes :=
  [encTag .block, encTag .listGen, encCount 0, encBool unreachable,
    fallback.elim [] fun range => encLocation (c.location range), encTag .end].flatten

variable {c : Config} {s : Serializer}

theorem serializeBlock_nil (fallback : Option TextRange) :
    ∃ s', (serializeBlock c [] fallback (pure ())).run s = some ((), s') ∧
      s'.bytes = s.bytes ++ encEmpty c s.currentUnreachable fallback := by
  have location : Emits stmtPort (writeFallback c [] fallback) s.tracked
      (fallback.elim [] fun range => encLocation (c.location range)) s.tracked := by
    cases fallback with
    | none => exact .pure
    | some range => exact emits_location c range
  have flag (items : SerM Unit) (nothing : Emits stmtPort items s.tracked [] s.tracked) :
      Emits stmtPort (do
        let unreachable ← (·.currentUnreachable) <$> get
        writeBool unreachable
        skipBlock c unreachable []
        writeFallback c [] fallback
        items
        writeEndTag) s.tracked
        [encBool s.currentUnreachable, fallback.elim [] fun range => encLocation (c.location range),
          encTag .end].flatten s.tracked :=
    .read (g := fun t => t.scope.unreachable) (fun _ => rfl) <|
      .step (emits_bool _) <| .skip .pure <| .step location <| .skip nothing <| .last emits_end
  have written : Emits stmtPort (serializeBlock c [] fallback (pure ())) s.tracked
      (encEmpty c s.currentUnreachable fallback) s.tracked :=
    .step (emits_tag _) <| .step (emits_tag _) <| .step (emits_count 0) (flag _ .pure)
  obtain ⟨s', run, -, out⟩ := written s rfl
  exact ⟨s', run, out⟩

theorem serializeEmptyBlock_eq (range : TextRange) :
    serializeEmptyBlock c range = serializeBlock c [] (some range) (pure ()) := by
  simp [serializeEmptyBlock, serializeBlock, skipBlock, writeFallback, writeUsize]

/-- For every module, statement and block, and whatever the state of the serializer: what is
written is a word from which the decoder of the cache version recovers the tree, and it leaves all
that follows. Blocks with a fallback and the `else` blocks of loops have a decoder each, which
agrees with where the location of an empty block is written. -/
theorem serializeModule_writes_code (c : Config) (skip : Bool) (s : Serializer) :
    (∀ stmts, WritesTree s (serializeModule c skip stmts) (supportsModule c skip s.inClass stmts)
      decModule (toWireModule c skip s.tracked.scope stmts)) ∧
    (∀ stmt, WritesTree s (serializeStmt c skip stmt) (supportsStmt c skip s.inClass stmt) decStmt
      (toWireStmt c skip s.tracked.scope stmt)) ∧
    (∀ block range, WritesTree s (serializeBlock c block (some range) (serializeStmts c skip block))
      (supportsStmts c skip s.inClass block) decBlock
      (toWireBlock c s.tracked.scope range (toWireStmts c skip s.tracked.scope block))) ∧
    (∀ block, WritesTree s (serializeBlock c block none (serializeStmts c skip block))
      (supportsStmts c skip s.inClass block) decElse
      (.mk s.currentUnreachable (toWireStmts c skip s.tracked.scope block))) ∧
    (∀ fallback, ∃ s', (serializeBlock c [] fallback (pure ())).run s = some ((), s') ∧
      s'.bytes = s.bytes ++ encEmpty c s.currentUnreachable fallback) ∧
    (∀ range, serializeEmptyBlock c range = serializeBlock c [] (some range) (pure ())) ∧
    (∀ stmt, stmtTag (toWireStmt c skip s.tracked.scope stmt) = stmt.tag) ∧
    (∀ stmts, (toWireStmts c skip s.tracked.scope stmts).length = stmts.length) := by
  refine ⟨?_, ?_, ?_, ?_, serializeBlock_nil, serializeEmptyBlock_eq,
    stmtTag_toWireStmt c skip _, toWireStmts_length c skip _⟩
  · intro stmts
    exact writesTree_of_records (records_module c skip _ stmts) (reads_module _)
  · intro stmt
    exact writesTree_of_records (records_stmt c skip stmt _) (reads_stmt _)
  · intro block range
    exact writesTree_of_records
      (records_block range (toWireStmts_length ..) (records_stmts c skip block _))
      (decodes_block _).bounded
  · intro block
    exact writesTree_of_records
      (records_elseBlock (toWireStmts_length ..) (records_stmts c skip block _))
      (decodes_else _).bounded

end Codes

end AstSerialize
