import AstSerialize.Wire.StmtDecoder

/-! The table of imports that is returned beside the tree. -/
namespace AstSerialize
open Coding

inductive WImport where
  | import (name : Bytes) (relative : Int) (asname : Option Bytes) (loc : Location) (flags : Int)
  | importFrom (module : Bytes) (relative : Int) (names : List WAlias) (loc : Location)
      (flags : Int)
  | importAll (module : Bytes) (relative : Int) (loc : Location) (flags : Int)
  deriving DecidableEq

def encImport : WImport → Bytes
  | .import name relative asname loc flags =>
    [encTag .importMetadata, encBytes name, encTaggedInt relative, encOption encBytes asname,
      encLocation loc, encTaggedInt flags].flatten
  | .importFrom module relative names loc flags =>
    [encTag .importfromMetadata, encBytes module, encTaggedInt relative,
      encListed names.length (encAliases names), encLocation loc, encTaggedInt flags].flatten
  | .importAll module relative loc flags =>
    [encTag .importallMetadata, encBytes module, encTaggedInt relative, encLocation loc,
      encTaggedInt flags].flatten

def encImports : List WImport → Bytes
  | [] => []
  | entry :: entries => encImport entry ++ encImports entries

def encImportTable (entries : List WImport) : Bytes := encListed entries.length (encImports entries)

def decImportBody : Tag → Decoder UInt8 WImport
  | .importMetadata => do
    let name ← readBytes
    let relative ← readTaggedInt
    let asname ← readOption readBytes
    let loc ← readLoc
    let flags ← readTaggedInt
    pure (.import name relative asname loc flags)
  | .importfromMetadata => do
    let module ← readBytes
    let relative ← readTaggedInt
    let names ← readList readAlias
    let loc ← readLoc
    let flags ← readTaggedInt
    pure (.importFrom module relative names loc flags)
  | .importallMetadata => do
    let module ← readBytes
    let relative ← readTaggedInt
    let loc ← readLoc
    let flags ← readTaggedInt
    pure (.importAll module relative loc flags)
  | _ => fun _ => none

def decImport : Decoder UInt8 WImport := readTag >>= decImportBody

def decImportTable : Decoder UInt8 (List WImport) := readList decImport

theorem reads_aliases (names : List WAlias) :
    Reads (readList readAlias) (encListed names.length (encAliases names)) names :=
  decodes_listed (decodes_aliases names) _ (Nat.le_refl _)

theorem reads_import : ∀ entry : WImport, Reads decImport (encImport entry) entry
  | .import name relative asname loc flags =>
    .step (reads_tag .importMetadata) <| .step (reads_bytes name) <|
      .step (reads_taggedInt relative) <| .step (reads_option reads_bytes asname) <|
      .step (reads_loc loc) <| .step (reads_taggedInt flags) (.done _)
  | .importFrom module relative names loc flags =>
    .step (reads_tag .importfromMetadata) <| .step (reads_bytes module) <|
      .step (reads_taggedInt relative) <| .step (reads_aliases names) <| .step (reads_loc loc) <|
      .step (reads_taggedInt flags) (.done _)
  | .importAll module relative loc flags =>
    .step (reads_tag .importallMetadata) <| .step (reads_bytes module) <|
      .step (reads_taggedInt relative) <| .step (reads_loc loc) <|
      .step (reads_taggedInt flags) (.done _)

/-- The decoder undoes the encoding of tables on every stream. -/
theorem reads_importTable (entries : List WImport) :
    Reads decImportTable (encImportTable entries) entries :=
  reads_listed rfl (fun _ _ => rfl) reads_import entries

end AstSerialize
