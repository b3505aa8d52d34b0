/-! The analysis options and the cache versions that gate fields of the stream. -/
namespace AstSerialize

structure Options where
  pythonVersion : UInt32 × UInt32
  platform : String
  alwaysTrue : List String
  alwaysFalse : List String
  cacheVersion : Nat
  deriving DecidableEq, Repr

/-- `Options::default`. -/
def Options.default : Options where
  pythonVersion := (3, 12)
  platform := "linux"
  alwaysTrue := []
  alwaysFalse := []
  cacheVersion := 7

def Options.extendAlwaysTrue (o : Options) (names : List String) : Options :=
  { o with alwaysTrue := o.alwaysTrue ++ names }

def Options.extendAlwaysFalse (o : Options) (names : List String) : Options :=
  { o with alwaysFalse := o.alwaysFalse ++ names }

/-- Location range of except handlers. -/
def cvHandlerLocations : Nat := 1
/-- Error notes of `RawExpressionType`. -/
def cvRawExpressionTypeNotes : Nat := 2
/-- Import flags in the full tree. -/
def cvImportFlags : Nat := 3
/-- Optional keys in dictionary comprehensions. -/
def cvDictKeyOpt : Nat := 4
/-- The surrogate flag of strings. -/
def cvUnicodeSurrogate : Nat := 5
/-- The flag that says that type comments were used for a function. -/
def cvFuncTypeCommentFlag : Nat := 6
/-- All type comments and ignores, not only those before the first unrecognised part. -/
def cvFullTypeComments : Nat := 7

end AstSerialize
