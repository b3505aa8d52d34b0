import AstSerialize.Text.Chars

/-! `mypy_inline_config.rs`: the options of `# mypy:` comments that affect
parsing. -/
namespace AstSerialize

/-- The overrides of one comment, or of several. -/
@[ext] structure InlineConfigOverrides where
  alwaysTrue : List String
  alwaysFalse : List String
  ignoreErrors : Option Bool
  deriving DecidableEq, Repr

namespace InlineConfigOverrides

def default : InlineConfigOverrides := ⟨[], [], none⟩

/-- Lists are extended, and a later `ignore_errors` wins. -/
def merge (self other : InlineConfigOverrides) : InlineConfigOverrides where
  alwaysTrue := self.alwaysTrue ++ other.alwaysTrue
  alwaysFalse := self.alwaysFalse ++ other.alwaysFalse
  ignoreErrors := if other.ignoreErrors.isSome then other.ignoreErrors else self.ignoreErrors

end InlineConfigOverrides

/-- The loop of `split_respecting_quotes` and the loop inside of it, which runs between double
quotes and takes commas for text. -/
def splitQuoted : Bool → List Char → List Char → List (List Char)
  | _, current, [] => [current]
  | false, current, c :: chars =>
    if c = ',' then current :: splitQuoted false [] chars
    else if c = '"' then splitQuoted true current chars
    else splitQuoted false (current ++ [c]) chars
  | true, current, c :: chars =>
    if c = '"' then splitQuoted false current chars
    else splitQuoted true (current ++ [c]) chars

def splitRespectingQuotes (s : List Char) : List (List Char) := splitQuoted false [] s

/-- `str::split_once`. -/
def splitOnce (sep : Char) (s : List Char) : Option (List Char × List Char) :=
  match s.dropWhile (· ≠ sep) with
  | [] => none
  | _ :: rest => some (s.takeWhile (· ≠ sep), rest)

/-- The key and the value of one part; a bare key is `True`. -/
def directiveEntry (part : List Char) : Option (String × List Char) :=
  let trimmed := trimText part
  if trimmed.isEmpty then none
  else
    match splitOnce '=' trimmed with
    | some (key, value) => some (.ofList (trimText key), trimText value)
    | none => some (.ofList trimmed, "True".toList)

def splitDirective (s : List Char) : List (String × List Char) :=
  (splitRespectingQuotes s).filterMap directiveEntry

def splitCommas (s : List Char) : List (List Char) := (s.splitOn ',').map trimText

/-- The case of the letters in these words is that of `str::to_lowercase`: no character outside of
ASCII has one of them in lower case. -/
def parseBool (s : List Char) : Option Bool :=
  let lower := String.ofList (s.map Char.toLower)
  if lower ∈ ["1", "yes", "true", "on"] then some true
  else if lower ∈ ["0", "no", "false", "off"] then some false
  else none

/-- `key.replace('-', "_")`. -/
def normalizeKey (key : String) : String := key.map fun c => if c = '-' then '_' else c

/-- The names of a list option. -/
def namesOf (value : List Char) : List String :=
  ((splitCommas value).filter fun name => !name.isEmpty).map .ofList

/-- One round of the loop over the entries. -/
def applyEntry (result : InlineConfigOverrides) (entry : String × List Char) :
    InlineConfigOverrides :=
  match normalizeKey entry.1 with
  | "always_true" => { result with alwaysTrue := result.alwaysTrue ++ namesOf entry.2 }
  | "always_false" => { result with alwaysFalse := result.alwaysFalse ++ namesOf entry.2 }
  | "ignore_errors" =>
    match parseBool entry.2 with
    | some b => { result with ignoreErrors := some b }
    | none => result
  | _ => result

def parseSingleMypyComment (text : String) : InlineConfigOverrides :=
  (splitDirective text.toList).foldl applyEntry .default

/-- Comments come with their lines. -/
def resolveOverrides (comments : List (Nat × String)) : InlineConfigOverrides :=
  comments.foldl (fun result comment => result.merge (parseSingleMypyComment comment.2)) .default

end AstSerialize
