import Keyset.Environment
import Keyset.Query.Options
import Keyset.Toml.Reader
import Keyset.Toml.Writer

/-!
# Configuration

A configuration is a TOML file in a directory.  Three of its settings can be overridden by environment
variables, which a file of variables in the same directory may set in turn; the process environment wins
over that file.  A variable that is empty, or is no positive integer where one is needed, overrides
nothing.
-/

namespace Keyset

/-- The settings. -/
structure Config where
  uri : String
  database : String
  /-- How many documents an introspection samples. -/
  sampleSize : UInt64
  logFilter : Option String
  /-- The path of a seed, from the directory of the configuration. -/
  seed : Option String
deriving DecidableEq, Repr

/-- Why a configuration was not loaded. -/
inductive ConfigError where
  | notFound (path : String)
  | malformed
  | badSampleSize
deriving DecidableEq, Repr

/-- The text of an error; a fault of the file's format has none. -/
def ConfigError.message? : ConfigError → Option String
  | .notFound path => some s!"Configuration file not found: {path}"
  | .malformed => none
  | .badSampleSize => some "sample_size must be a positive integer"

namespace Config

/-- The name of the file of a configuration. -/
def fileName : String :=
  "graphjin-mongo.toml"

/-- The name of the file of variables. -/
def variablesFileName : String :=
  ".env"

/-- The address of the store where nothing else is said. -/
def defaultUri : String :=
  "mongodb://localhost:27017"

/-- The configuration of a database with all other settings as they are by default. -/
def ofDatabase (database : String) : Config where
  uri := defaultUri
  database := database
  sampleSize := IntrospectOptions.defaultSampleSize
  logFilter := none
  seed := none

/-! ### Paths -/

/-- A path seen from a directory; an absolute path stays as it is. -/
def join (dir path : String) : String :=
  if path.toList.head? = some '/' then path
  else if dir = "" ∨ dir.toList.getLast? = some '/' then dir ++ path
  else dir ++ "/" ++ path

/-- The path of the seed of a configuration in a directory. -/
def seedPath (c : Config) (dir : String) : Option String :=
  c.seed.map (join dir)

/-! ### Reading -/

/-- The string of a TOML value. -/
def string? : Toml → Option String
  | .string s => some s
  | _ => none

/-- The count of a TOML value: an integer that is not negative. -/
def count? : Toml → Option UInt64
  | .integer n => if 0 ≤ n.toInt then some (UInt64.ofNat n.toInt.toNat) else none
  | _ => none

/-- Reads a setting that may be left out. -/
def setting? {α : Type} (fields : Toml.Table) (name : String) (read : Toml → Option α) :
    Option (Option α) :=
  (fields.get? name).mapM read

/-- The settings of a TOML document, which may have others. -/
def ofToml? (fields : Toml.Table) : Option Config := do
  let uri ← setting? fields "uri" string?
  let database ← (fields.get? "database").bind string?
  let sampleSize ← setting? fields "sample_size" count?
  let logFilter ← setting? fields "log_filter" string?
  let seed ← setting? fields "seed" string?
  let usual := ofDatabase database
  return { usual with
    uri := uri.getD usual.uri
    sampleSize := sampleSize.getD usual.sampleSize
    logFilter, seed }

/-- A text that is not empty. -/
def nonempty? (s : String) : Option String :=
  if s = "" then none else some s

/-- A positive integer of a text. -/
def positive? (s : String) : Option UInt64 :=
  (Text.word64? s.toList).filter (0 < ·)

/-- The settings with those that variables override. -/
def override (vars : Variables) (c : Config) : Config :=
  { c with
    uri := ((vars.get? "GJ_MONGO_URI").bind nonempty?).getD c.uri
    database := ((vars.get? "GJ_MONGO_DATABASE").bind nonempty?).getD c.database
    sampleSize := ((vars.get? "GJ_MONGO_SAMPLE_SIZE").bind positive?).getD c.sampleSize }

/-- The texts of the files of a directory that make a configuration. -/
structure Files where
  config : Option String
  assignments : Option String

/-- Loads the configuration of a directory under the variables of a process. -/
def load (dir : String) (files : Files) (vars : Variables) : Except ConfigError Config :=
  let vars := (files.assignments.map (Environment.load vars)).getD vars
  match files.config with
  | none => .error (.notFound (join dir fileName))
  | some text =>
    match (Toml.ofText? text).bind ofToml? with
    | none => .error .malformed
    | some c =>
      let c := c.override vars
      if c.sampleSize = 0 then .error .badSampleSize else .ok c

/-! ### Writing -/

/-- The text of a configuration, unless its sample size is no integer of TOML. -/
def text? (c : Config) : Option String :=
  (Word.int64? c.sampleSize.toNat).map fun sampleSize =>
    String.ofList <|
      Toml.stringEntry "uri" c.uri ++ Toml.stringEntry "database" c.database ++
        Toml.integerEntry "sample_size" sampleSize ++
        (c.logFilter.map (Toml.stringEntry "log_filter")).getD [] ++
        (c.seed.map (Toml.stringEntry "seed")).getD []

end Config

end Keyset
