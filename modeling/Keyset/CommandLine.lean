import Keyset.Config
import Keyset.Connection
import Keyset.Store.Memory

/-!
# The command line

A command runs one query on a store in memory and prints its rows, one JSON array to a line.  The query
is an argument or the standard input; its own arguments, the database and a seed for the store are
given by options, the latter two also by a configuration.

What a command does to the world is reading files, variables and its input; `run` asks a host for that
and leaves the printing to whoever runs it.
-/

namespace Keyset.CommandLine

/-! ### Arguments -/

/-- What a command was told. -/
structure Arguments where
  configDir : Option String := none
  database : Option String := none
  seed : Option String := none
  arguments : List String := []
  query : Option String := none
deriving DecidableEq, Repr

/-- The options. -/
inductive Flag where
  | config
  | database
  | seed
  | argument
deriving DecidableEq, Repr

/-- The option of a name. -/
def Flag.ofName? (name : String) : Option Flag :=
  match name with
  | "config" => some .config
  | "database" => some .database
  | "seed" => some .seed
  | "arg" => some .argument
  | _ => none

/-- Whether an argument looks like an option; a lone hyphen does not. -/
def isOption (s : String) : Bool :=
  match s.toList with
  | '-' :: _ :: _ => true
  | _ => false

/-- The name of an option and the value that is joined to it by an equals sign. -/
def splitOption? (s : String) : Option (String × Option String) :=
  (Text.after? "--".toList s.toList).map fun rest =>
    match Text.cutAt? '=' rest with
    | some (name, value) => (String.ofList name, some (String.ofList value))
    | none => (String.ofList rest, none)

/-- What words stand for: an option with its value, or a query. -/
inductive Item where
  | option (flag : Flag) (value : String)
  | query (text : String)
deriving DecidableEq, Repr

/-- The items of words, where an option may be waiting for its value.  A value may not look like an
option unless it is joined to its own; behind `--` there are no options. -/
def items? : (waiting : Option Flag) → List String → Option (List Item)
  | none, [] => some []
  | some _, [] => none
  | some flag, s :: rest =>
    if isOption s then none else (items? none rest).map (.option flag s :: ·)
  | none, s :: rest =>
    if s = "--" then some (rest.map .query)
    else if isOption s then
      match splitOption? s with
      | none => none
      | some (name, joined) =>
        match Flag.ofName? name, joined with
        | none, _ => none
        | some flag, some value => (items? none rest).map (.option flag value :: ·)
        | some flag, none => items? (some flag) rest
    else
      (items? none rest).map (.query s :: ·)

/-- Sets what may be given once. -/
def once (old : Option String) (value : String) : Option (Option String) :=
  match old with
  | some _ => none
  | none => some (some value)

/-- Sets a path that may be given once; a path is not empty. -/
def oncePath (old : Option String) (value : String) : Option (Option String) :=
  if value = "" then none else once old value

/-- The arguments with one more item, unless it may not be given. -/
def Arguments.add? (args : Arguments) : Item → Option Arguments
  | .option .config dir => (oncePath args.configDir dir).map fun configDir => { args with configDir }
  | .option .database name => (once args.database name).map fun database => { args with database }
  | .option .seed path => (oncePath args.seed path).map fun seed => { args with seed }
  | .option .argument text => some { args with arguments := args.arguments ++ [text] }
  | .query text => (once args.query text).map fun query => { args with query }

/-- Reads the words of a command. -/
def parse? (words : List String) : Option Arguments := do
  (← items? none words).foldlM Arguments.add? {}

/-! ### Running -/

/-- What a command reads. -/
structure Host (m : Type → Type) where
  /-- The text of a file, if there is one. -/
  fileText (path : String) : m (Option String)
  /-- The variables that are set. -/
  environment : m Variables
  /-- The standard input. -/
  input : m String

/-- How a command ends: the lines that it prints, a failure, or arguments that are none. -/
inductive Outcome where
  | printed (lines : List String)
  | failed
  | badUsage
deriving DecidableEq, Repr

/-- The exit code of a command. -/
def Outcome.code : Outcome → UInt8
  | .printed _ => 0
  | .failed => 1
  | .badUsage => 2

/-- The lines that a command prints. -/
def Outcome.lines : Outcome → List String
  | .printed lines => lines
  | .failed | .badUsage => []

/-- The JSON value of a cell. -/
def cellJson : Cell → Json
  | .text s => .string s
  | .flag b => .bool b

/-- The line of a row. -/
def rowLine (row : Row) : String :=
  (Json.array (row.map cellJson)).text

/-- The rows of a query on a store with a seed. -/
def rows (config : Config) (seed : Option Json) (query : String) (args : List Json) :
    Except Error (List Row) :=
  let action : StoreM Memory (List Row) := do
    match seed with
    | some seed => Memory.loadSeed config.database seed
    | none => pure ()
    let conn := (Connection.toDatabase config.database).withSampleSize config.sampleSize
    let conn ← conn.connect Memory.store false
    let rows ← conn.query Memory.store false query args
    Connection.drain Memory.store false rows
  (action.run Memory.empty).1

variable {m : Type → Type} [Monad m]

/-- The configuration of a command: that of a directory, or the usual one under the variables that are
set. -/
def config (host : Host m) (args : Arguments) : m (Option Config) := do
  let vars ← host.environment
  let loaded ←
    match args.configDir with
    | none => pure (some ((Config.ofDatabase "default").override vars))
    | some dir => do
      let assignments ← host.fileText (Config.join dir Config.variablesFileName)
      let config ← host.fileText (Config.join dir Config.fileName)
      pure (Config.load dir ⟨config, assignments⟩ vars).toOption
  return loaded.map fun config => { config with database := args.database.getD config.database }

/-- The path of the seed of a command: its own, or that of its configuration. -/
def seedPath (args : Arguments) (config : Config) : Option String :=
  args.seed.or (args.configDir.bind config.seedPath)

/-- Reads the seed at a path, if there is a path.  The outer option is for faults. -/
def readSeed (host : Host m) (path : Option String) : m (Option (Option Json)) := do
  match path with
  | none => return some none
  | some path => return ((← host.fileText path).bind Json.ofText?).map some

/-- Runs a command whose arguments have been read. -/
def runArguments (host : Host m) (args : Arguments) : m Outcome := do
  match ← config host args with
  | none => return .failed
  | some config =>
    let query ←
      match args.query with
      | some query => pure query
      | none => host.input
    let seed ← readSeed host (seedPath args config)
    match args.arguments.mapM Json.ofText?, seed with
    | some values, some seed =>
      match rows config seed query values with
      | .ok rows => return .printed (rows.map rowLine)
      | .error _ => return .failed
    | _, _ => return .failed

/-- Runs the command of words. -/
def run (host : Host m) (words : List String) : m Outcome :=
  match parse? words with
  | some args => runArguments host args
  | none => pure .badUsage

end Keyset.CommandLine
