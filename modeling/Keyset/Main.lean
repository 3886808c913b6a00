import Keyset.CommandLine

/-!
# The program

Runs a command on the files, the variables and the standard input of the process, prints its lines and
ends with its code.
-/

namespace Keyset

/-- The variables that settings can be overridden by. -/
def settingNames : List String :=
  ["GJ_MONGO_URI", "GJ_MONGO_DATABASE", "GJ_MONGO_SAMPLE_SIZE"]

/-- The process as a host of commands. -/
def processHost : CommandLine.Host IO where
  fileText path := do
    try
      return some (← IO.FS.readFile path)
    catch _ =>
      return none
  environment := do
    let mut vars : Variables := []
    for name in settingNames do
      if let some value ← IO.getEnv name then
        vars := vars.put name value
    return vars
  input := do
    (← IO.getStdin).readToEnd

end Keyset

/-- Runs the command of the arguments. -/
def main (args : List String) : IO UInt32 := do
  let outcome ← Keyset.CommandLine.run Keyset.processHost args
  for line in outcome.lines do
    IO.println line
  return outcome.code.toUInt32
