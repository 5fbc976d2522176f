import AccessControl.CommandLine.Execution
import AccessControl.Settings.Basic

/-!
# The command line tool

The settings come from the environment and from the file `.env`; they only say whether decisions
are recorded.  Everything else is `Inquiry.run`: this module reads the environment, and prints
what the tool leaves behind.
-/

open AccessControl

/-- The variables of the environment with some names. -/
def environment (names : List String) : IO (List (String × String)) :=
  names.filterMapM fun name => do
    return (← IO.getEnv name).map fun v => (name, v)

/-- The settings file, if there is one. -/
def settingsFile : IO (Option String) := do
  try
    return some (← IO.FS.readFile ".env")
  catch _ =>
    return none

/-- Prints the warnings and errors among some events. -/
def printWarnings (events : List Event) : IO Unit :=
  for e in events do
    match e with
    | .logged l => if l.level == .warning || l.level == .error then IO.eprintln l.message
    | _ => pure ()

/-- Runs the tool. -/
def main (arguments : List String) : IO UInt32 := do
  let file ← settingsFile
  let names := Settings.fieldNames.map String.toUpper ++ Settings.fieldNames
    ++ (file.map Dotenv.references).getD []
  let loaded := Settings.load [] (← environment names) file
  printWarnings loaded.1
  match loaded.2 with
  | .error f =>
    IO.eprintln f.line
    return 1
  | .ok s =>
    let done := Inquiry.run Interpretation.standard (Rulebook.rootOptions s.authzLogging) arguments
    printWarnings done.1
    match done.2 with
    | .error b =>
      IO.eprintln b.line
      return 1
    | .ok report =>
      IO.print report.out
      IO.eprint report.err
      return UInt32.ofNat report.exit
