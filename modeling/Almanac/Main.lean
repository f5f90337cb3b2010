import Almanac.Command.Run
import Std.Time.Zoned

/-!
The program: reads its line, and takes the steps of the command where it runs. Failures are told on
standard error.
-/

namespace Almanac.Command

def tellReport (report : Report) : IO Unit := do
  IO.eprintln ("Error: " ++ report.message)
  if let some hint := report.hint then IO.eprintln ("  help: " ++ hint)

def fileErrorOf : IO.Error → FileError
  | .noFileOrDirectory _ _ _ => .notFound
  | error => .other (toString error)

/-- Reads a file as text. -/
def readSource (path : String) : IO (Except FileError String) := do
  match ← (IO.FS.readBinFile path).toBaseIO with
  | .error error => return .error (fileErrorOf error)
  | .ok bytes =>
    match String.fromUTF8? bytes with
    | some text => return .ok text
    | none => return .error .notText

def today : IO Date := do
  let now ← Std.Time.PlainDate.now
  match Date.ofParts? now.year.toInt now.month.toNat now.day.toNat with
  | some date => return date
  | none => throw (IO.userError "The clock is outside the supported date range")

/-- Writes a file whole. -/
def writeTarget (path text : String) : IO (Except FileError Unit) := do
  match ← (IO.FS.writeFile path text).toBaseIO with
  | .ok () => return .ok ()
  | .error error => return .error (fileErrorOf error)

/-- Takes all steps where the program runs. -/
def Program.happen {α : Type} : Program α → IO (Except Report α)
  | done result => return .ok result
  | fail report => return .error report
  | read path next => do (next (← readSource path)).happen
  | print text next => do
    IO.print text
    next.happen
  | write path text next => do (next (← writeTarget path text)).happen

def runLine (words : List String) : IO Exit := do
  let screen : Screen :=
    ⟨← (← IO.getStdout).isTty, ← IO.getEnv "FORCE_COLOR", ← IO.getEnv "NO_COLOR"⟩
  let env : Environment :=
    ⟨← IO.getEnv "SKCAL_TEMPLATE", ← IO.getEnv "SKCAL_DATA", ← today⟩
  match readLine env words with
  | .error error =>
    IO.eprintln ("error: " ++ error.message)
    return .misused
  | .ok invocation =>
    invocation.notes.forM fun note => IO.eprintln note
    match ← (invocation.program screen).happen with
    | .ok exit => return exit
    | .error report =>
      tellReport report
      return .failed

end Almanac.Command

def main (args : List String) : IO UInt32 := do
  return (← Almanac.Command.runLine args).code.toUInt32
