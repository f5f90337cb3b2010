import Almanac.Bundled
import Almanac.Calendar
import Almanac.Command.Line
import Almanac.Command.Listing
import Almanac.Command.Program

/-!
The commands and how a line with one of them is run. Each loads what it needs before it prints or
writes anything.
-/

namespace Almanac.Command
open Program (loadFile printLine printLines saveStore)

/-- How a program ends. -/
inductive Exit
  | ok | misused | incomplete | failed
deriving DecidableEq, Repr

def Exit.code : Exit → Nat
  | ok => 0
  | misused => 2
  | incomplete => 65
  | failed => 70

/-- The store of a data file, or the bundled one. -/
def loadData : Option String → Program Store
  | some path => loadFile path
  | none => return Bundled.store

/-- What is printed for a filled template that is wanted with all values. -/
def renderMembers (date : Date) (result : String) (values : DayValues) : Json.Members :=
  [("date", .text date.text), ("result", .text result), ("longdate", .text values.longDate),
    ("nameday", .text values.names), ("holiday", .text values.holiday),
    ("worldday", .text values.worldDay)]

def renderText (c : Calendar) (date : Date) (template : String) (json : Bool) : String :=
  let result := c.render date template
  if json then String.ofList (Json.layOutObject 0 (renderMembers date result (c.valuesOn date)))
  else result

def easterText (coloured json : Bool) (holidays : List (Date × EasterHoliday)) : String :=
  if json then listing (holidays.map fun entry => holidayMembers entry.1 entry.2)
  else holidayTable coloured holidays

/-- A list of all counts, or a line for each. -/
def checkLines (coloured json : Bool) (counts : List Count) : List String :=
  if json then [listing (counts.map Count.members)] else counts.map (Count.line coloured)

/-- Loads the files in turn and counts what they hold. -/
def countAll : List String → Program (List Count)
  | [] => return []
  | path :: paths => do
    let store ← loadFile path
    let counts ← countAll paths
    return .ofStore path store :: counts

def outsideCalendar (year : Int) : Report :=
  .plain ("Year " ++ toString year ++ " is outside the supported date range")

def Request.program (coloured : Bool) : Request → Program Exit
  | render template date data json => do
    let store ← loadData data
    printLine (renderText { store } date template json)
    return .ok
  | easter year json =>
    match Easter.holidays year with
    | [] => .fail (outsideCalendar year)
    | holidays => do
      printLine (easterText coloured json holidays)
      return .ok
  | check paths strict json => do
    let counts ← countAll paths
    printLines (checkLines coloured json counts)
    return if strict ∧ ¬ counts.all Count.isComplete then .incomplete else .ok
  | save path data => do
    let store ← loadData data
    saveStore path store
    return .ok

def versionText : String := "skcal 0.1.0"

/-- What is shown as help belongs to the reader of the line and is left out. -/
def Invocation.program (screen : Screen) : Invocation → Program Exit
  | help => return .ok
  | version => do
    printLine versionText
    return .ok
  | run settings request => request.program (settings.colour.inUse screen)

/-- What a program leaves when it ends, and the report on why it failed. -/
structure Ending where
  exit : Exit
  failure : Option Report
  folder : Folder
  events : List Event

def Ending.output (e : Ending) : String := printedOf e.events

/-- Runs a program in a folder. -/
def Program.ending (p : Program Exit) (folder : Folder) : Ending :=
  match p.run ⟨folder, []⟩ with
  | (.ok exit, w) => ⟨exit, none, w.folder, w.events⟩
  | (.error report, w) => ⟨.failed, some report, w.folder, w.events⟩

/-- Runs a command line in a folder. -/
def execute (env : Environment) (folder : Folder) (words : List String) : Ending :=
  match readLine env words with
  | .ok invocation => (invocation.program env.screen).ending folder
  | .error _ => ⟨.misused, none, folder, []⟩

end Almanac.Command
