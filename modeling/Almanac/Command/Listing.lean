import Almanac.Easter
import Almanac.Json.Write
import Almanac.Store

/-!
What the commands print besides filled templates: the moving holidays of a year and the counts of
data files, each as text or as a list of objects.
-/

namespace Almanac

namespace Text

/-! ### Tables

A heading and rows within one border, in columns as wide as their widest cell. -/

def padRight (width : Nat) (cs : List Char) : List Char :=
  cs ++ List.replicate (width - cs.length) ' '

/-- The width of the cells at each place of the rows. -/
def columnWidths : List (List (List Char)) → List Nat
  | [] => []
  | row :: rows =>
    let widths := columnWidths rows
    (List.range (max row.length widths.length)).map fun i =>
      max ((row.map List.length).getD i 0) (widths.getD i 0)

/-- The cells of a row, each between two spaces, with a space between the columns. -/
def tableRow (widths : List Nat) (row : List (List Char)) : List Char :=
  '│' :: [' '].intercalate (List.zipWith (fun width cell => ' ' :: padRight width cell ++ [' '])
    widths row) ++ ['│']

def ruleLength (widths : List Nat) : Nat := widths.foldr (· + 2 + ·) (widths.length - 1)

def tableRule (left line right : Char) (widths : List Nat) : List Char :=
  left :: List.replicate (ruleLength widths) line ++ [right]

/-- The lines of a table. -/
def tableLines (heading : List (List Char)) (rows : List (List (List Char))) : List (List Char) :=
  let widths := columnWidths (heading :: rows)
  tableRule '┌' '─' '┐' widths :: tableRow widths heading :: tableRule '╞' '═' '╡' widths ::
    rows.map (tableRow widths) ++ [tableRule '└' '─' '┘' widths]

theorem length_padRight (width : Nat) (cs : List Char) :
    (padRight width cs).length = max width cs.length := by
  simp [padRight]
  omega

end Text

namespace Command
open Json

/-! ### Listings -/

/-- The codes that start and end a style on a terminal. -/
structure Style where
  start : String
  stop : String

namespace Style

def bold : Style := ⟨"\x1b[1m", "\x1b[0m"⟩

def green : Style := ⟨"\x1b[32m", "\x1b[39m"⟩

def apply (style : Style) (coloured : Bool) (text : String) : String :=
  if coloured then style.start ++ text ++ style.stop else text

end Style

/-- The holidays as a table. Codes for colour count in the width of a column as letters do. -/
def holidayTable (coloured : Bool) (holidays : List (Date × EasterHoliday)) : String :=
  let rows := holidays.map fun (date, holiday) =>
    [date.text, (DayKey.ofDate date).text, date.weekday.name,
      Style.bold.apply coloured holiday.name]
  let lines := Text.tableLines (["Date", "Key", "Weekday", "Holiday"].map String.toList)
    (rows.map (·.map String.toList))
  String.ofList (['\n'].intercalate lines)

def holidayMembers (date : Date) (holiday : EasterHoliday) : Members :=
  [("date", .text date.text), ("key", .text (DayKey.ofDate date).text),
    ("name", .text holiday.name)]

/-- How much a data file holds. -/
structure Count where
  path : String
  days : Nat
  names : Nat
  holidays : Nat
  worldDays : Nat
deriving DecidableEq, Repr

namespace Count

def ofStore (path : String) (s : Store) : Count where
  path
  days := s.size
  names := s.records.countP (·.presentNames.isSome)
  holidays := s.records.countP (·.presentHoliday.isSome)
  worldDays := s.records.countP (·.presentWorldDay.isSome)

def line (coloured : Bool) (c : Count) : String :=
  Style.green.apply coloured "ok" ++ " " ++ c.path ++ ": " ++ toString c.days ++ " days, " ++
    toString c.names ++ " with name-days, " ++ toString c.holidays ++ " holidays, " ++
    toString c.worldDays ++ " world days"

def members (c : Count) : Members :=
  [("file", .text c.path), ("days", .count c.days), ("namedays", .count c.names),
    ("holidays", .count c.holidays), ("world_days", .count c.worldDays)]

/-- The days of a year with its 29 February. -/
def fullYear : Nat := 366

def isComplete (c : Count) : Bool := fullYear ≤ c.days

end Count

/-- A list of objects, laid out. -/
def listing (objects : List Members) : String := String.ofList (layOutObjects 0 objects)

end Command

end Almanac
