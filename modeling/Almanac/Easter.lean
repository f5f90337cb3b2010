import Almanac.Date.Text
import Almanac.DayTable

/-!
Easter Sunday and the holidays around it. The rule is a congruence with the constants of the years
1900 through 2099; it is applied to every year, also where it no longer gives a Sunday.
-/

namespace Almanac

/-- The holidays that move with Easter, in their order. -/
inductive EasterHoliday
  | goodFriday | holySaturday | easterSunday | easterMonday
deriving DecidableEq, Repr

namespace EasterHoliday

def all : List EasterHoliday := [goodFriday, holySaturday, easterSunday, easterMonday]

/-- Days after Easter Sunday. -/
def offset : EasterHoliday → Int
  | goodFriday => -2
  | holySaturday => -1
  | easterSunday => 0
  | easterMonday => 1

def name : EasterHoliday → String
  | goodFriday => "Veľký piatok"
  | holySaturday => "Biela sobota"
  | easterSunday => "Veľkonočná nedeľa"
  | easterMonday => "Veľkonočný pondelok"

end EasterHoliday

namespace Easter

/-- Days from 21 March to the paschal full moon. -/
def moonOffset (year : Int) : Int := (19 * (year % 19) + 24) % 30

/-- Days from the day after the full moon to Sunday. -/
def sundayOffset (year : Int) : Int :=
  (5 + 2 * (year % 4) + 4 * (year % 7) + 6 * moonOffset year) % 7

/-- The day counted from the last of February. -/
def marchDay (year : Int) : Int := 22 + moonOffset year + sundayOffset year

/-- The day counted from the last of March. The 26th of April is never Easter: the congruence comes
there only where the 19th is meant. -/
def aprilDay (year : Int) : Int :=
  let day := moonOffset year + sundayOffset year - 9
  if day > 25 then day - 7 else day

/-- Month and day of Easter Sunday. -/
def monthDay (year : Int) : Nat × Nat :=
  if marchDay year > 30 then
    if aprilDay year < 1 then (3, (31 + aprilDay year).natAbs) else (4, (aprilDay year).natAbs)
  else (3, (marchDay year).natAbs)

/-- Easter Sunday of a year within the calendar. -/
def sunday? (year : Int) : Option Date := Date.ofParts? year (monthDay year).1 (monthDay year).2

/-- The holidays of a year with their dates; none outside the calendar. -/
def holidays (year : Int) : List (Date × EasterHoliday) :=
  match sunday? year with
  | none => []
  | some sunday =>
    EasterHoliday.all.filterMap fun holiday =>
      (sunday.shift? holiday.offset).map fun date => (date, holiday)

/-- The holidays of a year by the keys of their days. -/
def holidaysByKey (year : Int) : DayTable EasterHoliday :=
  (holidays year).foldl (fun table entry => table.insert (.ofDate entry.1) entry.2) ∅

theorem moonOffset_bounds (year : Int) : 0 ≤ moonOffset year ∧ moonOffset year ≤ 29 := by
  unfold moonOffset; omega

theorem sundayOffset_bounds (year : Int) : 0 ≤ sundayOffset year ∧ sundayOffset year ≤ 6 := by
  unfold sundayOffset; omega

end Easter
end Almanac
