import Almanac.Proofs.Computus
import Almanac.Proofs.MovingHolidays

/-! Easter Sunday in every year, also far outside the calendar: it is between 22 March and 25 April,
and nothing that is reckoned on the way needs more than 32 bits. -/

namespace Almanac.Easter
variable {year n : Int} {sunday : Date}

/-! ### Words -/

/-- A number, if it has 32 bits with its sign. -/
def word? (n : Int) : Option Int := if -2147483648 ≤ n ∧ n < 2147483648 then some n else none

/-- A number without a sign, if it is not negative. -/
def unsigned? (n : Int) : Option Nat := if 0 ≤ n then some n.natAbs else none

theorem word?_eq_some (h : -2147483648 ≤ n) (h' : n < 2147483648) : word? n = some n :=
  if_pos ⟨h, h'⟩

theorem unsigned?_eq_some (h : 0 ≤ n) : unsigned? n = some n.natAbs := if_pos h

def moonOffsetInWords? (year : Int) : Option Int := do
  let golden ← word? (year % 19)
  let product ← word? (19 * golden)
  let sum ← word? (product + 24)
  word? (sum % 30)

def sundayOffsetInWords? (year moon : Int) : Option Int := do
  let two ← word? (2 * (← word? (year % 4)))
  let four ← word? (4 * (← word? (year % 7)))
  let sum ← word? (5 + two)
  let sum ← word? (sum + four)
  let sum ← word? (sum + (← word? (6 * moon)))
  word? (sum % 7)

def marchDayInWords? (moon sunday : Int) : Option Int := do
  word? ((← word? (22 + moon)) + sunday)

def aprilDayInWords? (moon sunday : Int) : Option Int := do
  let day ← word? ((← word? (moon + sunday)) - 9)
  if day > 25 then word? (day - 7) else some day

/-- Month and day of Easter Sunday as `monthDay` has them, if each number on the way is a word and
no day is negative before it loses its sign. -/
def monthDayInWords? (year : Int) : Option (Nat × Nat) := do
  let moon ← moonOffsetInWords? year
  let sunday ← sundayOffsetInWords? year moon
  let march ← marchDayInWords? moon sunday
  let april ← aprilDayInWords? moon sunday
  if march > 30 then
    if april < 1 then
      let day ← unsigned? (← word? (31 + april))
      some (3, day)
    else
      let day ← unsigned? april
      some (4, day)
  else
    let day ← unsigned? march
    some (3, day)

theorem moonOffsetInWords?_eq (year : Int) : moonOffsetInWords? year = some (moonOffset year) := by
  simp (disch := omega) only [moonOffsetInWords?, word?_eq_some, Option.bind_eq_bind,
    Option.bind_some, moonOffset]

theorem sundayOffsetInWords?_eq (year : Int) :
    sundayOffsetInWords? year (moonOffset year) = some (sundayOffset year) := by
  have hmoon := moonOffset_bounds year
  simp (disch := omega) only [sundayOffsetInWords?, word?_eq_some, Option.bind_eq_bind,
    Option.bind_some, sundayOffset]

theorem marchDayInWords?_eq (year : Int) :
    marchDayInWords? (moonOffset year) (sundayOffset year) = some (marchDay year) := by
  have hmoon := moonOffset_bounds year
  have hsunday := sundayOffset_bounds year
  simp (disch := omega) only [marchDayInWords?, word?_eq_some, Option.bind_eq_bind,
    Option.bind_some, marchDay]

theorem aprilDayInWords?_eq (year : Int) :
    aprilDayInWords? (moonOffset year) (sundayOffset year) = some (aprilDay year) := by
  have hmoon := moonOffset_bounds year
  have hsunday := sundayOffset_bounds year
  simp (disch := omega) only [aprilDayInWords?, word?_eq_some, Option.bind_eq_bind,
    Option.bind_some, aprilDay]
  split <;> rfl

/-- Easter is from 22 March through 25 April, and the last of March is the day 0 of April. -/
theorem days_bounds (year : Int) :
    22 ≤ marchDay year ∧ aprilDay year ≤ 25 ∧ (30 < marchDay year → 0 ≤ aprilDay year) := by
  have hmoon := moonOffset_bounds year
  have hsunday := sundayOffset_bounds year
  unfold marchDay aprilDay
  dsimp only
  split <;> omega

/-- No number that is reckoned with is too large for a word, and none loses a sign. -/
theorem monthDayInWords?_eq (year : Int) : monthDayInWords? year = some (monthDay year) := by
  obtain ⟨hfirst, hlast, hzero⟩ := days_bounds year
  simp only [monthDayInWords?, moonOffsetInWords?_eq, sundayOffsetInWords?_eq, marchDayInWords?_eq,
    aprilDayInWords?_eq, Option.bind_eq_bind, Option.bind_some, monthDay]
  by_cases hmarch : marchDay year > 30
  · have hpos := hzero hmarch
    simp (disch := omega) only [if_pos hmarch, word?_eq_some, unsigned?_eq_some, Option.bind_some]
    split <;> rfl
  · simp (disch := omega) only [if_neg hmarch, unsigned?_eq_some, Option.bind_some]

/-! ### Dates -/

theorem monthDay_bounds (year : Int) :
    (monthDay year).1 = 3 ∧ 22 ≤ (monthDay year).2 ∧ (monthDay year).2 ≤ 31 ∨
      (monthDay year).1 = 4 ∧ 1 ≤ (monthDay year).2 ∧ (monthDay year).2 ≤ 25 := by
  have hmoon := moonOffset_bounds year
  have hsunday := sundayOffset_bounds year
  rw [monthDay_eq]
  split
  · left
    dsimp only
    omega
  · right
    split
    · decide
    · dsimp only
      omega

/-- The calendar has Easter Sunday of each of its years, and of no other. -/
theorem sunday?_eq_none_iff : sunday? year = none ↔ year < -262143 ∨ 262142 < year := by
  have hlengths : ∀ leap, monthLength leap 3 = 31 ∧ monthLength leap 4 = 30 := by decide
  obtain ⟨hmarch, hapril⟩ := hlengths (isLeapYear year)
  unfold sunday? Date.ofParts?
  rw [dite_eq_right_iff]
  simp only [reduceCtorEq, imp_false]
  rcases monthDay_bounds year with ⟨hm, hd, hd'⟩ | ⟨hm, hd, hd'⟩
  · rw [hm, hmarch]
    omega
  · rw [hm, hapril]
    omega

/-- Whatever the year, the rule gives a day from 22 March through 25 April and is reckoned in words.
In a year of the calendar the holidays are the four days in a row whose third is Easter Sunday, and
their keys are in the same order; in any other year there are none. -/
theorem holidays_of_any_year (year : Int) :
    monthDayInWords? year = some (monthDay year) ∧
    ((monthDay year).1 = 3 ∧ 22 ≤ (monthDay year).2 ∧ (monthDay year).2 ≤ 31 ∨
      (monthDay year).1 = 4 ∧ 1 ≤ (monthDay year).2 ∧ (monthDay year).2 ≤ 25) ∧
    (sunday? year = none ↔ year < -262143 ∨ 262142 < year) ∧
    (sunday? year = none → holidays year = [] ∧ (holidaysByKey year).rows = []) ∧
    ∀ sunday, sunday? year = some sunday →
      ∃ friday saturday monday, Days year friday saturday sunday monday ∧
        (holidays year).map (fun entry => (entry.1, entry.2.name)) =
          [(friday, "Veľký piatok"), (saturday, "Biela sobota"), (sunday, "Veľkonočná nedeľa"),
            (monday, "Veľkonočný pondelok")] ∧
        (holidaysByKey year).rows =
          [(.ofDate friday, .goodFriday), (.ofDate saturday, .holySaturday),
            (.ofDate sunday, .easterSunday), (.ofDate monday, .easterMonday)] := by
  refine ⟨monthDayInWords?_eq year, monthDay_bounds year, sunday?_eq_none_iff, ?_, ?_⟩
  · intro hnone
    have hholidays : holidays year = [] := by rw [holidays, hnone]
    refine ⟨hholidays, ?_⟩
    rw [rows_holidaysByKey, hholidays, List.map_nil]
  · intro sunday hsunday
    obtain ⟨friday, saturday, monday, hdays, hholidays⟩ := holidays_eq hsunday
    refine ⟨friday, saturday, monday, hdays, ?_, ?_⟩
    · rw [hholidays]
      rfl
    · rw [rows_holidaysByKey, hholidays]
      rfl

/-- In 2013 the holidays begin and end in different months; the year 262143 is past the calendar. -/
theorem holidays_of_any_year_2013 :
    (∃ sunday friday saturday monday, sunday? 2013 = some sunday ∧
      Days 2013 friday saturday sunday monday ∧ sunday.month = 3 ∧ monday.month = 4) ∧
    sunday? 262143 = none ∧ holidays 262143 = [] ∧ (holidaysByKey 262143).rows = [] := by
  let sunday : Date := ⟨2013, 3, 31, by decide, by decide, by decide, by decide⟩
  have hsunday : sunday? 2013 = some sunday := by decide
  obtain ⟨friday, saturday, monday, hdays, -⟩ := (holidays_of_any_year 2013).2.2.2.2 sunday hsunday
  have hmonday : sunday.next? = some ⟨2013, 4, 1, by decide, by decide, by decide, by decide⟩ := by
    decide
  have hnone : sunday? 262143 = none := by decide
  refine ⟨⟨sunday, friday, saturday, monday, hsunday, hdays, rfl, ?_⟩, hnone,
    (holidays_of_any_year 262143).2.2.2.1 hnone⟩
  rw [Option.some.inj (hdays.next_sunday.symm.trans hmonday)]

end Almanac.Easter
