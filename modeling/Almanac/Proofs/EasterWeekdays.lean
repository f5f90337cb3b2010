import Almanac.Date
import Almanac.Proofs.EasterDates
import Mathlib.Logic.Function.Iterate

/-! The weekday of the date that is taken for Easter Sunday. Within a century it is the same in
every year, and it is a Sunday in every century of the right remainder only. -/

namespace Almanac

namespace Weekday

theorem ofDayNumber_add (n : Int) (days : Nat) :
    ofDayNumber (n + days) = next^[days] (ofDayNumber n) := by
  induction days with
  | zero => rw [Int.natCast_zero, Int.add_zero, Function.iterate_zero_apply]
  | succ days ih =>
    rw [Function.iterate_succ_apply', ← ih, ← ofDayNumber_succ]
    congr 1
    omega

/-- A weekday is found by counting on from a Sunday. -/
theorem ofDayNumber_eq (n : Int) : ofDayNumber n = next^[(n % 7).toNat] sunday := by
  have hcount := ofDayNumber_add 0 (n % 7).toNat
  have hrest : (0 + ((n % 7).toNat : Int)) % 7 = n % 7 := by omega
  unfold ofDayNumber at hcount ⊢
  rwa [hrest] at hcount

theorem ofDayNumber_eq_sunday_iff {n : Int} : ofDayNumber n = sunday ↔ n % 7 = 0 := by
  have hall : ∀ days < 7, next^[days] sunday = sunday ↔ days = 0 := by decide
  rw [ofDayNumber_eq, hall _ (by omega)]
  omega

end Weekday

namespace Easter
variable {year : Int} {easter : Date}

/-- The days before 1 March. From there on the year's own leap day counts with those before it. -/
theorem daysBefore_march (year : Int) :
    daysBeforeYear year + daysBeforeMonth (isLeapYear year) 3 =
      365 * (year - 1) + year / 4 - year / 100 + year / 400 + 59 := by
  have hmonths : daysBeforeMonth true 3 = 60 ∧ daysBeforeMonth false 3 = 59 := by decide
  unfold daysBeforeYear
  cases hleap : isLeapYear year with
  | true =>
    simp only [isLeapYear, decide_eq_true_eq] at hleap
    rw [hmonths.1]
    omega
  | false =>
    simp only [isLeapYear, decide_eq_false_iff_not] at hleap
    rw [hmonths.2]
    omega

/-- Where the rule sets a day back, it does so by a week. -/
theorem dayNumber_sunday? (h : sunday? year = some easter) :
    easter.dayNumber % 7 =
      (daysBeforeYear year + daysBeforeMonth (isLeapYear year) 3 + marchDay year) % 7 := by
  have happril : ∀ leap, daysBeforeMonth leap 4 = daysBeforeMonth leap 3 + 31 := by decide
  have hmoon := moonOffset_bounds year
  have hsunday := sundayOffset_bounds year
  obtain ⟨hy, hm, hd⟩ := Date.parts_of_ofParts? h
  rw [Date.dayNumber, hy, hm, hd, monthDay_eq, marchDay]
  split
  · dsimp only
    omega
  · rw [apply_ite Prod.fst, apply_ite Prod.snd, ite_self, happril]
    split <;> omega

theorem dayNumber_emod (h : sunday? year = some easter) :
    easter.dayNumber % 7 = (1 - year / 100 + year / 400) % 7 := by
  rw [dayNumber_sunday? h, daysBefore_march]
  unfold marchDay sundayOffset
  generalize moonOffset year = moon
  omega

/-- The weekday of what the rule gives for Easter Sunday depends on the century alone. It is a
Sunday in every year from 1900 through 2099. -/
theorem weekday_of_sunday? (year : Int) (h : -262143 ≤ year) (h' : year ≤ 262142) :
    ∃ easter, sunday? year = some easter ∧
      easter.weekday = Weekday.next^[((1 - year / 100 + year / 400) % 7).toNat] .sunday ∧
      (easter.weekday = .sunday ↔ (year / 100 - year / 400) % 7 = 1) ∧
      (1900 ≤ year → year ≤ 2099 → easter.weekday = .sunday) := by
  obtain ⟨easter, heaster⟩ : ∃ easter, sunday? year = some easter := by
    rw [← Option.ne_none_iff_exists', ne_eq, sunday?_eq_none_iff]
    omega
  have hnumber := dayNumber_emod heaster
  have hsunday : easter.weekday = .sunday ↔ (year / 100 - year / 400) % 7 = 1 := by
    rw [Date.weekday, Weekday.ofDayNumber_eq_sunday_iff, hnumber]
    omega
  refine ⟨easter, heaster, ?_, hsunday, ?_⟩
  · rw [Date.weekday, Weekday.ofDayNumber_eq, hnumber]
  · intro hfirst hlast
    have hcentury : year / 100 = 19 ∨ year / 100 = 20 := by omega
    rw [hsunday]
    omega

/-- From the year 2100 on, a Saturday is taken for Easter Sunday. -/
theorem weekday_of_sunday?_2100 :
    ∃ easter, sunday? 2100 = some easter ∧ easter.weekday = .saturday ∧ easter.month = 3 := by
  obtain ⟨easter, heaster, hweekday, -⟩ := weekday_of_sunday? 2100 (by decide) (by decide)
  have hmarch := (Date.parts_of_ofParts? heaster).2.1
  exact ⟨easter, heaster, hweekday, hmarch⟩

end Easter
end Almanac
