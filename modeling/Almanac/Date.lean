/-!
Dates of the proleptic Gregorian calendar, from the year -262143 through 262142 (the year 0 is
1 BC). `dayNumber` counts days, and a date that has a successor is one day before it
(`dayNumber_of_next?`). The weekday follows from the day number, and the successor falls on the next
weekday (`weekday_next?`).
-/

namespace Almanac

def isLeapYear (year : Int) : Bool :=
  year % 4 = 0 ∧ (year % 100 ≠ 0 ∨ year % 400 = 0)

/-- Days in a month; no days where there is no such month. -/
def monthLength (leap : Bool) : Nat → Nat
  | 2 => if leap then 29 else 28
  | 4 | 6 | 9 | 11 => 30
  | 1 | 3 | 5 | 7 | 8 | 10 | 12 => 31
  | _ => 0

theorem monthLength_le_leap (leap : Bool) (month : Nat) :
    monthLength leap month ≤ monthLength true month := by
  unfold monthLength
  cases leap <;> split <;> simp

/-- Only the months 1 through 12 have days. -/
theorem month_bounds_of_monthLength_pos {leap : Bool} {month : Nat}
    (h : 0 < monthLength leap month) : 1 ≤ month ∧ month ≤ 12 := by
  unfold monthLength at h
  split at h <;> omega

def daysBeforeMonth (leap : Bool) : Nat → Nat
  | 0 => 0
  | month + 1 => daysBeforeMonth leap month + monthLength leap month

/-- Days from 1 January of the year 1 to 1 January of `year`. -/
def daysBeforeYear (year : Int) : Int :=
  365 * (year - 1) + (year - 1) / 4 - (year - 1) / 100 + (year - 1) / 400

def yearLength (year : Int) : Nat := if isLeapYear year then 366 else 365

theorem daysBeforeYear_succ (year : Int) :
    daysBeforeYear (year + 1) = daysBeforeYear year + yearLength year := by
  unfold daysBeforeYear yearLength isLeapYear
  split <;> rename_i h <;> simp at h <;> grind

structure Date where
  year : Int
  month : Nat
  day : Nat
  year_ge : -262143 ≤ year
  year_le : year ≤ 262142
  day_pos : 1 ≤ day
  day_le : day ≤ monthLength (isLeapYear year) month
deriving DecidableEq, Repr

namespace Date
variable {d e : Date}

/-- The date with these numbers, if the calendar has it. -/
def ofParts? (year : Int) (month day : Nat) : Option Date :=
  if h : (-262143 ≤ year ∧ year ≤ 262142) ∧ 1 ≤ day ∧ day ≤ monthLength (isLeapYear year) month then
    some ⟨year, month, day, h.1.1, h.1.2, h.2.1, h.2.2⟩
  else
    none

theorem ofParts?_parts (d : Date) : ofParts? d.year d.month d.day = some d := by
  simp [ofParts?, d.year_ge, d.year_le, d.day_pos, d.day_le]

theorem parts_of_ofParts? {year : Int} {month day : Nat} (h : ofParts? year month day = some d) :
    d.year = year ∧ d.month = month ∧ d.day = day := by
  unfold ofParts? at h
  split at h
  · cases h; exact ⟨rfl, rfl, rfl⟩
  · cases h

theorem month_bounds (d : Date) : 1 ≤ d.month ∧ d.month ≤ 12 :=
  month_bounds_of_monthLength_pos (Nat.lt_of_lt_of_le d.day_pos d.day_le)

/-- Chronological order. -/
protected def Before (d e : Date) : Prop :=
  d.year < e.year ∨ d.year = e.year ∧ (d.month < e.month ∨ d.month = e.month ∧ d.day < e.day)

instance : LT Date := ⟨Date.Before⟩

instance (d e : Date) : Decidable (d < e) :=
  inferInstanceAs (Decidable (_ ∨ _ ∧ (_ ∨ _ ∧ _)))

/-- The day's place in the count that gives 1 to 1 January of the year 1. -/
def dayNumber (d : Date) : Int :=
  daysBeforeYear d.year + daysBeforeMonth (isLeapYear d.year) d.month + d.day

/-- The following day, unless the calendar ends. -/
def next? (d : Date) : Option Date :=
  if d.day < monthLength (isLeapYear d.year) d.month then ofParts? d.year d.month (d.day + 1)
  else if d.month < 12 then ofParts? d.year (d.month + 1) 1
  else ofParts? (d.year + 1) 1 1

/-- The day before, unless the calendar begins. -/
def prev? (d : Date) : Option Date :=
  if 1 < d.day then ofParts? d.year d.month (d.day - 1)
  else if 1 < d.month then
    ofParts? d.year (d.month - 1) (monthLength (isLeapYear d.year) (d.month - 1))
  else ofParts? (d.year - 1) 12 31

def later? : Nat → Date → Option Date
  | 0, d => some d
  | n + 1, d => d.next?.bind (later? n)

def earlier? : Nat → Date → Option Date
  | 0, d => some d
  | n + 1, d => d.prev?.bind (earlier? n)

/-- The date `n` days after `d`, before it when `n` is negative. -/
def shift? (d : Date) : Int → Option Date
  | .ofNat n => later? n d
  | .negSucc n => earlier? (n + 1) d

theorem daysBeforeMonth_thirteen (year : Int) :
    daysBeforeMonth (isLeapYear year) 13 = yearLength year := by
  unfold yearLength
  cases isLeapYear year <;> rfl

theorem dayNumber_of_next? (h : d.next? = some e) : e.dayNumber = d.dayNumber + 1 := by
  have hd := d.day_le
  unfold next? at h
  split at h
  · obtain ⟨hy, hm, hday⟩ := parts_of_ofParts? h
    simp only [dayNumber, hy, hm, hday]
    omega
  · split at h
    · obtain ⟨hy, hm, hday⟩ := parts_of_ofParts? h
      simp only [dayNumber, hy, hm, hday, daysBeforeMonth]
      omega
    · obtain ⟨hy, hm, hday⟩ := parts_of_ofParts? h
      have hlast : d.month = 12 := by have := d.month_bounds; omega
      have hyear := daysBeforeMonth_thirteen d.year
      simp only [daysBeforeMonth.eq_2 (isLeapYear d.year) 12, ← hlast] at hyear
      have hfirst : daysBeforeMonth (isLeapYear (d.year + 1)) 1 = 0 := by
        cases isLeapYear (d.year + 1) <;> rfl
      simp only [dayNumber, hy, hm, hday, daysBeforeYear_succ, hfirst]
      omega

end Date

/-! ### Days of the week -/

inductive Weekday
  | monday | tuesday | wednesday | thursday | friday | saturday | sunday
deriving DecidableEq, Repr

namespace Weekday

def next : Weekday → Weekday
  | monday => tuesday
  | tuesday => wednesday
  | wednesday => thursday
  | thursday => friday
  | friday => saturday
  | saturday => sunday
  | sunday => monday

/-- The weekday of a day number; the days 1 and 0 are a Monday and a Sunday. -/
def ofDayNumber (n : Int) : Weekday :=
  match (n % 7).toNat with
  | 1 => monday
  | 2 => tuesday
  | 3 => wednesday
  | 4 => thursday
  | 5 => friday
  | 6 => saturday
  | _ => sunday

theorem ofDayNumber_succ (n : Int) : ofDayNumber (n + 1) = (ofDayNumber n).next := by
  have h : n % 7 = 0 ∨ n % 7 = 1 ∨ n % 7 = 2 ∨ n % 7 = 3 ∨ n % 7 = 4 ∨ n % 7 = 5 ∨ n % 7 = 6 := by
    omega
  have hs : (n + 1) % 7 = (n % 7 + 1) % 7 := by omega
  unfold ofDayNumber
  rw [hs]
  rcases h with h | h | h | h | h | h | h <;> rw [h] <;> rfl

end Weekday

namespace Date
variable {d e : Date}

def weekday (d : Date) : Weekday := .ofDayNumber d.dayNumber

theorem weekday_next? (h : d.next? = some e) : e.weekday = d.weekday.next := by
  simp only [weekday, dayNumber_of_next? h, Weekday.ofDayNumber_succ]

end Date

end Almanac
