import Almanac.DayKey

/-! Days in a row, within a year and from one day to the next, and the keys of the days of a
year. -/

namespace Almanac

theorem monthLength_pos {leap : Bool} {month : Nat} (h : 1 ≤ month) (h' : month ≤ 12) :
    1 ≤ monthLength leap month := by
  have hall : ∀ leap, ∀ month < 13, 1 ≤ month → 1 ≤ monthLength leap month := by decide
  exact hall leap month (by omega) h

namespace Date
variable {d e : Date} {year : Int} {month day : Nat}

theorem lt_iff :
    d < e ↔ d.year < e.year ∨
      d.year = e.year ∧ (d.month < e.month ∨ d.month = e.month ∧ d.day < e.day) := Iff.rfl

theorem lt_trans {d₁ d₂ d₃ : Date} (h : d₁ < d₂) (h' : d₂ < d₃) : d₁ < d₃ := by
  rw [lt_iff] at *
  omega

theorem ofParts?_of_eq (hy : d.year = year) (hm : d.month = month) (hd : d.day = day) :
    ofParts? year month day = some d := by
  rw [← hy, ← hm, ← hd, ofParts?_parts]

theorem lt_trichotomy (d e : Date) : d < e ∨ d = e ∨ e < d := by
  by_cases hsame : d.year = e.year ∧ d.month = e.month ∧ d.day = e.day
  · have hparts := ofParts?_of_eq hsame.1 hsame.2.1 hsame.2.2
    exact .inr (.inl (Option.some.inj (hparts.symm.trans (ofParts?_parts e))))
  · rw [lt_iff, lt_iff]
    omega

theorem ofParts?_isSome (month : Nat) (hy : -262143 ≤ year) (hy' : year ≤ 262142) (hd : 1 ≤ day)
    (hd' : day ≤ monthLength (isLeapYear year) month) :
    ∃ e, ofParts? year month day = some e :=
  ⟨_, dif_pos ⟨⟨hy, hy'⟩, hd, hd'⟩⟩

theorem lt_of_next? (h : d.next? = some e) : d < e := by
  rw [lt_iff]
  unfold next? at h
  split at h
  · obtain ⟨hy, hm, hd⟩ := parts_of_ofParts? h
    omega
  · split at h
    · obtain ⟨hy, hm, hd⟩ := parts_of_ofParts? h
      omega
    · obtain ⟨hy, hm, hd⟩ := parts_of_ofParts? h
      omega

/-- The day before a day is followed by it. -/
theorem next?_of_prev? (h : d.prev? = some e) : e.next? = some d := by
  have hday := d.day_le
  have hpos := d.day_pos
  have hmonth := d.month_bounds
  unfold prev? at h
  split at h
  next hlate =>
    obtain ⟨hy, hm, hd⟩ := parts_of_ofParts? h
    rw [next?, hy, hm, if_pos (by omega)]
    exact ofParts?_of_eq rfl rfl (by omega)
  next hfirst =>
    split at h
    next hlater =>
      obtain ⟨hy, hm, hd⟩ := parts_of_ofParts? h
      rw [next?, hy, hm, hd, if_neg (Nat.lt_irrefl _), if_pos (by omega)]
      exact ofParts?_of_eq rfl (by omega) (by omega)
    next hjanuary =>
      obtain ⟨hy, hm, hd⟩ := parts_of_ofParts? h
      have hlast : ∀ leap, ¬ 31 < monthLength leap 12 := by decide
      rw [next?, hm, hd, if_neg (hlast _), if_neg (by decide)]
      exact ofParts?_of_eq (by omega) (by omega) (by omega)

/-- Before December the year goes on. -/
theorem next?_of_month_lt (h : d.month < 12) : ∃ e, d.next? = some e ∧ e.year = d.year := by
  have hday := d.day_pos
  by_cases hlate : d.day < monthLength (isLeapYear d.year) d.month
  · obtain ⟨e, he⟩ := ofParts?_isSome d.month d.year_ge d.year_le (Nat.le_add_left 1 d.day) hlate
    exact ⟨e, by rw [next?, if_pos hlate, he], (parts_of_ofParts? he).1⟩
  · obtain ⟨e, he⟩ := ofParts?_isSome (d.month + 1) d.year_ge d.year_le (Nat.le_refl 1)
      (monthLength_pos (by omega) h)
    exact ⟨e, by rw [next?, if_neg hlate, if_pos h, he], (parts_of_ofParts? he).1⟩

/-- After January the year has begun before. -/
theorem prev?_of_lt_month (h : 1 < d.month) :
    ∃ e, d.prev? = some e ∧ e.year = d.year ∧ d.month ≤ e.month + 1 := by
  have hday := d.day_le
  have hmonth := d.month_bounds
  by_cases hlate : 1 < d.day
  · have hback : 1 ≤ d.day - 1 := by omega
    obtain ⟨e, he⟩ := ofParts?_isSome d.month d.year_ge d.year_le hback (by omega)
    obtain ⟨hy, hm, -⟩ := parts_of_ofParts? he
    exact ⟨e, by rw [prev?, if_pos hlate, he], hy, by omega⟩
  · obtain ⟨e, he⟩ := ofParts?_isSome (d.month - 1) d.year_ge d.year_le
      (monthLength_pos (by omega) (by omega)) (Nat.le_refl _)
    obtain ⟨hy, hm, -⟩ := parts_of_ofParts? he
    exact ⟨e, by rw [prev?, if_neg hlate, if_pos h, he], hy, by omega⟩

end Date

namespace DayKey
variable {d e : Date}

/-- Within a year the keys are ordered as the dates are. -/
theorem ofDate_lt_ofDate (h : d.year = e.year) : ofDate d < ofDate e ↔ d < e := by
  rw [lt_iff, Date.lt_iff]
  simp [ofDate, h]

/-- Within a year a key stands for one date. -/
theorem ofDate_inj (h : d.year = e.year) (hkey : ofDate d = ofDate e) : d = e := by
  have hparts := Date.ofParts?_of_eq h (congrArg month hkey) (congrArg day hkey)
  exact Option.some.inj (hparts.symm.trans (Date.ofParts?_parts e))

end DayKey

end Almanac
