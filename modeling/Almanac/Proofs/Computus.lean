import Almanac.Easter

/-! Easter Sunday by the complete Gregorian rule, for every year, and where the congruence with
fixed constants agrees with it: in the centuries with these constants, up to one rare exception. -/

namespace Almanac.Easter
variable {year : Int}

/-- The constant of a century that the moon is counted with. -/
def moonConstant (century : Int) : Int :=
  (15 + century - century / 4 - (13 + 8 * century) / 25) % 30

/-- The constant of a century that Sundays are counted with. -/
def sundayConstant (century : Int) : Int := (4 + century - century / 4) % 7

/-- Days from 21 March to the full moon, with the corrections of the century. -/
def moonDays (year : Int) : Int :=
  (19 * (year % 19) + year / 100 - year / 100 / 4 - (year / 100 - (year / 100 + 8) / 25 + 1) / 3 +
    15) % 30

def sundayDays (year : Int) : Int :=
  (32 + 2 * (year / 100 % 4) + 2 * (year % 100 / 4) - moonDays year - year % 100 % 4) % 7

/-- Weeks by which the latest days are set back. -/
def weeksBack (year : Int) : Int := (year % 19 + 11 * moonDays year + 22 * sundayDays year) / 451

/-- Month and day of Easter Sunday in the Gregorian calendar. -/
def computus (year : Int) : Nat × Nat :=
  let days := moonDays year + sundayDays year - 7 * weeksBack year + 114
  ((days / 31).toNat, (days % 31 + 1).toNat)

/-- The rule of Gauss with the constants of the century and both of its exceptions. -/
def gaussRule (year : Int) : Nat × Nat :=
  let d := (19 * (year % 19) + moonConstant (year / 100)) % 30
  let e := (2 * (year % 4) + 4 * (year % 7) + 6 * d + sundayConstant (year / 100)) % 7
  if d + e ≤ 9 then (3, (22 + d + e).toNat)
  else if d = 29 ∧ e = 6 then (4, 19)
  else if d = 28 ∧ e = 6 ∧ 10 < year % 19 then (4, 18)
  else (4, (d + e - 9).toNat)

/-- The years in which the congruence comes to the 25th of April and the 18th is meant. -/
def LateSunday (year : Int) : Prop :=
  moonOffset year = 28 ∧ sundayOffset year = 6 ∧ 10 < year % 19

theorem moonDays_bounds (year : Int) : 0 ≤ moonDays year ∧ moonDays year ≤ 29 := by
  unfold moonDays
  omega

theorem sundayDays_bounds (year : Int) : 0 ≤ sundayDays year ∧ sundayDays year ≤ 6 := by
  unfold sundayDays
  omega

/-- The two ways to correct the moon of a century are one. -/
theorem moonCorrection (century : Int) :
    (century - (century + 8) / 25 + 1) / 3 = (13 + 8 * century) / 25 := by
  omega

theorem moonDays_eq (year : Int) :
    moonDays year = (19 * (year % 19) + moonConstant (year / 100)) % 30 := by
  unfold moonDays moonConstant
  rw [moonCorrection]
  omega

theorem sundayDays_eq (year : Int) :
    sundayDays year =
      (2 * (year % 4) + 4 * (year % 7) + 6 * moonDays year + sundayConstant (year / 100)) % 7 := by
  have hleap : year / 4 = 25 * (year / 100) + year % 100 / 4 := by omega
  unfold sundayDays sundayConstant
  generalize moonDays year = moon
  omega

theorem weeksBack_eq (year : Int) :
    weeksBack year =
      if sundayDays year = 6 ∧ (moonDays year = 29 ∨ moonDays year = 28 ∧ 10 < year % 19) then 1
      else 0 := by
  have hmoon := moonDays_bounds year
  have hsunday := sundayDays_bounds year
  have hgolden : 0 ≤ year % 19 ∧ year % 19 ≤ 18 := by omega
  unfold weeksBack
  generalize year % 19 = golden at *
  split <;> omega

theorem gaussRule_eq (year : Int) :
    gaussRule year =
      if moonDays year + sundayDays year ≤ 9 then
        (3, (22 + moonDays year + sundayDays year).toNat)
      else if moonDays year = 29 ∧ sundayDays year = 6 then (4, 19)
      else if moonDays year = 28 ∧ sundayDays year = 6 ∧ 10 < year % 19 then (4, 18)
      else (4, (moonDays year + sundayDays year - 9).toNat) := by
  simp only [gaussRule, ← moonDays_eq, ← sundayDays_eq]

theorem computus_eq_gaussRule (year : Int) : computus year = gaussRule year := by
  have hmoon := moonDays_bounds year
  have hsunday := sundayDays_bounds year
  rw [gaussRule_eq]
  simp only [computus, weeksBack_eq]
  generalize moonDays year = moon at *
  generalize sundayDays year = sunday at *
  generalize year % 19 = golden
  by_cases hmarch : moon + sunday ≤ 9
  · rw [if_pos hmarch, if_neg (by omega), Prod.mk.injEq]
    omega
  by_cases hlast : moon = 29 ∧ sunday = 6
  · rw [if_neg hmarch, if_pos hlast, if_pos (by omega), Prod.mk.injEq]
    omega
  by_cases hlate : moon = 28 ∧ sunday = 6 ∧ 10 < golden
  · rw [if_neg hmarch, if_neg hlast, if_pos hlate, if_pos (by omega), Prod.mk.injEq]
    omega
  · rw [if_neg hmarch, if_neg hlast, if_neg hlate, if_neg (by omega), Prod.mk.injEq]
    omega

theorem constants_of_supported (h : 1900 ≤ year) (h' : year ≤ 2099) :
    moonConstant (year / 100) = 24 ∧ sundayConstant (year / 100) = 5 := by
  have hcentury : year / 100 = 19 ∨ year / 100 = 20 := by omega
  rcases hcentury with hc | hc <;> rw [hc] <;> decide

theorem lateSunday_iff_of_supported (h : 1900 ≤ year) (h' : year ≤ 2099) :
    LateSunday year ↔ year = 1954 ∨ year = 2049 := by
  constructor
  · rintro ⟨hmoon, hsunday, _⟩
    have hgolden : year % 19 = 16 := by
      unfold moonOffset at hmoon
      omega
    have hyears : year = 1916 ∨ year = 1935 ∨ year = 1954 ∨ year = 1973 ∨ year = 1992 ∨
        year = 2011 ∨ year = 2030 ∨ year = 2049 ∨ year = 2068 ∨ year = 2087 := by omega
    unfold sundayOffset at hsunday
    rw [hmoon] at hsunday
    omega
  · rintro (rfl | rfl) <;> (unfold LateSunday; decide)

/-- The congruence is the rule of Gauss with one of its exceptions. -/
theorem monthDay_eq (year : Int) :
    monthDay year =
      if moonOffset year + sundayOffset year ≤ 9 then
        (3, (22 + moonOffset year + sundayOffset year).toNat)
      else if moonOffset year = 29 ∧ sundayOffset year = 6 then (4, 19)
      else (4, (moonOffset year + sundayOffset year - 9).toNat) := by
  have hmoon := moonOffset_bounds year
  have hsunday := sundayOffset_bounds year
  unfold monthDay marchDay
  by_cases hmarch : moonOffset year + sundayOffset year ≤ 9
  · rw [if_pos hmarch]
    by_cases hzero : moonOffset year + sundayOffset year = 9
    · have happril : aprilDay year = 0 := by
        rw [aprilDay, if_neg (by omega)]
        omega
      rw [if_pos (by omega), happril, if_pos (by decide), Prod.mk.injEq]
      omega
    · rw [if_neg (by omega), Prod.mk.injEq]
      omega
  by_cases hlast : moonOffset year = 29 ∧ sundayOffset year = 6
  · have happril : aprilDay year = 19 := by simp [aprilDay, hlast]
    rw [if_neg hmarch, if_pos hlast, if_pos (by omega), happril]
    rfl
  · have happril : aprilDay year = moonOffset year + sundayOffset year - 9 :=
      if_neg (by omega)
    rw [if_neg hmarch, if_neg hlast, if_pos (by omega), happril, if_neg (by omega), Prod.mk.injEq]
    omega

theorem offsets_eq_days (hmoon : moonConstant (year / 100) = 24)
    (hsunday : sundayConstant (year / 100) = 5) :
    moonOffset year = moonDays year ∧ sundayOffset year = sundayDays year := by
  have hm : moonOffset year = moonDays year := by rw [moonDays_eq, hmoon, moonOffset]
  refine ⟨hm, ?_⟩
  rw [sundayDays_eq, hsunday, ← hm, sundayOffset]
  omega

/-- In the centuries with the constants 24 and 5, which the years from 1900 through 2099 belong to,
the congruence gives Easter Sunday up to the exception that it lacks. There it is a week late. -/
theorem monthDay_eq_computus_iff (year : Int) :
    (moonConstant (year / 100) = 24 → sundayConstant (year / 100) = 5 →
      (monthDay year = computus year ↔ ¬ LateSunday year) ∧
      (LateSunday year → monthDay year = (4, 25) ∧ computus year = (4, 18)) ∧
      computus year = gaussRule year) ∧
    (1900 ≤ year → year ≤ 2099 →
      moonConstant (year / 100) = 24 ∧ sundayConstant (year / 100) = 5 ∧
      (LateSunday year ↔ year = 1954 ∨ year = 2049)) := by
  constructor
  · intro hmoon hsunday
    obtain ⟨hm, hs⟩ := offsets_eq_days hmoon hsunday
    have hlate : LateSunday year → monthDay year = (4, 25) ∧ computus year = (4, 18) := by
      rintro ⟨hm28, hs6, hgolden⟩
      rw [monthDay_eq, computus_eq_gaussRule, gaussRule_eq, ← hm, ← hs, hm28, hs6]
      simp [hgolden]
    refine ⟨⟨fun he hl => ?_, fun hno => ?_⟩, hlate, computus_eq_gaussRule year⟩
    · have := (hlate hl).1.symm.trans (he.trans (hlate hl).2)
      cases this
    · unfold LateSunday at hno
      rw [computus_eq_gaussRule, gaussRule_eq, ← hm, ← hs, if_neg hno, ← monthDay_eq]
  · intro h h'
    obtain ⟨hmoon, hsunday⟩ := constants_of_supported h h'
    exact ⟨hmoon, hsunday, lateSunday_iff_of_supported h h'⟩

theorem monthDay_eq_computus_2076 :
    moonConstant (2076 / 100) = 24 ∧ sundayConstant (2076 / 100) = 5 ∧ ¬ LateSunday 2076 ∧
      monthDay 2076 = computus 2076 := by
  have hno : ¬ LateSunday 2076 := by
    unfold LateSunday
    decide
  exact ⟨by decide, by decide, hno,
    ((monthDay_eq_computus_iff 2076).1 (by decide) (by decide)).1.2 hno⟩

/-- The year 1954 is one of two in its two centuries for which the congruence is a week late. -/
theorem monthDay_ne_computus_1954 :
    moonConstant (1954 / 100) = 24 ∧ sundayConstant (1954 / 100) = 5 ∧
      monthDay 1954 = (4, 25) ∧ computus 1954 = (4, 18) := by
  decide

end Almanac.Easter
