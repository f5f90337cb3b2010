import Almanac.DayKey.Words
import Almanac.Proofs.Numerals
import Almanac.Proofs.Stores
import Mathlib.Data.Set.Card

/-! The keys are the days of dates, 366 of them, in whatever way they are made. The key of a date is
not checked, and yet it is one that the check lets pass. So a store with all keys has a record for
every date. -/

namespace Almanac

theorem monthLength_lt (leap : Bool) (month : Nat) : monthLength leap month < 32 := by
  unfold monthLength
  cases leap <;> split <;> simp

namespace DayKey
variable {k l : DayKey}

theorem words_month (k : DayKey) : k.words.month.toNat = k.month :=
  UInt32.toNat_ofNat_of_lt' (Nat.lt_trans k.month_lt (by decide))

theorem words_day (k : DayKey) : k.words.day.toNat = k.day :=
  UInt32.toNat_ofNat_of_lt' (Nat.lt_trans k.day_lt (by decide))

theorem words_injective : Function.Injective words := by
  intro k l h
  have hmonth := words_month k
  have hday := words_day k
  rw [h] at hmonth hday
  exact ext_parts (hmonth.symm.trans (words_month l)) (hday.symm.trans (words_day l))

theorem ofParts_eq_ok_iff {month day : Nat} :
    ofParts month day = .ok k ↔ k.month = month ∧ k.day = day := by
  constructor
  · intro h
    unfold ofParts at h
    split at h
    · cases h
      exact ⟨rfl, rfl⟩
    · cases h
  · rintro ⟨rfl, rfl⟩
    exact ofParts_parts k

theorem ofParts_eq_error_iff {month day : Nat} {e : DayKeyError} :
    ofParts month day = .error e ↔
      ¬ (1 ≤ day ∧ day ≤ monthLength true month) ∧ e = .outOfRange month day := by
  unfold ofParts
  split
  next h => simp [h]
  next h => simp [h, eq_comm]

/-- In a leap year every key is the key of a date. -/
theorem exists_ofDate (k : DayKey) (year : Int) (hfirst : -262143 ≤ year) (hlast : year ≤ 262142)
    (hleap : isLeapYear year = true) : ∃ d : Date, d.year = year ∧ ofDate d = k :=
  ⟨⟨year, k.month, k.day, hfirst, hlast, k.day_pos, hleap ▸ k.day_le⟩, rfl, ext_parts rfl rfl⟩

theorem exists_date (k : DayKey) : ∃ d : Date, isLeapYear d.year = true ∧ ofDate d = k := by
  have hleap : isLeapYear 2000 = true := by decide
  obtain ⟨d, hyear, hkey⟩ := k.exists_ofDate 2000 (by decide) (by decide) hleap
  exact ⟨d, hyear ▸ hleap, hkey⟩

/-- A month and a day make a key exactly if a date has them. -/
theorem ofParts_isOk_iff {month day : Nat} :
    (∃ k, ofParts month day = .ok k) ↔ ∃ d : Date, d.month = month ∧ d.day = day := by
  constructor
  · rintro ⟨k, hk⟩
    obtain ⟨hmonth, hday⟩ := ofParts_eq_ok_iff.1 hk
    obtain ⟨d, -, rfl⟩ := k.exists_date
    exact ⟨d, hmonth, hday⟩
  · rintro ⟨d, rfl, rfl⟩
    exact ⟨ofDate d, ofParts_parts (ofDate d)⟩

namespace Words
variable {w : Words} {month day : UInt32}

theorem longestMonths_get {n : Nat} (h : n < 12) :
    longestMonths[n]? = some (.ofNat (monthLength true (n + 1))) := by
  revert n
  decide

/-- The check takes nothing below zero and looks up no month that the table has not. -/
theorem isDay?_eq (w : Words) :
    isDay? w = some (decide (1 ≤ w.day.toNat ∧ w.day.toNat ≤ monthLength true w.month.toNat)) := by
  have hbounds : (1 ≤ w.month ∧ w.month ≤ 12) ↔ 1 ≤ w.month.toNat ∧ w.month.toNat ≤ 12 := by
    rw [UInt32.le_iff_toNat_le, UInt32.le_iff_toNat_le]
    rfl
  unfold isDay?
  split
  next hmonth =>
    obtain ⟨hfirst, hlast⟩ := hbounds.1 hmonth
    have hplace : sub? w.month 1 = some (w.month - 1) := if_pos hmonth.1
    have hnumber : (w.month - 1).toNat = w.month.toNat - 1 := UInt32.toNat_sub_of_le _ _ hmonth.1
    have hlookup := longestMonths_get (n := w.month.toNat - 1) (by omega)
    rw [Nat.sub_add_cancel hfirst, ← hnumber] at hlookup
    have hlongest : (UInt32.ofNat (monthLength true w.month.toNat)).toNat =
        monthLength true w.month.toNat :=
      UInt32.toNat_ofNat_of_lt' (Nat.lt_trans (monthLength_lt true _) (by decide))
    rw [hplace, Option.bind_eq_bind, Option.bind_some, hlookup, Option.bind_some]
    simp only [UInt32.le_iff_toNat_le, hlongest]
    rfl
  next hmonth =>
    have hempty : ¬ (1 ≤ w.day.toNat ∧ w.day.toNat ≤ monthLength true w.month.toNat) := by
      rintro ⟨hpos, hle⟩
      exact hmonth (hbounds.2 (month_bounds_of_monthLength_pos (Nat.lt_of_lt_of_le hpos hle)))
    rw [decide_eq_false hempty]

/-- Words make the key of their numbers, or the error that names these. -/
theorem ofParts?_eq (month day : UInt32) :
    ofParts? month day = some ((ofParts month.toNat day.toNat).map words) := by
  rw [ofParts?, isDay?_eq]
  unfold DayKey.ofParts
  by_cases h : 1 ≤ day.toNat ∧ day.toNat ≤ monthLength true month.toNat
  · simp [h, words, Except.map]
  · simp [h, Except.map]

theorem ofParts?_words (k : DayKey) :
    ofParts? k.words.month k.words.day = some (.ok k.words) := by
  rw [ofParts?_eq, words_month, words_day, ofParts_parts]
  rfl

theorem exists_of_ofParts? (h : ofParts? month day = some (.ok w)) : ∃ k : DayKey, k.words = w := by
  rw [ofParts?_eq] at h
  cases hk : DayKey.ofParts month.toNat day.toNat with
  | ok k =>
    rw [hk] at h
    exact ⟨k, Except.ok.inj (Option.some.inj h)⟩
  | error e =>
    rw [hk] at h
    cases h

theorem ofParts?_of_read? {s : String} (h : read? s = some (.ok w)) :
    ∃ month day, ofParts? month day = some (.ok w) := by
  unfold read? at h
  split at h
  · cases h
  · obtain ⟨⟨front, back⟩, -, h⟩ := Option.bind_eq_some_iff.1 h
    dsimp only at h
    split at h
    next month day _ _ => exact ⟨month, day, h⟩
    next => cases h

/-- However a key is made, its words are those of a calendar day. -/
theorem made_iff : Made w ↔ ∃ k : DayKey, k.words = w := by
  constructor
  · intro h
    cases h with
    | ofParts h => exact exists_of_ofParts? h
    | ofText h =>
      obtain ⟨month, day, h⟩ := ofParts?_of_read? h
      exact exists_of_ofParts? h
    | ofDate d => exact ⟨DayKey.ofDate d, rfl⟩
  · rintro ⟨k, rfl⟩
    exact .ofParts (ofParts?_words k)

theorem ncard_made : {w | Made w}.ncard = 366 := by
  have hrange : {w | Made w} = Set.range words := Set.ext fun w => made_iff
  rw [hrange, ← Set.image_univ, Set.ncard_image_of_injective _ words_injective, Set.ncard_univ,
    Nat.card_eq_fintype_card, card_eq]

end Words
end DayKey

namespace Store

/-- A store has all 366 days exactly if it has a record for every date. -/
theorem size_eq_iff (s : Store) :
    s.size = 366 ↔ ∀ d : Date, ∃ facts, s.lookup (.ofDate d) = some facts := by
  have hsize := s.size_le
  constructor
  · intro h d
    exact Option.ne_none_iff_exists'.1 (s.full_iff.1 (by omega) (.ofDate d))
  · intro h
    refine Nat.le_antisymm hsize (s.full_iff.2 fun key => ?_)
    obtain ⟨d, -, rfl⟩ := key.exists_date
    exact Option.ne_none_iff_exists'.2 (h d)

end Store

namespace DayKey

/-- The check of a month and a day never fails to answer, and it takes those that some date has. A
date gives the key that the check takes, though it is not checked. All that is ever made are the 366
keys, and a store with as many records has one for every date. -/
theorem keys_are_days_of_dates :
    (∀ month day : UInt32,
      Words.ofParts? month day = some ((ofParts month.toNat day.toNat).map words) ∧
      ((∃ k, ofParts month.toNat day.toNat = .ok k) ↔
        ∃ d : Date, d.month = month.toNat ∧ d.day = day.toNat)) ∧
    (∀ d : Date, ofParts d.month d.day = .ok (ofDate d) ∧
      Words.ofParts? (.ofNat d.month) (.ofNat d.day) = some (.ok (Words.ofDate d))) ∧
    (∀ w, Words.Made w ↔ ∃ k : DayKey, k.words = w) ∧
    {w | Words.Made w}.ncard = 366 ∧
    ∀ s : Store, s.size = 366 ↔ ∀ d : Date, ∃ facts, s.lookup (ofDate d) = some facts := by
  refine ⟨?_, ?_, fun _ => Words.made_iff, Words.ncard_made, Store.size_eq_iff⟩
  · intro month day
    exact ⟨Words.ofParts?_eq month day, ofParts_isOk_iff⟩
  · intro d
    exact ⟨ofParts_parts (ofDate d), Words.ofParts?_words (ofDate d)⟩

end DayKey
end Almanac
