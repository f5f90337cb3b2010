import Almanac.Calendar
import Almanac.Proofs.Dates
import Almanac.Proofs.Stores

/-! The moving holidays of a year are four days in a row, all within the year. So their keys tell
them apart, and a date is a moving holiday exactly if its key is one of them. -/

namespace Almanac

namespace DayTable
variable {α β : Type} {key : DayKey} {value : α} {rows : List (DayKey × α)}

theorem insertRow_of_lt (h : ∀ row ∈ rows, row.1 < key) :
    insertRow key value rows = rows ++ [(key, value)] := by
  induction rows with
  | nil => rfl
  | cons head tail ih =>
    have hhead : head.1 < key := h head List.mem_cons_self
    have hne : ¬ key < head.1 := fun hlt => DayKey.lt_irrefl _ (DayKey.lt_trans hhead hlt)
    rw [insertRow, if_neg hne, if_neg (DayKey.ne_of_lt hhead).symm,
      ih fun row hrow => h row (List.mem_cons_of_mem _ hrow), List.cons_append]

/-- Rows that are put in in order all stay, in that order. -/
theorem rows_foldl_insert (row : β → DayKey × α) (entries : List β) (t : DayTable α)
    (h : (t.rows ++ entries.map row).Pairwise fun a b => a.1 < b.1) :
    (entries.foldl (fun t entry => t.insert (row entry).1 (row entry).2) t).rows =
      t.rows ++ entries.map row := by
  induction entries generalizing t with
  | nil => simp
  | cons entry entries ih =>
    have hlast : (t.insert (row entry).1 (row entry).2).rows = t.rows ++ [row entry] :=
      insertRow_of_lt fun earlier hmem =>
        (List.pairwise_append.1 h).2.2 earlier hmem (row entry) (by simp)
    have hsorted : ((t.rows ++ [row entry]) ++ entries.map row).Pairwise fun a b => a.1 < b.1 := by
      simpa using h
    rw [List.foldl_cons, ih _ (hlast ▸ hsorted), hlast]
    simp

end DayTable

namespace Easter
variable {year : Int} {sunday : Date}

/-- Easter is in March or in April. -/
theorem month_of_sunday? (h : sunday? year = some sunday) :
    sunday.year = year ∧ (sunday.month = 3 ∨ sunday.month = 4) := by
  obtain ⟨hy, hm, -⟩ := Date.parts_of_ofParts? h
  refine ⟨hy, ?_⟩
  rw [hm, monthDay]
  split
  · split
    · exact .inl rfl
    · exact .inr rfl
  · exact .inl rfl

/-- Four days of a year in a row, the third of which is Easter Sunday. -/
structure Days (year : Int) (friday saturday sunday monday : Date) : Prop where
  next_friday : friday.next? = some saturday
  next_saturday : saturday.next? = some sunday
  next_sunday : sunday.next? = some monday
  years : friday.year = year ∧ saturday.year = year ∧ sunday.year = year ∧ monday.year = year

theorem holidays_eq (h : sunday? year = some sunday) :
    ∃ friday saturday monday, Days year friday saturday sunday monday ∧
      holidays year = [(friday, .goodFriday), (saturday, .holySaturday), (sunday, .easterSunday),
        (monday, .easterMonday)] := by
  obtain ⟨hy, hmonth⟩ := month_of_sunday? h
  obtain ⟨saturday, hsaturday, hsaturdayYear, hlate⟩ :=
    Date.prev?_of_lt_month (d := sunday) (by omega)
  obtain ⟨friday, hfriday, hfridayYear, -⟩ := Date.prev?_of_lt_month (d := saturday) (by omega)
  obtain ⟨monday, hmonday, hmondayYear⟩ := Date.next?_of_month_lt (d := sunday) (by omega)
  refine ⟨friday, saturday, monday, ⟨Date.next?_of_prev? hfriday, Date.next?_of_prev? hsaturday,
    hmonday, by omega, by omega, hy, by omega⟩, ?_⟩
  have hshifts : sunday.shift? (-2) = some friday ∧ sunday.shift? (-1) = some saturday ∧
      sunday.shift? 0 = some sunday ∧ sunday.shift? 1 = some monday := by
    refine ⟨?_, ?_, rfl, ?_⟩
    · change (sunday.prev?.bind fun d => d.prev?.bind some) = some friday
      rw [hsaturday, Option.bind_some, hfriday, Option.bind_some]
    · change sunday.prev?.bind some = some saturday
      rw [hsaturday, Option.bind_some]
    · change sunday.next?.bind some = some monday
      rw [hmonday, Option.bind_some]
  simp [holidays, h, EasterHoliday.all, EasterHoliday.offset, hshifts]

theorem year_of_mem_holidays {entry : Date × EasterHoliday} (h : entry ∈ holidays year) :
    entry.1.year = year := by
  cases hsunday : sunday? year with
  | none => simp [holidays, hsunday] at h
  | some sunday =>
    obtain ⟨friday, saturday, monday, hdays, heq⟩ := holidays_eq hsunday
    have hyears := hdays.years
    rw [heq] at h
    simp only [List.mem_cons, List.not_mem_nil, or_false] at h
    rcases h with rfl | rfl | rfl | rfl
    · exact hyears.1
    · exact hyears.2.1
    · exact hyears.2.2.1
    · exact hyears.2.2.2

theorem sorted_holidays (year : Int) : (holidays year).Pairwise fun a b => a.1 < b.1 := by
  cases hsunday : sunday? year with
  | none => simp [holidays, hsunday]
  | some sunday =>
    obtain ⟨friday, saturday, monday, hdays, heq⟩ := holidays_eq hsunday
    have hfriday := Date.lt_of_next? hdays.next_friday
    have hsaturday := Date.lt_of_next? hdays.next_saturday
    have hsunday := Date.lt_of_next? hdays.next_sunday
    have hskip := Date.lt_trans hsaturday hsunday
    rw [heq]
    simp [hfriday, hsaturday, hsunday, hskip, Date.lt_trans hfriday hsaturday,
      Date.lt_trans hfriday hskip]

/-- The table by keys has one row for each holiday of the year, and no other. -/
theorem rows_holidaysByKey (year : Int) :
    (holidaysByKey year).rows =
      (holidays year).map fun entry => (DayKey.ofDate entry.1, entry.2) := by
  have hsorted : ((holidays year).map fun entry => (DayKey.ofDate entry.1, entry.2)).Pairwise
      fun a b => a.1 < b.1 := by
    rw [List.pairwise_map]
    refine (sorted_holidays year).imp_of_mem fun {a b} ha hb hlt => ?_
    exact (DayKey.ofDate_lt_ofDate
      ((year_of_mem_holidays ha).trans (year_of_mem_holidays hb).symm)).2 hlt
  let row (entry : Date × EasterHoliday) : DayKey × EasterHoliday := (.ofDate entry.1, entry.2)
  exact DayTable.rows_foldl_insert row _ ∅ hsorted

theorem lookup_holidaysByKey {date : Date} {holiday : EasterHoliday} :
    (holidaysByKey date.year).lookup (.ofDate date) = some holiday ↔
      (date, holiday) ∈ holidays date.year := by
  rw [DayTable.lookup_eq_some, rows_holidaysByKey, List.mem_map]
  constructor
  · rintro ⟨⟨other, _⟩, hmem, heq⟩
    obtain ⟨hkey, rfl⟩ := Prod.mk.inj heq
    obtain rfl := DayKey.ofDate_inj (year_of_mem_holidays hmem) hkey
    exact hmem
  · intro hmem
    exact ⟨_, hmem, rfl⟩

theorem find?_holidays (date : Date) :
    (holidays date.year).find? (fun entry => entry.1 = date) =
      ((holidaysByKey date.year).lookup (.ofDate date)).map fun holiday => (date, holiday) := by
  cases hfind : (holidays date.year).find? fun entry => entry.1 = date with
  | none =>
    cases hlookup : (holidaysByKey date.year).lookup (.ofDate date) with
    | none => rfl
    | some holiday =>
      have hmem := lookup_holidaysByKey.1 hlookup
      simpa using List.find?_eq_none.1 hfind _ hmem
  | some entry =>
    obtain ⟨other, holiday⟩ := entry
    have hmem := List.mem_of_find?_eq_some hfind
    obtain rfl : other = date := by simpa using List.find?_some hfind
    rw [lookup_holidaysByKey.2 hmem, Option.map_some]

end Easter

namespace Calendar

/-- Two texts with a separator between them, or the one that is there. -/
def joined (separator : String) : Option String → Option String → String
  | some moving, some fixed => moving ++ separator ++ fixed
  | some only, none | none, some only => only
  | none, none => ""

theorem joined_none (separator : String) (fixed : Option String) :
    joined separator none fixed = fixed.getD "" := by
  cases fixed <;> rfl

theorem holidayText_eq (c : Calendar) (date : Date) :
    c.holidayText date = joined c.separator (movingHoliday? date)
      (Facts.present ((c.store.lookup (.ofDate date)).bind Facts.holiday)) := by
  have hfixed : (c.store.lookup (.ofDate date)).bind Facts.presentHoliday =
      Facts.present ((c.store.lookup (.ofDate date)).bind Facts.holiday) :=
    Facts.present_bind _ Facts.holiday
  rw [holidayText, hfixed]
  cases movingHoliday? date <;>
    cases Facts.present ((c.store.lookup (.ofDate date)).bind Facts.holiday) <;>
      simp [joined, String.append_assoc]

/-- The dates of the moving holidays, their keys and the holiday that is shown agree. -/
theorem holiday_of_date (c : Calendar) (date : Date) :
    let entry := (Easter.holidays date.year).find? fun entry => entry.1 = date
    let fixed := ((c.store.lookup (.ofDate date)).bind Facts.holiday).filter (· ≠ "")
    (∀ holiday, (date, holiday) ∈ Easter.holidays date.year ↔ entry = some (date, holiday)) ∧
    (Easter.holidaysByKey date.year).lookup (.ofDate date) = entry.map (·.2) ∧
    (Easter.holidaysByKey date.year).rows =
      (Easter.holidays date.year).map (fun entry => (DayKey.ofDate entry.1, entry.2)) ∧
    (c.valuesOn date).holiday = joined c.separator (entry.map (·.2.name)) fixed := by
  intro entry fixed
  have hentry : entry = _ := Easter.find?_holidays date
  refine ⟨fun holiday => ?_, ?_, Easter.rows_holidaysByKey _, ?_⟩
  · rw [← Easter.lookup_holidaysByKey, hentry]
    cases (Easter.holidaysByKey date.year).lookup (.ofDate date) <;> simp
  · rw [hentry, Option.map_map]
    exact Option.map_id'.symm
  · have hmoving : movingHoliday? date = entry.map (·.2.name) := by
      rw [hentry, Option.map_map]
      rfl
    rw [← hmoving]
    exact holidayText_eq c date

end Calendar
end Almanac
