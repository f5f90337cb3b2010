import Almanac.Date.Text
import Almanac.Proofs.Dates
import Almanac.Proofs.Expansion
import Almanac.Proofs.Numerals

/-! The long form of a date. Its words tell the date, which can be read from them, and from one day
to the next the first word goes through the week. -/

namespace Almanac

namespace Date
variable {d e f : Date}

/-! ### The day after -/

/-- No date is between a date and the next. -/
theorem not_between_of_next? (h : d.next? = some e) : ¬ (d < f ∧ f < e) := by
  have hday : f.year = d.year → f.month = d.month →
      f.day ≤ monthLength (isLeapYear d.year) d.month := by
    intro hyear hmonth
    rw [← hyear, ← hmonth]
    exact f.day_le
  have hpos := f.day_pos
  have hmonths := f.month_bounds
  rw [lt_iff, lt_iff]
  unfold next? at h
  split at h
  · obtain ⟨hy, hm, hd⟩ := parts_of_ofParts? h
    omega
  · split at h
    · obtain ⟨hy, hm, hd⟩ := parts_of_ofParts? h
      omega
    · obtain ⟨hy, hm, hd⟩ := parts_of_ofParts? h
      omega

/-- A date with a later one has a next. -/
theorem exists_next?_of_lt (h : d < e) : ∃ f, d.next? = some f := by
  by_cases hmonth : d.month < 12
  · obtain ⟨f, hf, -⟩ := next?_of_month_lt hmonth
    exact ⟨f, hf⟩
  · have hlast : d.month = 12 := by
      have := d.month_bounds
      omega
    have hlength : ∀ leap, monthLength leap 12 = 31 := by decide
    by_cases hday : d.day < monthLength (isLeapYear d.year) d.month
    · obtain ⟨f, hf⟩ :=
        ofParts?_isSome d.month d.year_ge d.year_le (Nat.le_add_left 1 d.day) hday
      exact ⟨f, by rw [next?, if_pos hday, hf]⟩
    · have hyear : d.year + 1 ≤ 262142 := by
        have hlate := e.year_le
        have hmonth' := e.month_bounds
        have hday' : e.month = 12 → e.day ≤ 31 := by
          intro hm
          have := e.day_le
          rwa [hm, hlength] at this
        rw [hlast, hlength] at hday
        rw [lt_iff] at h
        omega
      have hfirst := d.year_ge
      have hfirst' : -262143 ≤ d.year + 1 := by omega
      obtain ⟨f, hf⟩ := ofParts?_isSome 1 hfirst' hyear (Nat.le_refl 1)
        (monthLength_pos (by decide) (by decide))
      exact ⟨f, by rw [next?, if_neg hday, if_neg hmonth, hf]⟩

/-- The next date is the first of the later ones. -/
theorem next?_eq_some_iff : d.next? = some e ↔ d < e ∧ ∀ f, ¬ (d < f ∧ f < e) := by
  constructor
  · intro h
    exact ⟨lt_of_next? h, fun f => not_between_of_next? h⟩
  · rintro ⟨hlt, hnone⟩
    obtain ⟨f, hf⟩ := exists_next?_of_lt hlt
    obtain hbefore | rfl | hafter := lt_trichotomy f e
    · exact (hnone f ⟨lt_of_next? hf, hbefore⟩).elim
    · exact hf
    · exact (not_between_of_next? hf ⟨hlt, hafter⟩).elim

end Date

/-! ### Words -/

namespace Text

/-- The words of a text, with a space between any two of them. -/
def words (text : String) : List String := (parts [' '] text.toList).map String.ofList

theorem words_intercalate {texts : List String} (hne : texts ≠ [])
    (h : ∀ text ∈ texts, ' ' ∉ text.toList) : words (" ".intercalate texts) = texts := by
  have hfree : ∀ text ∈ texts.map String.toList, ¬ [' '] <:+: text := by
    intro text htext hin
    obtain ⟨word, hword, rfl⟩ := List.mem_map.1 htext
    exact h word hword (hin.subset List.mem_cons_self)
  have hparts : parts [' '] ([' '].intercalate (texts.map String.toList)) =
      texts.map String.toList :=
    parts_intercalate List.not_mem_nil (by simpa using hne) hfree
  have hspace : " ".toList = [' '] := rfl
  rw [words, String.toList_intercalate, hspace, hparts, List.map_map]
  exact List.map_id'' (fun text => String.ofList_toList) texts

end Text

namespace Weekday

/-- The days of the week in their order. -/
def week : List String :=
  ["pondelok", "utorok", "streda", "štvrtok", "piatok", "sobota", "nedeľa"]

theorem week_next (w : Weekday) :
    ∃ place < 7, week[place]? = some w.name ∧ week[(place + 1) % 7]? = some w.next.name := by
  cases w <;> decide

theorem notMem_name (w : Weekday) : ' ' ∉ w.name.toList := by
  cases w <;> decide

end Weekday

/-- The month of a name. -/
def monthOfName? (name : String) : Option Nat :=
  (List.range 13).find? fun month => monthName? month = some name

/-- A month has a name, of one word, that no other month has. -/
theorem exists_monthName {month : Nat} (h : 1 ≤ month) (h' : month ≤ 12) :
    ∃ name, monthName? month = some name ∧ ' ' ∉ name.toList ∧ monthOfName? name = some month := by
  have hall : ∀ month < 13, 1 ≤ month → ∃ name ∈ monthName? month,
      ' ' ∉ name.toList ∧ monthOfName? name = some month := by decide
  exact hall month (by omega) h

/-! ### Reading -/

namespace Date
variable {d e : Date}

theorem exists_words_longText (d : Date) : ∃ month,
    Text.words d.longText = [d.weekday.name, toString d.day ++ ".", month, toString d.year] ∧
      monthOfName? month = some d.month := by
  obtain ⟨month, hmonth, hspace, hread⟩ := exists_monthName d.month_bounds.1 d.month_bounds.2
  refine ⟨month, ?_, hread⟩
  have htext : d.longText =
      " ".intercalate [d.weekday.name, toString d.day ++ ".", month, toString d.year] := by
    apply String.toList_injective
    simp [longText, hmonth]
  have hday : ' ' ∉ (toString d.day ++ ".").toList := by
    rw [String.toList_append, List.mem_append]
    exact not_or.2 ⟨Decimal.notMem_natText rfl d.day, by decide⟩
  have hyear := Decimal.notMem_intText (c := ' ') rfl (by decide) d.year
  rw [htext, Text.words_intercalate (List.cons_ne_nil _ _)]
  simp only [List.forall_mem_cons]
  exact ⟨d.weekday.notMem_name, hday, hspace, hyear, List.forall_mem_nil _⟩

/-- Reads a date from its long form, where the weekday is not needed. -/
def readLong? (text : String) : Option Date :=
  match Text.words text with
  | [_, day, month, year] => do
    let day ← Decimal.read? day.toList.dropLast
    let month ← monthOfName? month
    let year ← Decimal.readInt? year.toList
    ofParts? year month day
  | _ => none

theorem readLong?_longText (d : Date) : readLong? d.longText = some d := by
  obtain ⟨month, hwords, hmonth⟩ := exists_words_longText d
  have hday : Decimal.read? (toString d.day ++ ".").toList.dropLast = some d.day := by
    rw [String.toList_append, Decimal.toList_natText]
    exact (congrArg Decimal.read? List.dropLast_concat).trans (Decimal.read?_digits d.day)
  rw [readLong?, hwords]
  simp only [hday, hmonth, Decimal.readInt?_intText]
  exact ofParts?_parts d

/-- Two dates have different long forms, for a date is read back from its own. The first word of the
form is its weekday, and that of the next date, which is the first of the later ones, is the one
after it in the week. -/
theorem longText_faithful :
    (∀ d e : Date, d.longText = e.longText → d = e) ∧
    (∀ d : Date, readLong? d.longText = some d) ∧
    (∀ d e : Date, d.next? = some e ↔ d < e ∧ ∀ f, ¬ (d < f ∧ f < e)) ∧
    (∀ d e : Date, d < e → (∀ f, ¬ (d < f ∧ f < e)) →
      ∃ place < 7, (Text.words d.longText).head? = Weekday.week[place]? ∧
        (Text.words e.longText).head? = Weekday.week[(place + 1) % 7]?) ∧
    ∀ d : Date, d.year = 2024 → d.month = 1 → d.day = 1 →
      (Text.words d.longText).head? = some "pondelok" := by
  refine ⟨?_, readLong?_longText, fun d e => next?_eq_some_iff, ?_, ?_⟩
  · intro d e h
    have hread := readLong?_longText e
    rw [← h, readLong?_longText] at hread
    exact Option.some.inj hread
  · intro d e hlt hnone
    have hnext := weekday_next? (next?_eq_some_iff.2 ⟨hlt, hnone⟩)
    obtain ⟨place, hplace, hday, hafter⟩ := d.weekday.week_next
    obtain ⟨_, hd, -⟩ := exists_words_longText d
    obtain ⟨_, he, -⟩ := exists_words_longText e
    refine ⟨place, hplace, ?_, ?_⟩
    · rw [hd, hday, List.head?_cons]
    · rw [he, hafter, List.head?_cons, hnext]
  · intro d hyear hmonth hday
    obtain ⟨_, hd, -⟩ := exists_words_longText d
    have hmonday : d.weekday = .monday := by
      rw [weekday, dayNumber, hyear, hmonth, hday]
      decide
    rw [hd, hmonday]
    rfl

/-- The last day before the year 0 is a Friday and the first of that year a Saturday. -/
theorem longText_faithful_of_year_zero :
    let last : Date := ⟨-1, 12, 31, by decide, by decide, by decide, by decide⟩
    let first : Date := ⟨0, 1, 1, by decide, by decide, by decide, by decide⟩
    last.next? = some first ∧
      last < first ∧ (∀ f, ¬ (last < f ∧ f < first)) ∧
      last.longText = "piatok 31. decembra -1" ∧ first.longText = "sobota 1. januára 0" ∧
      readLong? "piatok 31. decembra -1" = some last ∧
      last.longText ≠ first.longText ∧
      ∃ place < 7, (Text.words last.longText).head? = Weekday.week[place]? ∧
        (Text.words first.longText).head? = Weekday.week[(place + 1) % 7]? := by
  intro last first
  have hnext : last.next? = some first := by decide
  have hlast : last.longText = "piatok 31. decembra -1" := by decide
  have hfirst : first.longText = "sobota 1. januára 0" := by decide
  obtain ⟨hinj, hread, hsucc, hweek, -⟩ := longText_faithful
  obtain ⟨hlt, hnone⟩ := (hsucc last first).1 hnext
  refine ⟨hnext, hlt, hnone, hlast, hfirst, hlast ▸ hread last, ?_, hweek last first hlt hnone⟩
  intro h
  exact absurd (congrArg year (hinj last first h)) (by decide)

end Date
end Almanac
