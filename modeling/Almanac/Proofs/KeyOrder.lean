import Almanac.DataFile.Store
import Almanac.Json.Grammar
import Almanac.Proofs.Dates
import Almanac.Proofs.KeyTexts
import Almanac.Proofs.Stores

/-! Within a year four orders are one: that of the dates, of the days when they are counted, of the
keys and of their texts. So the records of a store, as they are listed and as they are written, come
in the order of the year and in the order of the written keys. -/

namespace Almanac

theorem daysBeforeMonth_add_le (leap : Bool) {month later : Nat} (h : month < later) :
    daysBeforeMonth leap month + monthLength leap month ≤ daysBeforeMonth leap later := by
  induction later, h using Nat.le_induction with
  | base => exact Nat.le_refl _
  | succ later _ ih =>
    rw [daysBeforeMonth]
    omega

theorem daysBeforeYear_mono {year later : Int} (h : year ≤ later) :
    daysBeforeYear year ≤ daysBeforeYear later := by
  unfold daysBeforeYear
  omega

namespace Date
variable {d e : Date}

theorem daysBeforeYear_lt_dayNumber (d : Date) : daysBeforeYear d.year < d.dayNumber := by
  have hday := d.day_pos
  unfold dayNumber
  omega

/-- The last day of a year is counted before the next year. -/
theorem dayNumber_le_yearEnd (d : Date) : d.dayNumber ≤ daysBeforeYear (d.year + 1) := by
  have hday := d.day_le
  have hmonth := d.month_bounds
  have hend := daysBeforeMonth_add_le (isLeapYear d.year) (show d.month < 13 by omega)
  rw [daysBeforeMonth_thirteen] at hend
  rw [daysBeforeYear_succ, dayNumber]
  omega

theorem dayNumber_lt_of_lt (h : d < e) : d.dayNumber < e.dayNumber := by
  obtain hyear | ⟨hyear, hmonth | ⟨hmonth, hday⟩⟩ := lt_iff.1 h
  · have hend := d.dayNumber_le_yearEnd
    have hyears := daysBeforeYear_mono (show d.year + 1 ≤ e.year by omega)
    have hstart := e.daysBeforeYear_lt_dayNumber
    omega
  · have hmonths := daysBeforeMonth_add_le (isLeapYear e.year) hmonth
    have hday := d.day_le
    have hday' := e.day_pos
    rw [hyear] at hday
    rw [dayNumber, dayNumber, hyear]
    omega
  · rw [dayNumber, dayNumber, hyear, hmonth]
    omega

/-- Dates are in the order in which the days are counted. -/
theorem dayNumber_lt_iff : d.dayNumber < e.dayNumber ↔ d < e := by
  constructor
  · intro h
    obtain hlt | rfl | hlt := lt_trichotomy d e
    · exact hlt
    · exact (Int.lt_irrefl _ h).elim
    · have hback := dayNumber_lt_of_lt hlt
      omega
  · exact dayNumber_lt_of_lt

end Date

namespace DayKey
variable {k l : DayKey}

/-- Signs for the digits that are ordered as the digits are put the keys in their order. -/
theorem signs_lt_iff {α : Type} [LT α] (sign : Nat → α)
    (hlt : ∀ a < 10, ∀ b < 10, sign a < sign b ↔ a < b)
    (heq : ∀ a < 10, ∀ b < 10, sign a = sign b ↔ a = b) :
    [sign (k.month / 10), sign (k.month % 10), sign (k.day / 10), sign (k.day % 10)] <
      [sign (l.month / 10), sign (l.month % 10), sign (l.day / 10), sign (l.day % 10)] ↔ k < l := by
  have hmonth := k.month_lt
  have hday := k.day_lt
  have hmonth' := l.month_lt
  have hday' := l.day_lt
  simp (disch := omega) only [List.cons_lt_cons_iff, hlt, heq, List.not_lt_nil, and_false, or_false]
  rw [lt_iff]
  omega

theorem text_lt_iff : k.text < l.text ↔ k < l := by
  rw [String.lt_iff, text, text, String.toList_ofList, String.toList_ofList, chars_eq, chars_eq]
  exact signs_lt_iff Nat.digitChar (by decide) (by decide)

theorem fourDigits_text (k : DayKey) : FourDigits k.text := by
  refine fourDigits_iff.2 ⟨k.month, k.day, writes_iff.2 ⟨k.month_lt, k.day_lt, ?_⟩⟩
  rw [text, String.toList_ofList, chars_eq]

theorem bytes_text (k : DayKey) :
    Text.bytes k.text = k.chars.map fun c => .ofNat c.val.toNat := by
  rw [Text.bytes_eq, Text.encode_digits k.fourDigits_text.2, text, String.toList_ofList]

theorem bytes_lt_iff : Text.bytes k.text < Text.bytes l.text ↔ k < l := by
  rw [bytes_text, bytes_text, chars_eq, chars_eq]
  exact signs_lt_iff (fun digit => UInt8.ofNat digit.digitChar.val.toNat) (by decide) (by decide)

/-- Keys from the first of a year to the last. The dates of a year that have them follow one
another, as they all do in a leap year, and so do their texts. -/
structure InOrder (keys : List DayKey) : Prop where
  dates : keys.Pairwise fun k l =>
    ∀ d e : Date, d.year = e.year → ofDate d = k → ofDate e = l → d < e
  leapYear : ∀ year : Int, -262143 ≤ year → year ≤ 262142 → isLeapYear year = true →
    ∃ dates : List Date, dates.map ofDate = keys ∧ (∀ d ∈ dates, d.year = year) ∧
      dates.Pairwise fun d e => d < e
  texts : keys.Pairwise fun k l => k.text < l.text

theorem inOrder_of_sorted {keys : List DayKey} (h : keys.Pairwise fun k l => k < l) :
    InOrder keys where
  dates := by
    refine h.imp ?_
    rintro _ _ hlt d e hyear rfl rfl
    exact (ofDate_lt_ofDate hyear).1 hlt
  leapYear := by
    intro year hfirst hlast hleap
    choose date hyear hkey using fun k : DayKey => k.exists_ofDate year hfirst hlast hleap
    refine ⟨keys.map date, ?_, ?_, ?_⟩
    · rw [List.map_map, show ofDate ∘ date = id from funext hkey, List.map_id]
    · intro d hd
      obtain ⟨k, -, rfl⟩ := List.mem_map.1 hd
      exact hyear k
    · refine List.pairwise_map.2 (h.imp ?_)
      intro k l hlt
      rw [← hkey k, ← hkey l] at hlt
      exact (ofDate_lt_ofDate ((hyear k).trans (hyear l).symm)).1 hlt
  texts := h.imp text_lt_iff.2

end DayKey

namespace Json
variable {c : Char} {s : String}

theorem escapeInText_of_isDigit (h : c.isDigit = true) : escapeInText c = [c] := by
  have hdigit := Text.isDigit_iff.1 h
  unfold escapeInText
  split
  case h_8 =>
    refine if_neg ?_
    change ¬ c.val.toNat < 0x20
    omega
  all_goals cases h

theorem writeText_of_digits (h : s.toList.all Char.isDigit) : writeText s = quote s.toList := by
  have hescape : s.toList.flatMap escapeInText = s.toList := by
    calc s.toList.flatMap escapeInText = s.toList.flatMap fun c => [c] :=
          List.flatMap_congr fun c hc => escapeInText_of_isDigit (List.all_eq_true.1 h c hc)
      _ = s.toList := List.flatMap_singleton' s.toList
  rw [writeText, hescape]
  rfl

/-- What is laid out begins with its first item, on a line of its own. -/
theorem prefix_layOut (left right : Char) (indent : Nat) (item : List Char)
    (items : List (List Char)) :
    left :: newline (indent + 2) ++ item <+: layOut left right indent (item :: items) := by
  have hitem := Text.prefix_intercalate (',' :: newline (indent + 2)) item items
  have hfront := (List.prefix_append_right_inj (left :: newline (indent + 2))).2 hitem
  exact (hfront.trans (List.prefix_append _ (newline indent))).trans (List.prefix_append _ [right])

end Json

namespace DataFile
open Json

/-- A record as it is laid out in the list of a file, its key in front. -/
def WrittenUnder (key : String) (item : List Char) : Prop :=
  '{' :: newline 6 ++ writeMember Field.key.name (quote key.toList) <+: item

theorem writtenUnder_layOutObject (f : Facts) :
    WrittenUnder f.key.text (layOutObject 4 (members f)) := by
  rw [WrittenUnder, ← writeText_of_digits f.key.fourDigits_text.2]
  exact prefix_layOut '{' '}' 4 _ _

end DataFile

namespace Store

/-- Within a year the order of dates is that of their keys, and that of the texts of the keys by
characters or by bytes; it is the order in which days are counted. The records of a store are in
it, both as they are listed and as they are written in the list of a data file. -/
theorem calendar_order_of_keys :
    (∀ d e : Date, d.year = e.year →
      (d < e ↔ d.dayNumber < e.dayNumber) ∧
      (d < e ↔ DayKey.ofDate d < DayKey.ofDate e) ∧
      (d < e ↔ (DayKey.ofDate d).text < (DayKey.ofDate e).text) ∧
      (d < e ↔ Text.bytes (DayKey.ofDate d).text < Text.bytes (DayKey.ofDate e).text)) ∧
    ∀ s : Store, DayKey.InOrder (s.records.map Facts.key) ∧
      ∃ items, s.text = String.ofList (Json.layOut '{' '}' 0
          [Json.writeMember DataFile.datesName (Json.layOut '[' ']' 2 items)]) ∧
        List.Forall₂ DataFile.WrittenUnder (s.records.map fun f => f.key.text) items := by
  constructor
  · intro d e hyear
    refine ⟨Date.dayNumber_lt_iff.symm, ?_, ?_, ?_⟩
    · exact (DayKey.ofDate_lt_ofDate hyear).symm
    · rw [DayKey.text_lt_iff, DayKey.ofDate_lt_ofDate hyear]
    · rw [DayKey.bytes_lt_iff, DayKey.ofDate_lt_ofDate hyear]
  · intro s
    refine ⟨DayKey.inOrder_of_sorted (List.pairwise_map.2 s.records_sorted), ?_⟩
    refine ⟨(s.records.map DataFile.members).map (Json.layOutObject 4), rfl, ?_⟩
    rw [List.map_map, List.forall₂_map_left_iff, List.forall₂_map_right_iff, List.forall₂_same]
    exact fun f _ => DataFile.writtenUnder_layOutObject f

/-- Leap day comes before the first of March, also in writing. -/
theorem calendar_order_of_keys_february :
    let leapDay : Date := ⟨2024, 2, 29, by decide, by decide, by decide, by decide⟩
    let next : Date := ⟨2024, 3, 1, by decide, by decide, by decide, by decide⟩
    leapDay.year = next.year ∧ leapDay < next ∧
      (DayKey.ofDate leapDay).text < (DayKey.ofDate next).text ∧
      leapDay.dayNumber < next.dayNumber := by
  intro leapDay next
  obtain ⟨hnumber, -, htext, -⟩ := calendar_order_of_keys.1 leapDay next rfl
  have hbefore : leapDay < next := by decide
  exact ⟨rfl, hbefore, htext.1 hbefore, hnumber.1 hbefore⟩

end Store
end Almanac
