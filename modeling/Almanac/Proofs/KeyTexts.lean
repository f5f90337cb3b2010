import Almanac.Proofs.KeyWords

/-! Which texts are day keys: those of four digits that name a day of a leap year, and each of them
is the text of the key it is read as. All others are refused, in one of two ways. -/

namespace Almanac

namespace Text
variable {c : Char} {cs : List Char}

theorem bytes_ofList (cs : List Char) :
    bytes (String.ofList cs) = cs.flatMap String.utf8EncodeChar := by
  rw [bytes, String.toUTF8_eq_toByteArray, String.toByteArray_ofList]
  exact List.toList_data_toByteArray

theorem bytes_eq (s : String) : bytes s = s.toList.flatMap String.utf8EncodeChar := by
  rw [← bytes_ofList, String.ofList_toList]

theorem isDigit_iff : c.isDigit = true ↔ 48 ≤ c.val.toNat ∧ c.val.toNat ≤ 57 := by
  simp only [Char.isDigit, Bool.and_eq_true, decide_eq_true_eq, ge_iff_le, UInt32.le_iff_toNat_le]
  rfl

theorem utf8EncodeChar_of_ascii (h : c.val.toNat ≤ 127) :
    String.utf8EncodeChar c = [.ofNat c.val.toNat] := by
  rw [String.utf8EncodeChar.eq_1, if_pos h]

theorem utf8EncodeChar_beyond_ascii (h : ¬ c.val.toNat ≤ 127) :
    ∃ b bs, String.utf8EncodeChar c = b :: bs ∧ 128 ≤ b.toNat := by
  have hbyte (n : Nat) (hlarge : 128 ≤ n) (hsmall : n < 256) : 128 ≤ (UInt8.ofNat n).toNat := by
    rwa [UInt8.toNat_ofNat_of_lt' hsmall]
  rw [String.utf8EncodeChar.eq_1, if_neg h]
  split
  · exact ⟨_, _, rfl, hbyte _ (by omega) (by omega)⟩
  · split
    · exact ⟨_, _, rfl, hbyte _ (by omega) (by omega)⟩
    · exact ⟨_, _, rfl, hbyte _ (by omega) (by omega)⟩

/-- Digits have one byte each. -/
theorem encode_digits (h : cs.all Char.isDigit) :
    cs.flatMap String.utf8EncodeChar = cs.map fun c => .ofNat c.val.toNat := by
  induction cs with
  | nil => rfl
  | cons c cs ih =>
    rw [List.all_cons, Bool.and_eq_true] at h
    obtain ⟨hc, hcs⟩ := h
    have hascii := (isDigit_iff.1 hc).2
    rw [List.flatMap_cons, List.map_cons, ih hcs, utf8EncodeChar_of_ascii (by omega)]
    rfl

end Text

namespace DayKey.Words
open Text

theorem isDigitByte_iff {b : UInt8} : isDigitByte b = true ↔ 48 ≤ b.toNat ∧ b.toNat ≤ 57 := by
  simp only [isDigitByte, decide_eq_true_eq, UInt8.le_iff_toNat_le]
  rfl

/-- The bytes of a character are digits exactly if it is one. -/
theorem all_isDigitByte_encode (c : Char) :
    (String.utf8EncodeChar c).all isDigitByte = c.isDigit := by
  rw [Bool.eq_iff_iff, isDigit_iff]
  by_cases h : c.val.toNat ≤ 127
  · have hbyte : (UInt8.ofNat c.val.toNat).toNat = c.val.toNat :=
      UInt8.toNat_ofNat_of_lt' (Nat.lt_of_le_of_lt h (by decide))
    rw [utf8EncodeChar_of_ascii h, List.all_cons, List.all_nil, Bool.and_true, isDigitByte_iff,
      hbyte]
  · obtain ⟨b, bs, hencode, hlarge⟩ := utf8EncodeChar_beyond_ascii h
    rw [hencode, List.all_cons, Bool.and_eq_true, isDigitByte_iff]
    omega

theorem all_isDigitByte_bytes (s : String) :
    (bytes s).all isDigitByte = s.toList.all Char.isDigit := by
  rw [bytes_eq, List.all_flatMap]
  congr 1
  funext c
  exact all_isDigitByte_encode c

end DayKey.Words

namespace DayKey
variable {s : String} {cs : List Char} {month day : Nat} {k : DayKey}

/-- A text of four ASCII digits. -/
def FourDigits (s : String) : Prop := s.toList.length = 4 ∧ s.toList.all Char.isDigit

/-- Four digits, of which two write the month and two the day. -/
inductive Writes (month day : Nat) : List Char → Prop
  | mk {a b c d : Nat} (ha : a < 10) (hb : b < 10) (hc : c < 10) (hd : d < 10)
    (hmonth : month = 10 * a + b) (hday : day = 10 * c + d) :
    Writes month day [a.digitChar, b.digitChar, c.digitChar, d.digitChar]

theorem exists_digitChar {c : Char} (h : c.isDigit = true) : ∃ d < 10, c = d.digitChar := by
  obtain ⟨hfirst, hlast⟩ := Text.isDigit_iff.1 h
  refine ⟨c.toNat - 48, ?_, ?_⟩
  · change c.val.toNat - 48 < 10
    omega
  · apply Char.toNat_inj.1
    change 48 ≤ c.toNat at hfirst
    change c.toNat ≤ 57 at hlast
    rw [Nat.toNat_digitChar_of_lt_ten (by omega)]
    omega

theorem writes_iff : Writes month day cs ↔ month < 100 ∧ day < 100 ∧
    cs = [(month / 10).digitChar, (month % 10).digitChar, (day / 10).digitChar,
      (day % 10).digitChar] := by
  constructor
  · rintro ⟨ha, hb, hc, hd, rfl, rfl⟩
    refine ⟨by omega, by omega, ?_⟩
    congr <;> omega
  · rintro ⟨hmonth, hday, rfl⟩
    exact .mk (by omega) (by omega) (by omega) (by omega) (by omega) (by omega)

theorem fourDigits_iff : FourDigits s ↔ ∃ month day, Writes month day s.toList := by
  constructor
  · rintro ⟨hlength, hdigits⟩
    match hs : s.toList, hlength with
    | [c₁, c₂, c₃, c₄], _ =>
      simp only [hs, List.all_cons, List.all_nil, Bool.and_true, Bool.and_eq_true] at hdigits
      obtain ⟨h₁, h₂, h₃, h₄⟩ := hdigits
      obtain ⟨a, ha, rfl⟩ := exists_digitChar h₁
      obtain ⟨b, hb, rfl⟩ := exists_digitChar h₂
      obtain ⟨c, hc, rfl⟩ := exists_digitChar h₃
      obtain ⟨d, hd, rfl⟩ := exists_digitChar h₄
      exact ⟨_, _, .mk ha hb hc hd rfl rfl⟩
  · rintro ⟨month, day, h⟩
    generalize hcs : s.toList = cs at h
    obtain ⟨ha, hb, hc, hd, -, -⟩ := h
    rw [FourDigits, hcs]
    simp [ha, hb, hc, hd]

/-- A number that two digits write has these digits, a zero in front of the only one. -/
theorem writes_iff_padded : Writes month day cs ↔ month < 100 ∧ day < 100 ∧
    cs = Decimal.padded 2 month ++ Decimal.padded 2 day := by
  rw [writes_iff]
  refine and_congr_right fun hmonth => and_congr_right fun hday => ?_
  rw [Decimal.padded_two hmonth, Decimal.padded_two hday]
  rfl

theorem read_of_writes (h : Writes month day s.toList) : read s = ofParts month day := by
  obtain ⟨hmonth, hday, hs⟩ := writes_iff.1 h
  simp only [read, hs, Decimal.read?_padded_two hmonth, Decimal.read?_padded_two hday]

theorem all_isDigit_of_read? {n : Nat} (h : Decimal.read? cs = some n) : cs.all Char.isDigit := by
  unfold Decimal.read? at h
  split at h
  next hcs => exact hcs.2
  next => cases h

theorem read_of_not_fourDigits (h : ¬ FourDigits s) : read s = .error (.format s) := by
  unfold read
  split
  next m₁ m₂ d₁ d₂ hs =>
    split
    next month day hmonth hday =>
      have hfront := all_isDigit_of_read? hmonth
      have hback := all_isDigit_of_read? hday
      refine (h ⟨by rw [hs]; rfl, ?_⟩).elim
      rw [hs, show [m₁, m₂, d₁, d₂] = [m₁, m₂] ++ [d₁, d₂] from rfl, List.all_append, hfront, hback]
      rfl
    next => rfl
  next => rfl

/-- A month and a day are read and looked at, or there are no four digits to read. -/
theorem read_cases (s : String) :
    (∃ month day, Writes month day s.toList ∧ read s = ofParts month day) ∨
      ¬ FourDigits s ∧ read s = .error (.format s) := by
  by_cases h : FourDigits s
  · obtain ⟨month, day, hwrites⟩ := fourDigits_iff.1 h
    exact .inl ⟨month, day, hwrites, read_of_writes hwrites⟩
  · exact .inr ⟨h, read_of_not_fourDigits h⟩

/-- A text is read as a key exactly if it is the text of the key. -/
theorem read_eq_ok_iff : read s = .ok k ↔ k.text = s := by
  constructor
  · intro h
    obtain ⟨month, day, hwrites, hread⟩ | ⟨-, hread⟩ := read_cases s
    · obtain ⟨rfl, rfl⟩ := ofParts_eq_ok_iff.1 (hread.symm.trans h)
      rw [text, chars, ← (writes_iff_padded.1 hwrites).2.2, String.ofList_toList]
    · cases hread.symm.trans h
  · rintro rfl
    exact read_text k

theorem read_eq_format_iff {t : String} :
    read s = .error (.format t) ↔ t = s ∧ ¬ FourDigits s := by
  constructor
  · intro h
    obtain ⟨month, day, -, hread⟩ | ⟨hdigits, hread⟩ := read_cases s
    · cases (ofParts_eq_error_iff.1 (hread.symm.trans h)).2
    · cases hread.symm.trans h
      exact ⟨rfl, hdigits⟩
  · rintro ⟨rfl, hdigits⟩
    exact read_of_not_fourDigits hdigits

/-- The days that a month has in a leap year are those of the dates in leap years. -/
theorem isDay_iff : (1 ≤ day ∧ day ≤ monthLength true month) ↔
    ∃ d : Date, isLeapYear d.year ∧ d.month = month ∧ d.day = day := by
  constructor
  · rintro ⟨hpos, hle⟩
    obtain ⟨d, hleap, hkey⟩ := exists_date ⟨month, day, hpos, hle⟩
    exact ⟨d, hleap, congrArg DayKey.month hkey, congrArg DayKey.day hkey⟩
  · rintro ⟨d, -, rfl, rfl⟩
    exact ⟨(ofDate d).day_pos, (ofDate d).day_le⟩

theorem read_eq_outOfRange_iff : read s = .error (.outOfRange month day) ↔
    Writes month day s.toList ∧
      ¬ ∃ d : Date, isLeapYear d.year ∧ d.month = month ∧ d.day = day := by
  rw [← isDay_iff]
  constructor
  · intro h
    obtain ⟨month', day', hwrites, hread⟩ | ⟨-, hread⟩ := read_cases s
    · obtain ⟨hno, heq⟩ := ofParts_eq_error_iff.1 (hread.symm.trans h)
      cases heq
      exact ⟨hwrites, hno⟩
    · cases hread.symm.trans h
  · rintro ⟨hwrites, hno⟩
    rw [read_of_writes hwrites]
    exact ofParts_eq_error_iff.2 ⟨hno, rfl⟩

/-- The message shows the digits that were read. -/
theorem message_of_writes (h : Writes month day s.toList) :
    (DayKeyError.outOfRange month day).message = "day key " ++ s ++ " is not a calendar day" := by
  have hs : String.ofList (Decimal.padded 2 month ++ Decimal.padded 2 day) = s := by
    rw [← (writes_iff_padded.1 h).2.2, String.ofList_toList]
  exact congrArg (fun digits => "day key " ++ digits ++ " is not a calendar day") hs

namespace Words

theorem bytes_eq_digits_iff :
    (Text.bytes s).length = 4 ∧ (Text.bytes s).all isDigitByte ↔ FourDigits s := by
  rw [all_isDigitByte_bytes]
  refine and_congr_left fun hdigits => ?_
  rw [Text.bytes_eq, Text.encode_digits hdigits, List.length_map]

theorem utf8Size_digitChar {d : Nat} (h : d < 10) : d.digitChar.utf8Size = 1 := by
  revert d
  decide

theorem readWord?_two {a b n : Nat} (ha : a < 10) (hb : b < 10) (hn : n = 10 * a + b) :
    readWord? [a.digitChar, b.digitChar] = some (.ofNat n) := by
  have hread := Decimal.read?_padded_two (n := n) (by omega)
  rw [show n / 10 = a by omega, show n % 10 = b by omega] at hread
  have hsign : a.digitChar ≠ '+' := by
    intro heq
    have hdigit := Decimal.isDigit_digitChar ha
    rw [heq] at hdigit
    cases hdigit
  unfold readWord?
  split
  next rest hcs => exact (hsign (List.cons.inj hcs).1).elim
  next =>
    dsimp only
    rw [hread, Option.bind_some, if_pos (by omega)]

theorem cutAt?_two {a b c d : Char} (ha : a.utf8Size = 1) (hb : b.utf8Size = 1) :
    Text.cutAt? 2 [a, b, c, d] = some ([a, b], [c, d]) := by
  simp [Text.cutAt?, ha, hb]

theorem read?_of_writes (h : Writes month day s.toList) :
    read? s = ofParts? (.ofNat month) (.ofNat day) := by
  have hbytes := bytes_eq_digits_iff.2 (fourDigits_iff.2 ⟨month, day, h⟩)
  generalize hcs : s.toList = cs at h
  obtain ⟨ha, hb, hc, hd, hmonth, hday⟩ := h
  rw [read?, if_neg (by simp [hbytes]), hcs,
    cutAt?_two (utf8Size_digitChar ha) (utf8Size_digitChar hb)]
  simp only [Option.bind_eq_bind, Option.bind_some, readWord?_two ha hb hmonth,
    readWord?_two hc hd hday]

/-- Reading cuts no character, and every number on the way is a word. -/
theorem read?_eq (s : String) : read? s = some ((DayKey.read s).map words) := by
  obtain ⟨month, day, hwrites, hread⟩ | ⟨hdigits, hread⟩ := read_cases s
  · obtain ⟨hmonth, hday, -⟩ := writes_iff.1 hwrites
    rw [read?_of_writes hwrites, ofParts?_eq, hread,
      UInt32.toNat_ofNat_of_lt' (Nat.lt_trans hmonth (by decide)),
      UInt32.toNat_ofNat_of_lt' (Nat.lt_trans hday (by decide))]
  · have hbytes : (Text.bytes s).length ≠ 4 ∨ ¬ (Text.bytes s).all isDigitByte := by
      rw [← bytes_eq_digits_iff] at hdigits
      exact not_and_or.1 hdigits
    rw [read?, if_pos hbytes, hread]
    rfl

theorem text_words (k : DayKey) : k.words.text = k.text := by
  rw [text, words_month, words_day]
  rfl

/-- However a key is made, it is read from its text. -/
theorem read?_text {w : Words} (h : Made w) : read? w.text = some (.ok w) := by
  obtain ⟨k, rfl⟩ := made_iff.1 h
  rw [text_words, read?_eq, read_text]
  rfl

end Words

theorem bijOn_text : Set.BijOn text Set.univ {s | ∃ k, read s = .ok k} := by
  refine ⟨fun k _ => ⟨k, read_text k⟩, fun k _ l _ h => ?_, fun s ⟨k, hk⟩ => ?_⟩
  · have hread := read_text k
    rw [h, read_text l] at hread
    exact (Except.ok.inj hread).symm
  · exact ⟨k, Set.mem_univ k, read_eq_ok_iff.1 hk⟩

/-- Every text is read to an end. A key comes of the text of the key and of no other; four digits
that are no day of a leap year are out of range, and the message shows them; what is not four digits
has the wrong form, and the message quotes it. Keys and the texts that are read as keys go together
one by one, also where the key was made without a check. -/
theorem reads_days_in_four_digits :
    (∀ s : String,
      Words.read? s = some ((read s).map words) ∧
      (∀ t, read s = .error (.format t) ↔ t = s ∧ ¬ FourDigits s) ∧
      (DayKeyError.format s).message =
        "day key must be four digits in MMDD form, got '" ++ s ++ "'" ∧
      (∀ month day, read s = .error (.outOfRange month day) ↔
        Writes month day s.toList ∧
          ¬ ∃ d : Date, isLeapYear d.year ∧ d.month = month ∧ d.day = day) ∧
      (∀ month day, read s = .error (.outOfRange month day) →
        (DayKeyError.outOfRange month day).message =
          "day key " ++ s ++ " is not a calendar day") ∧
      (∀ k, read s = .ok k ↔ k.text = s)) ∧
    (∀ w, Words.Made w → Words.read? w.text = some (.ok w)) ∧
    Set.BijOn text Set.univ {s | ∃ k, read s = .ok k} := by
  refine ⟨fun s => ⟨Words.read?_eq s, ?_, rfl, ?_, ?_, ?_⟩, fun w => Words.read?_text, bijOn_text⟩
  · intro t
    exact read_eq_format_iff
  · intro month day
    exact read_eq_outOfRange_iff
  · intro month day h
    exact message_of_writes (read_eq_outOfRange_iff.1 h).1
  · intro k
    exact read_eq_ok_iff

/-- In "1é2" the cut would be within a character, and "0230" is no day of any year. -/
theorem reads_days_in_four_digits_of_february :
    let leapDay : Date := ⟨2024, 2, 29, by decide, by decide, by decide, by decide⟩
    Words.Made (Words.ofDate leapDay) ∧
    Words.read? (Words.ofDate leapDay).text = some (.ok (Words.ofDate leapDay)) ∧
    Words.read? "1é2" = some (.error (.format "1é2")) ∧
    read "0230" = .error (.outOfRange 2 30) ∧
    (DayKeyError.outOfRange 2 30).message = "day key 0230 is not a calendar day" := by
  intro leapDay
  obtain ⟨htexts, hmade, -⟩ := reads_days_in_four_digits
  obtain ⟨hwords, hformat, -⟩ := htexts "1é2"
  obtain ⟨-, -, -, -, hmessage, -⟩ := htexts "0230"
  have hleap : Words.Made (Words.ofDate leapDay) := .ofDate leapDay
  have hrange : read "0230" = .error (.outOfRange 2 30) := by rfl
  refine ⟨hleap, hmade _ hleap, ?_, hrange, hmessage 2 30 hrange⟩
  rw [hwords, (hformat _).2 ⟨rfl, by simp [FourDigits]⟩]
  rfl

end DayKey
end Almanac
