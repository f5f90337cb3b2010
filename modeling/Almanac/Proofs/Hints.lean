import Almanac.Proofs.Faults
import Almanac.Proofs.Loading
import Almanac.Proofs.Numerals

/-! When a report on malformed text has the hint on day keys. It has it for every key that is none,
and also where a text with the words of the hint stands in the place of a list or a record, since
the message cites the text. -/

namespace Almanac

namespace Text
variable {words cs xs rest : List Char} {c : Char}

theorem infix_cons_of_notMem (h : c ∉ words) (hne : words ≠ []) :
    words <:+: c :: cs ↔ words <:+: cs := by
  rw [List.infix_cons_iff, or_iff_right]
  intro hstart
  cases words with
  | nil => exact hne rfl
  | cons word words =>
    rw [List.cons_prefix_cons] at hstart
    exact h (hstart.1 ▸ List.mem_cons_self)

/-- A character that is in no word parts the texts on its sides. -/
theorem infix_append_cons_of_notMem (h : c ∉ words) (hne : words ≠ []) :
    words <:+: xs ++ c :: cs ↔ words <:+: xs ∨ words <:+: cs := by
  rw [List.infix_append_iff, infix_cons_of_notMem h hne]
  constructor
  · rintro (hxs | hcs | ⟨front, back, rfl, hfront, hback⟩)
    · exact .inl hxs
    · exact .inr hcs
    · cases back with
      | nil => exact .inl (by simpa using hfront.isInfix)
      | cons d back =>
        rw [List.cons_prefix_cons] at hback
        exact absurd (by simp [hback.1]) h
  · rintro (hxs | hcs)
    · exact .inl hxs
    · exact .inr (.inl hcs)

theorem mem_toDigits_sixteen {n : Nat} (h : c ∈ Nat.toDigits 16 n) :
    ∃ digit < 16, c = Nat.digitChar digit := by
  induction n using Nat.strongRecOn with
  | ind n ih =>
    rw [Nat.toDigits_eq_if (by decide)] at h
    split at h
    next hlt => exact ⟨n, hlt, List.mem_singleton.1 h⟩
    next hle =>
      rcases List.mem_append.1 h with hmem | hmem
      · exact ih (n / 16) (by omega) hmem
      · exact ⟨n % 16, Nat.mod_lt n (by decide), List.mem_singleton.1 hmem⟩

/-- The words that a message on a day key begins with. -/
def keyWords : List Char := ['d', 'a', 'y', ' ', 'k', 'e', 'y']

theorem escape_of_mem_keyWords (h : c ∈ keyWords) : escape c = [c] := by
  have hall : keyWords.all fun c => escape c = [c] := by decide +kernel
  exact of_decide_eq_true (List.all_eq_true.1 hall c h)

theorem not_infix_of_notMem (h : 'k' ∉ cs) : ¬ keyWords <:+: cs :=
  fun hwords => h (hwords.subset (by decide))

/-- The words are not found in what is written for a character that does not stand for itself. -/
theorem infix_escape (h : escape c ≠ [c]) :
    keyWords <:+: escape c ++ rest ↔ keyWords <:+: rest := by
  have hne : keyWords ≠ [] := by decide
  revert h
  fun_cases escape c
  case case7 =>
    intro _
    have hdigits : ¬ keyWords <:+: Nat.toDigits 16 c.toNat := by
      intro hwords
      have hmem : 'y' ∈ Nat.toDigits 16 c.toNat := hwords.subset (by decide)
      obtain ⟨digit, hlt, hy⟩ := mem_toDigits_sixteen hmem
      have hnone : ∀ digit < 16, 'y' ≠ Nat.digitChar digit := by decide
      exact hnone digit hlt hy
    simp only [escapeByNumber, List.cons_append, List.append_assoc, List.nil_append]
    rw [infix_cons_of_notMem (by decide) hne, infix_cons_of_notMem (by decide) hne,
      infix_cons_of_notMem (by decide) hne, infix_append_cons_of_notMem (by decide) hne,
      or_iff_right hdigits]
  case case8 => exact fun h => absurd rfl h
  all_goals
    intro _
    simp only [List.cons_append, List.nil_append]
    rw [infix_cons_of_notMem (by decide) hne, infix_cons_of_notMem (by decide) hne]

theorem escape_eq_cons (h : escape c ≠ [c]) : ∃ tail, escape c = '\\' :: tail := by
  revert h
  fun_cases escape c
  case case8 => exact fun h => absurd rfl h
  all_goals exact fun _ => ⟨_, rfl⟩

theorem prefix_flatMap_escape (hwords : ∀ c ∈ words, c ∈ keyWords) :
    words <+: cs.flatMap escape ↔ words <+: cs := by
  induction words generalizing cs with
  | nil => simp
  | cons word words ih =>
    cases cs with
    | nil => simp
    | cons c cs =>
      have hword := hwords word List.mem_cons_self
      have htail := @ih cs fun d hd => hwords d (List.mem_cons_of_mem word hd)
      by_cases hc : escape c = [c]
      · rw [List.flatMap_cons, hc, List.singleton_append, List.cons_prefix_cons,
          List.cons_prefix_cons, htail]
      · obtain ⟨tail, htail⟩ := escape_eq_cons hc
        have hslash : word ≠ '\\' := fun he => absurd (he ▸ hword) (by decide)
        have hne : word ≠ c := fun he => hc (escape_of_mem_keyWords (he ▸ hword))
        simp [htail, hslash, hne]

/-- The words stand in a text as it is shown exactly if they stand in the text. -/
theorem infix_flatMap_escape (cs : List Char) :
    keyWords <:+: cs.flatMap escape ↔ keyWords <:+: cs := by
  have hne : keyWords ≠ [] := by decide
  induction cs with
  | nil => rfl
  | cons c cs ih =>
    rw [List.flatMap_cons]
    by_cases hc : escape c = [c]
    · have hstart := @prefix_flatMap_escape keyWords (c :: cs) fun _ h => h
      rw [List.flatMap_cons, hc, List.singleton_append] at hstart
      rw [hc, List.singleton_append, List.infix_cons_iff, List.infix_cons_iff]
      exact or_congr hstart ih
    · have hnot : c ∉ keyWords := fun h => hc (escape_of_mem_keyWords h)
      exact (infix_escape hc).trans (ih.trans (infix_cons_of_notMem hnot hne).symm)

end Text

namespace Json
open Decimal (notMem_digits notMem_natText notMem_intText)

variable {ds : List Char} {error : Error}

/-! ### Messages -/

-- Equations of messages, so that the texts in them need not be opened where they are used.

theorem message_format (input : String) : (DayKeyError.format input).message =
    "day key must be four digits in MMDD form, got '" ++ input ++ "'" := rfl

theorem message_outOfRange (month day : Nat) : (DayKeyError.outOfRange month day).message =
    "day key " ++ String.ofList (Decimal.padded 2 month ++ Decimal.padded 2 day) ++
      " is not a calendar day" := rfl

theorem message_integer (value : Int) :
    (Found.integer value).message = "integer `" ++ toString value ++ "`" := rfl

theorem message_float (value : Float) : (Found.float value).message =
    "floating point `" ++ String.ofList (floatText value) ++ "`" := rfl

theorem message_text (value : List Char) :
    (Found.text value).message = "string " ++ String.ofList (Text.quoted value) := rfl

theorem message_record (name : String) : (Expected.record name).message = "struct " ++ name := rfl

theorem message_emptyRecord (name : String) (fields : Nat) :
    (Fault.emptyRecord name fields).message =
      "invalid length 0, expected struct " ++ name ++ " with " ++ toString fields ++
        (if fields = 1 then " element" else " elements") := rfl

theorem message_invalidType (found : Found) (expected : Expected) :
    (Fault.invalidType found expected).message =
      "invalid type: " ++ found.message ++ ", expected " ++ expected.message := rfl

theorem notMem_positional (h : 'k' ∉ ds) (place : Int) : 'k' ∉ positional ds place := by
  unfold positional
  split
  · simp [h]
  · split
    · simp [h]
    · have htake : 'k' ∉ ds.take place.toNat := fun hmem => h (List.mem_of_mem_take hmem)
      have hdrop : 'k' ∉ ds.drop place.toNat := fun hmem => h (List.mem_of_mem_drop hmem)
      simp [htake, hdrop]

theorem notMem_scientific (h : 'k' ∉ ds) (place : Int) : 'k' ∉ scientific ds place := by
  have hexponent := notMem_digits (show 'k'.isDigit = false by decide) (place - 1).natAbs
  unfold scientific
  extract_lets mantissa sign
  have hmantissa : 'k' ∉ mantissa := by
    simp only [mantissa]
    split
    · simpa using h
    · exact h
  have hsign : 'k' ≠ sign := by
    simp only [sign]
    split <;> decide
  rw [List.mem_append, List.mem_cons, List.mem_cons]
  rintro (hmem | he | hmem | hmem)
  · exact hmantissa hmem
  · exact absurd he (by decide)
  · exact hsign hmem
  · exact hexponent hmem

theorem notMem_floatText (x : Float) : 'k' ∉ floatText x := by
  have hdigits (d : Shortest.Decimal) : 'k' ∉ (digitsAndPlace d).1 := by
    intro hmem
    rw [digitsAndPlace, dropTrailingZeros, List.mem_reverse] at hmem
    have hall := List.mem_reverse.1 ((List.dropWhile_sublist _).subset hmem)
    exact notMem_digits (by decide) _ hall
  unfold floatText
  extract_lets bits size
  have hsize : 'k' ∉ size := by
    simp only [size]
    split
    · decide
    · split
      · exact notMem_positional (hdigits _) _
      · exact notMem_scientific (hdigits _) _
  split
  · simpa using hsize
  · exact hsize

/-- A message ends in the place of the fault, in which the words of the hint do not begin. -/
theorem toList_message (error : Error) : ∃ place,
    error.message.toList = error.fault.message.toList ++ place ∧ 'd' ∉ place ∧ 'k' ∉ place := by
  unfold Error.message
  split
  next => exact ⟨[], by simp, by simp, by simp⟩
  next position _ =>
    refine ⟨(" at line " ++ toString position.line ++ " column " ++
      toString position.column).toList, by simp, ?_, ?_⟩
    all_goals
      simp only [String.toList_append, List.mem_append, not_or]
      exact ⟨⟨⟨by decide, notMem_natText (by decide) _⟩, by decide⟩, notMem_natText (by decide) _⟩

open Text (keyWords)

theorem not_infix_message {letter : Char} (hletter : letter = 'd' ∨ letter = 'k')
    (hnot : letter ∉ error.fault.message.toList) : ¬ keyWords <:+: error.message.toList := by
  obtain ⟨place, hplace, hd, hk⟩ := toList_message error
  intro hwords
  have hmem : letter ∈ error.message.toList :=
    hwords.subset (by rcases hletter with rfl | rfl <;> decide)
  rw [hplace, List.mem_append] at hmem
  rcases hmem with hmem | hmem
  · exact hnot hmem
  · rcases hletter with rfl | rfl
    · exact hd hmem
    · exact hk hmem

/-- No fault that cites nothing speaks of day keys. -/
theorem not_infix_of_isFormal (h : error.fault.IsFormal) :
    ¬ keyWords <:+: error.message.toList := by
  cases hfault : error.fault with
  | invalidType | missingField | repeatedField | emptyRecord | invalidKey =>
    rw [hfault] at h
    exact h.elim
  | nameNotText =>
    apply not_infix_message (.inl rfl)
    rw [hfault]
    decide
  | _ =>
    apply not_infix_message (.inr rfl)
    rw [hfault]
    decide

/-- Of the values that a message cites, only a text can hold any words. -/
theorem notMem_foundMessage {found : Found} (h : ∀ value, found ≠ .text value) :
    'k' ∉ found.message.toList := by
  cases found with
  | null | list | object => decide
  | boolean value => cases value <;> decide
  | integer value =>
    rw [message_integer]
    simp only [String.toList_append, List.mem_append, not_or]
    exact ⟨⟨by decide, notMem_intText (by decide) (by decide) value⟩, by decide⟩
  | float value =>
    rw [message_float]
    simp only [String.toList_append, String.toList_ofList, List.mem_append, not_or]
    exact ⟨⟨by decide, notMem_floatText value⟩, by decide⟩
  | text value => exact absurd rfl (h value)

theorem infix_of_invalidType {value : List Char} {expected : Expected}
    (hexpected : 'k' ∉ expected.message.toList)
    (hfault : error.fault = .invalidType (.text value) expected) :
    keyWords <:+: error.message.toList ↔ keyWords <:+: value := by
  obtain ⟨place, hplace, -, hk⟩ := toList_message error
  have hquote : '"' ∉ keyWords := by decide
  have hne : keyWords ≠ [] := by decide
  have hmessage : error.message.toList = ("invalid type: ".toList ++ "string ".toList) ++ '"' ::
      (value.flatMap Text.escape ++ '"' ::
        (", expected ".toList ++ (expected.message.toList ++ place))) := by
    rw [hplace, hfault, message_invalidType, message_text]
    simp only [Text.quoted, String.toList_append, String.toList_ofList, List.append_assoc,
      List.cons_append, List.nil_append]
  have hfront : ¬ keyWords <:+: "invalid type: ".toList ++ "string ".toList :=
    Text.not_infix_of_notMem (by decide)
  have hback : ¬ keyWords <:+: ", expected ".toList ++ (expected.message.toList ++ place) := by
    apply Text.not_infix_of_notMem
    rw [List.mem_append, List.mem_append, not_or, not_or]
    exact ⟨by decide, hexpected, hk⟩
  rw [hmessage, Text.infix_append_cons_of_notMem hquote hne, or_iff_right hfront,
    Text.infix_append_cons_of_notMem hquote hne, or_iff_left hback]
  exact Text.infix_flatMap_escape value

/-- Each message on a key that is none begins with the words. -/
theorem prefix_message_of_key (reason : DayKeyError) : keyWords <+: reason.message.toList := by
  cases reason with
  | format input =>
    have hwords : keyWords <+: "day key must be four digits in MMDD form, got '".toList := by decide
    rw [message_format, String.toList_append, String.toList_append, List.append_assoc]
    exact hwords.trans (List.prefix_append _ _)
  | outOfRange month day =>
    have hwords : keyWords <+: "day key ".toList := by decide
    rw [message_outOfRange, String.toList_append, String.toList_append, List.append_assoc]
    exact hwords.trans (List.prefix_append _ _)

theorem infix_of_invalidKey {reason : DayKeyError} (hfault : error.fault = .invalidKey reason) :
    keyWords <:+: error.message.toList := by
  obtain ⟨place, hplace, -⟩ := toList_message error
  rw [hplace, hfault]
  exact ((prefix_message_of_key reason).trans (List.prefix_append _ place)).isInfix

theorem notMem_of_kind {expected : Expected} (h : expected ∈ DataFile.kinds) :
    'k' ∉ expected.message.toList := by
  have hall : ∀ expected ∈ DataFile.kinds, 'k' ∉ expected.message.toList := by decide
  exact hall expected h

/-- A fault of a value that is of another kind speaks of day keys only in the text that it cites. -/
theorem infix_of_otherKind {found : Found} {expected : Expected}
    (hexpected : expected ∈ DataFile.kinds) (hfault : error.fault = .invalidType found expected) :
    keyWords <:+: error.message.toList ↔ ∃ value, found = .text value ∧ keyWords <:+: value := by
  have hname := notMem_of_kind hexpected
  by_cases htext : ∃ value, found = .text value
  · obtain ⟨value, rfl⟩ := htext
    rw [infix_of_invalidType hname hfault]
    constructor
    · exact fun h => ⟨value, rfl, h⟩
    · rintro ⟨value', he, h⟩
      cases he
      exact h
  · have hfound := notMem_foundMessage fun value he => htext ⟨value, he⟩
    refine iff_of_false (not_infix_message (.inr rfl) ?_) fun ⟨value, he, _⟩ => htext ⟨value, he⟩
    rw [hfault, message_invalidType]
    simp only [String.toList_append, List.mem_append, not_or]
    exact ⟨⟨⟨by decide, hfound⟩, by decide⟩, hname⟩

/-- Of all that data files can have for faults, a message holds the words for each key that is none,
and for no other fault unless the text that it cites holds them. -/
theorem infix_message_iff (h : DataFile.IsFault error.fault) :
    keyWords <:+: error.message.toList ↔
      (∃ reason, error.fault = .invalidKey reason) ∨
      ∃ value expected, error.fault = .invalidType (.text value) expected ∧
        keyWords <:+: value := by
  generalize hfault : error.fault = fault at h
  cases h with
  | formal hformal =>
    refine iff_of_false (not_infix_of_isFormal (hfault ▸ hformal)) ?_
    rintro (⟨reason, rfl⟩ | ⟨value, expected, rfl, -⟩) <;> exact hformal
  | invalidKey hread => exact iff_of_true (infix_of_invalidKey hfault) (.inl ⟨_, rfl⟩)
  | otherKind found hkind =>
    rw [infix_of_otherKind hkind hfault]
    constructor
    · rintro ⟨value, rfl, hwords⟩
      exact .inr ⟨value, _, rfl, hwords⟩
    · rintro (⟨reason, he⟩ | ⟨value, expected, he, hwords⟩) <;> cases he
      exact ⟨value, rfl, hwords⟩
  | missingField hname =>
    refine iff_of_false (not_infix_message (.inr rfl) ?_) (by simp)
    rw [hfault]
    rcases hname with rfl | rfl <;> decide
  | repeatedField hname =>
    refine iff_of_false (not_infix_message (.inr rfl) ?_) (by simp)
    rw [hfault]
    rcases hname with rfl | ⟨field, rfl⟩
    · decide
    · cases field <;> decide
  | @emptyRecord name hkind fields =>
    have hname := notMem_of_kind hkind
    rw [message_record, String.toList_append, List.mem_append, not_or] at hname
    refine iff_of_false (not_infix_message (.inr rfl) ?_) (by simp)
    rw [hfault, message_emptyRecord]
    simp only [String.toList_append, List.mem_append, not_or]
    refine ⟨⟨⟨⟨by decide, hname.2⟩, by decide⟩, notMem_natText (by decide) fields⟩, ?_⟩
    split <;> decide

end Json

namespace Report
open Text (keyWords)

theorem hint_malformed (text : String) (error : Json.Error) :
    (malformed text error).hint = hintFor error.message := rfl

theorem hintFor_eq_none_or (message : String) :
    hintFor message = none ∨ hintFor message = some keyHint := by
  unfold hintFor
  split
  · exact .inr rfl
  · exact .inl rfl

theorem hintFor_eq_some_iff (message : String) :
    hintFor message = some keyHint ↔ keyWords <:+: message.toList := by
  have hwords : "day key".toList = keyWords := by decide
  unfold hintFor
  rw [hwords]
  split
  next h => exact iff_of_true rfl (Text.occurs_iff.1 h)
  next h => exact iff_of_false nofun fun hinfix => h (Text.occurs_iff.2 hinfix)

/-- A report on malformed text has the hint on day keys for a string in the place of a key that is
none, and for a text in the place of a list or a record that holds the words of the message. It has
no other hint. -/
theorem hint_of_malformed (read : Reader) (path text source : String) (error : Json.Error)
    (hread : read path = .ok text) (h : Store.ofText text = .error (.malformed source error)) :
    ∃ report, loadFile read path = .error report ∧
      (report.hint = none ∨ report.hint = some keyHint) ∧
      (report.hint = some keyHint ↔
        (∃ input reason, DayKey.read input = .error reason ∧ error.fault = .invalidKey reason) ∨
        ∃ value expected, error.fault = .invalidType (.text value) expected ∧
          keyWords <:+: value) := by
  have hfault := DataFile.isFault_of_decode (Store.decode_of_malformed h)
  refine ⟨malformed text error, loadFile_of_malformed hread h, hintFor_eq_none_or _, ?_⟩
  rw [hint_malformed, hintFor_eq_some_iff, Json.infix_message_iff hfault]
  refine or_congr_left ⟨?_, ?_⟩
  · rintro ⟨reason, he⟩
    rw [he] at hfault
    cases hfault with
    | formal hformal => exact hformal.elim
    | invalidKey hread => exact ⟨_, reason, hread, he⟩
  · rintro ⟨input, reason, -, he⟩
    exact ⟨reason, he⟩

/-- A list for the name of the day has no hint, the 30th of February has it. -/
theorem hint_of_malformed_february :
    (∃ report, loadFile (fun _ => .ok "[[[\"0229\", []]]]") "a" = .error report ∧
      report.hint = none) ∧
    ∃ report, loadFile (fun _ => .ok "[[[\"0230\"]]]") "a" = .error report ∧
      report.hint = some keyHint := by
  constructor
  · let error := (Json.Failure.before (.invalidType .list .text) "[]]]]".toList).error
      "[[[\"0229\", []]]]".toList
    obtain ⟨report, hload, hnone | hsome, hint⟩ :=
      hint_of_malformed (fun _ => .ok "[[[\"0229\", []]]]") "a" _ "<string>" error rfl (by rfl)
    · exact ⟨report, hload, hnone⟩
    · rcases hint.1 hsome with ⟨input, reason, -, he⟩ | ⟨value, expected, he, -⟩ <;> cases he
  · let error := (Json.Failure.before (.invalidKey (.outOfRange 2 30)) "]]".toList).error
      "[[[\"0230\"]]]".toList
    obtain ⟨report, hload, -, hint⟩ :=
      hint_of_malformed (fun _ => .ok "[[[\"0230\"]]]") "a" _ "<string>" error rfl (by rfl)
    exact ⟨report, hload, hint.2 (.inl ⟨"0230", .outOfRange 2 30, by rfl, rfl⟩)⟩

/-- A text in the place of the list of records gets the hint, if only it has the words in it. -/
theorem hint_of_words_without_key :
    ∃ report error,
      loadFile (fun _ => .ok "\x7b\"dates\": \"day key\"\x7d") "a.json" = .error report ∧
      Store.ofText "\x7b\"dates\": \"day key\"\x7d" = .error (.malformed "<string>" error) ∧
      report.hint = some keyHint ∧ ∀ reason, error.fault ≠ .invalidKey reason := by
  let error := (Json.Failure.before (.invalidType (.text keyWords) .list) ['}']).error
    "\x7b\"dates\": \"day key\"\x7d".toList
  have herror : Store.ofText "\x7b\"dates\": \"day key\"\x7d" =
      .error (.malformed "<string>" error) := by rfl
  have hfault : error.fault = .invalidType (.text keyWords) .list := rfl
  have hwords : keyWords <:+: error.message.toList :=
    (Json.infix_of_invalidType (by decide) hfault).2 List.infix_rfl
  refine ⟨_, error, loadFile_of_malformed rfl herror, herror, ?_, nofun⟩
  rw [hint_malformed, hintFor_eq_some_iff]
  exact hwords

end Report
end Almanac
