import Almanac.DayKey

/-! Whole numbers in digits, with a minus sign in front of those below zero. They are read back from
their texts, in which no other character stands. So are day keys, which are two numbers of two
digits. -/

namespace Almanac.Decimal
variable {c : Char}

theorem notMem_digits (hc : c.isDigit = false) (n : Nat) : c ∉ Nat.toDigits 10 n := by
  intro hmem
  rw [Nat.isDigit_of_mem_toDigits (by decide) (by decide) hmem] at hc
  cases hc

theorem toList_natText (n : Nat) : (toString n).toList = Nat.toDigits 10 n := by
  rw [Nat.toString_eq_ofList_toDigits, String.toList_ofList]

theorem notMem_natText (hc : c.isDigit = false) (n : Nat) : c ∉ (toString n).toList := by
  rw [toList_natText]
  exact notMem_digits hc n

theorem toList_intText (n : Int) :
    (toString n).toList = if 0 ≤ n then Nat.toDigits 10 n.toNat
      else '-' :: Nat.toDigits 10 (-n).toNat := by
  rw [Int.toString_eq_repr, Int.repr_eq_if, ← Nat.toString_eq_repr, ← Nat.toString_eq_repr]
  split
  · exact toList_natText _
  · rw [String.toList_append, toList_natText]
    rfl

theorem notMem_intText (hc : c.isDigit = false) (hminus : c ≠ '-') (n : Int) :
    c ∉ (toString n).toList := by
  rw [toList_intText]
  split
  · exact notMem_digits hc _
  · simpa [hminus] using notMem_digits hc (-n).toNat

/-- Digits begin with a digit. -/
theorem toDigits_eq_cons (n : Nat) :
    ∃ d ds, Nat.toDigits 10 n = d :: ds ∧ d.isDigit = true := by
  obtain ⟨d, ds, hds⟩ := List.exists_cons_of_ne_nil (Nat.toDigits_ne_nil (n := n) (b := 10))
  have hmem : d ∈ Nat.toDigits 10 n := hds ▸ List.mem_cons_self
  exact ⟨d, ds, hds, Nat.isDigit_of_mem_toDigits (by decide) (by decide) hmem⟩

theorem read?_digits (n : Nat) : read? (Nat.toDigits 10 n) = some n := by
  have hdigits : (Nat.toDigits 10 n).all Char.isDigit = true :=
    List.all_eq_true.2 fun c hc => Nat.isDigit_of_mem_toDigits (by decide) (by decide) hc
  have hvalue : valueOf (Nat.toDigits 10 n) = n := Nat.ofDigitChars_toDigits (by decide) (by decide)
  rw [read?, if_pos ⟨Nat.toDigits_ne_nil, hdigits⟩, hvalue]

/-- Reads a whole number, which may have a minus sign. -/
def readInt? : List Char → Option Int
  | '-' :: digits => (read? digits).map fun n : Nat => -(n : Int)
  | digits => (read? digits).map Int.ofNat

theorem intText_cases (n : Int) :
    (∃ d ds, (toString n).toList = d :: ds ∧ d.isDigit = true ∧ 0 ≤ n ∧
      read? (d :: ds) = some n.toNat) ∨
    ∃ ds, (toString n).toList = '-' :: ds ∧ n < 0 ∧ read? ds = some (-n).toNat := by
  rw [toList_intText]
  split
  next hsign =>
    obtain ⟨d, ds, hds, hdigit⟩ := toDigits_eq_cons n.toNat
    exact .inl ⟨d, ds, hds, hdigit, hsign, hds ▸ read?_digits n.toNat⟩
  next hsign => exact .inr ⟨_, rfl, Int.not_le.1 hsign, read?_digits _⟩

theorem readInt?_intText (n : Int) : readInt? (toString n).toList = some n := by
  obtain ⟨d, ds, htext, hdigit, hsign, hread⟩ | ⟨ds, htext, hsign, hread⟩ := intText_cases n
  · rw [htext]
    unfold readInt?
    split
    next heq =>
      obtain ⟨rfl, -⟩ := List.cons.inj heq
      cases hdigit
    next =>
      rw [hread, Option.map_some]
      exact congrArg some (Int.toNat_of_nonneg hsign)
  · rw [htext, readInt?, hread, Option.map_some]
    congr 1
    omega

theorem notMem_padded (hc : c.isDigit = false) (width n : Nat) : c ∉ padded width n := by
  have hzero : c ≠ '0' := by
    rintro rfl
    cases hc
  rw [padded, List.mem_append, List.mem_replicate]
  exact not_or.2 ⟨fun h => hzero h.2, notMem_digits hc n⟩

/-! ### Two digits -/

theorem padded_two {n : Nat} (h : n < 100) :
    padded 2 n = [(n / 10).digitChar, (n % 10).digitChar] := by
  revert n
  decide

theorem isDigit_digitChar {d : Nat} (h : d < 10) : d.digitChar.isDigit = true := by
  revert d
  decide

theorem digitValue_digitChar {d : Nat} (h : d < 10) : digitValue d.digitChar = d := by
  revert d
  decide

theorem read?_padded_two {n : Nat} (h : n < 100) :
    read? [(n / 10).digitChar, (n % 10).digitChar] = some n := by
  have htens : n / 10 < 10 := by omega
  have hones : n % 10 < 10 := Nat.mod_lt n (by decide)
  simp only [read?, ne_eq, reduceCtorEq, not_false_eq_true, List.all_cons, List.all_nil,
    isDigit_digitChar htens, isDigit_digitChar hones, Bool.and_self, and_self, if_true, valueOf,
    List.foldl_cons, List.foldl_nil, digitValue_digitChar htens, digitValue_digitChar hones]
  congr 1
  omega

end Almanac.Decimal

/-! ### Day keys -/

namespace Almanac.DayKey

theorem day_lt (k : DayKey) : k.day < 100 := by
  have hle := k.day_le
  have hmax : monthLength true k.month ≤ 31 := by
    unfold monthLength
    split <;> simp
  omega

theorem month_lt (k : DayKey) : k.month < 100 := by
  have := k.month_bounds
  omega

theorem chars_eq (k : DayKey) :
    k.chars = [(k.month / 10).digitChar, (k.month % 10).digitChar, (k.day / 10).digitChar,
      (k.day % 10).digitChar] := by
  rw [chars, Decimal.padded_two k.month_lt, Decimal.padded_two k.day_lt]
  rfl

/-- A key is read from its text. -/
theorem read_text (k : DayKey) : read k.text = .ok k := by
  simp only [read, text, String.toList_ofList, chars_eq, Decimal.read?_padded_two k.month_lt,
    Decimal.read?_padded_two k.day_lt, ofParts_parts]

end Almanac.DayKey
