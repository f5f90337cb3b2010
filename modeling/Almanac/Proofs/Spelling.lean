import Almanac.Json.Grammar

/-! Strings are read as what they stand for, however they are spelled, and passed over to their
closing quote. A string that stands for no text is not read. -/

namespace Almanac.Json
variable {b c : Char} {d n : Nat} {bound done s body digits letter cs rest rest' : List Char}

theorem hexValue?_of_isHexDigit (h : IsHexDigit d c) : hexValue? c = some d := by
  obtain ⟨hd, hc⟩ := h
  have hlower : ∀ d < 16, hexValue? d.digitChar = some d := by decide
  have hupper : ∀ d < 16, hexValue? d.digitChar.toUpper = some d := by decide
  rcases hc with rfl | rfl
  · exact hlower d hd
  · exact hupper d hd

theorem readUnit_unit (h : CodeUnit n digits) (rest : List Char) :
    readUnit (digits ++ rest) = .ok (n, rest) := by
  obtain ⟨h₁, h₂, h₃, h₄, hn⟩ := h
  rename_i d₁ d₂ d₃ d₄ c₁ c₂ c₃ c₄
  have hvalues : hexValues? [c₁, c₂, c₃, c₄] = some n := by
    simp only [hexValues?, List.foldl_cons, List.foldl_nil, hexValue?_of_isHexDigit h₁,
      hexValue?_of_isHexDigit h₂, hexValue?_of_isHexDigit h₃, hexValue?_of_isHexDigit h₄,
      Option.some.injEq]
    omega
  simp [readUnit, hvalues]

theorem unescape?_of_mem {e : Char} (h : (e, c) ∈ shortEscapes) :
    unescape? e = some c ∧ e ≠ 'u' := by
  have hall : ∀ p ∈ shortEscapes, unescape? p.1 = some p.2 ∧ p.1 ≠ 'u' := by decide
  exact hall (e, c) h

theorem isControl_eq_false (h : 0x20 ≤ c.toNat) : isControl c = false := by
  simp only [isControl, decide_eq_false_iff_not]
  omega

theorem isLowSurrogate_iff : isLowSurrogate n = true ↔ 0xDC00 ≤ n ∧ n < 0xE000 := by
  simp only [isLowSurrogate, decide_eq_true_eq]
  omega

theorem isHighSurrogate_iff : isHighSurrogate n = true ↔ 0xD800 ≤ n ∧ n < 0xDC00 := by
  simp only [isHighSurrogate, decide_eq_true_eq]
  omega

/-- No character is a surrogate. -/
theorem not_isSurrogate (c : Char) : ¬ isLowSurrogate c.toNat ∧ ¬ isHighSurrogate c.toNat := by
  have hvalid : c.toNat < 0xD800 ∨ 0xDFFF < c.toNat ∧ c.toNat < 0x110000 := c.valid
  rw [isLowSurrogate_iff, isHighSurrogate_iff]
  omega

theorem length_pos_of_simple (h : Simple c letter) : 0 < letter.length := by
  cases h <;> simp

/-! ### Reading -/

theorem readTextFrom_escaped (h : readEscape cs = .ok (c, rest)) :
    readTextFrom (b :: bound) done ('\\' :: cs) = readTextFrom bound (c :: done) rest := by
  simp [readTextFrom, h, bind, Except.bind]

theorem readTextFrom_simple (h : Simple c letter) :
    readTextFrom (b :: bound) done (letter ++ rest) = readTextFrom bound (c :: done) rest := by
  cases h with
  | plain hquote hslash hcontrol => simp [readTextFrom, isControl_eq_false hcontrol]
  | @escaped e _ h =>
    obtain ⟨hc, he⟩ := unescape?_of_mem h
    refine readTextFrom_escaped ?_
    simp [readEscape, hc]

theorem readEscape_unit (h : CodeUnit c.toNat digits) :
    readEscape ('u' :: (digits ++ rest)) = .ok (c, rest) := by
  obtain ⟨hlow, hhigh⟩ := not_isSurrogate c
  simp [readEscape, readUnit_unit h, hlow, hhigh, bind, Except.bind]

theorem readEscape_high (h : CodeUnit n digits) (hn : 0xD800 ≤ n ∧ n < 0xDC00) :
    readEscape ('u' :: (digits ++ rest)) = readLowSurrogate n rest := by
  have hlow : ¬ isLowSurrogate n := by
    rw [isLowSurrogate_iff]
    omega
  simp [readEscape, readUnit_unit h, hlow, isHighSurrogate_iff.2 hn, bind, Except.bind]

theorem readLowSurrogate_unit {high low : Nat} (h : CodeUnit low digits)
    (hlow : 0xDC00 ≤ low ∧ low < 0xE000) :
    readLowSurrogate high ('\\' :: 'u' :: (digits ++ rest)) =
      .ok (joinSurrogates high low, rest) := by
  simp [readLowSurrogate, readUnit_unit h, isLowSurrogate_iff.2 hlow, bind, Except.bind]

theorem readTextFrom_spells (h : Spells s body) (hbound : body.length < bound.length) :
    readTextFrom bound done (body ++ '"' :: rest) = .ok (done.reverse ++ s, rest) := by
  induction h generalizing bound done with
  | nil =>
    obtain ⟨b, bound, rfl⟩ := List.exists_cons_of_length_pos hbound
    simp [readTextFrom]
  | simple h _ ih =>
    obtain ⟨b, bound, rfl⟩ := List.exists_cons_of_length_pos (Nat.zero_lt_of_lt hbound)
    have hpos := length_pos_of_simple h
    rw [List.length_append, List.length_cons] at hbound
    rw [List.append_assoc, readTextFrom_simple h, ih (by omega)]
    simp
  | unit h _ ih =>
    obtain ⟨b, bound, rfl⟩ := List.exists_cons_of_length_pos (Nat.zero_lt_of_lt hbound)
    simp only [List.length_cons, List.length_append] at hbound
    rw [List.cons_append, List.cons_append, List.append_assoc,
      readTextFrom_escaped (readEscape_unit h), ih (by omega)]
    simp
  | @pair c high low _ _ _ _ hhigh hlow hc h h' _ ih =>
    obtain ⟨b, bound, rfl⟩ := List.exists_cons_of_length_pos (Nat.zero_lt_of_lt hbound)
    simp only [List.length_cons, List.length_append] at hbound
    have hjoin : joinSurrogates high low = c := by
      rw [joinSurrogates, ← hc, Char.ofNat_toNat]
    simp only [List.cons_append, List.append_assoc]
    rw [readTextFrom_escaped (c := c), ih (by omega)]
    · simp
    · rw [readEscape_high h hhigh, readLowSurrogate_unit h' hlow, hjoin]

/-- A string is read as the text it spells. -/
theorem readText_spells (h : Spells s body) (rest : List Char) :
    readText (body ++ '"' :: rest) = .ok (s, rest) := by
  refine readTextFrom_spells h ?_
  rw [List.length_append, List.length_cons]
  omega

theorem spells_unique {t : List Char} (h : Spells s body) (h' : Spells t body) : s = t := by
  have heq := (readText_spells h []).symm.trans (readText_spells h' [])
  exact (Prod.mk.inj (Except.ok.inj heq)).1

/-! ### Reading what may stand for no text -/

theorem toNat_ofNat (h : n < 0xD800 ∨ 0xDFFF < n ∧ n < 0x110000) : (Char.ofNat n).toNat = n := by
  have hvalid : n.isValidChar := h
  rw [Char.ofNat, dif_pos hvalid]
  rfl

theorem codeUnit_lt (h : CodeUnit n digits) : n < 0x10000 := by
  obtain ⟨⟨h₁, -⟩, ⟨h₂, -⟩, ⟨h₃, -⟩, ⟨h₄, -⟩, hn⟩ := h
  omega

theorem readTextFrom_backslash (cs : List Char) :
    readTextFrom (b :: bound) done ('\\' :: cs) =
      (readEscape cs >>= fun read => readTextFrom bound (read.1 :: done) read.2) := rfl

/-- A high surrogate is half of a character, whose other half must be the next code unit. -/
theorem readLowSurrogate_simple (h : Simple c letter) (high : Nat) (rest : List Char) :
    ∃ f, readLowSurrogate high (letter ++ rest) = .error f := by
  cases h with
  | plain hquote hslash hcontrol =>
    refine ⟨.within .missingSurrogate (c :: rest), ?_⟩
    unfold readLowSurrogate
    split <;> simp_all
  | @escaped e _ h =>
    have he := (unescape?_of_mem h).2
    refine ⟨.within .missingSurrogate (e :: rest), ?_⟩
    unfold readLowSurrogate
    split <;> simp_all

/-- What is read from letters spells the text, also when the letters go on behind a surrogate. -/
theorem spells_of_readTextFrom (h : Letters body) (rest : List Char) :
    (∀ bound done result, readTextFrom bound done (body ++ '"' :: rest) = .ok result →
      ∃ s, Spells s body ∧ result = (done.reverse ++ s, rest)) ∧
    (∀ high digits bound done result, CodeUnit high digits → (0xD800 ≤ high ∧ high < 0xDC00) →
      (readLowSurrogate high (body ++ '"' :: rest) >>= fun read =>
        readTextFrom bound (read.1 :: done) read.2) = .ok result →
      ∃ s, Spells s ('\\' :: 'u' :: (digits ++ body)) ∧ result = (done.reverse ++ s, rest)) := by
  -- Both parts in one induction: a high surrogate turns the first into the second, which its other
  -- half turns back.
  induction h with
  | nil =>
    refine ⟨fun bound done result hread => ?_, fun high digits bound done result _ _ hread => ?_⟩
    · cases bound with
      | nil => cases hread
      | cons b bound =>
        cases hread
        exact ⟨[], .nil, by simp⟩
    · cases hread
  | @simple c letter cs h _ ih =>
    refine ⟨fun bound done result hread => ?_, fun high digits bound done result _ _ hread => ?_⟩
    · cases bound with
      | nil => cases hread
      | cons b bound =>
        rw [List.append_assoc, readTextFrom_simple h] at hread
        obtain ⟨s, hs, rfl⟩ := ih.1 _ _ _ hread
        exact ⟨c :: s, .simple h hs, by simp⟩
    · obtain ⟨f, hf⟩ := readLowSurrogate_simple h high (cs ++ '"' :: rest)
      rw [List.append_assoc, hf] at hread
      cases hread
  | @unit n digits cs h _ ih =>
    refine ⟨fun bound done result hread => ?_,
      fun high digits' bound done result h' hhigh hread => ?_⟩
    · cases bound with
      | nil => cases hread
      | cons b bound =>
        simp only [List.cons_append, List.append_assoc] at hread
        rw [readTextFrom_backslash] at hread
        by_cases hhigh : 0xD800 ≤ n ∧ n < 0xDC00
        · rw [readEscape_high h hhigh] at hread
          exact ih.2 n digits bound done result h hhigh hread
        by_cases hlow : 0xDC00 ≤ n ∧ n < 0xE000
        · simp [readEscape, readUnit_unit h, isLowSurrogate_iff.2 hlow, bind, Except.bind] at hread
        · have hlt := codeUnit_lt h
          have hn : (Char.ofNat n).toNat = n := toNat_ofNat (by omega)
          rw [← hn] at h
          rw [readEscape_unit h] at hread
          obtain ⟨s, hs, rfl⟩ := ih.1 _ _ _ hread
          exact ⟨Char.ofNat n :: s, .unit h hs, by simp⟩
    · simp only [List.cons_append, List.append_assoc] at hread
      by_cases hlow : 0xDC00 ≤ n ∧ n < 0xE000
      · rw [readLowSurrogate_unit h hlow] at hread
        obtain ⟨s, hs, rfl⟩ := ih.1 _ _ _ hread
        have hc : (joinSurrogates high n).toNat =
            0x10000 + (high - 0xD800) * 0x400 + (n - 0xDC00) := toNat_ofNat (by omega)
        exact ⟨joinSurrogates high n :: s, .pair hhigh hlow hc h' h hs, by simp⟩
      · rw [← isLowSurrogate_iff] at hlow
        simp [readLowSurrogate, readUnit_unit h, hlow, bind, Except.bind] at hread

/-- A string that is read as a text spells it, and is read up to its closing quote. -/
theorem spells_of_readText (h : Letters body)
    (hread : readText (body ++ '"' :: rest) = .ok (s, rest')) : Spells s body ∧ rest' = rest := by
  obtain ⟨t, ht, heq⟩ := (spells_of_readTextFrom h rest).1 _ _ _ hread
  obtain ⟨rfl, rfl⟩ := Prod.mk.inj heq
  exact ⟨ht, rfl⟩

/-! ### Passing over -/

theorem skipTextFrom_letters (h : Letters body) (hbound : body.length < bound.length) :
    skipTextFrom bound (body ++ '"' :: rest) = .ok rest := by
  induction h generalizing bound with
  | nil =>
    obtain ⟨b, bound, rfl⟩ := List.exists_cons_of_length_pos hbound
    simp [skipTextFrom]
  | simple h _ ih =>
    obtain ⟨b, bound, rfl⟩ := List.exists_cons_of_length_pos (Nat.zero_lt_of_lt hbound)
    have hpos := length_pos_of_simple h
    simp only [List.length_cons, List.length_append] at hbound
    rw [List.append_assoc, ← @ih bound (by omega)]
    cases h with
    | plain hquote hslash hcontrol => simp [skipTextFrom, isControl_eq_false hcontrol]
    | @escaped e _ h =>
      obtain ⟨hc, he⟩ := unescape?_of_mem h
      simp [skipTextFrom, skipEscape, hc, bind, Except.bind]
  | unit h _ ih =>
    obtain ⟨b, bound, rfl⟩ := List.exists_cons_of_length_pos (Nat.zero_lt_of_lt hbound)
    simp only [List.length_cons, List.length_append] at hbound
    rw [← @ih bound (by omega)]
    simp [skipTextFrom, skipEscape, readUnit_unit h, bind, Except.bind]

/-- A string is passed over whether or not it stands for a text. -/
theorem skipText_letters (h : Letters body) (rest : List Char) :
    skipText (body ++ '"' :: rest) = .ok rest := by
  refine skipTextFrom_letters h ?_
  rw [List.length_append, List.length_cons]
  omega

/-- A text spells itself where no character of it needs a backslash. -/
theorem spells_self (h : s.all fun c => c ≠ '"' ∧ c ≠ '\\' ∧ 0x20 ≤ c.toNat) : Spells s s := by
  induction s with
  | nil => exact .nil
  | cons c s ih =>
    simp only [List.all_cons, Bool.and_eq_true, decide_eq_true_eq] at h
    obtain ⟨⟨hquote, hslash, hcontrol⟩, htail⟩ := h
    exact .simple (.plain hquote hslash hcontrol) (ih htail)

/-- A string that stands for a text is one. -/
theorem letters_of_spells (h : Spells s body) : Letters body := by
  induction h with
  | nil => exact .nil
  | simple h _ ih => exact .simple h ih
  | unit h _ ih => exact .unit h ih
  | pair _ _ _ h h' _ ih => exact .unit h (.unit h' ih)

end Almanac.Json
