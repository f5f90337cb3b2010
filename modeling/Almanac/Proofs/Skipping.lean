import Almanac.Proofs.Spelling

/-! A value is passed over exactly, whatever its size and depth: what follows it is left. The
machine that passes over values is taken from behind one value to behind the next, with the brackets
that are open around it. -/

namespace Almanac.Json
variable {c : Char} {b : Bracket} {bs : List Bracket} {m : MemberText} {items : List (List Char)}
  {ds cs v item tail bound rest : List Char}

/-! ### Numbers -/

/-- What follows does not go on with a number. -/
def NoNumeral (rest : List Char) : Prop :=
  ∀ c ∈ rest.head?, c.isDigit = false ∧ c ≠ '.' ∧ c ≠ 'e' ∧ c ≠ 'E'

def NoDigit (rest : List Char) : Prop := ∀ c ∈ rest.head?, c.isDigit = false

theorem noDigit_of_noNumeral (h : NoNumeral rest) : NoDigit rest := fun c hc => (h c hc).1

theorem Digits.eq_cons (h : Digits ds) :
    ∃ d tail, ds = d :: tail ∧ d.isDigit = true ∧ tail.all Char.isDigit := by
  obtain ⟨hne, hall⟩ := h
  obtain ⟨d, tail, rfl⟩ := List.exists_cons_of_ne_nil hne
  rw [List.all_cons, Bool.and_eq_true] at hall
  exact ⟨d, tail, rfl, hall⟩

theorem dropWhile_digits (hds : ds.all Char.isDigit) (h : NoDigit rest) :
    (ds ++ rest).dropWhile Char.isDigit = rest := by
  rw [List.dropWhile_append_of_pos (List.all_eq_true.1 hds)]
  cases rest with
  | nil => rfl
  | cons c rest => rw [List.dropWhile_cons_of_neg (by simp [h c rfl])]

theorem takeWhile_digits (hds : ds.all Char.isDigit) (h : NoDigit rest) :
    (ds ++ rest).takeWhile Char.isDigit = ds := by
  rw [List.takeWhile_append_of_pos (List.all_eq_true.1 hds)]
  cases rest with
  | nil => simp
  | cons c rest => rw [List.takeWhile_cons_of_neg (by simp [h c rfl]), List.append_nil]

theorem skipExponent_digits {sign : List Char} (hsign : sign = [] ∨ sign = ['+'] ∨ sign = ['-'])
    (hds : Digits ds) (h : NoDigit rest) : skipExponent (sign ++ (ds ++ rest)) = .ok rest := by
  obtain ⟨d, ds, rfl, hd, hall⟩ := hds.eq_cons
  have hplus : d ≠ '+' := by rintro rfl; exact absurd hd (by decide)
  have hminus : d ≠ '-' := by rintro rfl; exact absurd hd (by decide)
  rcases hsign with rfl | rfl | rfl <;>
    simp [skipExponent, hd, hplus, hminus, dropWhile_digits hall h]

/-- What follows the whole digits of a number. -/
def skipAfterWhole : List Char → Except Failure (List Char)
  | '.' :: rest => skipFraction rest
  | 'e' :: rest | 'E' :: rest => skipExponent rest
  | rest => .ok rest

theorem skipAfterWhole_exponent {exponent : List Char} (hexponent : Exponent exponent)
    (h : NoNumeral rest) : skipAfterWhole (exponent ++ rest) = .ok rest := by
  cases hexponent with
  | none =>
    cases rest with
    | nil => rfl
    | cons c rest =>
      obtain ⟨-, hpoint, he, hE⟩ := h c rfl
      simp [skipAfterWhole, hpoint, he, hE]
  | some hletter hsign hds =>
    have hskip := skipExponent_digits hsign hds (noDigit_of_noNumeral h)
    rcases hletter with rfl | rfl <;> simpa [skipAfterWhole] using hskip

theorem noDigit_exponent {exponent : List Char} (hexponent : Exponent exponent)
    (h : NoNumeral rest) : NoDigit (exponent ++ rest) := by
  cases hexponent with
  | none => exact noDigit_of_noNumeral h
  | some hletter =>
    intro c hc
    cases hc
    rcases hletter with rfl | rfl <;> decide

theorem skipAfterWhole_fraction {fraction exponent : List Char} (hfraction : Fraction fraction)
    (hexponent : Exponent exponent) (h : NoNumeral rest) :
    skipAfterWhole (fraction ++ (exponent ++ rest)) = .ok rest := by
  cases hfraction with
  | none => exact skipAfterWhole_exponent hexponent h
  | @some ds hds =>
    have hnext := noDigit_exponent hexponent h
    have htail := skipAfterWhole_exponent hexponent h
    change skipFraction (ds ++ (exponent ++ rest)) = .ok rest
    obtain ⟨d, ds', rfl⟩ := List.exists_cons_of_ne_nil hds.1
    simp only [skipFraction, takeWhile_digits hds.2 hnext, dropWhile_digits hds.2 hnext]
    cases hexponent with
    | none =>
      cases rest with
      | nil => rfl
      | cons c rest =>
        obtain ⟨-, hpoint, he, hE⟩ := h c rfl
        simp [he, hE]
    | some hletter hsign hds =>
      rcases hletter with rfl | rfl <;> exact htail

theorem noDigit_fraction {fraction exponent : List Char} (hfraction : Fraction fraction)
    (hexponent : Exponent exponent) (h : NoNumeral rest) :
    NoDigit (fraction ++ (exponent ++ rest)) := by
  cases hfraction with
  | none =>
    change NoDigit (exponent ++ rest)
    exact noDigit_exponent hexponent h
  | some _ =>
    intro c hc
    cases hc
    decide

theorem skipNumber_whole {whole : List Char} (hwhole : Whole whole) (h : NoDigit tail) :
    skipNumber (whole ++ tail) = skipAfterWhole tail := by
  obtain ⟨hds, hzero⟩ := hwhole
  obtain ⟨d, ds, rfl, hd, hall⟩ := hds.eq_cons
  have hafter : (if d = '0' then ds ++ tail else (ds ++ tail).dropWhile Char.isDigit) = tail := by
    split
    next heq =>
      rw [heq] at hzero
      obtain ⟨-, rfl⟩ := List.cons.inj (hzero rfl)
      rfl
    next => exact dropWhile_digits hall h
  simp only [List.cons_append, skipNumber, hafter, hd, Bool.not_true, Bool.false_eq_true, if_false]
  unfold skipAfterWhole
  cases tail with
  | nil => rfl
  | cons c tail =>
    have hc := h c rfl
    split <;> simp_all

/-- A digit begins nothing but a number. -/
theorem isDigit_begins (h : c.isDigit = true) :
    isSpace c = false ∧ c ≠ '[' ∧ c ≠ '{' ∧ c ≠ 'n' ∧ c ≠ 't' ∧ c ≠ 'f' ∧ c ≠ '"' ∧ c ≠ '-' := by
  refine ⟨?_, ?_, ?_, ?_, ?_, ?_, ?_, ?_⟩
  · rw [Bool.eq_false_iff]
    intro hspace
    simp only [isSpace, decide_eq_true_eq] at hspace
    rcases hspace with rfl | rfl | rfl | rfl <;> revert h <;> decide
  all_goals
    rintro rfl
    revert h
    decide

theorem skipHead_numeral (h : Numeral cs) (spaces : Spaces) (hrest : NoNumeral rest) :
    skipHead (spaces.chars ++ (cs ++ rest)) = .ok (none, rest) := by
  obtain ⟨hsign, hwhole, hfraction, hexponent⟩ := h
  have hnumber := (skipNumber_whole hwhole (noDigit_fraction hfraction hexponent hrest)).trans
    (skipAfterWhole_fraction hfraction hexponent hrest)
  rcases hsign with rfl | rfl
  · obtain ⟨d, ds, rfl, hd, -⟩ := hwhole.1.eq_cons
    obtain ⟨hspace, hlist, hobject, hn, ht, hf, hquote, hminus⟩ := isDigit_begins hd
    simp only [List.cons_append, List.nil_append, List.append_assoc] at hnumber ⊢
    rw [skipHead, skipSpace_cons spaces.isSpace hspace]
    simp [hd, hnumber, Except.map]
  · simp only [List.cons_append, List.nil_append, List.append_assoc] at hnumber ⊢
    rw [skipHead, skipSpace_cons spaces.isSpace (by decide)]
    simp [hnumber, Except.map]

/-! ### Heads of values -/

theorem mem_words : cs ∈ words ↔
    cs = ['n', 'u', 'l', 'l'] ∨ cs = ['t', 'r', 'u', 'e'] ∨ cs = ['f', 'a', 'l', 's', 'e'] := by
  simp [words]

theorem skipHead_word (h : cs ∈ words) (spaces : Spaces) :
    skipHead (spaces.chars ++ (cs ++ rest)) = .ok (none, rest) := by
  rcases mem_words.1 h with rfl | rfl | rfl
  all_goals
    change skipHead (spaces.chars ++ _ :: _) = _
    rw [skipHead, skipSpace_cons spaces.isSpace (by decide)]
    rfl

theorem quote_append (body rest : List Char) :
    quote body ++ rest = '"' :: (body ++ '"' :: rest) := by
  simp [quote]

theorem skipHead_text {body : List Char} (h : Letters body) (spaces : Spaces) :
    skipHead (spaces.chars ++ (quote body ++ rest)) = .ok (none, rest) := by
  rw [quote_append, skipHead, skipSpace_cons spaces.isSpace (by decide)]
  simp [skipText_letters h, Except.map]

theorem isSpace_opening (b : Bracket) : isSpace b.opening = false := by cases b <;> decide

theorem isSpace_closing (b : Bracket) : isSpace b.closing = false := by cases b <;> decide

theorem skipHead_opening (b : Bracket) (spaces : Spaces) :
    skipHead (spaces.chars ++ b.opening :: rest) = .ok (some b, rest) := by
  rw [skipHead, skipSpace_cons spaces.isSpace (isSpace_opening b)]
  cases b <;> rfl

/-- The first character of an item is seen for what it is behind a bracket or a comma. -/
def Begins (b : Bracket) (item : List Char) : Prop :=
  ∃ c cs, item = c :: cs ∧ isSpace c = false ∧ c ≠ b.closing

theorem begins_quote (b : Bracket) (body rest : List Char) : Begins b (quote body ++ rest) := by
  refine ⟨'"', body ++ '"' :: rest, quote_append body rest, by decide, ?_⟩
  cases b <;> decide

theorem begins_opening (b b' : Bracket) (rest : List Char) : Begins b (b'.opening :: rest) := by
  refine ⟨b'.opening, rest, rfl, isSpace_opening b', ?_⟩
  cases b <;> cases b' <;> decide

theorem opening_of_bracketed (h : Bracketed b items cs) : ∃ cs', cs = b.opening :: cs' := by
  cases h <;> exact ⟨_, rfl⟩

theorem begins_bracketed {b' : Bracket} (h : Bracketed b' items cs) : Begins b cs := by
  obtain ⟨cs', rfl⟩ := opening_of_bracketed h
  exact begins_opening b b' cs'

theorem Numeral.eq_cons (h : Numeral cs) :
    ∃ c tail, cs = c :: tail ∧ (c = '-' ∨ c.isDigit = true) := by
  obtain ⟨hsign, hwhole, -, -⟩ := h
  rcases hsign with rfl | rfl
  · obtain ⟨d, ds, rfl, hd, -⟩ := hwhole.1.eq_cons
    exact ⟨d, _, rfl, .inr hd⟩
  · exact ⟨'-', _, rfl, .inl rfl⟩

theorem begins_numeral (h : Numeral cs) : Begins b cs := by
  obtain ⟨c, tail, rfl, rfl | hd⟩ := h.eq_cons
  · refine ⟨'-', tail, rfl, by decide, ?_⟩
    cases b <;> decide
  · refine ⟨c, tail, rfl, (isDigit_begins hd).1, ?_⟩
    rintro rfl
    cases b <;> exact absurd hd (by decide)

theorem begins_value (h : Value v) : Begins b v := by
  cases h with
  | word h =>
    rcases mem_words.1 h with rfl | rfl | rfl
    all_goals
      refine ⟨_, _, rfl, by decide, ?_⟩
      cases b <;> decide
  | number h => exact begins_numeral h
  | @text body _ =>
    have hquote := begins_quote b body []
    rwa [List.append_nil] at hquote
  | list h _ => exact begins_bracketed h
  | object h _ _ => exact begins_bracketed h

/-! ### The machine -/

/-- What passing over comes to when a value is complete or another one is to come. -/
def skipNext (bound : List Char) : List Bracket × List Char → Except Failure (List Char)
  | ([], rest) => .ok rest
  | (b :: bs, rest) => do
    let rest ← skipName b rest
    skipWithin bound (b :: bs) rest

/-- What it comes to from behind a value. -/
def skipOn (bound : List Char) (bs : List Bracket) (cs : List Char) : Except Failure (List Char) :=
  resume bs cs >>= skipNext bound

theorem skipWithin_none (h : skipHead cs = .ok (none, rest)) :
    skipWithin (c :: bound) bs cs = skipOn bound bs rest := by
  simp only [skipWithin, h, skipOn, bind, Except.bind]
  cases resume bs rest with
  | error f => rfl
  | ok next => rcases next with ⟨_ | ⟨b, bs⟩, rest⟩ <;> rfl

theorem skipWithin_some (h : skipHead cs = .ok (some b, rest)) :
    skipWithin (c :: bound) bs cs = enter b bs rest >>= skipNext bound := by
  simp only [skipWithin, h, bind, Except.bind]
  cases enter b bs rest with
  | error f => rfl
  | ok next => rcases next with ⟨_ | ⟨b, bs⟩, rest⟩ <;> rfl

theorem resume_closing (spaces : Spaces) :
    resume (b :: bs) (spaces.chars ++ b.closing :: rest) = resume bs rest := by
  rw [resume, skipSpace_cons spaces.isSpace (isSpace_closing b)]
  cases b <;> rfl

theorem resume_comma (spaces : Spaces) :
    resume (b :: bs) (spaces.chars ++ ',' :: rest) = .ok (b :: bs, rest) := by
  rw [resume, skipSpace_cons spaces.isSpace (by decide)]
  rfl

theorem enter_closing (spaces : Spaces) :
    enter b bs (spaces.chars ++ b.closing :: rest) = resume bs rest := by
  rw [enter, skipSpace_cons spaces.isSpace (isSpace_closing b)]
  simp

theorem enter_item (h : Begins b item) (spaces : Spaces) :
    enter b bs (spaces.chars ++ (item ++ rest)) = .ok (b :: bs, item ++ rest) := by
  obtain ⟨c, cs, rfl, hspace, hclosing⟩ := h
  rw [List.cons_append, enter, skipSpace_cons spaces.isSpace hspace]
  simp [hclosing]

theorem noNumeral_cons (h : isSpace c = true ∨ c = ',' ∨ c = ']' ∨ c = '}') :
    NoNumeral (c :: rest) := by
  intro d hd
  cases hd
  simp only [isSpace, decide_eq_true_eq] at h
  rcases h with (rfl | rfl | rfl | rfl) | rfl | rfl | rfl <;> decide

theorem noNumeral_itemsAfter (h : ItemsAfter b items cs) : NoNumeral (cs ++ rest) := by
  have hspaces (spaces : Spaces) {c : Char} (hc : c = ',' ∨ c = ']' ∨ c = '}') (cs : List Char) :
      NoNumeral (spaces.chars ++ c :: cs) := by
    obtain ⟨_ | ⟨d, ds⟩, hall⟩ := spaces
    · exact noNumeral_cons (.inr hc)
    · simp only [List.all_cons, Bool.and_eq_true] at hall
      exact noNumeral_cons (.inl hall.1)
  cases h with
  | nil spaces =>
    rw [List.append_assoc]
    refine hspaces spaces ?_ _
    cases b <;> simp [Bracket.closing]
  | cons spaces spaces' h =>
    rw [List.append_assoc]
    exact hspaces spaces (.inl rfl) _

/-- An item is passed over within its brackets: the machine goes on behind it. No bound is run
through, since each round takes at least one character of the text. -/
def Passes (b : Bracket) (item : List Char) : Prop :=
  ∀ (spaces : Spaces) (bound : List Char) (bs : List Bracket) (rest : List Char), NoNumeral rest →
    (spaces.chars ++ (item ++ rest)).length ≤ bound.length →
    ∃ bound', rest.length ≤ bound'.length ∧
      skipNext bound (b :: bs, spaces.chars ++ (item ++ rest)) = skipOn bound' (b :: bs) rest

theorem skipOn_itemsAfter (h : ItemsAfter b items cs) (hitems : ∀ item ∈ items, Passes b item)
    (hbound : (cs ++ rest).length ≤ bound.length) :
    ∃ bound', rest.length ≤ bound'.length ∧
      skipOn bound (b :: bs) (cs ++ rest) = skipOn bound' bs rest := by
  induction h generalizing bound with
  | nil spaces =>
    refine ⟨bound, ?_, ?_⟩
    · simp only [List.length_append] at hbound
      omega
    · rw [skipOn, List.append_assoc, List.singleton_append, resume_closing, skipOn]
  | @cons spaces spaces' item items cs h ih =>
    simp only [List.append_assoc, List.cons_append] at hbound ⊢
    obtain ⟨bound', hbound', hitem⟩ := hitems item List.mem_cons_self spaces' bound bs (cs ++ rest)
      (noNumeral_itemsAfter h) (by simp only [List.length_append, List.length_cons] at *; omega)
    obtain ⟨bound'', hbound'', htail⟩ :=
      ih (fun item hmem => hitems item (List.mem_cons_of_mem _ hmem)) hbound'
    refine ⟨bound'', hbound'', ?_⟩
    rw [skipOn, resume_comma]
    exact hitem.trans htail

theorem skipWithin_bracketed (h : Bracketed b items cs) (hbegins : ∀ item ∈ items, Begins b item)
    (hitems : ∀ item ∈ items, Passes b item) (spaces : Spaces)
    (hbound : (spaces.chars ++ (cs ++ rest)).length ≤ bound.length) :
    ∃ bound', rest.length ≤ bound'.length ∧
      skipWithin bound bs (spaces.chars ++ (cs ++ rest)) = skipOn bound' bs rest := by
  cases h with
  | nil spaces' =>
    simp only [List.append_assoc, List.cons_append, List.nil_append] at hbound ⊢
    simp only [List.length_append, List.length_cons] at hbound
    obtain ⟨c, bound, rfl⟩ := List.exists_cons_of_length_pos (show 0 < bound.length by omega)
    refine ⟨bound, by simp only [List.length_cons] at hbound; omega, ?_⟩
    rw [skipWithin_some (skipHead_opening b spaces), enter_closing, skipOn]
  | @cons spaces' item items cs h =>
    simp only [List.append_assoc, List.cons_append] at hbound ⊢
    simp only [List.length_append, List.length_cons] at hbound
    obtain ⟨c, bound, rfl⟩ := List.exists_cons_of_length_pos (show 0 < bound.length by omega)
    simp only [List.length_cons] at hbound
    obtain ⟨bound', hbound', hitem⟩ := hitems item List.mem_cons_self .none bound bs (cs ++ rest)
      (noNumeral_itemsAfter h)
      (by simp only [Spaces.none, List.length_append, List.nil_append]; omega)
    obtain ⟨bound'', hbound'', htail⟩ := skipOn_itemsAfter h
      (fun item hmem => hitems item (List.mem_cons_of_mem _ hmem)) hbound'
    refine ⟨bound'', hbound'', ?_⟩
    rw [skipWithin_some (skipHead_opening b spaces), enter_item (hbegins item List.mem_cons_self)]
    exact hitem.trans htail

theorem expectColon_afterName (m : MemberText) (rest : List Char) :
    expectColon (m.afterName rest) = .ok (m.afterColon.chars ++ (m.value ++ rest)) := by
  rw [MemberText.afterName, expectColon, skipSpace_cons m.beforeColon.isSpace (by decide)]
  rfl

/-- The name of a member is passed over together with its colon. -/
theorem skipName_member (hname : Letters m.name) (spaces : Spaces) :
    skipName .object (spaces.chars ++ (m.chars ++ rest)) =
      .ok (m.afterColon.chars ++ (m.value ++ rest)) := by
  rw [m.chars_append, skipName, skipSpace_cons spaces.isSpace (by decide)]
  simp only [skipText_letters hname, bind, Except.bind]
  exact expectColon_afterName m rest

/-- A value that opens no bracket takes one round. -/
theorem skipWithin_atom (h : Begins .list v) {spaces : Spaces}
    (hhead : skipHead (spaces.chars ++ (v ++ rest)) = .ok (none, rest))
    (hbound : (spaces.chars ++ (v ++ rest)).length ≤ bound.length) :
    ∃ bound', rest.length ≤ bound'.length ∧
      skipWithin bound bs (spaces.chars ++ (v ++ rest)) = skipOn bound' bs rest := by
  obtain ⟨d, ds, rfl, -⟩ := h
  simp only [List.length_append, List.length_cons] at hbound
  obtain ⟨c, bound, rfl⟩ := List.exists_cons_of_length_pos (show 0 < bound.length by omega)
  exact ⟨bound, by simp only [List.length_cons] at hbound; omega, skipWithin_none hhead⟩

/-- The machine passes over a value within any open brackets. -/
theorem skipWithin_value (h : Value v) :
    ∀ (spaces : Spaces) (bound : List Char) (bs : List Bracket) (rest : List Char), NoNumeral rest →
      (spaces.chars ++ (v ++ rest)).length ≤ bound.length →
      ∃ bound', rest.length ≤ bound'.length ∧
        skipWithin bound bs (spaces.chars ++ (v ++ rest)) = skipOn bound' bs rest := by
  -- The open brackets are left general: the items of a list are passed over within one more.
  induction h with
  | word h =>
    intro spaces bound bs rest _ hbound
    exact skipWithin_atom (begins_value (.word h)) (skipHead_word h spaces) hbound
  | number h =>
    intro spaces bound bs rest hrest hbound
    exact skipWithin_atom (begins_numeral h) (skipHead_numeral h spaces hrest) hbound
  | text h =>
    intro spaces bound bs rest _ hbound
    exact skipWithin_atom (begins_value (.text h)) (skipHead_text h spaces) hbound
  | list h hitems ih =>
    intro spaces bound bs rest _ hbound
    exact skipWithin_bracketed h (fun item hmem => begins_value (hitems item hmem))
      (fun item hmem spaces bound bs => ih item hmem spaces bound (.list :: bs)) spaces hbound
  | @object members cs h hnames hvalues ih =>
    intro spaces bound bs rest _ hbound
    refine skipWithin_bracketed h ?_ ?_ spaces hbound
    · intro item hmem
      obtain ⟨m, -, rfl⟩ := List.mem_map.1 hmem
      exact begins_quote _ _ _
    · intro item hmem spaces bound bs rest hrest hbound
      obtain ⟨m, hm, rfl⟩ := List.mem_map.1 hmem
      have hvalue := ih m hm m.afterColon bound (.object :: bs) rest hrest ?_
      · simp only [skipNext, skipName_member (hnames m hm), bind, Except.bind]
        exact hvalue
      · simp only [MemberText.chars, quote, List.length_append, List.length_cons] at hbound ⊢
        omega

/-- A value is passed over up to its end. -/
theorem skipValue_value (h : Value v) (spaces : Spaces) (hrest : NoNumeral rest) :
    skipValue (spaces.chars ++ (v ++ rest)) = .ok rest := by
  obtain ⟨bound, -, hskip⟩ := skipWithin_value h spaces _ [] rest hrest (Nat.le_refl _)
  rw [skipValue, hskip]
  rfl

end Almanac.Json
