import Almanac.Json.Record
import Almanac.Proofs.Results
import Almanac.Proofs.Skipping
import Mathlib.Data.List.Forall2

/-! Lists and objects are read in any layout. A reader takes one item a round, and a run of rounds
takes all of them, so only the reading of one item is left to say. -/

namespace Almanac.Json
variable {α σ : Type} {c : Char} {cs rest rest' bound : List Char} {first : Bool}
  {items : List (List Char)} {m : MemberText} {ms : List MemberText}

/-! ### Steps -/

theorem nextName_first (spaces : Spaces) :
    nextName true (spaces.chars ++ '"' :: cs) = .ok (true, cs) := by
  simp [nextName, skipSpace_cons spaces.isSpace (by decide : isSpace '"' = false)]

theorem nextName_comma (spaces spaces' : Spaces) :
    nextName false (spaces.chars ++ ',' :: (spaces'.chars ++ '"' :: cs)) = .ok (true, cs) := by
  simp [nextName, skipSpace_cons spaces.isSpace (by decide : isSpace ',' = false),
    skipSpace_cons spaces'.isSpace (by decide : isSpace '"' = false)]

theorem nextName_end (spaces : Spaces) :
    nextName first (spaces.chars ++ '}' :: cs) = .ok (false, '}' :: cs) := by
  simp [nextName, skipSpace_cons spaces.isSpace (by decide : isSpace '}' = false)]

theorem nextElement_first (spaces : Spaces) (h : Begins .list cs) :
    nextElement true (spaces.chars ++ (cs ++ rest)) = .ok (true, cs ++ rest) := by
  obtain ⟨c, cs, rfl, hc, hend⟩ := h
  rw [List.cons_append, nextElement, skipSpace_cons spaces.isSpace hc]
  split <;> simp_all [Bracket.closing]

theorem nextElement_comma (spaces spaces' : Spaces) (h : Begins .list cs) :
    nextElement false (spaces.chars ++ ',' :: (spaces'.chars ++ (cs ++ rest))) =
      .ok (true, cs ++ rest) := by
  obtain ⟨c, cs, rfl, hc, hend⟩ := h
  simp only [List.cons_append, nextElement,
    skipSpace_cons spaces.isSpace (by decide : isSpace ',' = false),
    skipSpace_cons spaces'.isSpace hc]
  split <;> simp_all [Bracket.closing]

theorem nextElement_end (spaces : Spaces) :
    nextElement first (spaces.chars ++ ']' :: cs) = .ok (false, ']' :: cs) := by
  simp [nextElement, skipSpace_cons spaces.isSpace (by decide : isSpace ']' = false)]

theorem closeList_end (spaces : Spaces) : closeList (spaces.chars ++ ']' :: cs) = .ok cs := by
  rw [closeList, skipSpace_cons spaces.isSpace (by decide)]
  rfl

@[simp] theorem reading_ok {x : α} : reading (.ok x) = .ok x := rfl

theorem ok_of_reading {result : Except Failure α} {x : α} (h : reading result = .ok x) :
    result = .ok x := by
  cases result with
  | error f => cases h
  | ok y => rw [Except.ok.inj h]

section
variable {name : String} {record : α}
  {fromList fromObject : List Char → Except Stop (α × List Char)}

theorem readRecord_brace (spaces : Spaces) (cs : List Char) :
    readRecord name fromList fromObject (spaces.chars ++ '{' :: cs) =
      closeRecord closeObject (fromObject cs) := by
  rw [readRecord, skipSpace_cons spaces.isSpace (by decide)]
  rfl

theorem readRecord_bracket (spaces : Spaces) (cs : List Char) :
    readRecord name fromList fromObject (spaces.chars ++ '[' :: cs) =
      closeRecord closeList (fromList cs) := by
  rw [readRecord, skipSpace_cons spaces.isSpace (by decide)]
  rfl

/-- An object is a record when its members are read up to its closing brace. -/
theorem readRecord_object (spaces : Spaces) (h : fromObject cs = .ok (record, '}' :: rest)) :
    readRecord name fromList fromObject (spaces.chars ++ '{' :: cs) = .ok (record, rest) := by
  rw [readRecord_brace, h]
  rfl

theorem readRecord_list (spaces spaces' : Spaces)
    (h : fromList cs = .ok (record, spaces'.chars ++ ']' :: rest)) :
    readRecord name fromList fromObject (spaces.chars ++ '[' :: cs) = .ok (record, rest) := by
  rw [readRecord_bracket, h, closeRecord, closeList_end]
  rfl

/-- What is read of an object is all there is to a record. -/
theorem ok_of_readRecord_object {result : α × List Char} (spaces : Spaces)
    (h : readRecord name fromList fromObject (spaces.chars ++ '{' :: cs) = .ok result) :
    ∃ rest, fromObject cs = .ok (result.1, rest) := by
  rw [readRecord_brace] at h
  cases hread : fromObject cs with
  | ok read =>
    rw [hread] at h
    obtain ⟨rest, -, rfl⟩ := ok_of_map h
    exact ⟨read.2, rfl⟩
  | error stop =>
    rw [hread] at h
    cases stop with
    | failed f => cases h
    | refused fault rest =>
      simp only [closeRecord] at h
      split at h <;> cases h

end

/-! ### Runs -/

variable {member : σ → List Char → List Char → Except Stop (σ × List Char)} {state state' : σ}
  {element : List Char → Except Failure (α × List Char)}

theorem readMembers_stop (hname : nextName first cs = .ok (false, rest)) :
    readMembers member (c :: bound) first state cs = .ok (state, rest) := by
  simp [readMembers, hname]

theorem readMembers_step {name rest' rest'' : List Char}
    (hname : nextName first cs = .ok (true, rest)) (htext : readText rest = .ok (name, rest'))
    (hmember : member state name rest' = .ok (state', rest'')) :
    readMembers member (c :: bound) first state cs =
      readMembers member bound false state' rest'' := by
  simp [readMembers, hname, htext, hmember, bind, Except.bind]

theorem readElements_stop {done : List α} (hnext : nextElement first cs = .ok (false, rest)) :
    readElements element (c :: bound) first done cs = .ok (done.reverse, rest) := by
  simp [readElements, hnext]

theorem readElements_step {done : List α} {x : α} {rest' : List Char}
    (hnext : nextElement first cs = .ok (true, rest)) (hx : element rest = .ok (x, rest')) :
    readElements element (c :: bound) first done cs =
      readElements element bound false (x :: done) rest' := by
  simp [readElements, hnext, hx, bind, Except.bind]

/-- A reader takes this text as a value, whatever follows it. -/
def Reads (read : List Char → Except Failure (α × List Char)) (x : α) (cs : List Char) : Prop :=
  ∀ (spaces : Spaces) (rest : List Char), read (spaces.chars ++ (cs ++ rest)) = .ok (x, rest)

theorem Reads.eq_ok {read : List Char → Except Failure (α × List Char)} {x : α}
    (h : Reads read x cs) (rest : List Char) : read (cs ++ rest) = .ok (x, rest) := h .none rest

theorem expectEnd_spaces (spaces : Spaces) : expectEnd spaces.chars = .ok () := by
  have hskip := skipSpace_append spaces.isSpace []
  rw [List.append_nil] at hskip
  rw [expectEnd, hskip]
  rfl

/-- A value that is the whole of a text may have space around it. -/
theorem readWhole_reads {read : List Char → Except Failure (α × List Char)} {x : α}
    (h : Reads read x cs) (before after : Spaces) :
    readWhole read (before.chars ++ (cs ++ after.chars)) = .ok x := by
  simp only [readWhole, h before after.chars, expectEnd_spaces]

theorem ok_of_readWhole {read : List Char → Except Failure (α × List Char)} {x : α}
    (h : readWhole read cs = .ok x) : ∃ rest, read cs = .ok (x, rest) := by
  rw [readWhole] at h
  split at h
  next => cases h
  next y rest hread =>
    split at h <;> cases h
    exact ⟨rest, hread⟩

theorem length_lt_of_itemsAfter {b : Bracket} (h : ItemsAfter b items cs) :
    items.length < cs.length := by
  induction h with
  | nil => simp
  | cons spaces spaces' h ih =>
    simp only [List.length_append, List.length_cons]
    omega

/-- A reader of members takes these members one after another, from one state to another. -/
inductive MemberRun (member : σ → List Char → List Char → Except Stop (σ × List Char)) :
    σ → List MemberText → σ → Prop
  | nil {state : σ} : MemberRun member state [] state
  | cons {state state' state'' : σ} {m : MemberText} {ms : List MemberText} {name : List Char}
    (hname : Spells name m.name)
    (hmember : ∀ rest, NoNumeral rest → member state name (m.afterName rest) = .ok (state', rest))
    (htail : MemberRun member state' ms state'') : MemberRun member state (m :: ms) state''

theorem MemberRun.append {ms' : List MemberText} {state'' : σ}
    (h : MemberRun member state ms state') (h' : MemberRun member state' ms' state'') :
    MemberRun member state (ms ++ ms') state'' := by
  induction h with
  | nil => exact h'
  | cons hname hmember _ ih => exact .cons hname hmember (ih h')

theorem readMembers_itemsAfter (hrun : MemberRun member state ms state')
    (h : ItemsAfter .object (ms.map MemberText.chars) cs) (hbound : ms.length < bound.length) :
    readMembers member bound false state (cs ++ rest) = .ok (state', '}' :: rest) := by
  induction hrun generalizing bound cs with
  | nil =>
    obtain ⟨b, bound, rfl⟩ := List.exists_cons_of_length_pos hbound
    cases h with
    | nil spaces =>
      rw [List.append_assoc]
      exact readMembers_stop (nextName_end spaces)
  | cons hname hmember _ ih =>
    obtain ⟨b, bound, rfl⟩ := List.exists_cons_of_length_pos (Nat.zero_lt_of_lt hbound)
    cases h with
    | cons spaces spaces' h =>
      simp only [List.append_assoc, List.cons_append]
      rw [MemberText.chars_append]
      exact (readMembers_step (nextName_comma spaces spaces') (readText_spells hname _)
        (hmember _ (noNumeral_itemsAfter h))).trans (ih h (by simpa using hbound))

/-- An object is read member after member, from behind its opening brace. -/
theorem readMembers_object (hrun : MemberRun member state ms state') (h : IsObject ms cs)
    (rest : List Char) : ∃ cs', cs ++ rest = '{' :: cs' ∧ ∀ bound : List Char,
      cs'.length ≤ bound.length →
        readMembers member bound true state cs' = .ok (state', '}' :: rest) := by
  cases hrun with
  | nil =>
    cases h with
    | nil spaces =>
      refine ⟨spaces.chars ++ '}' :: rest, by simp [Bracket.opening, Bracket.closing],
        fun bound hbound => ?_⟩
      simp only [List.length_append, List.length_cons] at hbound
      obtain ⟨b, bound, rfl⟩ := List.exists_cons_of_length_pos (show 0 < bound.length by omega)
      exact readMembers_stop (nextName_end spaces)
  | @cons _ state₁ _ m ms name hname hmember htail =>
    cases h with
    | @cons spaces _ _ cs h =>
      have hlength := length_lt_of_itemsAfter h
      refine ⟨spaces.chars ++ (m.chars ++ (cs ++ rest)), by simp [Bracket.opening],
        fun bound hbound => ?_⟩
      rw [m.chars_append] at hbound ⊢
      simp only [List.length_append, List.length_cons, List.length_map, MemberText.afterName]
        at hlength hbound
      obtain ⟨b, bound, rfl⟩ := List.exists_cons_of_length_pos (show 0 < bound.length by omega)
      rw [List.length_cons] at hbound
      exact (readMembers_step (nextName_first spaces) (readText_spells hname _)
        (hmember _ (noNumeral_itemsAfter h))).trans (readMembers_itemsAfter htail h (by omega))

/-! A list is read likewise. -/

theorem readElements_itemsAfter {xs done : List α}
    (hitems : List.Forall₂ (fun x item => Begins .list item ∧ Reads element x item) xs items)
    (h : ItemsAfter .list items cs) (hbound : items.length < bound.length) :
    readElements element bound false done (cs ++ rest) = .ok (done.reverse ++ xs, ']' :: rest) := by
  induction hitems generalizing bound done cs with
  | nil =>
    obtain ⟨b, bound, rfl⟩ := List.exists_cons_of_length_pos hbound
    cases h with
    | nil spaces =>
      rw [List.append_assoc, List.append_nil]
      exact readElements_stop (nextElement_end spaces)
  | cons hitem _ ih =>
    obtain ⟨b, bound, rfl⟩ := List.exists_cons_of_length_pos (Nat.zero_lt_of_lt hbound)
    cases h with
    | cons spaces spaces' h =>
      simp only [List.append_assoc, List.cons_append]
      rw [readElements_step (nextElement_comma spaces spaces' hitem.1) (hitem.2.eq_ok _),
        ih h (by simpa using hbound)]
      simp

theorem readElements_bracketed {xs : List α} (h : Bracketed .list items cs)
    (hitems : List.Forall₂ (fun x item => Begins .list item ∧ Reads element x item) xs items)
    (rest : List Char) : ∃ cs', cs ++ rest = '[' :: cs' ∧ ∀ bound : List Char,
      cs'.length ≤ bound.length →
        readElements element bound true [] cs' = .ok (xs, ']' :: rest) := by
  cases h with
  | nil spaces =>
    cases hitems
    refine ⟨spaces.chars ++ ']' :: rest, by simp [Bracket.opening, Bracket.closing],
      fun bound hbound => ?_⟩
    simp only [List.length_append, List.length_cons] at hbound
    obtain ⟨b, bound, rfl⟩ := List.exists_cons_of_length_pos (show 0 < bound.length by omega)
    exact readElements_stop (nextElement_end spaces)
  | @cons spaces item items cs h =>
    cases hitems with
    | @cons x _ xs _ hitem htail =>
      have hlength := length_lt_of_itemsAfter h
      refine ⟨spaces.chars ++ (item ++ (cs ++ rest)), by simp [Bracket.opening],
        fun bound hbound => ?_⟩
      simp only [List.length_append] at hbound
      obtain ⟨b, bound, rfl⟩ := List.exists_cons_of_length_pos (show 0 < bound.length by omega)
      obtain ⟨d, ds, rfl, -⟩ := hitem.1
      simp only [List.length_cons] at hbound
      rw [readElements_step (nextElement_first spaces hitem.1) (hitem.2.eq_ok _),
        readElements_itemsAfter htail h (by omega)]
      rfl

/-- A list is read item after item. -/
theorem readList_bracketed {xs : List α} (h : Bracketed .list items cs)
    (hitems : List.Forall₂ (fun x item => Begins .list item ∧ Reads element x item) xs items) :
    Reads (readList element) xs cs := by
  intro spaces rest
  obtain ⟨cs', hcs, hread⟩ := readElements_bracketed h hitems rest
  rw [hcs, readList, skipSpace_cons spaces.isSpace (by decide)]
  simp only [hread _ (Nat.le_refl _), bind, Except.bind]
  rfl

/-! ### Texts -/

theorem reads_text {s : String} (h : IsText s cs) : Reads readExpectedText s.toList cs := by
  intro spaces rest
  obtain ⟨body, hbody, rfl⟩ := h
  rw [quote_append, readExpectedText, skipSpace_cons spaces.isSpace (by decide)]
  exact readText_spells hbody rest

theorem reads_optionalText {text : Option String} (h : IsOptionalText text cs) :
    Reads readOptionalText text cs := by
  intro spaces rest
  cases text with
  | none =>
    obtain rfl : cs = ['n', 'u', 'l', 'l'] := h
    rw [List.cons_append, readOptionalText, skipSpace_cons spaces.isSpace (by decide)]
    rfl
  | some s =>
    have hread := (reads_text h).eq_ok rest
    obtain ⟨body, -, rfl⟩ := h
    rw [quote_append] at hread ⊢
    rw [readOptionalText, skipSpace_cons spaces.isSpace (by decide)]
    change (readExpectedText _).map _ = _
    rw [hread]
    simp [Except.map]

theorem begins_optionalText {b : Bracket} {text : Option String} (h : IsOptionalText text cs) :
    Begins b cs := by
  cases text with
  | none => exact begins_value (.word (by rw [show cs = _ from h]; decide))
  | some s =>
    obtain ⟨body, hbody, rfl⟩ := h
    exact begins_value (.text (letters_of_spells hbody))

/-- What a value is can be seen from its first character. -/
theorem head_of_value (h : Value (c :: cs)) :
    c :: cs ∈ words ∨ (c = '-' ∨ c.isDigit = true) ∨ (∃ body, Letters body ∧ c :: cs = quote body) ∨
      ∃ b : Bracket, c = b.opening := by
  have hbracketed {b : Bracket} {items : List (List Char)} (h : Bracketed b items (c :: cs)) :
      c = b.opening := by
    obtain ⟨cs', hcs⟩ := opening_of_bracketed h
    exact (List.cons.inj hcs).1
  generalize hv : c :: cs = v at h hbracketed
  cases h with
  | word h => exact .inl h
  | number h =>
    obtain ⟨d, ds, rfl, hd⟩ := h.eq_cons
    obtain ⟨rfl, -⟩ := List.cons.inj hv
    exact .inr (.inl hd)
  | text h => exact .inr (.inr (.inl ⟨_, h, rfl⟩))
  | list h _ => exact .inr (.inr (.inr ⟨.list, hbracketed h⟩))
  | object h _ _ => exact .inr (.inr (.inr ⟨.object, hbracketed h⟩))

theorem quote_of_value (h : Value ('"' :: cs)) : ∃ body, Letters body ∧ cs = body ++ ['"'] := by
  obtain h | h | ⟨body, hbody, hcs⟩ | ⟨b, hb⟩ := head_of_value h
  · simp [mem_words] at h
  · exact absurd h (by decide)
  · exact ⟨body, hbody, (List.cons.inj hcs).2⟩
  · cases b <;> exact absurd hb (by decide)

theorem null_of_value (h : Value ('n' :: cs)) : cs = ['u', 'l', 'l'] := by
  obtain h | h | ⟨body, hbody, hcs⟩ | ⟨b, hb⟩ := head_of_value h
  · simpa [mem_words] using h
  · exact absurd h (by decide)
  · cases hcs
  · cases b <;> exact absurd hb (by decide)

/-- A value that is read as a text is read up to its end. -/
theorem rest_of_readExpectedText {v s : List Char} (h : Value v) (spaces : Spaces)
    (hread : readExpectedText (spaces.chars ++ (v ++ rest)) = .ok (s, rest')) : rest' = rest := by
  obtain ⟨c, cs, rfl, hc, -⟩ := begins_value (b := .list) h
  rw [List.cons_append, readExpectedText, skipSpace_cons spaces.isSpace hc] at hread
  by_cases hquote : c = '"'
  · subst hquote
    obtain ⟨body, hbody, rfl⟩ := quote_of_value h
    rw [List.append_assoc] at hread
    exact (spells_of_readText hbody hread).2
  · split at hread <;> simp_all

theorem rest_of_readOptionalText {v : List Char} {text : Option String} (h : Value v)
    (spaces : Spaces) (hread : readOptionalText (spaces.chars ++ (v ++ rest)) = .ok (text, rest')) :
    rest' = rest := by
  -- No other value begins as `null` does, so the rest of the reader never sees a part of that word.
  by_cases hnull : IsOptionalText none v
  · exact (Prod.mk.inj (Except.ok.inj (hread.symm.trans (reads_optionalText hnull spaces rest)))).2
  · obtain ⟨c, cs, rfl, hc, -⟩ := begins_value (b := .list) h
    have hn : c ≠ 'n' := by
      rintro rfl
      exact hnull (congrArg _ (null_of_value h))
    rw [List.cons_append, readOptionalText, skipSpace_cons spaces.isSpace hc] at hread
    split at hread
    next heq => exact absurd (List.cons.inj heq).1 hn
    next =>
      obtain ⟨⟨s, rest''⟩, hs, heq⟩ := ok_of_map hread
      obtain rfl := rest_of_readExpectedText h .none hs
      exact (Prod.mk.inj heq).2.symm

/-! ### What was read -/

theorem stop_of_readMembers {result : σ × List Char} (hname : nextName first cs = .ok (false, rest))
    (hread : readMembers member bound first state cs = .ok result) : result = (state, rest) := by
  cases bound with
  | nil => cases hread
  | cons c bound => exact (Except.ok.inj ((readMembers_stop hname).symm.trans hread)).symm

theorem step_of_readMembers {result : σ × List Char} (hname : nextName first cs = .ok (true, rest))
    (hread : readMembers member bound first state cs = .ok result) :
    ∃ name rest' next bound', readText rest = .ok (name, rest') ∧
      member state name rest' = .ok next ∧
        readMembers member bound' false next.1 next.2 = .ok result := by
  cases bound with
  | nil => cases hread
  | cons c bound =>
    simp only [readMembers, hname] at hread
    obtain ⟨⟨name, rest'⟩, htext, hread⟩ := ok_of_bind hread
    obtain ⟨next, hmember, hread⟩ := ok_of_bind hread
    exact ⟨name, rest', next, bound, ok_of_reading htext, hmember, hread⟩

/-- A reader of members reads each value up to its end, and `Inv` is preserved: it relates the
members so far and the state. -/
def Preserves (member : σ → List Char → List Char → Except Stop (σ × List Char))
    (Inv : List MemberText → σ → Prop) : Prop :=
  ∀ {done : List MemberText} {state : σ} {m : MemberText} {name rest : List Char}
    {next : σ × List Char}, Spells name m.name → Value m.value → NoNumeral rest → Inv done state →
      member state name (m.afterName rest) = .ok next → next.2 = rest ∧ Inv (done ++ [m]) next.1

variable {Inv : List MemberText → σ → Prop} {done : List MemberText}

theorem inv_of_readMembers_cons (hpreserves : Preserves member Inv) {result : σ × List Char}
    (hletters : Letters m.name) (hvalue : Value m.value) (hrest : NoNumeral rest)
    (hname : nextName first cs = .ok (true, m.name ++ '"' :: m.afterName rest))
    (hinv : Inv done state) (hread : readMembers member bound first state cs = .ok result) :
    ∃ bound' next, Inv (done ++ [m]) next ∧
      readMembers member bound' false next rest = .ok result := by
  obtain ⟨name, rest', ⟨next, rest''⟩, bound', htext, hmember, hread⟩ :=
    step_of_readMembers hname hread
  obtain ⟨hspells, rfl⟩ := spells_of_readText hletters htext
  obtain ⟨rfl, hinv⟩ := hpreserves hspells hvalue hrest hinv hmember
  exact ⟨bound', next, hinv, hread⟩

theorem inv_of_readMembers_itemsAfter (hpreserves : Preserves member Inv)
    {result : σ × List Char} (hletters : ∀ m ∈ ms, Letters m.name)
    (hvalues : ∀ m ∈ ms, Value m.value) (h : ItemsAfter .object (ms.map MemberText.chars) cs)
    (hinv : Inv done state)
    (hread : readMembers member bound false state (cs ++ rest) = .ok result) :
    Inv (done ++ ms) result.1 := by
  induction ms generalizing done state bound cs with
  | nil =>
    cases h with
    | nil spaces =>
      rw [List.append_assoc] at hread
      rwa [stop_of_readMembers (nextName_end spaces) hread, List.append_nil]
  | cons m ms ih =>
    cases h with
    | @cons spaces spaces' _ _ cs h =>
      simp only [List.append_assoc, List.cons_append] at hread
      rw [MemberText.chars_append] at hread
      obtain ⟨bound', next, hinv, hread⟩ := inv_of_readMembers_cons hpreserves
        (hletters m List.mem_cons_self) (hvalues m List.mem_cons_self) (noNumeral_itemsAfter h)
        (nextName_comma spaces spaces') hinv hread
      have htail := ih (fun m hm => hletters m (List.mem_cons_of_mem _ hm))
        (fun m hm => hvalues m (List.mem_cons_of_mem _ hm)) h hinv hread
      rwa [List.append_assoc] at htail

/-- What every member preserves holds after the last member of an object. -/
theorem inv_of_readMembers_object (hpreserves : Preserves member Inv) {result : σ × List Char}
    (hletters : ∀ m ∈ ms, Letters m.name) (hvalues : ∀ m ∈ ms, Value m.value)
    (h : IsObject ms cs) (hinv : Inv [] state) (hcs : cs ++ rest = '{' :: rest')
    (hread : readMembers member bound true state rest' = .ok result) : Inv ms result.1 := by
  cases ms with
  | nil =>
    cases h with
    | nil spaces =>
      obtain rfl : spaces.chars ++ '}' :: rest = rest' := by
        simpa [Bracket.opening, Bracket.closing] using hcs
      rwa [stop_of_readMembers (nextName_end spaces) hread]
  | cons m ms =>
    cases h with
    | @cons spaces _ _ cs h =>
      obtain rfl : spaces.chars ++ (m.chars ++ (cs ++ rest)) = rest' := by
        simpa [Bracket.opening] using hcs
      rw [m.chars_append] at hread
      obtain ⟨bound', next, hinv, hread⟩ := inv_of_readMembers_cons hpreserves
        (hletters m List.mem_cons_self) (hvalues m List.mem_cons_self) (noNumeral_itemsAfter h)
        (nextName_first spaces) hinv hread
      exact inv_of_readMembers_itemsAfter hpreserves
        (fun m hm => hletters m (List.mem_cons_of_mem _ hm))
        (fun m hm => hvalues m (List.mem_cons_of_mem _ hm)) h hinv hread

end Almanac.Json
