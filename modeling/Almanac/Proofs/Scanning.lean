import Almanac.Proofs.Canonical
import Almanac.Template.Attempts

/-! Reading a template always ends, and at the end of the text. Wherever it stands one of the
attempts takes something, so the repetition is never stuck and does not stop before the end. What
the attempt at a marker has read in vain is given back. -/

namespace Almanac.Template.Attempt

section
variable {α : Type} {attempt : List Char → Attempt α}
  {attempts others : List (List Char → Attempt α)}
  {cs rest rest' left : List Char} {value value' : α} {n n' : Nat} {ending ending' : Repeated α}

/-! ### Choices and repetitions -/

/-- The attempt at place `n` takes something, and those before it fail, whatever they leave. -/
structure ComesFirst (attempts : List (List Char → Attempt α)) (cs : List Char) (n : Nat)
    (value : α) (rest : List Char) : Prop where
  before : ∀ attempt ∈ attempts.take n, ∃ left, attempt cs = failed left
  here : ∃ attempt, attempts[n]? = some attempt ∧ attempt cs = taken value rest

theorem comesFirst_zero (h : attempt cs = taken value rest) :
    ComesFirst (attempt :: others) cs 0 value rest :=
  ⟨by simp, attempt, rfl, h⟩

theorem comesFirst_succ (h : attempt cs = failed left) :
    ComesFirst (attempt :: others) cs (n + 1) value rest ↔ ComesFirst others cs n value rest := by
  constructor
  · rintro ⟨hbefore, hhere⟩
    exact ⟨fun other hmem => hbefore other (List.mem_cons_of_mem _ hmem), by simpa using hhere⟩
  · rintro ⟨hbefore, hhere⟩
    refine ⟨?_, by simpa using hhere⟩
    rw [List.take_succ_cons]
    exact List.forall_mem_cons.2 ⟨⟨left, h⟩, hbefore⟩

theorem comesFirst_unique (h : ComesFirst attempts cs n value rest)
    (h' : ComesFirst attempts cs n' value' rest') : n = n' := by
  have hearlier {m m' : Nat} {v v' : α} {r r' : List Char} (hm : ComesFirst attempts cs m v r)
      (hm' : ComesFirst attempts cs m' v' r') : ¬ m < m' := by
    intro hlt
    obtain ⟨attempt, hget, htaken⟩ := hm.here
    have hmem : attempt ∈ attempts.take m' :=
      List.mem_of_getElem? (by rw [List.getElem?_take_of_lt hlt, hget])
    obtain ⟨left, hfailed⟩ := hm'.before attempt hmem
    cases htaken.symm.trans hfailed
  have hle := hearlier h h'
  have hge := hearlier h' h
  omega

/-- A choice takes what the first attempt takes that does not fail. -/
theorem choice_eq_taken_iff :
    choice attempts cs = taken value rest ↔ ∃ n, ComesFirst attempts cs n value rest := by
  induction attempts with
  | nil =>
    constructor
    · intro h
      cases h
    · rintro ⟨n, -, attempt, hget, -⟩
      cases hget
  | cons attempt others ih =>
    cases hattempt : attempt cs with
    | taken value' rest' =>
      rw [choice, hattempt]
      constructor
      · intro h
        exact ⟨0, comesFirst_zero (hattempt.trans h)⟩
      · rintro ⟨n, h⟩
        obtain rfl := comesFirst_unique h (comesFirst_zero hattempt)
        obtain ⟨first, hget, htaken⟩ := h.here
        obtain rfl := Option.some.inj hget
        exact hattempt.symm.trans htaken
    | failed left =>
      rw [choice, hattempt]
      dsimp only
      rw [ih]
      constructor
      · rintro ⟨n, h⟩
        exact ⟨n + 1, (comesFirst_succ hattempt).2 h⟩
      · rintro ⟨n, h⟩
        cases n with
        | zero =>
          obtain ⟨first, hget, htaken⟩ := h.here
          obtain rfl := Option.some.inj hget
          cases htaken.symm.trans hattempt
        | succ n => exact ⟨n, (comesFirst_succ hattempt).1 h⟩

theorem found?_choice (attempts : List (List Char → Attempt α)) (cs : List Char) :
    (choice attempts cs).found? = attempts.findSome? fun attempt => (attempt cs).found? := by
  induction attempts with
  | nil => rfl
  | cons attempt others ih =>
    rw [choice, List.findSome?_cons]
    cases attempt cs with
    | taken value rest => rfl
    | failed left => exact ih

/-- A choice that fails is back where it began. -/
theorem eq_of_choice_failed (h : choice attempts cs = failed left) : left = cs := by
  induction attempts with
  | nil =>
    cases h
    rfl
  | cons attempt others ih =>
    rw [choice] at h
    split at h
    · cases h
    · exact ih h

theorem repeats_unique (h : Repeats attempt cs ending) (h' : Repeats attempt cs ending') :
    ending = ending' := by
  induction h generalizing ending' with
  | stop hfailed =>
    cases h' with
    | stop => rfl
    | stuck htaken | more htaken | moreStuck htaken => cases hfailed.symm.trans htaken
  | stuck htaken hnone =>
    cases h' with
    | stop hfailed => cases hfailed.symm.trans htaken
    | stuck htaken' =>
      cases htaken.symm.trans htaken'
      rfl
    | more htaken' hsome | moreStuck htaken' hsome =>
      cases htaken.symm.trans htaken'
      exact (hsome hnone).elim
  | more htaken hsome _ ih =>
    cases h' with
    | stop hfailed => cases hfailed.symm.trans htaken
    | stuck htaken' hnone =>
      cases htaken.symm.trans htaken'
      exact (hsome hnone).elim
    | more htaken' _ hrest =>
      cases htaken.symm.trans htaken'
      cases ih hrest
      rfl
    | moreStuck htaken' _ hrest =>
      cases htaken.symm.trans htaken'
      cases ih hrest
  | moreStuck htaken hsome _ ih =>
    cases h' with
    | stop hfailed => cases hfailed.symm.trans htaken
    | stuck htaken' hnone =>
      cases htaken.symm.trans htaken'
      exact (hsome hnone).elim
    | more htaken' _ hrest =>
      cases htaken.symm.trans htaken'
      cases ih hrest
    | moreStuck htaken' _ hrest =>
      cases htaken.symm.trans htaken'
      exact ih hrest

end

variable {cs body rest left : List Char} {c : Char} {n : Nat} {found : Segment}

/-! ### The attempts at a segment -/

/-- Reading up to a character ends at that character or at the end of the text. -/
theorem upTo_append (least : Nat) {stop : Char} {front : List Char} (h : stop ∉ front)
    (hrest : ∀ c ∈ rest.head?, c = stop) (hleast : least ≤ front.length) :
    upTo least stop (front ++ rest) = taken front rest := by
  have hfront : ∀ c ∈ front, decide (c ≠ stop) = true := fun c hc => by
    simpa using ne_of_mem_of_not_mem hc h
  have hstop : rest.takeWhile (· ≠ stop) = [] ∧ rest.dropWhile (· ≠ stop) = rest := by
    cases rest with
    | nil => exact ⟨rfl, rfl⟩
    | cons c rest => simp [hrest c rfl]
  rw [upTo, List.takeWhile_append_of_pos hfront, List.dropWhile_append_of_pos hfront, hstop.1,
    hstop.2, List.append_nil, if_pos hleast]

theorem marker_closed (h : '}' ∉ body) (rest : List Char) :
    marker ('{' :: body ++ '}' :: rest) = taken (.marker ⟨String.ofList body⟩) rest := by
  have hbody : upTo 0 '}' (body ++ '}' :: rest) = taken body ('}' :: rest) :=
    upTo_append 0 h (by simp) (Nat.zero_le _)
  simp [marker, character, andThen, hbody]

/-- Without a closing brace the attempt at a marker reads all there is and fails. -/
theorem marker_unclosed (h : '}' ∉ cs) : marker ('{' :: cs) = failed [] := by
  have hbody : upTo 0 '}' (cs ++ []) = taken cs [] := upTo_append 0 h (by simp) (Nat.zero_le _)
  rw [List.append_nil] at hbody
  simp [marker, character, andThen, hbody]

theorem marker_other (h : c ≠ '{') : marker (c :: cs) = failed (c :: cs) := by
  simp [marker, character, andThen, h]

theorem run_brace (cs : List Char) : run ('{' :: cs) = failed ('{' :: cs) := by
  simp [run, upTo, andThen]

theorem run_other (h : c ≠ '{') :
    ∃ text rest, text ≠ [] ∧ c :: cs = text ++ rest ∧
      run (c :: cs) = taken (.literal (String.ofList text)) rest := by
  let text := (c :: cs).takeWhile (· ≠ '{')
  have htext : text = c :: cs.takeWhile (· ≠ '{') := List.takeWhile_cons_of_pos (by simpa using h)
  have hlength : 1 ≤ text.length := by simp [htext]
  refine ⟨text, (c :: cs).dropWhile (· ≠ '{'), List.length_pos_iff.1 hlength,
    List.takeWhile_append_dropWhile.symm, ?_⟩
  rw [run, upTo, if_pos hlength]
  rfl

/-- What the attempts do where some text is left. -/
theorem attempts_cases (h : cs ≠ []) :
    (∃ body rest, cs = '{' :: body ++ '}' :: rest ∧
      marker cs = taken (.marker ⟨String.ofList body⟩) rest) ∨
    (marker cs = failed cs ∧ ∃ text rest, text ≠ [] ∧ cs = text ++ rest ∧
      run cs = taken (.literal (String.ofList text)) rest) ∨
    ∃ rest, cs = '{' :: rest ∧ '}' ∉ rest ∧ marker cs = failed [] ∧ run cs = failed cs ∧
      brace cs = taken (.literal (String.singleton '{')) rest := by
  obtain ⟨c, cs, rfl⟩ := List.exists_cons_of_ne_nil h
  by_cases hc : c = '{'
  · subst hc
    by_cases hclose : '}' ∈ cs
    · obtain ⟨body, rest, rfl, hbody⟩ := List.eq_append_cons_of_mem hclose
      exact .inl ⟨body, rest, rfl, marker_closed hbody rest⟩
    · exact .inr (.inr ⟨cs, rfl, hclose, marker_unclosed hclose, run_brace cs, rfl⟩)
  · exact .inr (.inl ⟨marker_other hc, run_other hc⟩)

/-- Somewhere in a text one of the attempts takes something of it. -/
theorem exists_comesFirst (h : cs ≠ []) :
    ∃ n found front rest, ComesFirst alternatives cs n found rest ∧ front ≠ [] ∧
      cs = front ++ rest := by
  obtain ⟨body, rest, hcs, hmarker⟩ | ⟨hmarker, text, rest, htext, hcs, hrun⟩ |
    ⟨rest, hcs, -, hmarker, hrun, hbrace⟩ := attempts_cases h
  · refine ⟨0, _, '{' :: body ++ ['}'], rest, comesFirst_zero hmarker, by simp, by simp [hcs]⟩
  · exact ⟨1, _, text, rest, (comesFirst_succ hmarker).2 (comesFirst_zero hrun), htext, hcs⟩
  · exact ⟨2, _, ['{'], rest, (comesFirst_succ hmarker).2 ((comesFirst_succ hrun).2
      (comesFirst_zero hbrace)), by simp, hcs⟩

/-! ### The attempts and the choices of a scan -/

theorem found?_eq_some {attempt : Attempt Segment} (h : attempt.found? = some (found, rest)) :
    attempt = taken found rest := by
  cases attempt with
  | taken value rest =>
    cases h
    rfl
  | failed left => cases h

theorem found?_marker (cs : List Char) : (marker cs).found? = takeMarker? cs := by
  cases cs with
  | nil => rfl
  | cons c cs =>
    by_cases hc : c = '{'
    · subst hc
      cases htake : takeMarker? ('{' :: cs) with
      | none =>
        rw [marker_unclosed (takeMarker?_eq_none htake)]
        rfl
      | some step =>
        obtain ⟨body, hfound, hbody, hcs⟩ := takeMarker?_eq_some htake
        rw [hcs, marker_closed hbody, ← hfound]
        rfl
    · rw [marker_other hc]
      unfold takeMarker?
      split
      next h => exact (hc (List.cons.inj h).1).elim
      next => rfl

theorem found?_run (cs : List Char) : (run cs).found? = takeRun? cs := by
  unfold run upTo takeRun?
  cases cs.takeWhile (· ≠ '{') with
  | nil => rfl
  | cons c text => simp [andThen, found?]

theorem found?_brace (cs : List Char) : (brace cs).found? = takeBrace? cs := by
  cases cs with
  | nil => rfl
  | cons c cs =>
    by_cases hc : c = '{'
    · subst hc
      rfl
    · simp [brace, character, andThen, takeBrace?, found?, hc]

/-- The choice of attempts takes the segment that a scan takes. -/
theorem found?_segment (cs : List Char) : (segment cs).found? = takeSegment? cs := by
  rw [segment, found?_choice, alternatives, takeSegment?]
  simp only [List.findSome?_cons, List.findSome?_nil, found?_marker, found?_run, found?_brace]
  cases takeMarker? cs <;> cases takeRun? cs <;> cases takeBrace? cs <;> rfl

theorem segment_eq_taken (h : takeSegment? cs = some (found, rest)) :
    segment cs = taken found rest :=
  found?_eq_some ((found?_segment cs).trans h)

theorem length_takeSegments_le (limit : Nat) (cs : List Char) :
    (takeSegments limit cs).1.length ≤ limit := by
  induction limit generalizing cs with
  | zero => exact Nat.le_refl 0
  | succ limit ih =>
    rw [takeSegments]
    split
    next => exact Nat.zero_le _
    next found rest _ => exact Nat.succ_le_succ (ih rest)

/-- The repetition goes the way of a scan, which a text as long as its limit does not exhaust. -/
theorem repeats_takeSegments (limit : Nat) (h : cs.length ≤ limit) :
    ∃ segments, takeSegments limit cs = (segments, []) ∧
      Repeats segment cs (.values segments []) := by
  induction limit generalizing cs with
  | zero =>
    obtain rfl := List.eq_nil_of_length_eq_zero (Nat.le_zero.1 h)
    exact ⟨[], rfl, .stop rfl⟩
  | succ limit ih =>
    cases hstep : takeSegment? cs with
    | none =>
      have hnil : cs = [] := by
        by_contra hne
        simpa [hstep] using takeSegment?_isSome hne
      subst hnil
      exact ⟨[], rfl, .stop rfl⟩
    | some step =>
      obtain ⟨found, rest⟩ := step
      have hlt := length_lt_of_takeSegment? hstep
      have hbound : rest.length ≤ limit := by omega
      obtain ⟨segments, htake, hrest⟩ := ih hbound
      refine ⟨found :: segments, by simp [takeSegments, hstep, htake], ?_⟩
      exact .more (segment_eq_taken hstep) (by omega) hrest

/-- A failed attempt at a marker has read nothing, or it has read on to the end. -/
theorem marker_eq_failed (h : marker cs = failed left) :
    cs.head? ≠ some '{' ∧ left = cs ∨ cs.head? = some '{' ∧ '}' ∉ cs ∧ left = [] := by
  cases cs with
  | nil =>
    cases h
    exact .inl ⟨by simp, rfl⟩
  | cons c cs =>
    by_cases hc : c = '{'
    · subst hc
      by_cases hclose : '}' ∈ cs
      · obtain ⟨body, rest, rfl, hbody⟩ := List.eq_append_cons_of_mem hclose
        cases h.symm.trans (marker_closed hbody rest)
      · cases h.symm.trans (marker_unclosed hclose)
        exact .inr ⟨rfl, by simpa using hclose, rfl⟩
    · cases h.symm.trans (marker_other hc)
      exact .inl ⟨by simpa using hc, rfl⟩

theorem front_of_comesFirst (h : ComesFirst alternatives cs n found rest) :
    ∃ front, front ≠ [] ∧ cs = front ++ rest := by
  have hsegment : segment cs = taken found rest := choice_eq_taken_iff.2 ⟨n, h⟩
  by_cases hnil : cs = []
  · subst hnil
    cases hsegment
  · obtain ⟨m, other, front, tail, hfirst, hfront, hcs⟩ := exists_comesFirst hnil
    cases hsegment.symm.trans (choice_eq_taken_iff.2 ⟨m, hfirst⟩)
    exact ⟨front, hfront, hcs⟩

theorem segment_eq_failed_iff : segment cs = failed left ↔ cs = [] ∧ left = [] := by
  constructor
  · intro h
    have hleft : left = cs := eq_of_choice_failed h
    have hnil : cs = [] := by
      by_contra hne
      obtain ⟨n, found, -, rest, hfirst, -⟩ := exists_comesFirst hne
      cases h.symm.trans (choice_eq_taken_iff.2 ⟨n, hfirst⟩)
    exact ⟨hnil, hleft.trans hnil⟩
  · rintro ⟨rfl, rfl⟩
    rfl

/-- Wherever there is text left, one of the attempts is the first to take something, and it takes at
least a character. An attempt at a marker that fails has read nothing or all there is, and the
others are made from where it began; all three fail only at the end. So the repetition ends, in one
way, after no more rounds than there are characters and with nothing left; the template is made of
what it took. -/
theorem scan_by_attempts :
    (∀ cs, cs ≠ [] → ∃! n, ∃ found rest, ComesFirst alternatives cs n found rest) ∧
    (∀ cs n found rest, ComesFirst alternatives cs n found rest →
      segment cs = taken found rest ∧ takeSegment? cs = some (found, rest) ∧
        ∃ front, front ≠ [] ∧ cs = front ++ rest) ∧
    (∀ cs left, marker cs = failed left →
      (cs.head? ≠ some '{' ∧ left = cs ∨ cs.head? = some '{' ∧ '}' ∉ cs ∧ left = []) ∧
        segment cs = choice [run, brace] cs) ∧
    (∀ cs left, segment cs = failed left ↔ cs = [] ∧ left = []) ∧
    ∀ text : String, ∃ segments,
      Repeats segment text.toList (.values segments []) ∧
      (∀ ending, Repeats segment text.toList ending → ending = .values segments []) ∧
      segments.length ≤ text.toList.length ∧
      (∀ limit, text.toList.length ≤ limit → takeSegments limit text.toList = (segments, [])) ∧
      scan text = ⟨joinLiterals segments⟩ := by
  refine ⟨?_, ?_, ?_, fun cs left => segment_eq_failed_iff, ?_⟩
  · intro cs hne
    obtain ⟨n, found, -, rest, hfirst, -⟩ := exists_comesFirst hne
    refine ⟨n, ⟨found, rest, hfirst⟩, ?_⟩
    rintro m ⟨other, left, hother⟩
    exact comesFirst_unique hother hfirst
  · intro cs n found rest h
    have hsegment : segment cs = taken found rest := choice_eq_taken_iff.2 ⟨n, h⟩
    refine ⟨hsegment, ?_, front_of_comesFirst h⟩
    rw [← found?_segment, hsegment]
    rfl
  · intro cs left h
    refine ⟨marker_eq_failed h, ?_⟩
    rw [segment, alternatives, choice, h]
  · intro text
    obtain ⟨segments, htake, hrepeats⟩ := repeats_takeSegments _ (Nat.le_refl text.toList.length)
    have hunique : ∀ ending, Repeats segment text.toList ending → ending = .values segments [] :=
      fun ending h => repeats_unique h hrepeats
    have hlength := length_takeSegments_le text.toList.length text.toList
    rw [htake] at hlength
    refine ⟨segments, hrepeats, hunique, hlength, ?_, by simp only [scan, htake]⟩
    intro limit hlimit
    obtain ⟨others, hothers, hagain⟩ := repeats_takeSegments limit hlimit
    cases hunique _ hagain
    exact hothers

/-- An opening brace that nothing closes, in front of one more. -/
theorem scan_by_attempts_of_open_braces :
    let cs := ['{', 'a', '{', 'b']
    cs ≠ [] ∧ marker cs = failed [] ∧
      (∃! n, ∃ found rest, ComesFirst alternatives cs n found rest) ∧
      ComesFirst alternatives cs 2 (.literal "\x7b") ['a', '{', 'b'] ∧
      segment cs = choice [run, brace] cs ∧ segment cs = taken (.literal "\x7b") ['a', '{', 'b'] ∧
      scan "\x7ba\x7bb" = ⟨[.literal "\x7ba\x7bb"]⟩ := by
  intro cs
  have hne : cs ≠ [] := List.cons_ne_nil _ _
  have hmarker : marker cs = failed [] := by decide
  have hrun : run cs = failed cs := by decide
  have hbrace : brace cs = taken (.literal "\x7b") ['a', '{', 'b'] := by decide
  have hfirst : ComesFirst alternatives cs 2 (.literal "\x7b") ['a', '{', 'b'] :=
    (comesFirst_succ hmarker).2 ((comesFirst_succ hrun).2 (comesFirst_zero hbrace))
  obtain ⟨hone, htakes, hfails, -⟩ := scan_by_attempts
  exact ⟨hne, hmarker, hone cs hne, hfirst, (hfails cs [] hmarker).2,
    (htakes cs 2 _ _ hfirst).1, by decide⟩

end Almanac.Template.Attempt
