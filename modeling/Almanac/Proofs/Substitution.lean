import Almanac.Calendar
import Almanac.Proofs.Canonical
import Mathlib.Data.List.Basic
import Mathlib.Data.List.DropRight

/-! What one replacement does to pending text. An occurrence of a marker gives way to the value when
nothing overlaps it, and other text stays. The pieces of a template always are its segments, some of
whose markers are replaced (`arrange`). -/

namespace Almanac

namespace Text
variable {marker cs rest : List Char}

/-- What no occurrence of the marker begins in goes to the first part. -/
theorem parts_append_of_none_begins (rest : List Char)
    (h : ∀ back, back <:+ cs → back ≠ [] → ¬ marker <+: back ++ rest) :
    parts marker (cs ++ rest) = (parts marker rest).modifyHead (cs ++ ·) := by
  induction cs with
  | nil => cases hparts : parts marker rest <;> simp [hparts]
  | cons c cs ih =>
    have htail := ih fun back hback => h back (hback.trans (List.suffix_cons c cs))
    have hhead : ¬ marker <+: c :: (cs ++ rest) :=
      h (c :: cs) (List.suffix_refl _) (List.cons_ne_nil c cs)
    rw [List.cons_append, parts_cons hhead, htail]
    cases parts marker rest <;> simp

theorem parts_of_no_occurrence (h : ¬ marker <:+: cs) : parts marker cs = [cs] := by
  have hnone : ∀ back, back <:+ cs → back ≠ [] → ¬ marker <+: back ++ [] := by
    intro back hback _ hbegins
    rw [List.append_nil] at hbegins
    exact h (hbegins.isInfix.trans hback.isInfix)
  simpa using parts_append_of_none_begins [] hnone

end Text

namespace Marker
variable {m e : Marker} {cs back rest : List Char}

/-- The text of a marker up to its closing brace. -/
def opening (m : Marker) : List Char := '{' :: m.body.toList

theorem source_eq (m : Marker) : m.source.toList = m.opening ++ ['}'] := by
  simp [source, opening]

theorem source_inj (h : m.source = e.source) : m = e := by
  cases m
  cases e
  simpa [source] using h

theorem notMem_opening (h : '}' ∉ m.body.toList) : '}' ∉ m.opening := by
  simp [opening, h]

/-- A marker that begins before the first closing brace of a text ends with it. -/
theorem opening_eq_of_begins (he : '}' ∉ e.body.toList) (hcs : '}' ∉ cs)
    (h : e.source.toList <+: cs ++ '}' :: rest) : e.opening = cs := by
  obtain ⟨tail, htail⟩ := h
  rw [source_eq, List.append_assoc] at htail
  exact (Template.eq_of_append_cons (notMem_opening he) hcs htail).1

theorem not_prefix_of_no_brace (h : '{' ∉ cs) (hcs : back <:+ cs) (hback : back ≠ []) :
    ¬ e.source.toList <+: back ++ rest := by
  rintro ⟨tail, htail⟩
  obtain ⟨c, back, rfl⟩ := List.exists_cons_of_ne_nil hback
  rw [source_eq, opening, List.cons_append, List.cons_append] at htail
  exact h (hcs.subset ((List.cons.inj htail).1 ▸ List.mem_cons_self))

theorem not_infix_of_unclosed (h : '}' ∉ Template.fromBrace cs) : ¬ e.source.toList <:+: cs := by
  rintro ⟨front, tail, rfl⟩
  apply h
  rw [source_eq, opening]
  by_cases hopen : '{' ∈ front
  · simp [Template.fromBrace_append_of_mem hopen]
  · simp [Template.fromBrace_append_of_notMem hopen]

theorem not_prefix_of_not_suffix (he : '}' ∉ e.body.toList) (hm : '}' ∉ m.body.toList)
    (h : ¬ e.source.toList <:+ m.source.toList) (hm' : back <:+ m.source.toList)
    (hback : back ≠ []) : ¬ e.source.toList <+: back ++ rest := by
  intro hbegins
  obtain hnil | ⟨cs, c, rfl⟩ := List.eq_nil_or_concat' back
  · exact hback hnil
  · obtain ⟨front, hfront⟩ := hm'
    rw [source_eq, ← List.append_assoc] at hfront
    obtain ⟨hopening, hc⟩ := List.append_inj' hfront rfl
    have hcs : '}' ∉ cs := fun hmem =>
      notMem_opening hm (hopening ▸ List.mem_append_right front hmem)
    rw [hc, List.append_assoc] at hbegins
    have heq := opening_eq_of_begins he hcs hbegins
    exact h ⟨front, by rw [source_eq, source_eq, heq, ← hopening, List.append_assoc]⟩

/-- The text of `m` before the text of `e` that it ends in. -/
def before (e m : Marker) : List Char := m.source.toList.rdrop e.source.toList.length

theorem before_append (h : e.source.toList <:+ m.source.toList) :
    before e m ++ e.source.toList = m.source.toList := by
  obtain ⟨front, hfront⟩ := h
  simp [before, List.rdrop, ← hfront]

theorem notMem_before (hm : '}' ∉ m.body.toList) (h : e.source.toList <:+ m.source.toList) :
    '}' ∉ before e m := by
  intro hmem
  have happend := before_append h
  rw [source_eq, source_eq, ← List.append_assoc] at happend
  exact notMem_opening hm ((List.append_inj' happend rfl).1 ▸ List.mem_append_left _ hmem)

theorem not_prefix_before (he : '}' ∉ e.body.toList) (hm : '}' ∉ m.body.toList)
    (h : e.source.toList <:+ m.source.toList) (hm' : back <:+ before e m) (hback : back ≠ []) :
    ¬ e.source.toList <+: back ++ (e.source.toList ++ rest) := by
  intro hbegins
  rw [source_eq e, List.append_assoc, ← List.append_assoc, ← source_eq] at hbegins
  have hno : '}' ∉ back ++ e.opening := by
    simp only [List.mem_append, not_or]
    exact ⟨fun hmem => notMem_before hm h (hm'.subset hmem), notMem_opening he⟩
  have hlength := congrArg List.length (opening_eq_of_begins he hno hbegins)
  rw [List.length_append] at hlength
  exact hback (List.eq_nil_of_length_eq_zero (by omega))

end Marker

namespace Piece
variable {marker value cs left : List Char} {ps : List Piece}

def value? : Piece → Option (List Char)
  | pending _ => none
  | done text => some text

/-- Puts template text in front of a pending piece. -/
def prepend (cs : List Char) : Piece → Piece
  | pending text => pending (cs ++ text)
  | done text => done text

theorem substituteAll_pending_cons (text : List Char) :
    substituteAll marker value (pending text :: ps) =
      substitute marker value (pending text) ++ substituteAll marker value ps := rfl

/-- Text that no occurrence of the marker begins in stays in front. -/
theorem substituteAll_prepend (text : List Char)
    (h : ∀ back, back <:+ cs → back ≠ [] → ¬ marker <+: back ++ text) :
    substituteAll marker value (pending (cs ++ text) :: ps) =
      (substituteAll marker value (pending text :: ps)).modifyHead (prepend cs) := by
  rw [substituteAll_pending_cons, substituteAll_pending_cons, substitute, substitute,
    Text.parts_append_of_none_begins text h]
  cases hparts : Text.parts marker text with
  | nil => exact absurd hparts Text.parts_ne_nil
  | cons first others => simp [prepend]

theorem substituteAll_of_no_occurrence (h : ¬ marker <:+: cs) (ps : List Piece) :
    substituteAll marker value (pending cs :: ps) =
      pending cs :: substituteAll marker value ps := by
  rw [substituteAll_pending_cons, substitute, Text.parts_of_no_occurrence h]
  rfl

/-- An occurrence of the marker that nothing overlaps gives way to the value. -/
theorem substituteAll_occurrence (text : List Char) (hne : marker ≠ [])
    (h : ∀ back, back <:+ left → back ≠ [] → ¬ marker <+: back ++ (marker ++ text)) :
    substituteAll marker value (pending (left ++ (marker ++ text)) :: ps) =
      pending left :: done value :: substituteAll marker value (pending text :: ps) := by
  rw [substituteAll_prepend _ h, substituteAll_pending_cons, substituteAll_pending_cons, substitute,
    substitute, Text.parts_append hne]
  cases hparts : Text.parts marker text with
  | nil => exact absurd hparts Text.parts_ne_nil
  | cons first others => simp [prepend]

/-- The pieces of segments, some markers of which are replaced. Of such a marker a text stays in
front of the value. -/
def arrange (replaced : Marker → Option (List Char × List Char)) : List Segment → List Piece
  | [] => [pending []]
  | .literal text :: segments => (arrange replaced segments).modifyHead (prepend text.toList)
  | .marker m :: segments =>
    match replaced m with
    | none => (arrange replaced segments).modifyHead (prepend m.source.toList)
    | some (left, value) => pending left :: done value :: arrange replaced segments

variable {replaced : Marker → Option (List Char × List Char)} {segments : List Segment}

theorem arrange_head (replaced : Marker → Option (List Char × List Char))
    (segments : List Segment) : ∃ text ps, arrange replaced segments = pending text :: ps := by
  fun_induction arrange replaced segments with
  | case1 => exact ⟨_, _, rfl⟩
  | case2 text segments ih | case3 m segments hm ih =>
    obtain ⟨rest, ps, hps⟩ := ih
    exact ⟨_, _, by rw [hps]; rfl⟩
  | case4 => exact ⟨_, _, rfl⟩

theorem arrange_none (segments : List Segment) :
    arrange (fun _ => none) segments = [pending (Template.written segments)] := by
  induction segments with
  | nil => rfl
  | cons segment segments ih =>
    cases segment <;> simp [arrange, ih, prepend, Segment.source]

end Piece
end Almanac
