import Almanac.Proofs.Expansion

/-! What replacements leave as it was, whatever the markers are. Values are not touched, and pending
text is only cut at the marker, which can be put back. A marker that was looked for once is in no
pending piece from then on. -/

namespace Almanac

namespace Text
variable {marker part cs : List Char}

/-- A part that another one follows ends where the marker comes for the first time. -/
theorem not_infix_before_marker (hne : marker ≠ []) (h : part ∈ (parts marker cs).dropLast) :
    ¬ marker <:+: part ++ marker.dropLast := by
  induction cs using induction_of_cuts hne generalizing part with
  | nil => cases h
  | occurrence rest ih =>
    rw [parts_append hne, List.dropLast_cons_of_ne_nil parts_ne_nil] at h
    obtain rfl | h := List.mem_cons.1 h
    · intro hin
      have hlength := hin.length_le
      have hpos := List.length_pos_iff.2 hne
      rw [List.nil_append, List.length_dropLast] at hlength
      omega
    · exact ih h
  | other c cs hp ih =>
    rw [parts_cons hp] at h
    have hback : marker.intercalate (parts marker cs) = cs := intercalate_parts hne
    match hparts : parts marker cs with
    | [] => exact (parts_ne_nil hparts).elim
    | [first] =>
      rw [hparts] at h
      cases h
    | first :: next :: others =>
      rw [hparts] at h ih hback
      obtain rfl | h := List.mem_cons.1 h
      · intro hin
        obtain hbegins | hin := List.infix_cons_iff.1 hin
        · have hfirst : first ++ marker.dropLast <+: cs := by
            rw [← hback, List.intercalate_cons_cons, List.append_assoc]
            exact (List.prefix_append_right_inj first).2
              ((List.dropLast_prefix marker).trans (List.prefix_append _ _))
          exact hp (hbegins.trans ((List.prefix_cons_inj c).2 hfirst))
        · exact ih List.mem_cons_self hin
      · exact ih (List.mem_cons_of_mem _ h)

end Text

namespace Piece
variable {marker value first part text : List Char} {others : List (List Char)} {p : Piece}
  {ps block : List Piece} {steps : List (List Char × List Char)} {step : List Char × List Char}

/-! ### One replacement -/

/-- The text of a piece, with the marker put back for a value. -/
def putBack (marker : List Char) : Piece → List Char
  | pending text => text
  | done _ => marker

/-- What a replacement makes of a piece. A value stays. Of pending text the parts stay, pending, and
a value is put between any two of them. No part holds the marker, and none could have ended
earlier. -/
inductive Replaced (marker value : List Char) : Piece → List Piece → Prop
  | done (text : List Char) : Replaced marker value (done text) [done text]
  | pending {text first : List Char} {others : List (List Char)} {block : List Piece}
    (pieces : block = pending first :: others.flatMap fun part => [done value, pending part])
    (restored : block.flatMap (putBack marker) = text)
    (free : ∀ part ∈ first :: others, ¬ marker <:+: part)
    (leftmost : ∀ part ∈ (first :: others).dropLast, ¬ marker <:+: part ++ marker.dropLast) :
    Replaced marker value (pending text) block

theorem flatMap_putBack (first : List Char) (others : List (List Char)) :
    (pending first :: others.flatMap fun part => [done value, pending part]).flatMap
        (putBack marker) = marker.intercalate (first :: others) := by
  induction others generalizing first with
  | nil => simp [putBack]
  | cons next others ih =>
    rw [List.intercalate_cons_cons, ← ih]
    simp [putBack]

theorem replaced_substitute (hne : marker ≠ []) (p : Piece) :
    Replaced marker value p (substitute marker value p) := by
  cases p with
  | done text => exact .done text
  | pending text =>
    have hback : marker.intercalate (Text.parts marker text) = text := Text.intercalate_parts hne
    have hfree := fun part => @Text.not_infix_of_mem_parts marker part text hne
    have hleftmost := fun part => @Text.not_infix_before_marker marker part text hne
    rw [substitute]
    cases hparts : Text.parts marker text with
    | nil => exact (Text.parts_ne_nil hparts).elim
    | cons first others =>
      rw [hparts] at hback hfree hleftmost
      exact .pending rfl ((flatMap_putBack first others).trans hback) hfree hleftmost

/-- What is still pending was within what was pending, and does not hold the marker. -/
theorem exists_of_mem_replaced (h : Replaced marker value p block) (hmem : pending part ∈ block) :
    ∃ text, p = pending text ∧ part <:+: text ∧ ¬ marker <:+: part := by
  cases h with
  | done text => simp at hmem
  | @pending text first others block pieces restored free leftmost =>
    have hpart : part <:+: text := by
      rw [← restored]
      exact List.infix_of_mem_flatten (List.mem_map.2 ⟨_, hmem, rfl⟩)
    have hfree : part ∈ first :: others := by simpa [pieces] using hmem
    exact ⟨text, rfl, hpart, free part hfree⟩

theorem values_sublist_of_replaced (h : Replaced marker value p block) :
    (value? p).toList.Sublist (block.filterMap value?) := by
  cases h with
  | done text => exact List.Sublist.refl _
  | pending => exact List.nil_sublist _

theorem exists_of_mem_substituteAll (hne : marker ≠ [])
    (h : pending part ∈ substituteAll marker value ps) :
    ∃ text, pending text ∈ ps ∧ part <:+: text ∧ ¬ marker <:+: part := by
  obtain ⟨p, hp, hmem⟩ := List.mem_flatMap.1 h
  obtain ⟨text, rfl, hpart⟩ := exists_of_mem_replaced (replaced_substitute hne p) hmem
  exact ⟨text, hp, hpart⟩

theorem values_sublist_substituteAll (hne : marker ≠ []) (ps : List Piece) :
    (ps.filterMap value?).Sublist ((substituteAll marker value ps).filterMap value?) := by
  induction ps with
  | nil => exact List.Sublist.refl _
  | cons p ps ih =>
    have hhead := values_sublist_of_replaced (replaced_substitute hne p : Replaced marker value p _)
    have hsplit : substituteAll marker value (p :: ps) =
        substitute marker value p ++ substituteAll marker value ps := rfl
    rw [hsplit, List.filterMap_append]
    cases p with
    | pending text => exact ih.trans (List.sublist_append_right _ _)
    | done text => exact hhead.append ih

/-! ### Replacements one after another -/

/-- Replacements in turn, each given as a marker with its value. -/
def substituteEach (steps : List (List Char × List Char)) (ps : List Piece) : List Piece :=
  steps.foldl (fun ps step => substituteAll step.1 step.2 ps) ps

theorem exists_of_mem_substituteEach (hne : ∀ step ∈ steps, step.1 ≠ [])
    (h : pending part ∈ substituteEach steps ps) : ∃ text, pending text ∈ ps ∧ part <:+: text := by
  induction steps generalizing ps with
  | nil => exact ⟨part, h, List.infix_refl part⟩
  | cons step steps ih =>
    obtain ⟨middle, hmiddle, hpart⟩ := ih (fun s hs => hne s (List.mem_cons_of_mem _ hs)) h
    obtain ⟨text, htext, hin, -⟩ :=
      exists_of_mem_substituteAll (hne step List.mem_cons_self) hmiddle
    exact ⟨text, htext, hpart.trans hin⟩

/-- A marker that was looked for does not come back. -/
theorem not_infix_of_mem_substituteEach (hne : ∀ step ∈ steps, step.1 ≠ []) (hstep : step ∈ steps)
    (h : pending part ∈ substituteEach steps ps) : ¬ step.1 <:+: part := by
  induction steps generalizing ps with
  | nil => cases hstep
  | cons first steps ih =>
    have htail : ∀ s ∈ steps, s.1 ≠ [] := fun s hs => hne s (List.mem_cons_of_mem _ hs)
    obtain rfl | hstep := List.mem_cons.1 hstep
    · obtain ⟨text, htext, hpart⟩ := exists_of_mem_substituteEach htail h
      obtain ⟨-, -, -, hfree⟩ := exists_of_mem_substituteAll (hne step List.mem_cons_self) htext
      exact fun hin => hfree (hin.trans hpart)
    · exact ih htail hstep h

theorem values_sublist_substituteEach (hne : ∀ step ∈ steps, step.1 ≠ []) (ps : List Piece) :
    (ps.filterMap value?).Sublist ((substituteEach steps ps).filterMap value?) := by
  induction steps generalizing ps with
  | nil => exact List.Sublist.refl _
  | cons step steps ih =>
    have hfirst : (ps.filterMap value?).Sublist
        ((substituteAll step.1 step.2 ps).filterMap value?) :=
      values_sublist_substituteAll (hne step List.mem_cons_self) ps
    exact hfirst.trans (ih (fun s hs => hne s (List.mem_cons_of_mem _ hs)) _)

/-- The replacement of a marker when a template is filled. -/
def stepOf (values : DayValues) (m : Marker) : List Char × List Char :=
  (m.source.toList, (Calendar.replacement values m).toList)

theorem fill_eq_substituteEach (values : DayValues) (t : Template) :
    Calendar.fill values t =
      substituteEach (t.markers.map (stepOf values)) [pending t.source.toList] := by
  simp only [substituteEach, List.foldl_map, Calendar.fill, stepOf]

/-- A replacement keeps each value in its place and makes of pending text its parts with values
between them; the text is back when the marker stands for these values again. No pending piece
holds the marker then, nor does any after whatever other replacements follow, and the values from
before still are there in their order. So it is with the markers of a template that is filled. -/
theorem replaced_for_good :
    (∀ (marker value : List Char) (ps : List Piece), marker ≠ [] →
      (∃ blocks, substituteAll marker value ps = blocks.flatten ∧
        List.Forall₂ (Replaced marker value) ps blocks) ∧
      ∀ text, pending text ∈ substituteAll marker value ps → ¬ marker <:+: text) ∧
    (∀ (steps : List (List Char × List Char)) (ps : List Piece), (∀ step ∈ steps, step.1 ≠ []) →
      (ps.filterMap value?).Sublist ((substituteEach steps ps).filterMap value?) ∧
      ∀ step ∈ steps, ∀ text, pending text ∈ substituteEach steps ps → ¬ step.1 <:+: text) ∧
    ∀ (values : DayValues) (t : Template), ∀ m ∈ t.markers, ∀ text,
      pending text ∈ Calendar.fill values t → ¬ m.source.toList <:+: text := by
  refine ⟨?_, ?_, ?_⟩
  · intro marker value ps hne
    refine ⟨⟨ps.map (substitute marker value), List.flatMap_def, ?_⟩, ?_⟩
    · exact List.forall₂_map_right_iff.2 (List.forall₂_same.2 fun p _ => replaced_substitute hne p)
    · intro text htext
      obtain ⟨-, -, -, hfree⟩ := exists_of_mem_substituteAll hne htext
      exact hfree
  · intro steps ps hne
    refine ⟨values_sublist_substituteEach hne ps, ?_⟩
    intro step hstep text htext
    exact not_infix_of_mem_substituteEach hne hstep htext
  · intro values t m hm text htext
    rw [fill_eq_substituteEach] at htext
    have hne : ∀ step ∈ t.markers.map (stepOf values), step.1 ≠ [] := by
      intro step hmem
      obtain ⟨e, -, rfl⟩ := List.mem_map.1 hmem
      simp [stepOf, Marker.source_eq]
    have hstep : stepOf values m ∈ t.markers.map (stepOf values) := List.mem_map_of_mem hm
    have hfree : ¬ (stepOf values m).1 <:+: text :=
      not_infix_of_mem_substituteEach hne hstep htext
    rwa [stepOf] at hfree

/-- A marker that overlaps itself, and a value that holds both markers. -/
theorem replaced_for_good_of_overlaps :
    let ps := [done "aa".toList, pending "aaa".toList, pending "abaab".toList]
    let steps := [("aa".toList, "aab".toList), ("ab".toList, "x".toList)]
    (∃ blocks, substituteAll "aa".toList "aab".toList ps = blocks.flatten ∧
      List.Forall₂ (Replaced "aa".toList "aab".toList) ps blocks) ∧
    substituteEach steps ps =
      [done "aa".toList, pending [], done "aab".toList, pending ['a'], pending [],
        done ['x'], pending [], done "aab".toList, pending ['b']] ∧
    pending ['a'] ∈ substituteEach steps ps ∧ ¬ "aa".toList <:+: ['a'] := by
  intro ps steps
  have hrun : substituteEach steps ps =
      [done "aa".toList, pending [], done "aab".toList, pending ['a'], pending [],
        done ['x'], pending [], done "aab".toList, pending ['b']] := by decide
  have hmem : pending ['a'] ∈ substituteEach steps ps := by
    rw [hrun]
    simp
  obtain ⟨hone, heach, -⟩ := replaced_for_good
  refine ⟨(hone _ _ ps (by decide)).1, hrun, hmem, ?_⟩
  exact (heach steps ps (by decide)).2 _ List.mem_cons_self _ hmem

end Piece
end Almanac
