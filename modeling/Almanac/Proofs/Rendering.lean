import Almanac.Proofs.Substitution

/-! Filling a template marker after marker is one pass over its segments. In the end a marker is
replaced by the first marker of the template whose text it ends in, which most often is itself. -/

namespace Almanac.Calendar
open Piece Template

variable {values : DayValues} {ms : List Marker} {m e : Marker} {segments : List Segment}

/-- The first of some markers in whose text the text of `m` ends. -/
def ending? (ms : List Marker) (m : Marker) : Option Marker :=
  ms.find? fun e => e.source.toList <:+ m.source.toList

def ending (ms : List Marker) (m : Marker) : Marker := (ending? ms m).getD m

/-- What a segment gives when each marker gives way to the first one it ends in. -/
def filled (values : DayValues) (ms : List Marker) : Segment → List Char
  | .literal text => text.toList
  | .marker m => (ending ms m).before m ++ (replacement values (ending ms m)).toList

/-- What a segment gives when each marker gives way to its own replacement. -/
def filledPlainly (values : DayValues) : Segment → List Char
  | .literal text => text.toList
  | .marker m => (replacement values m).toList

/-- No marker's text is a proper end of the text of a later one. -/
def Independent (ms : List Marker) : Prop :=
  ms.Pairwise fun earlier later => earlier.source.toList <:+ later.source.toList → earlier = later

/-- The replacement of a marker once those of `ms` have been looked for. -/
def replacedBy (values : DayValues) (ms : List Marker) (m : Marker) :
    Option (List Char × List Char) :=
  (ending? ms m).map fun e => (e.before m, (replacement values e).toList)

theorem mem_markers {t : Template} : m ∈ t.markers ↔ .marker m ∈ t.segments := by
  simp only [markers, List.mem_filterMap]
  constructor
  · rintro ⟨segment, hmem, hsome⟩
    cases segment <;> simp_all
  · intro hmem
    exact ⟨_, hmem, rfl⟩

theorem source_suffix_of_ending? (h : ending? ms m = some e) :
    e.source.toList <:+ m.source.toList := by
  simpa using List.find?_some h

theorem ending?_append (ms : List Marker) (e m : Marker) :
    ending? (ms ++ [e]) m =
      (ending? ms m).or (if e.source.toList <:+ m.source.toList then some e else none) := by
  simp only [ending?, List.find?_append, List.find?_singleton]
  simp

/-- One replacement adds the marker to those that have been looked for. -/
theorem substituteAll_arrange (he : '}' ∉ e.body.toList) (hs : Canonical segments) :
    substituteAll e.source.toList (replacement values e).toList
        (arrange (replacedBy values ms) segments) =
      arrange (replacedBy values (ms ++ [e])) segments := by
  induction segments with
  | nil => rfl
  | cons segment segments ih =>
    obtain ⟨text, ps, hps⟩ := arrange_head (replacedBy values ms) segments
    have htail := ih (canonical_tail hs)
    cases segment with
    | literal front =>
      by_cases hopen : '{' ∈ front.toList
      · obtain ⟨rfl, hno⟩ := hs.unclosed [] front segments rfl hopen
        have hoccurs : ¬ e.source.toList <:+: front.toList := Marker.not_infix_of_unclosed hno
        simpa [arrange, prepend] using substituteAll_of_no_occurrence hoccurs []
      · simp only [arrange]
        rw [← htail, hps]
        exact substituteAll_prepend text fun back hback hne =>
          Marker.not_prefix_of_no_brace hopen hback hne
    | marker m =>
      have hm := hs.closed m List.mem_cons_self
      cases hend : ending? ms m with
      | some e' =>
        have hsuffix := source_suffix_of_ending? hend
        have hno : ¬ e.source.toList <:+: e'.before m :=
          Marker.not_infix_of_unclosed fun hmem =>
            Marker.notMem_before hm hsuffix ((List.dropWhile_sublist _).subset hmem)
        simp only [arrange, replacedBy, ending?_append, hend, Option.map_some, Option.some_or]
        rw [substituteAll_of_no_occurrence hno, ← htail]
        rfl
      | none =>
        simp only [arrange, replacedBy, ending?_append, hend, Option.map_none, Option.none_or]
        rw [hps, List.modifyHead_cons, prepend]
        by_cases hsuffix : e.source.toList <:+ m.source.toList
        · have hne : e.source.toList ≠ [] := by simp [Marker.source_eq]
          rw [if_pos hsuffix, ← Marker.before_append hsuffix, List.append_assoc,
            substituteAll_occurrence text hne fun back hback =>
              Marker.not_prefix_before he hm hsuffix hback,
            ← hps, htail]
          rfl
        · rw [if_neg hsuffix, substituteAll_prepend text fun back hback =>
            Marker.not_prefix_of_not_suffix he hm hsuffix hback, ← hps, htail]
          rfl

/-- Filling with the markers of `ms` one after another. -/
theorem foldl_substituteAll (hms : ∀ e ∈ ms, '}' ∉ e.body.toList) (hs : Canonical segments) :
    ms.foldl (fun ps m => substituteAll m.source.toList (replacement values m).toList ps)
        [.pending (written segments)] =
      arrange (replacedBy values ms) segments := by
  induction ms using List.reverseRecOn with
  | nil => exact (arrange_none segments).symm
  | append_singleton ms e ih =>
    rw [List.foldl_append, ih fun m hm => hms m (List.mem_append_left _ hm)]
    exact substituteAll_arrange (hms e (by simp)) hs

theorem fill_eq_arrange {t : Template} (h : Canonical t.segments) :
    fill values t = arrange (replacedBy values t.markers) t.segments := by
  rw [fill, toList_source]
  exact foldl_substituteAll (fun m hm => h.closed m (mem_markers.1 hm)) h

/-- A marker ends in itself, so some marker of the template replaces it. -/
theorem ending?_of_mem (h : m ∈ ms) : ending? ms m = some (ending ms m) := by
  cases hend : ending? ms m with
  | some e => simp [ending, hend]
  | none => simpa using List.find?_eq_none.1 hend m h

theorem chars_modifyHead_prepend (cs text : List Char) (ps : List Piece) :
    ((pending text :: ps).modifyHead (prepend cs)).flatMap chars =
      cs ++ (pending text :: ps).flatMap chars := by
  simp [prepend, chars]

theorem chars_arrange (h : ∀ m, .marker m ∈ segments → m ∈ ms) :
    (arrange (replacedBy values ms) segments).flatMap chars =
      segments.flatMap (filled values ms) := by
  induction segments with
  | nil => rfl
  | cons segment segments ih =>
    have htail := ih fun m hm => h m (List.mem_cons_of_mem _ hm)
    cases segment with
    | literal front =>
      obtain ⟨text, ps, hps⟩ := arrange_head (replacedBy values ms) segments
      rw [hps] at htail
      rw [arrange, hps, chars_modifyHead_prepend, htail]
      rfl
    | marker m =>
      have hend := ending?_of_mem (h m List.mem_cons_self)
      simp [arrange, replacedBy, hend, filled, chars, htail]

theorem value?_modifyHead_prepend (cs : List Char) (ps : List Piece) :
    (ps.modifyHead (prepend cs)).filterMap value? = ps.filterMap value? := by
  cases ps with
  | nil => rfl
  | cons p ps => cases p <;> rfl

theorem values_arrange (h : ∀ m, .marker m ∈ segments → m ∈ ms) :
    (arrange (replacedBy values ms) segments).filterMap value? =
      (markers ⟨segments⟩).map fun m => (replacement values (ending ms m)).toList := by
  induction segments with
  | nil => rfl
  | cons segment segments ih =>
    have htail := ih fun m hm => h m (List.mem_cons_of_mem _ hm)
    cases segment with
    | literal front => rw [arrange, value?_modifyHead_prepend, htail]; rfl
    | marker m =>
      have hend := ending?_of_mem (h m List.mem_cons_self)
      simp only [arrange, replacedBy, hend, Option.map_some, List.filterMap_cons, value?, htail]
      rfl

/-- Where no marker's text ends in that of an earlier one, each is replaced as itself. -/
theorem ending_eq_self (h : Independent ms) (hm : m ∈ ms) : ending ms m = m := by
  induction ms with
  | nil => cases hm
  | cons e ms ih =>
    obtain ⟨hhead, htail⟩ := List.pairwise_cons.1 h
    by_cases hsuffix : e.source.toList <:+ m.source.toList
    · have he : e = m := by
        rcases List.mem_cons.1 hm with rfl | hm
        · rfl
        · exact hhead m hm hsuffix
      simp [ending, ending?, he]
    · have hmem : m ∈ ms := by
        rcases List.mem_cons.1 hm with rfl | hm
        · exact absurd (List.suffix_refl _) hsuffix
        · exact hm
      have hrest := ih htail hmem
      simpa [ending, ending?, List.find?_cons, hsuffix] using hrest

theorem eq_of_suffix (h : '{' ∉ m.body.toList)
    (hsuffix : e.source.toList <:+ m.source.toList) : e = m := by
  obtain ⟨front, hfront⟩ := hsuffix
  cases front with
  | nil => exact Marker.source_inj (String.toList_inj.1 hfront)
  | cons c front =>
    rw [Marker.source_eq m, Marker.opening, List.cons_append, List.cons_append] at hfront
    have hmem : '{' ∈ m.body.toList ++ ['}'] := by
      rw [← (List.cons.inj hfront).2, Marker.source_eq, Marker.opening]
      simp
    simp [h] at hmem

theorem independent_of_no_inner_brace (h : ∀ m ∈ ms, '{' ∉ m.body.toList) : Independent ms := by
  refine List.pairwise_iff_forall_sublist.2 fun {earlier later} hsub hsuffix => ?_
  have hlater : later ∈ ms := hsub.subset (by simp)
  exact eq_of_suffix (h later hlater) hsuffix

theorem ending_of_no_inner_brace (h : '{' ∉ m.body.toList) (ms : List Marker) :
    ending ms m = m := by
  cases hend : ending? ms m with
  | none => rw [ending, hend, Option.getD_none]
  | some e =>
    rw [ending, hend, Option.getD_some]
    exact eq_of_suffix h (source_suffix_of_ending? hend)

theorem filled_eq_filledPlainly (h : ∀ m, .marker m ∈ segments → ending ms m = m) :
    segments.flatMap (filled values ms) = segments.flatMap (filledPlainly values) := by
  refine List.flatMap_congr fun segment hmem => ?_
  cases segment with
  | literal text => rfl
  | marker m => simp [filled, filledPlainly, h m hmem, Marker.before, List.rdrop]

theorem toList_render (c : Calendar) (date : Date) (text : String) :
    (c.render date text).toList =
      (scan text).segments.flatMap (filled (c.valuesOn date) (scan text).markers) := by
  rw [render, renderTemplate, String.toList_ofList, fill_eq_arrange (scan_spec text).2,
    chars_arrange fun m => mem_markers.2]

/-- Rendering is one pass over the segments of the template. A marker gives the text before the
first marker it ends in and the replacement of that one; where no marker ends in another, it gives
its own replacement. That is the value that it asks for, put in its sub-format, and nothing where
its key is unknown. What is put in is there as it was put in. -/
theorem render_in_one_pass (c : Calendar) (date : Date) (text : String) :
    let t := scan text
    let values := c.valuesOn date
    (∀ m topic, m.topic? = some topic → replacement values m = m.expand (values.get topic)) ∧
    (∀ m, m.topic? = none → replacement values m = "") ∧
    c.render date text = String.ofList (t.segments.flatMap (filled values t.markers)) ∧
    (fill values t).filterMap value? =
      t.markers.map (fun m => (replacement values (ending t.markers m)).toList) ∧
    (Independent t.markers →
      c.render date text = String.ofList (t.segments.flatMap (filledPlainly values))) ∧
    ((∀ m ∈ t.markers, '{' ∉ m.body.toList) →
      c.render date text = String.ofList (t.segments.flatMap (filledPlainly values))) := by
  intro t values
  have hfill : fill values t = arrange (replacedBy values t.markers) t.segments :=
    fill_eq_arrange (scan_spec text).2
  have hrender : c.render date text =
      String.ofList (t.segments.flatMap (filled values t.markers)) := by
    rw [render, renderTemplate, hfill, chars_arrange fun m => mem_markers.2]
  have hplain (h : Independent t.markers) :
      c.render date text = String.ofList (t.segments.flatMap (filledPlainly values)) := by
    rw [hrender, filled_eq_filledPlainly fun m hm => ending_eq_self h (mem_markers.2 hm)]
  refine ⟨fun m topic h => ?_, fun m h => ?_, hrender, ?_, hplain, fun hbrace => hplain ?_⟩
  · rw [replacement, h]
  · rw [replacement, h]
  · rw [hfill, values_arrange fun m => mem_markers.2]
  · exact independent_of_no_inner_brace hbrace

/-- A marker that ends in a later one, and one that ends in an earlier one. -/
theorem render_in_one_pass_of_outer_first :
    let c : Calendar := { store := ∅ }
    let outer := "\x7bx\x7bholiday\x7d \x7bholiday\x7d"
    let inner := "\x7bholiday\x7d \x7bx\x7bholiday\x7d"
    let date : Date := ⟨2024, 3, 31, by decide, by decide, by decide, by decide⟩
    Independent (scan outer).markers ∧
    c.render date outer =
      String.ofList ((scan outer).segments.flatMap (filledPlainly (c.valuesOn date))) ∧
    c.render date outer = " Veľkonočná nedeľa" ∧
    ¬ Independent (scan inner).markers ∧
    c.render date inner = "Veľkonočná nedeľa \x7bxVeľkonočná nedeľa" := by
  intro c outer inner date
  have h : Independent (scan outer).markers := by
    unfold Independent
    decide
  have houter := (render_in_one_pass c date outer).2.2.2.2.1 h
  have hinner := (render_in_one_pass c date inner).2.2.1
  refine ⟨h, houter, ?_, ?_, ?_⟩
  · rw [houter, ← String.toList_inj]
    decide +kernel
  · unfold Independent
    decide
  · rw [hinner, ← String.toList_inj]
    decide +kernel

end Almanac.Calendar
