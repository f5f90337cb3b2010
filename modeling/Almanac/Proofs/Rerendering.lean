import Almanac.Proofs.Markers
import Almanac.Proofs.Rendering

/-! What is rendered from plain markers and plain values is final: no opening brace in it finds a
closing one, so it holds no marker, and rendering it again changes nothing. -/

namespace Almanac

namespace Text
variable {marker value part found cs : List Char} {skip : Nat} {c : Char}

theorem mem_of_mem_partsFrom (h : found ∈ partsFrom marker skip part cs) (hc : c ∈ found) :
    c ∈ part ∨ c ∈ cs := by
  fun_induction partsFrom marker skip part cs with
  | case1 skip part =>
    obtain rfl := List.mem_singleton.1 h
    exact .inl (List.mem_reverse.1 hc)
  | case2 part d cs _ ih =>
    obtain rfl | h := List.mem_cons.1 h
    · exact .inl (List.mem_reverse.1 hc)
    · obtain hnil | hcs := ih h
      · cases hnil
      · exact .inr (List.mem_cons_of_mem _ hcs)
  | case3 part d cs _ ih =>
    obtain hpart | hcs := ih h
    · obtain rfl | hpart := List.mem_cons.1 hpart
      · exact .inr List.mem_cons_self
      · exact .inl hpart
    · exact .inr (List.mem_cons_of_mem _ hcs)
  | case4 part skip d cs ih => exact (ih h).imp_right (List.mem_cons_of_mem _)

theorem mem_of_mem_replace (h : c ∈ replace marker value cs) : c ∈ value ∨ c ∈ cs := by
  obtain hvalue | ⟨part, hpart, hc⟩ := mem_of_mem_intercalate h
  · exact .inl hvalue
  · obtain hnil | hcs := mem_of_mem_partsFrom hpart hc
    · cases hnil
    · exact .inr hcs

end Text

namespace Marker
variable {m : Marker} {value format : String} {c : Char}

theorem mem_body_of_mem_subformat (h : m.subformat = some format) (hc : c ∈ format.toList) :
    c ∈ m.body.toList := by
  obtain ⟨-, -, hnone⟩ | ⟨rest, hbody, -, hformat⟩ := m.key_subformat
  · rw [h] at hnone
    cases hnone
  · rw [h] at hformat
    split at hformat
    · cases hformat
    · obtain rfl := Option.some.inj hformat
      rw [hbody]
      exact List.mem_append_right _ (List.mem_cons_of_mem _ (by simpa using hc))

/-- The text for a value is made of the value and the body of the marker. -/
theorem mem_of_mem_expand (h : c ∈ (m.expand value).toList) :
    c ∈ value.toList ∨ c ∈ m.body.toList := by
  unfold expand at h
  split at h
  · simp at h
  · split at h
    next => exact .inl h
    next format hformat =>
      rw [String.toList_ofList] at h
      obtain hvalue | hc := Text.mem_of_mem_replace h
      · exact .inl hvalue
      · exact .inr (mem_body_of_mem_subformat hformat hc)

end Marker

namespace Template
variable {text : String}

/-- A text has no marker if nothing closes its first opening brace. -/
theorem markers_of_unclosed (h : '}' ∉ fromBrace text.toList) : (scan text).markers = [] := by
  rw [List.eq_nil_iff_forall_not_mem]
  intro m hm
  obtain ⟨before, after, he⟩ := List.append_of_mem (Calendar.mem_markers.1 hm)
  have hwritten := (scan_spec text).1
  rw [he, written_append, written_cons, ← List.append_assoc] at hwritten
  exact Marker.not_infix_of_unclosed h ⟨written before, written after, hwritten⟩

end Template

namespace Calendar
open Template

variable {values : DayValues} {m : Marker} {segments : List Segment} {text : String}

theorem notMem_replacement {c : Char} (hvalues : ∀ topic, c ∉ (values.get topic).toList)
    (hbody : c ∉ m.body.toList) : c ∉ (replacement values m).toList := by
  unfold replacement
  cases m.topic? with
  | none => simp
  | some topic => exact fun hmem => (Marker.mem_of_mem_expand hmem).elim (hvalues topic) hbody

/-- An opening brace in the output stems from the end of the template, where nothing closes it. -/
theorem unclosed_filledPlainly (hs : Canonical segments)
    (h : ∀ m, .marker m ∈ segments → '{' ∉ (replacement values m).toList) :
    '}' ∉ fromBrace (segments.flatMap (filledPlainly values)) := by
  induction segments with
  | nil => simp [fromBrace]
  | cons segment segments ih =>
    have htail := ih (canonical_tail hs) fun m hm => h m (List.mem_cons_of_mem _ hm)
    rw [List.flatMap_cons]
    cases segment with
    | marker m =>
      rw [filledPlainly, fromBrace_append_of_notMem (h m List.mem_cons_self)]
      exact htail
    | literal text =>
      by_cases hopen : '{' ∈ text.toList
      · obtain ⟨rfl, hno⟩ := hs.unclosed [] text segments rfl hopen
        simpa [filledPlainly] using hno
      · rw [filledPlainly, fromBrace_append_of_notMem hopen]
        exact htail

theorem render_of_no_markers (c : Calendar) (date : Date) (h : (scan text).markers = []) :
    c.render date text = text := by
  have hsource : (scan text).source.toList = text.toList := by
    rw [toList_source, (scan_spec text).1]
  rw [render, renderTemplate, fill, h, List.foldl_nil, hsource]
  simp [Piece.chars]

/-- Where neither a marker's body nor a value holds an opening brace, the output holds no marker,
and every calendar gives it back as it is. -/
theorem render_render (c : Calendar) (date : Date) (text : String)
    (hbodies : ∀ m ∈ (scan text).markers, '{' ∉ m.body.toList)
    (hvalues : ∀ topic, '{' ∉ ((c.valuesOn date).get topic).toList) :
    let output := c.render date text
    (scan output).markers = [] ∧
      ∀ (other : Calendar) (day : Date), other.render day output = output := by
  intro output
  have hself (m : Marker) (hm : .marker m ∈ (scan text).segments) :
      ending (scan text).markers m = m :=
    ending_of_no_inner_brace (hbodies m (mem_markers.2 hm)) _
  have houtput : output.toList =
      (scan text).segments.flatMap (filledPlainly (c.valuesOn date)) := by
    rw [toList_render, filled_eq_filledPlainly hself]
  have hnone : (scan output).markers = [] := by
    refine markers_of_unclosed ?_
    rw [houtput]
    refine unclosed_filledPlainly (scan_spec text).2 fun m hm => ?_
    exact notMem_replacement hvalues (hbodies m (mem_markers.2 hm))
  exact ⟨hnone, fun other day => render_of_no_markers other day hnone⟩

theorem render_render_of_stray_braces :
    let date : Date := ⟨2024, 3, 31, by decide, by decide, by decide, by decide⟩
    let c : Calendar := ⟨Store.empty.insert ⟨.ofDate date, some "A\x7d", none, none⟩, "\x7d "⟩
    let text := "\x7d \x7bnameday:([value]) [value\x7d\x7bx\x7d \x7bholiday"
    (∀ m ∈ (scan text).markers, '{' ∉ m.body.toList) ∧
    (∀ topic, '{' ∉ ((c.valuesOn date).get topic).toList) ∧
    c.render date text = "\x7d (A\x7d) [value \x7bholiday" ∧
    (scan (c.render date text)).markers = [] ∧
    ∀ (other : Calendar) (day : Date),
      other.render day (c.render date text) = c.render date text := by
  intro date c text
  have hbodies : ∀ m ∈ (scan text).markers, '{' ∉ m.body.toList := by decide
  have hvalues : ∀ topic, '{' ∉ ((c.valuesOn date).get topic).toList := by
    intro topic
    cases topic <;> decide
  exact ⟨hbodies, hvalues, by decide, render_render c date text hbodies hvalues⟩

end Calendar
end Almanac
