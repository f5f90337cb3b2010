import Almanac.Calendar
import Almanac.Proofs.MovingHolidays
import Mathlib.Data.List.Forall2

/-! Blank facts leave no trace in what is rendered, with one exception: a holiday of spaces shows on
the day of a moving holiday, since the separator goes before it. -/

namespace Almanac

/-- A field is as it was, or absent where its text was blank. -/
def Cleared (old new : Option String) : Prop :=
  new = old ∨ new = none ∧ ∃ text, old = some text ∧ isBlank text.toList

/-- Two values that a marker does not tell apart. -/
def ShownAlike (value other : String) : Prop :=
  other = value ∨ isBlank value.toList ∧ isBlank other.toList

namespace Facts
variable {f g : Facts} {old new : Option String}

/-- The record `g` is `f` with blank texts taken out of some of its fields. -/
structure Clears (f g : Facts) : Prop where
  key : g.key = f.key
  names : Cleared f.names g.names
  holiday : Cleared f.holiday g.holiday
  worldDay : Cleared f.worldDay g.worldDay

theorem present_eq_self_or_none (written : Option String) :
    present written = written ∨ present written = none := by
  cases written with
  | none => exact .inl rfl
  | some text =>
    by_cases h : text = ""
    · exact .inr (by rw [h, present_empty])
    · exact .inl (present_some h)

theorem isBlank_present {text : String} (h : isBlank text.toList) :
    isBlank ((present (some text)).getD "").toList := by
  rcases present_eq_self_or_none (some text) with hp | hp
  · rw [hp]
    exact h
  · rw [hp]
    rfl

theorem shownAlike_present (h : Cleared old new) :
    ShownAlike ((present old).getD "") ((present new).getD "") := by
  rcases h with rfl | ⟨rfl, text, rfl, hblank⟩
  · exact .inl rfl
  · exact .inr ⟨isBlank_present hblank, rfl⟩

end Facts

namespace Store
variable {s t : Store}

/-- The store `t` has the records of `s` with blank texts taken out of some of their fields. -/
def Clears (s t : Store) : Prop := List.Forall₂ Facts.Clears s.records t.records

theorem keys_of_clears {records others : List Facts}
    (h : List.Forall₂ Facts.Clears records others) :
    others.map Facts.key = records.map Facts.key := by
  induction h with
  | nil => rfl
  | cons hclears _ ih => rw [List.map_cons, List.map_cons, hclears.key, ih]

theorem exists_clears_of_mem {records others : List Facts} {f : Facts}
    (h : List.Forall₂ Facts.Clears records others) (hf : f ∈ records) :
    ∃ g ∈ others, f.Clears g := by
  induction h with
  | nil => cases hf
  | @cons f' g' _ _ hclears _ ih =>
    rcases List.mem_cons.1 hf with rfl | hf
    · exact ⟨g', List.mem_cons_self, hclears⟩
    · obtain ⟨g, hg, hfg⟩ := ih hf
      exact ⟨g, List.mem_cons_of_mem _ hg, hfg⟩

theorem lookup_of_clears (h : s.Clears t) (key : DayKey) :
    (s.lookup key = none ∧ t.lookup key = none) ∨
      ∃ f g, s.lookup key = some f ∧ t.lookup key = some g ∧ f.Clears g := by
  cases hs : s.lookup key with
  | none =>
    refine .inl ⟨rfl, ?_⟩
    rw [lookup_eq_none, keys_of_clears h]
    exact lookup_eq_none.1 hs
  | some f =>
    obtain ⟨hmem, hkey⟩ := lookup_eq_some.1 hs
    obtain ⟨g, hg, hfg⟩ := exists_clears_of_mem h hmem
    exact .inr ⟨f, g, rfl, lookup_eq_some.2 ⟨hg, hfg.key.trans hkey⟩, hfg⟩

/-- What a field of a day's record goes over to. -/
theorem cleared_lookup (h : s.Clears t) (key : DayKey) {field : Facts → Option String}
    (hfield : ∀ f g, f.Clears g → Cleared (field f) (field g)) :
    Cleared ((s.lookup key).bind field) ((t.lookup key).bind field) := by
  obtain ⟨hs, ht⟩ | ⟨f, g, hs, ht, hfg⟩ := lookup_of_clears h key
  · rw [hs, ht]
    exact .inl rfl
  · rw [hs, ht]
    exact hfield f g hfg

theorem shownAlike_lookup (h : s.Clears t) (key : DayKey) {field : Facts → Option String}
    (hfield : ∀ f g, f.Clears g → Cleared (field f) (field g)) :
    ShownAlike (((s.lookup key).bind fun f => Facts.present (field f)).getD "")
      (((t.lookup key).bind fun f => Facts.present (field f)).getD "") := by
  rw [Facts.present_bind, Facts.present_bind]
  exact Facts.shownAlike_present (cleared_lookup h key hfield)

end Store

theorem Marker.expand_shownAlike {value other : String} (m : Marker) (h : ShownAlike value other) :
    m.expand other = m.expand value := by
  rcases h with rfl | ⟨hvalue, hother⟩
  · rfl
  · rw [expand, expand, if_pos hvalue, if_pos hother]

namespace Calendar
variable {s t : Store} {values others : DayValues} {separator text : String} {date : Date}

theorem replacement_shownAlike (h : ∀ topic, ShownAlike (values.get topic) (others.get topic))
    (m : Marker) : replacement others m = replacement values m := by
  unfold replacement
  cases m.topic? with
  | none => rfl
  | some topic => exact m.expand_shownAlike (h topic)

theorem fill_shownAlike (h : ∀ topic, ShownAlike (values.get topic) (others.get topic))
    (template : Template) : fill others template = fill values template := by
  simp only [fill, replacement_shownAlike h]

/-- A holiday of nothing but white space was taken from the record of a date that is a moving
holiday, too. -/
def Exposes (s t : Store) (date : Date) : Prop :=
  ∃ moving blank, movingHoliday? date = some moving ∧
    (s.lookup (.ofDate date)).bind Facts.holiday = some blank ∧ blank ≠ "" ∧
    (t.lookup (.ofDate date)).bind Facts.holiday = none

theorem holidayText_shownAlike (h : s.Clears t) (hsafe : ¬ Exposes s t date) :
    ShownAlike (holidayText ⟨s, separator⟩ date) (holidayText ⟨t, separator⟩ date) := by
  have hcleared := Store.cleared_lookup h (.ofDate date) fun f g hfg => hfg.holiday
  rw [holidayText_eq, holidayText_eq]
  cases hmoving : movingHoliday? date with
  | none =>
    rw [joined_none, joined_none]
    exact Facts.shownAlike_present hcleared
  | some moving =>
    -- The fixed holidays have to be equal here, since a separator stands before them.
    refine .inl (congrArg (joined separator (some moving)) ?_)
    rcases hcleared with heq | ⟨hnone, blank, hblank, -⟩
    · rw [heq]
    · have hempty : blank = "" := by
        by_contra hne
        exact hsafe ⟨moving, blank, hmoving, hblank, hne, hnone⟩
      rw [hblank, hnone, hempty, Facts.present_empty, Facts.present_none]

theorem valuesOn_shownAlike (h : s.Clears t) (hsafe : ¬ Exposes s t date) (topic : Topic) :
    ShownAlike ((valuesOn ⟨s, separator⟩ date).get topic)
      ((valuesOn ⟨t, separator⟩ date).get topic) := by
  cases topic with
  | longDate => exact .inl rfl
  | names => exact Store.shownAlike_lookup h _ fun f g hfg => hfg.names
  | holiday => exact holidayText_shownAlike h hsafe
  | worldDay => exact Store.shownAlike_lookup h _ fun f g hfg => hfg.worldDay

theorem render_of_not_exposes (h : s.Clears t) (hsafe : ¬ Exposes s t date) (text : String) :
    render ⟨t, separator⟩ date text = render ⟨s, separator⟩ date text := by
  rw [render, render, renderTemplate, renderTemplate,
    fill_shownAlike (valuesOn_shownAlike h hsafe)]

/-- A template of one marker gives what replaces the marker. -/
theorem fill_marker (values : DayValues) (m : Marker) :
    (fill values ⟨[.marker m]⟩).flatMap Piece.chars = (replacement values m).toList := by
  have hne : m.source.toList ≠ [] := by simp [Marker.source]
  have hparts : Text.parts m.source.toList (m.source.toList ++ []) = [] :: Text.parts _ [] :=
    Text.parts_append hne
  rw [List.append_nil, Text.parts_nil] at hparts
  have hsource : (Template.source ⟨[.marker m]⟩).toList = m.source.toList := by
    simp [Template.source, Segment.source]
  rw [fill, hsource]
  simp [Template.markers, Piece.substituteAll, Piece.substitute, hparts, Piece.chars]

/-- The template that asks for the holidays and nothing else. -/
def holidayTemplate : String := "\x7bholiday\x7d"

theorem render_holidayTemplate (c : Calendar) (date : Date)
    (h : isBlank (c.holidayText date).toList = false) :
    c.render date holidayTemplate = c.holidayText date := by
  have hscan : Template.scan holidayTemplate = ⟨[.marker ⟨"holiday"⟩]⟩ := by decide
  have htopic : Marker.topic? ⟨"holiday"⟩ = some .holiday := by decide
  have hsubformat : Marker.subformat ⟨"holiday"⟩ = none := by decide
  have hvalue : replacement (c.valuesOn date) ⟨"holiday"⟩ = c.holidayText date := by
    rw [replacement, htopic]
    change Marker.expand ⟨"holiday"⟩ (c.holidayText date) = _
    rw [Marker.expand, h, hsubformat]
    rfl
  rw [render, renderTemplate, hscan, fill_marker, hvalue, String.ofList_toList]

theorem not_isBlank_moving {moving : String} (h : movingHoliday? date = some moving) :
    isBlank moving.toList = false := by
  have hname (holiday : EasterHoliday) : isBlank holiday.name.toList = false := by
    cases holiday <;> decide
  obtain ⟨holiday, -, rfl⟩ := Option.map_eq_some_iff.1 h
  exact hname holiday

theorem render_of_exposed {moving blank : String} (separator : String)
    (hmoving : movingHoliday? date = some moving)
    (hs : (s.lookup (.ofDate date)).bind Facts.holiday = some blank) (hne : blank ≠ "")
    (ht : (t.lookup (.ofDate date)).bind Facts.holiday = none) :
    render ⟨s, separator⟩ date holidayTemplate = moving ++ separator ++ blank ∧
      render ⟨t, separator⟩ date holidayTemplate = moving := by
  have hname := not_isBlank_moving hmoving
  have hshown : holidayText ⟨s, separator⟩ date = moving ++ separator ++ blank := by
    rw [holidayText_eq, hs, Facts.present_some hne, hmoving, joined]
  have hplain : holidayText ⟨t, separator⟩ date = moving := by
    rw [holidayText_eq, ht, Facts.present_none, hmoving, joined]
  refine ⟨?_, ?_⟩
  · rw [render_holidayTemplate, hshown]
    rw [hshown, String.toList_append, String.toList_append, isBlank_append, isBlank_append, hname,
      Bool.false_and, Bool.false_and]
  · rw [render_holidayTemplate, hplain]
    rw [hplain]
    exact hname

/-- Taking blank texts out of the records of a store changes nothing that is rendered for a date,
unless a holiday of white space is taken from a day that is a moving holiday as well. That one stood
behind the separator. -/
theorem render_of_clears_iff (s t : Store) (h : s.Clears t) (separator : String) (date : Date) :
    ((∀ text, render ⟨t, separator⟩ date text = render ⟨s, separator⟩ date text) ↔
      ¬ Exposes s t date) ∧
    (∀ moving blank, movingHoliday? date = some moving →
      (s.lookup (.ofDate date)).bind Facts.holiday = some blank → blank ≠ "" →
      (t.lookup (.ofDate date)).bind Facts.holiday = none →
      isBlank blank.toList ∧
        render ⟨s, separator⟩ date holidayTemplate = moving ++ separator ++ blank ∧
        render ⟨t, separator⟩ date holidayTemplate = moving) := by
  refine ⟨⟨?_, render_of_not_exposes h⟩, ?_⟩
  · rintro hsame ⟨moving, blank, hmoving, hs, hne, ht⟩
    obtain ⟨hshown, hplain⟩ := render_of_exposed separator hmoving hs hne ht
    have heq := (hplain.symm.trans (hsame holidayTemplate)).trans hshown
    have hlength := congrArg String.length heq
    simp only [String.length_append] at hlength
    have hblank : blank.length ≠ 0 := by simpa using hne
    omega
  · intro moving blank hmoving hs hne ht
    refine ⟨?_, render_of_exposed separator hmoving hs hne ht⟩
    have hcleared := Store.cleared_lookup h (.ofDate date) fun f g hfg => hfg.holiday
    rw [hs, ht] at hcleared
    rcases hcleared with heq | ⟨-, text, htext, hblank⟩
    · cases heq
    · cases htext
      exact hblank

theorem render_of_clears_empty_holiday :
    let key : DayKey := ⟨3, 29, by decide, by decide⟩
    let s : Store := Store.empty.insert ⟨key, some " \t", some "", some "\u2003"⟩
    let t : Store := Store.empty.insert ⟨key, none, none, none⟩
    let date : Date := ⟨2024, 3, 29, by decide, by decide, by decide, by decide⟩
    s.Clears t ∧ ∀ text, render ⟨t, ", "⟩ date text = render ⟨s, ", "⟩ date text := by
  intro key s t date
  have hclears : s.Clears t := by
    refine .cons ⟨rfl, .inr ⟨rfl, _, rfl, ?_⟩, .inr ⟨rfl, _, rfl, ?_⟩, .inr ⟨rfl, _, rfl, ?_⟩⟩ .nil
    all_goals decide
  have hsafe : ¬ Exposes s t date := by
    rintro ⟨moving, blank, -, hs, hne, -⟩
    exact hne (Option.some.inj hs).symm
  exact ⟨hclears, (render_of_clears_iff s t hclears ", " date).1.2 hsafe⟩

/-- A holiday of one space shows on Good Friday: the separator and the space go behind the name. -/
theorem render_ne_of_clears_space :
    let key : DayKey := ⟨3, 29, by decide, by decide⟩
    let s : Store := Store.empty.insert ⟨key, none, some " ", none⟩
    let t : Store := Store.empty.insert ⟨key, none, none, none⟩
    let date : Date := ⟨2024, 3, 29, by decide, by decide, by decide, by decide⟩
    s.Clears t ∧ render ⟨s, ", "⟩ date holidayTemplate = "Veľký piatok,  " ∧
      render ⟨t, ", "⟩ date holidayTemplate = "Veľký piatok" := by
  intro key s t date
  have hclears : s.Clears t := .cons ⟨rfl, .inl rfl, .inr ⟨rfl, _, rfl, by decide⟩, .inl rfl⟩ .nil
  refine ⟨hclears, ?_, ?_⟩
  · decide
  · decide

end Calendar
end Almanac
