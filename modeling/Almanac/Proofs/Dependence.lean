import Almanac.Calendar
import Almanac.Proofs.MovingHolidays
import Mathlib.Data.List.Forall2

/-! What an output depends on. Two runs of a template agree in the template text that stays and in
the places of the values, so they are equal once the values asked for are equal. And a store adds to
the values of a date only what is told in the record of its day. -/

namespace Almanac

namespace Template

/-- What the markers of a template ask for; an unknown key asks for nothing. -/
def topics (t : Template) : List Topic := t.markers.filterMap Marker.topic?

theorem mem_topics {t : Template} {topic : Topic} :
    topic ∈ t.topics ↔ ∃ m ∈ t.markers, m.topic? = some topic := List.mem_filterMap

end Template

namespace Facts
variable {told other : Option String}

theorem present_ne_some_empty (written : Option String) : present written ≠ some "" := by
  intro h
  have hne := (Option.filter_eq_some_iff.1 h).2
  simp at hne

theorem eq_of_getD_eq (htold : told ≠ some "") (hother : other ≠ some "")
    (h : told.getD "" = other.getD "") : told = other := by
  cases told <;> cases other <;> simp_all

end Facts

namespace Store
variable {s t : Store} {key : DayKey}

/-- Two stores tell the same of a day. No record, a record without a fact and one with the empty
text for it are alike in this. -/
structure AgreeOn (s t : Store) (key : DayKey) : Prop where
  names : (s.lookup key).bind Facts.presentNames = (t.lookup key).bind Facts.presentNames
  holiday : (s.lookup key).bind Facts.presentHoliday = (t.lookup key).bind Facts.presentHoliday
  worldDay : (s.lookup key).bind Facts.presentWorldDay = (t.lookup key).bind Facts.presentWorldDay

theorem bind_present_ne_some_empty (s : Store) (key : DayKey) (field : Facts → Option String) :
    (s.lookup key).bind (fun facts => Facts.present (field facts)) ≠ some "" := by
  rw [Facts.present_bind]
  exact Facts.present_ne_some_empty _

end Store

namespace Calendar

variable {values others : DayValues} {ms : List Marker} {m : Marker} {ps qs : List Piece}
  {p q : Piece} {t : Template} {s s' : Store} {fixed other : Option String}

/-- Two pieces that stand in one place in two runs: the same template text, or what is put in for
one and the same marker. -/
inductive Counterpart (values others : DayValues) (ms : List Marker) : Piece → Piece → Prop
  | text (cs : List Char) : Counterpart values others ms (.pending cs) (.pending cs)
  | value {m : Marker} (hm : m ∈ ms) : Counterpart values others ms
      (.done (replacement values m).toList) (.done (replacement others m).toList)

theorem counterpart_substitute (hm : m ∈ ms) (h : Counterpart values others ms p q) :
    List.Forall₂ (Counterpart values others ms)
      (p.substitute m.source.toList (replacement values m).toList)
      (q.substitute m.source.toList (replacement others m).toList) := by
  cases h with
  | value hm' => exact .cons (.value hm') .nil
  | text cs =>
    simp only [Piece.substitute]
    cases Text.parts m.source.toList cs with
    | nil => exact .nil
    | cons first rest =>
      refine .cons (.text first) ?_
      induction rest with
      | nil => exact .nil
      | cons part rest ih => exact .cons (.value hm) (.cons (.text part) ih)

/-- Whatever the values are, two runs cut the template text at the same places. -/
theorem counterpart_foldl (hms : ∀ m ∈ ms, m ∈ t.markers)
    (h : List.Forall₂ (Counterpart values others t.markers) ps qs) :
    List.Forall₂ (Counterpart values others t.markers)
      (ms.foldl (fun ps m =>
        Piece.substituteAll m.source.toList (replacement values m).toList ps) ps)
      (ms.foldl (fun qs m =>
        Piece.substituteAll m.source.toList (replacement others m).toList qs) qs) := by
  induction ms generalizing ps qs with
  | nil => exact h
  | cons m ms ih =>
    have hm := hms m List.mem_cons_self
    refine ih (fun e he => hms e (List.mem_cons_of_mem _ he)) ?_
    exact List.rel_flatMap h fun _ _ hpq => counterpart_substitute hm hpq

theorem counterpart_fill (values others : DayValues) (t : Template) :
    List.Forall₂ (Counterpart values others t.markers) (fill values t) (fill others t) :=
  counterpart_foldl (fun _ hm => hm) (.cons (.text _) .nil)

theorem eq_of_counterpart (hms : ∀ m ∈ ms, replacement values m = replacement others m)
    (h : List.Forall₂ (Counterpart values others ms) ps qs) : ps = qs := by
  induction h with
  | nil => rfl
  | cons hpq _ ih =>
    cases hpq with
    | text cs => rw [ih]
    | value hm => rw [hms _ hm, ih]

theorem replacement_congr
    (h : ∀ topic, m.topic? = some topic → values.get topic = others.get topic) :
    replacement values m = replacement others m := by
  unfold replacement
  cases htopic : m.topic? with
  | none => rfl
  | some topic => exact congrArg m.expand (h topic htopic)

theorem fill_congr (h : ∀ topic ∈ t.topics, values.get topic = others.get topic) :
    fill values t = fill others t := by
  refine eq_of_counterpart (fun m hm => ?_) (counterpart_fill values others t)
  exact replacement_congr fun topic htopic => h topic (Template.mem_topics.2 ⟨m, hm, htopic⟩)

theorem renderTemplate_congr {c c' : Calendar} {date date' : Date}
    (h : ∀ topic ∈ t.topics, (c.valuesOn date).get topic = (c'.valuesOn date').get topic) :
    c.renderTemplate date t = c'.renderTemplate date' t := by
  rw [renderTemplate, renderTemplate, fill_congr h]

/-! ### What a store adds -/

theorem joined_inj {separator : String} {moving : Option String} (hfixed : fixed ≠ some "")
    (hother : other ≠ some "") (h : joined separator moving fixed = joined separator moving other) :
    fixed = other := by
  cases moving with
  | none =>
    rw [joined_none, joined_none] at h
    exact Facts.eq_of_getD_eq hfixed hother h
  | some moving =>
    have hlonger (text : String) (htext : text ≠ "") : moving ≠ moving ++ separator ++ text := by
      intro he
      have hlength := congrArg String.length he
      simp only [String.length_append] at hlength
      have hpos : text.length ≠ 0 := by simpa using htext
      omega
    cases fixed with
    | none =>
      cases other with
      | none => rfl
      | some text => exact (hlonger text (by simpa using hother) h).elim
    | some text =>
      cases other with
      | none => exact (hlonger text (by simpa using hfixed) h.symm).elim
      | some text' => rw [(String.append_right_inj _).1 h]

theorem valuesOn_congr (separator : String) (date : Date) (h : s.AgreeOn s' (.ofDate date)) :
    valuesOn ⟨s, separator⟩ date = valuesOn ⟨s', separator⟩ date := by
  simp only [valuesOn, holidayText, h.names, h.holiday, h.worldDay]

theorem renderTemplate_of_agreeOn (separator : String) (date : Date)
    (h : s.AgreeOn s' (.ofDate date)) (t : Template) :
    renderTemplate ⟨s, separator⟩ date t = renderTemplate ⟨s', separator⟩ date t := by
  rw [renderTemplate, renderTemplate, valuesOn_congr separator date h]

/-- What a store tells of a day can be read off the values of the date. -/
theorem agreeOn_of_valuesOn_eq {separator : String} {date : Date}
    (h : valuesOn ⟨s, separator⟩ date = valuesOn ⟨s', separator⟩ date) :
    s.AgreeOn s' (.ofDate date) where
  names := by
    have hnames := congrArg DayValues.names h
    exact Facts.eq_of_getD_eq (s.bind_present_ne_some_empty _ Facts.names)
      (s'.bind_present_ne_some_empty _ Facts.names) hnames
  holiday := by
    have hholiday := congrArg DayValues.holiday h
    simp only [valuesOn, holidayText_eq, ← Facts.present_bind] at hholiday
    exact joined_inj (s.bind_present_ne_some_empty _ Facts.holiday)
      (s'.bind_present_ne_some_empty _ Facts.holiday) hholiday
  worldDay := by
    have hworldDay := congrArg DayValues.worldDay h
    exact Facts.eq_of_getD_eq (s.bind_present_ne_some_empty _ Facts.worldDay)
      (s'.bind_present_ne_some_empty _ Facts.worldDay) hworldDay

/-- Two runs differ only in what stands for one and the same marker, and not at all when the values
agree on what the template asks for. The values of a date show of a store what it tells of that day
and nothing else. -/
theorem render_noninterference :
    (∀ (c c' : Calendar) (date date' : Date) (t : Template),
      List.Forall₂ (Counterpart (c.valuesOn date) (c'.valuesOn date') t.markers)
          (fill (c.valuesOn date) t) (fill (c'.valuesOn date') t) ∧
      ((∀ topic ∈ t.topics, (c.valuesOn date).get topic = (c'.valuesOn date').get topic) →
        c.renderTemplate date t = c'.renderTemplate date' t)) ∧
    (∀ (c c' : Calendar) (date date' : Date) (text : String),
      (∀ topic ∈ (Template.scan text).topics,
        (c.valuesOn date).get topic = (c'.valuesOn date').get topic) →
      c.render date text = c'.render date' text) ∧
    (∀ (s s' : Store) (separator : String) (date : Date),
      (valuesOn ⟨s, separator⟩ date = valuesOn ⟨s', separator⟩ date ↔
        s.AgreeOn s' (.ofDate date)) ∧
      (s.AgreeOn s' (.ofDate date) →
        (∀ t, renderTemplate ⟨s, separator⟩ date t = renderTemplate ⟨s', separator⟩ date t) ∧
        ∀ text, render ⟨s, separator⟩ date text = render ⟨s', separator⟩ date text)) := by
  refine ⟨?_, ?_, ?_⟩
  · intro c c' date date' t
    exact ⟨counterpart_fill _ _ t, renderTemplate_congr⟩
  · intro c c' date date' text h
    exact renderTemplate_congr h
  · intro s s' separator date
    refine ⟨⟨agreeOn_of_valuesOn_eq, valuesOn_congr separator date⟩, fun h => ?_⟩
    have ht := renderTemplate_of_agreeOn separator date h
    exact ⟨ht, fun text => ht (Template.scan text)⟩

/-- Two dates with other holidays, asked for their names and world days, and two stores that differ
on one day in nothing but an empty text. -/
theorem render_noninterference_of_hidden_holiday :
    let date : Date := ⟨2024, 3, 31, by decide, by decide, by decide, by decide⟩
    let day : Date := ⟨2023, 5, 8, by decide, by decide, by decide, by decide⟩
    let s : Store := Store.empty.insert ⟨.ofDate date, some "Anna", none, some ""⟩
    let s' : Store := Store.empty.insert ⟨.ofDate day, some "Anna", some "Deň víťazstva", none⟩
    let text := "\x7bnameday:[value]!\x7d \x7bnone\x7d\x7bworldday\x7d"
    (∀ topic ∈ (Template.scan text).topics,
      (valuesOn ⟨s, ", "⟩ date).get topic = (valuesOn ⟨s', "; "⟩ day).get topic) ∧
    valuesOn ⟨s, ", "⟩ date ≠ valuesOn ⟨s', "; "⟩ day ∧
    render ⟨s, ", "⟩ date text = render ⟨s', "; "⟩ day text ∧
    (s.insert ⟨.ofDate day, some "", none, none⟩).AgreeOn s (.ofDate day) ∧
    ∀ text, render ⟨s.insert ⟨.ofDate day, some "", none, none⟩, ", "⟩ day text =
      render ⟨s, ", "⟩ day text := by
  intro date day s s' text
  obtain ⟨-, htexts, hstores⟩ := render_noninterference
  have hasked : ∀ topic ∈ (Template.scan text).topics,
      (valuesOn ⟨s, ", "⟩ date).get topic = (valuesOn ⟨s', "; "⟩ day).get topic := by decide
  have hagree : (s.insert ⟨.ofDate day, some "", none, none⟩).AgreeOn s (.ofDate day) :=
    ⟨by decide, by decide, by decide⟩
  exact ⟨hasked, by decide, htexts ⟨s, ", "⟩ ⟨s', "; "⟩ date day text hasked, hagree,
    ((hstores _ _ ", " day).2 hagree).2⟩

end Calendar
end Almanac
