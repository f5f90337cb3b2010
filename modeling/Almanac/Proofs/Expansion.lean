import Almanac.Proofs.Markers
import Almanac.Proofs.Substitution

/-! The text of a marker for a value. The sub-format is cut at its placeholders in the one way there
is, and the value stands between the parts as it is: neither the value nor what comes to stand
beside it is looked at again. -/

namespace Almanac

namespace Text
variable {marker part first cs rest back : List Char} {others texts : List (List Char)} {c : Char}

/-- Induction on a text as it is cut: an occurrence of the marker is passed at once, any other
character by itself. -/
theorem induction_of_cuts {motive : List Char → Prop} (hne : marker ≠ []) (nil : motive [])
    (occurrence : ∀ rest, motive rest → motive (marker ++ rest))
    (other : ∀ c cs, ¬ marker <+: c :: cs → motive cs → motive (c :: cs)) (cs : List Char) :
    motive cs := by
  induction hn : cs.length using Nat.strongRecOn generalizing cs with
  | ind n ih =>
    match cs with
    | [] => exact nil
    | c :: cs =>
      by_cases hp : marker <+: c :: cs
      · obtain ⟨rest, hrest⟩ := hp
        have hlength := congrArg List.length hrest
        have hpos := List.length_pos_iff.2 hne
        rw [List.length_append] at hlength
        rw [← hrest]
        exact occurrence rest (ih rest.length (by omega) rest rfl)
      · rw [List.length_cons] at hn
        exact other c cs hp (ih cs.length (by omega) cs rfl)

theorem prefix_of_parts (hne : marker ≠ []) (h : parts marker cs = first :: others) :
    first <+: cs := by
  have hback : marker.intercalate (parts marker cs) = cs := intercalate_parts hne
  rw [h] at hback
  rw [← hback]
  exact prefix_intercalate marker first others

/-- No part of a text has the marker in it. -/
theorem not_infix_of_mem_parts (hne : marker ≠ []) (h : part ∈ parts marker cs) :
    ¬ marker <:+: part := by
  have hnil : ¬ marker <:+: [] := fun hin => hne (List.infix_nil.1 hin)
  induction cs using induction_of_cuts hne generalizing part with
  | nil =>
    obtain rfl := List.mem_singleton.1 h
    exact hnil
  | occurrence rest ih =>
    rw [parts_append hne] at h
    obtain rfl | h := List.mem_cons.1 h
    · exact hnil
    · exact ih h
  | other c cs hp ih =>
    rw [parts_cons hp] at h
    cases hparts : parts marker cs with
    | nil => exact (parts_ne_nil hparts).elim
    | cons first others =>
      rw [hparts] at h ih
      obtain rfl | h := List.mem_cons.1 h
      · intro hin
        obtain hbegins | hin := List.infix_cons_iff.1 hin
        · have hfirst := (List.prefix_cons_inj c).2 (prefix_of_parts hne hparts)
          exact hp (hbegins.trans hfirst)
        · exact ih List.mem_cons_self hin
      · exact ih (List.mem_cons_of_mem _ h)

/-- A marker whose first character does not come again in it cannot begin in a text and end in
another marker behind it. -/
theorem not_begins_before (hc : c ∉ cs) (hfree : ¬ c :: cs <:+: part) (hback : back <:+ part)
    (hne : back ≠ []) : ¬ c :: cs <+: back ++ (c :: cs ++ rest) := by
  intro hbegins
  by_cases hlength : (c :: cs).length ≤ back.length
  · have hin := List.prefix_of_prefix_length_le hbegins (List.prefix_append _ _) hlength
    exact hfree (hin.isInfix.trans hback.isInfix)
  · obtain ⟨tail, htail⟩ :=
      List.prefix_of_prefix_length_le (List.prefix_append _ _) hbegins (by omega)
    obtain ⟨behind, hbehind⟩ := hbegins
    have htogether : back ++ (tail ++ behind) = back ++ (c :: cs ++ rest) := by
      rw [← List.append_assoc, htail, hbehind]
    have hstart := List.append_cancel_left htogether
    obtain ⟨d, back, rfl⟩ := List.exists_cons_of_ne_nil hne
    cases tail with
    | nil =>
      rw [List.append_nil] at htail
      rw [htail] at hlength
      exact hlength (Nat.le_refl _)
    | cons e tail =>
      obtain rfl : e = c := (List.cons.inj hstart).1
      apply hc
      rw [← (List.cons.inj htail).2]
      exact List.mem_append_right _ List.mem_cons_self

/-- Texts without such a marker are the parts of what they are with markers between them. -/
theorem parts_intercalate (hc : c ∉ cs) (hne : texts ≠ [])
    (hfree : ∀ text ∈ texts, ¬ c :: cs <:+: text) :
    parts (c :: cs) ((c :: cs).intercalate texts) = texts := by
  induction texts with
  | nil => exact (hne rfl).elim
  | cons text texts ih =>
    have htext := hfree text List.mem_cons_self
    cases texts with
    | nil => rw [List.intercalate_singleton, parts_of_no_occurrence htext]
    | cons next texts =>
      have hrest := ih (List.cons_ne_nil _ _) fun text htext =>
        hfree text (List.mem_cons_of_mem _ htext)
      rw [List.intercalate_cons_cons, List.append_assoc,
        parts_append_of_none_begins _ fun back => not_begins_before hc htext,
        parts_append (List.cons_ne_nil c cs), hrest, List.modifyHead_cons, List.append_nil]

end Text

namespace Marker
variable {m : Marker} {value : String} {format : List Char} {texts : List (List Char)}

/-- A sub-format as texts with a placeholder between any two of them, and none within. -/
structure Parted (format : List Char) (texts : List (List Char)) : Prop where
  ne_nil : texts ≠ []
  joined : placeholder.intercalate texts = format
  free : ∀ text ∈ texts, ¬ placeholder <:+: text

/-- A sub-format is parted in one way. -/
theorem parted_iff : Parted format texts ↔ texts = Text.parts placeholder format := by
  have hne : placeholder ≠ [] := by decide
  constructor
  · rintro ⟨htexts, rfl, hfree⟩
    exact (Text.parts_intercalate (by decide) htexts hfree).symm
  · rintro rfl
    exact ⟨Text.parts_ne_nil, Text.intercalate_parts hne, fun _ => Text.not_infix_of_mem_parts hne⟩

theorem subformat_of_no_colon (h : ':' ∉ m.body.toList) : m.subformat = none := by
  obtain ⟨-, -, hnone⟩ | ⟨rest, hbody, -, -⟩ := m.key_subformat
  · exact hnone
  · rw [hbody] at h
    simp at h

theorem subformat_of_body {key : List Char} (hkey : ':' ∉ key)
    (hbody : m.body.toList = key ++ ':' :: format) :
    m.subformat = if format = [] then none else some (String.ofList format) := by
  obtain ⟨hno, -⟩ | ⟨rest, hbody', hkey', hsubformat⟩ := m.key_subformat
  · rw [hbody] at hno
    simp at hno
  · obtain ⟨-, rfl⟩ := Template.eq_of_append_cons hkey hkey' (hbody.symm.trans hbody')
    exact hsubformat

theorem expand_of_no_subformat (hvalue : isBlank value.toList = false) (h : m.subformat = none) :
    m.expand value = value := by
  rw [expand, hvalue, h]
  rfl

/-- The value comes to stand between the parts of the sub-format. -/
theorem expand_of_parted (hvalue : isBlank value.toList = false)
    (h : m.subformat = some (String.ofList format)) (htexts : Parted format texts) :
    m.expand value = String.ofList (value.toList.intercalate texts) := by
  rw [expand, hvalue, h, parted_iff.1 htexts]
  simp only [Bool.false_eq_true, if_false, String.toList_ofList, Text.replace]

/-- A blank value gives no text. Any other gives itself, when nothing is behind the first colon of
the body or there is none. Else what is behind it has one form as texts with placeholders between
them, and these texts are given with the value between them, whatever stands in the value. -/
theorem expand_by_body (m : Marker) (value : String) :
    ((∀ c ∈ value.toList, isWhiteSpace c = true) → m.expand value = "") ∧
    ((∃ c ∈ value.toList, isWhiteSpace c = false) →
      (':' ∉ m.body.toList → m.expand value = value) ∧
      ∀ key format, ':' ∉ key → m.body.toList = key ++ ':' :: format →
        (format = [] → m.expand value = value) ∧
        (format ≠ [] → (∃! texts, Parted format texts) ∧
          ∀ texts, Parted format texts →
            m.expand value = String.ofList (value.toList.intercalate texts))) := by
  constructor
  · intro hblank
    exact if_pos (List.all_eq_true.2 hblank)
  · intro hvisible
    have hvalue : isBlank value.toList = false := List.all_eq_false.2 (by simpa using hvisible)
    constructor
    · intro hcolon
      exact expand_of_no_subformat hvalue (subformat_of_no_colon hcolon)
    · intro key format hkey hbody
      have hsubformat := subformat_of_body hkey hbody
      constructor
      · intro hempty
        rw [if_pos hempty] at hsubformat
        exact expand_of_no_subformat hvalue hsubformat
      · intro hformat
        rw [if_neg hformat] at hsubformat
        refine ⟨⟨_, parted_iff.2 rfl, fun _ => parted_iff.1⟩, ?_⟩
        intro texts htexts
        exact expand_of_parted hvalue hsubformat htexts

/-- The value is the placeholder itself; in its places it makes one more with the brackets of the
sub-format. -/
theorem expand_by_body_of_placeholder :
    let m : Marker := ⟨"nameday:[[value]]:[value]"⟩
    let texts := ["[".toList, "]:".toList, []]
    isWhiteSpace '[' = false ∧ ':' ∉ "nameday".toList ∧
      m.body.toList = "nameday".toList ++ ':' :: "[[value]]:[value]".toList ∧
      Parted "[[value]]:[value]".toList texts ∧
      m.expand "[value]" = String.ofList ("[value]".toList.intercalate texts) ∧
      m.expand "[value]" = "[[value]]:[value]" ∧ m.expand "\t\u2003" = "" := by
  intro m texts
  obtain ⟨-, hvisible⟩ := expand_by_body m "[value]"
  obtain ⟨hblank, -⟩ := expand_by_body m "\t\u2003"
  have hkey : ':' ∉ "nameday".toList := by decide
  have hbody : m.body.toList = "nameday".toList ++ ':' :: "[[value]]:[value]".toList := by decide
  have htexts : Parted "[[value]]:[value]".toList texts := parted_iff.2 (by decide)
  have hexpand := ((hvisible ⟨'[', by decide, by decide⟩).2 _ _ hkey hbody).2 (by decide)
  have hgiven := hexpand.2 texts htexts
  have hspaces := List.all_eq_true.1 (show isBlank "\t\u2003".toList from by decide)
  exact ⟨by decide, hkey, hbody, htexts, hgiven, hgiven, hblank hspaces⟩

end Marker
end Almanac
