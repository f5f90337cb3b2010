import Almanac.Proofs.Rendering

/-! One text after another. What is scanned of the first stays as it is whatever follows, exactly if
each of its opening braces is closed. Then a template is rendered part by part, too, where no marker
of the second part can end in a marker of the first. -/

namespace Almanac

namespace Template
variable {segments others : List Segment} {cs ds : List Char} {text more a b : String} {α : Type}

/-- Behind each opening brace stands a closing one. -/
def Closed (cs : List Char) : Prop := ∀ back, '{' :: back <:+ cs → '}' ∈ back

theorem closed_nil : Closed [] := by
  intro back hback
  simp at hback

theorem closed_cons {c : Char} : Closed (c :: cs) ↔ (c = '{' → '}' ∈ cs) ∧ Closed cs := by
  constructor
  · intro h
    refine ⟨?_, fun back hback => h back (hback.trans (List.suffix_cons c cs))⟩
    rintro rfl
    exact h cs (List.suffix_refl _)
  · rintro ⟨hc, hcs⟩ back hback
    obtain heq | hback := List.suffix_cons_iff.1 hback
    · obtain ⟨rfl, rfl⟩ := List.cons.inj heq
      exact hc rfl
    · exact hcs back hback

instance decidableClosed : (cs : List Char) → Decidable (Closed cs)
  | [] => .isTrue closed_nil
  | _ :: cs =>
    have := decidableClosed cs
    decidable_of_iff _ closed_cons.symm

theorem closed_append (hcs : Closed cs) (hds : Closed ds) : Closed (cs ++ ds) := by
  induction cs with
  | nil => exact hds
  | cons c cs ih =>
    obtain ⟨hc, hcs⟩ := closed_cons.1 hcs
    exact closed_cons.2 ⟨fun he => List.mem_append_left _ (hc he), ih hcs⟩

theorem closed_of_notMem (h : '{' ∉ cs) : Closed cs := by
  intro back hback
  exact (h (hback.subset List.mem_cons_self)).elim

theorem closed_concat_brace (cs : List Char) : Closed (cs ++ ['}']) := by
  induction cs with
  | nil => exact closed_of_notMem (by simp)
  | cons c cs ih => exact closed_cons.2 ⟨fun _ => by simp, ih⟩

/-- The closed texts are those without an opening brace in a literal of their canonical form. -/
theorem closed_written_iff (h : Canonical segments) :
    Closed (written segments) ↔ ∀ text, .literal text ∈ segments → '{' ∉ text.toList := by
  constructor
  · intro hclosed text hmem hopen
    obtain ⟨before, after, rfl⟩ := List.append_of_mem hmem
    obtain ⟨rfl, hno⟩ := h.unclosed before text after rfl hopen
    obtain ⟨back, hback⟩ := fromBrace_eq_cons hopen
    have hfrom : fromBrace text.toList <:+ text.toList := List.dropWhile_suffix _
    have hlast : text.toList <:+ written (before ++ [.literal text]) := by simp [written_append]
    have hclose := hclosed back (hback ▸ hfrom.trans hlast)
    exact hno (hback ▸ List.mem_cons_of_mem _ hclose)
  · intro hplain
    clear h
    induction segments with
    | nil => exact closed_nil
    | cons segment segments ih =>
      have htail := ih fun text hmem => hplain text (List.mem_cons_of_mem _ hmem)
      rw [written_cons]
      refine closed_append ?_ htail
      cases segment with
      | marker m =>
        rw [toList_source_marker, ← List.cons_append]
        exact closed_concat_brace ('{' :: m.body.toList)
      | literal text => exact closed_of_notMem (hplain text List.mem_cons_self)

/-! ### Segments after segments -/

/-- Segments after segments. A literal that would follow a literal becomes one with it. -/
def join (segments others : List Segment) : List Segment :=
  match segments.getLast?, others with
  | some (.literal text), .literal more :: rest =>
    segments.dropLast ++ .literal (text ++ more) :: rest
  | _, _ => segments ++ others

theorem join_cases (segments others : List Segment) :
    (∃ front text more rest, segments = front ++ [.literal text] ∧ others = .literal more :: rest ∧
      join segments others = front ++ .literal (text ++ more) :: rest) ∨
    (join segments others = segments ++ others ∧
      ∀ x ∈ segments.getLast?, ∀ y ∈ others.head?, ¬ (x.IsLiteral ∧ y.IsLiteral)) := by
  unfold join
  split
  next text more rest hlast =>
    obtain ⟨front, rfl⟩ := List.getLast?_eq_some_iff.1 hlast
    exact .inl ⟨front, text, more, rest, rfl, rfl, by simp⟩
  next hne =>
    refine .inr ⟨rfl, fun x hx y hy => ?_⟩
    rintro ⟨hlast, hfirst⟩
    cases x with
    | marker m => exact hlast
    | literal text =>
      cases y with
      | marker m => exact hfirst
      | literal more =>
        obtain ⟨rest, rfl⟩ := List.head?_eq_some_iff.1 hy
        exact hne text more rest hx rfl

theorem flatMap_join {f : Segment → List α}
    (hf : ∀ text more, f (.literal (text ++ more)) = f (.literal text) ++ f (.literal more))
    (segments others : List Segment) :
    (join segments others).flatMap f = segments.flatMap f ++ others.flatMap f := by
  obtain ⟨front, text, more, rest, rfl, rfl, hjoin⟩ | ⟨hjoin, -⟩ := join_cases segments others
  · rw [hjoin]
    simp [hf]
  · rw [hjoin, List.flatMap_append]

theorem written_join (segments others : List Segment) :
    written (join segments others) = written segments ++ written others := by
  refine flatMap_join (fun text more => ?_) segments others
  rw [toList_source_literal, String.toList_append]
  rfl

theorem markers_join (segments others : List Segment) :
    markers ⟨join segments others⟩ = markers ⟨segments⟩ ++ markers ⟨others⟩ := by
  obtain ⟨front, text, more, rest, rfl, rfl, hjoin⟩ | ⟨hjoin, -⟩ := join_cases segments others
  · rw [hjoin]
    simp [markers]
  · rw [hjoin, markers, List.filterMap_append]
    rfl

theorem canonical_front (h : Canonical (segments ++ others)) : Canonical segments where
  nonempty text hmem := h.nonempty text (List.mem_append_left _ hmem)
  apart := (List.isChain_append.1 h.apart).1
  closed m hmem := h.closed m (List.mem_append_left _ hmem)
  unclosed before text after he hopen := by
    subst he
    obtain ⟨hafter, hno⟩ := h.unclosed before text (after ++ others) (by simp) hopen
    exact ⟨(List.append_eq_nil_iff.1 hafter).1, hno⟩

theorem canonical_append (hs : Canonical segments) (ho : Canonical others)
    (hplain : ∀ text, .literal text ∈ segments → '{' ∉ text.toList)
    (hseam : ∀ x ∈ segments.getLast?, ∀ y ∈ others.head?, ¬ (x.IsLiteral ∧ y.IsLiteral)) :
    Canonical (segments ++ others) where
  nonempty text hmem := (List.mem_append.1 hmem).elim (hs.nonempty text) (ho.nonempty text)
  apart := List.isChain_append.2 ⟨hs.apart, ho.apart, hseam⟩
  closed m hmem := (List.mem_append.1 hmem).elim (hs.closed m) (ho.closed m)
  unclosed before text after he hopen := by
    obtain ⟨front, -, hback⟩ | ⟨back, hfront, hback⟩ := List.append_eq_append_iff.1 he
    · exact ho.unclosed front text after hback hopen
    · cases back with
      | nil => exact ho.unclosed [] text after hback.symm hopen
      | cons x back =>
        obtain ⟨rfl, -⟩ := List.cons.inj hback
        exact (hplain text (by simp [hfront]) hopen).elim

/-- Text without an opening brace may be put in front of a literal. -/
theorem canonical_literal_append (h : Canonical (.literal more :: others))
    (htext : '{' ∉ text.toList) : Canonical (.literal (text ++ more) :: others) where
  nonempty other hmem := by
    obtain heq | hmem := List.mem_cons.1 hmem
    · obtain rfl := Segment.literal.inj heq
      simp [h.nonempty more List.mem_cons_self]
    · exact h.nonempty other (List.mem_cons_of_mem _ hmem)
  apart := by
    obtain ⟨hhead, htail⟩ := List.isChain_cons.1 h.apart
    exact List.isChain_cons.2 ⟨hhead, htail⟩
  closed m hmem := h.closed m (by simpa using hmem)
  unclosed before other after he hopen := by
    cases before with
    | nil =>
      obtain ⟨heq, rfl⟩ := List.cons.inj he
      obtain rfl := Segment.literal.inj heq
      rw [String.toList_append, List.mem_append] at hopen
      rw [String.toList_append, fromBrace_append_of_notMem htext]
      exact h.unclosed [] more others rfl (hopen.resolve_left htext)
    | cons x before =>
      obtain ⟨-, rfl⟩ := List.cons.inj he
      exact h.unclosed (.literal more :: before) other after rfl hopen

theorem canonical_join (hs : Canonical segments) (ho : Canonical others)
    (hplain : ∀ text, .literal text ∈ segments → '{' ∉ text.toList) :
    Canonical (join segments others) := by
  obtain ⟨front, text, more, rest, rfl, rfl, hjoin⟩ | ⟨hjoin, hseam⟩ := join_cases segments others
  · have htext : '{' ∉ text.toList := hplain text (by simp)
    rw [hjoin]
    refine canonical_append (canonical_front hs) (canonical_literal_append ho htext)
      (fun other hmem => hplain other (List.mem_append_left _ hmem)) fun x hx y hy => ?_
    have hfront := (List.isChain_append.1 hs.apart).2.2 x hx (.literal text) rfl
    exact fun hlit => hfront ⟨hlit.1, trivial⟩
  · rw [hjoin]
    exact canonical_append hs ho hplain hseam

theorem scan_append (h : Closed a.toList) (b : String) :
    (scan (a ++ b)).segments = join (scan a).segments (scan b).segments := by
  obtain ⟨ha, hca⟩ := scan_spec a
  obtain ⟨hb, hcb⟩ := scan_spec b
  obtain ⟨hab, hcab⟩ := scan_spec (a ++ b)
  have hplain := (closed_written_iff hca).1 (ha ▸ h)
  refine canonical_unique hcab (canonical_join hca hcb hplain) ?_
  rw [hab, written_join, ha, hb, String.toList_append]

/-- A text is scanned alike before every other text exactly if it closes its braces. -/
theorem closed_iff_scan_append (a : String) :
    Closed a.toList ↔
      ∀ b, (scan (a ++ b)).segments = join (scan a).segments (scan b).segments := by
  refine ⟨scan_append, fun h => ?_⟩
  obtain ⟨ha, hca⟩ := scan_spec a
  rw [← ha, closed_written_iff hca]
  intro text hmem hopen
  -- A closing brace behind the text makes a marker of what is open in it.
  obtain ⟨before, after, he⟩ := List.append_of_mem hmem
  obtain ⟨rfl, -⟩ := hca.unclosed before text after he hopen
  have hbrace : (scan "\x7d").segments = [.literal "\x7d"] := by decide
  have hseam : (scan (a ++ "\x7d")).segments = before ++ [.literal (text ++ "\x7d")] := by
    rw [h, hbrace, he]
    simp [join]
  have hno := (scan_spec (a ++ "\x7d")).2.unclosed before _ [] hseam (by simp [hopen])
  rw [String.toList_append, fromBrace_append_of_mem hopen] at hno
  exact hno.2 (by simp)

end Template

namespace Calendar
open Template

variable {values : DayValues} {ms ns : List Marker} {m : Marker} {segments : List Segment}

/-- A marker is replaced the same whatever markers follow. -/
theorem ending_append_of_mem (h : m ∈ ms) : ending (ms ++ ns) m = ending ms m := by
  have hms : ms.find? (fun e => e.source.toList <:+ m.source.toList) = some (ending ms m) :=
    ending?_of_mem h
  rw [ending, ending?, List.find?_append, hms]
  rfl

theorem flatMap_filled_congr (h : ∀ m, .marker m ∈ segments → ending ms m = ending ns m) :
    segments.flatMap (filled values ms) = segments.flatMap (filled values ns) := by
  refine List.flatMap_congr fun segment hmem => ?_
  cases segment with
  | literal text => rfl
  | marker m => rw [filled, filled, h m hmem]

/-- What two templates give one after the other is what they give as one. -/
theorem render_append (c : Calendar) (date : Date) (a b : String) (ha : Closed a.toList)
    (hb : ∀ m ∈ (scan b).markers, '{' ∉ m.body.toList) :
    c.render date (a ++ b) = c.render date a ++ c.render date b := by
  have hsegments := scan_append ha b
  have hmarkers : (scan (a ++ b)).markers = (scan a).markers ++ (scan b).markers := by
    rw [markers, hsegments]
    exact markers_join _ _
  have hfirst : ∀ m, .marker m ∈ (scan a).segments →
      ending ((scan a).markers ++ (scan b).markers) m = ending (scan a).markers m :=
    fun m hm => ending_append_of_mem (mem_markers.2 hm)
  have hsecond : ∀ m, .marker m ∈ (scan b).segments →
      ending ((scan a).markers ++ (scan b).markers) m = ending (scan b).markers m := by
    intro m hm
    have hbody := hb m (mem_markers.2 hm)
    rw [ending_of_no_inner_brace hbody, ending_of_no_inner_brace hbody]
  rw [← String.toList_inj, String.toList_append, toList_render, toList_render, toList_render,
    hsegments, hmarkers, flatMap_join fun text more => by simp [filled],
    flatMap_filled_congr hfirst, flatMap_filled_congr hsecond]

theorem render_append_of_shared_marker :
    let c : Calendar := { store := ∅ }
    let date : Date := ⟨2024, 3, 31, by decide, by decide, by decide, by decide⟩
    let a := "\x7d\x7bholiday\x7d, \x7bx\x7bholiday\x7d and "
    let b := "so \x7bholiday:[value]!\x7d \x7bholiday\x7d \x7b"
    Closed a.toList ∧ (∀ m ∈ (scan b).markers, '{' ∉ m.body.toList) ∧
      c.render date (a ++ b) = c.render date a ++ c.render date b := by
  intro c date a b
  have ha : Closed a.toList := by decide
  have hb : ∀ m ∈ (scan b).markers, '{' ∉ m.body.toList := by decide
  exact ⟨ha, hb, render_append c date a b ha hb⟩

-- Why the second part has to be plain: its marker ends in one of the first and gives way to that.
example :
    let c : Calendar := { store := ∅ }
    let date : Date := ⟨2024, 3, 31, by decide, by decide, by decide, by decide⟩
    c.render date ("\x7bx\x7d" ++ "\x7by\x7bx\x7d") = "\x7by" ∧
      c.render date "\x7bx\x7d" ++ c.render date "\x7by\x7bx\x7d" = "" := by decide

end Calendar
end Almanac
