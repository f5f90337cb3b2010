import Almanac.Proofs.Canonical

/-! The markers of a template are the leftmost matches of a pair of braces with no closing brace
between them, and nothing but the text decides them. -/

namespace Almanac

namespace Marker

/-- A body divides at its first colon into key and sub-format. -/
theorem key_subformat (m : Marker) :
    (':' ∉ m.body.toList ∧ m.key = m.body ∧ m.subformat = none) ∨
    ∃ rest, m.body.toList = m.key.toList ++ ':' :: rest ∧ ':' ∉ m.key.toList ∧
      m.subformat = if rest = [] then none else some (String.ofList rest) := by
  have hcut := List.takeWhile_append_dropWhile (p := fun c => decide (c ≠ ':')) (l := m.body.toList)
  have hkey : m.key.toList = m.body.toList.takeWhile (· ≠ ':') := by simp [key]
  have hno : ':' ∉ m.key.toList := hkey ▸ Template.notMem_takeWhile_ne _ _
  rw [← hkey] at hcut
  cases hdrop : m.body.toList.dropWhile (· ≠ ':') with
  | nil =>
    rw [hdrop, List.append_nil, String.toList_inj] at hcut
    exact .inl ⟨hcut ▸ hno, hcut, by rw [subformat, hdrop]; rfl⟩
  | cons c rest =>
    rw [hdrop, Template.eq_of_dropWhile_ne hdrop] at hcut
    refine .inr ⟨rest, hcut.symm, hno, ?_⟩
    rw [subformat, hdrop]
    cases rest <;> rfl

end Marker

namespace Template
variable {segments : List Segment} {cs body rest : List Char} {start : Nat}
  {found others : List (Nat × Marker)}

/-- The text begins with a body in braces, and the first closing brace ends it. -/
def Matches (cs body rest : List Char) : Prop := cs = '{' :: body ++ '}' :: rest ∧ '}' ∉ body

/-- The leftmost matches that do not overlap, each with the place of its opening brace. -/
inductive LeftmostMatches : Nat → List Char → List (Nat × Marker) → Prop
  | none {start : Nat} {cs : List Char} (hnone : ∀ k body rest, ¬ Matches (cs.drop k) body rest) :
    LeftmostMatches start cs []
  | next {start k : Nat} {cs body rest : List Char} {found : List (Nat × Marker)}
    (hmatch : Matches (cs.drop k) body rest)
    (hfirst : ∀ j < k, ∀ body rest, ¬ Matches (cs.drop j) body rest)
    (htail : LeftmostMatches (start + k + body.length + 2) rest found) :
    LeftmostMatches start cs ((start + k, ⟨String.ofList body⟩) :: found)

/-- The markers of segments that begin at `start`, with their places. -/
def placed : Nat → List Segment → List (Nat × Marker)
  | _, [] => []
  | start, .literal text :: segments => placed (start + text.toList.length) segments
  | start, .marker m :: segments =>
    (start, m) :: placed (start + m.body.toList.length + 2) segments

theorem map_placed (start : Nat) (segments : List Segment) :
    (placed start segments).map Prod.snd = markers ⟨segments⟩ := by
  fun_induction placed start segments <;> simp_all [markers]

theorem not_matches_of_head {c : Char} (h : c ≠ '{') : ¬ Matches (c :: cs) body rest := by
  rintro ⟨he, _⟩
  exact h (List.cons.inj he).1

theorem not_matches_drop (h : '}' ∉ fromBrace cs) (k : Nat) : ¬ Matches (cs.drop k) body rest := by
  rintro ⟨he, _⟩
  apply h
  rw [← List.take_append_drop k cs, he]
  by_cases hopen : '{' ∈ cs.take k
  · simp [fromBrace_append_of_mem hopen]
  · simp [fromBrace_append_of_notMem hopen]

/-- A text without opening brace holds back no match behind it. -/
theorem leftmostMatches_append (h : '{' ∉ cs)
    (hrest : LeftmostMatches (start + cs.length) rest found) :
    LeftmostMatches start (cs ++ rest) found := by
  induction cs generalizing start with
  | nil => exact hrest
  | cons c cs ih =>
    have hc : c ≠ '{' := fun he => h (he ▸ List.mem_cons_self)
    have hstep : LeftmostMatches (start + 1) (cs ++ rest) found :=
      ih (fun hmem => h (List.mem_cons_of_mem _ hmem))
        (by rwa [List.length_cons, Nat.add_comm cs.length, ← Nat.add_assoc] at hrest)
    generalize hs : start + 1 = next at hstep
    cases hstep with
    | none hnone =>
      refine .none fun k body rest hmatch => ?_
      cases k with
      | zero => exact not_matches_of_head hc hmatch
      | succ k => exact hnone k body rest hmatch
    | @next _ k _ body tail found hmatch hfirst htail =>
      rw [← hs, Nat.add_assoc start, Nat.add_comm 1] at htail ⊢
      refine .next hmatch (fun j hj => ?_) htail
      cases j with
      | zero => exact fun body rest => not_matches_of_head hc
      | succ j => exact hfirst j (by omega)

theorem leftmostMatches_of_canonical (start : Nat) (h : Canonical segments) :
    LeftmostMatches start (written segments) (placed start segments) := by
  induction segments generalizing start with
  | nil => exact .none fun k body rest hmatch => by simp [Matches] at hmatch
  | cons segment segments ih =>
    cases segment with
    | marker m =>
      have htail := ih (start + m.body.toList.length + 2) (canonical_tail h)
      have hmatch : Matches ((written (.marker m :: segments)).drop 0) m.body.toList
          (written segments) := ⟨by simp, h.closed m List.mem_cons_self⟩
      have hnext := LeftmostMatches.next hmatch (by simp) (by simpa using htail)
      simpa [placed] using hnext
    | literal text =>
      by_cases hopen : '{' ∈ text.toList
      · obtain ⟨rfl, hno⟩ := h.unclosed [] text segments rfl hopen
        exact .none fun k body rest => not_matches_drop (by simpa using hno) k
      · exact leftmostMatches_append hopen (ih _ (canonical_tail h))

/-- A text has one list of leftmost matches. -/
theorem leftmostMatches_unique (h : LeftmostMatches start cs found)
    (ho : LeftmostMatches start cs others) : found = others := by
  induction h generalizing others with
  | none hnone =>
    cases ho with
    | none _ => rfl
    | next hmatch _ _ => exact (hnone _ _ _ hmatch).elim
  | @next start k cs body rest found hmatch hfirst htail ih =>
    cases ho with
    | none hnone => exact (hnone _ _ _ hmatch).elim
    | @next _ k' _ body' rest' found' hmatch' hfirst' htail' =>
      obtain hlt | rfl | hlt := Nat.lt_trichotomy k k'
      · exact (hfirst' k hlt _ _ hmatch).elim
      · have he := hmatch.1.symm.trans hmatch'.1
        obtain ⟨rfl, rfl⟩ := eq_of_append_cons hmatch.2 hmatch'.2 (List.cons.inj he).2
        rw [ih htail']
      · exact (hfirst k' hlt _ _ hmatch').elim

/-- Scanning gives the one canonical form of a text, and the markers in it are the leftmost matches
in the text, each at its place. -/
theorem canonical_form_of_text (text : String) :
    (∀ segments, (scan text).segments = segments ↔
      source ⟨segments⟩ = text ∧ Canonical segments) ∧
    (scan text).source = text ∧
    (∀ t : Template, Canonical t.segments → scan t.source = t) ∧
    (∀ m : Marker, m.source.toList = '{' :: m.body.toList ++ ['}'] ∧
      ((':' ∉ m.body.toList ∧ m.key = m.body ∧ m.subformat = none) ∨
        ∃ rest, m.body.toList = m.key.toList ++ ':' :: rest ∧ ':' ∉ m.key.toList ∧
          m.subformat = if rest = [] then none else some (String.ofList rest))) ∧
    (∀ found, LeftmostMatches 0 text.toList found ↔ found = placed 0 (scan text).segments) ∧
    (placed 0 (scan text).segments).map Prod.snd = (scan text).markers := by
  obtain ⟨hwritten, hcanonical⟩ := scan_spec text
  have hsource : (scan text).source = text := by
    rw [← String.toList_inj, toList_source, hwritten]
  refine ⟨fun segments => ⟨?_, ?_⟩, hsource, fun t ht => ?_, fun m => ⟨by simp [Marker.source],
    m.key_subformat⟩, fun found => ⟨fun h => ?_, ?_⟩, map_placed 0 _⟩
  · rintro rfl
    exact ⟨hsource, hcanonical⟩
  · rintro ⟨he, hs⟩
    refine canonical_unique hcanonical hs ?_
    rw [hwritten, ← he, toList_source]
  · have hspec := scan_spec t.source
    have he := canonical_unique hspec.2 ht (by rw [hspec.1, toList_source])
    exact congrArg Template.mk he
  · have hm := leftmostMatches_of_canonical 0 hcanonical
    rw [hwritten] at hm
    exact leftmostMatches_unique h hm
  · rintro rfl
    simpa [hwritten] using leftmostMatches_of_canonical 0 hcanonical

theorem canonical_form_of_nested_braces :
    let t : Template := ⟨[.literal "a\x7d", .marker ⟨"n\x7b:x"⟩, .marker ⟨""⟩, .literal "b\x7bc"]⟩
    Canonical t.segments ∧ scan t.source = t := by
  intro t
  have hc : Canonical t.segments :=
    canonical_of_scanned (by simp [t, Scanned, fromBrace]) (by simp [t, Segment.IsLiteral])
  exact ⟨hc, (canonical_form_of_text t.source).2.2.1 t hc⟩

end Template
end Almanac
