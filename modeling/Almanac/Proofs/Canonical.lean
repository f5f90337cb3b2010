import Almanac.Template.Scan
import Mathlib.Data.List.Chain
import Mathlib.Data.List.TakeWhile

/-! The canonical form of a segment list, and that scanning reaches it. A text has one canonical
form (`canonical_unique`), so whatever else has that form and that text is what scanning gives. -/

namespace Almanac

def Segment.IsLiteral : Segment → Prop
  | .literal _ => True
  | .marker _ => False

namespace Template
variable {segment : Segment} {segments others : List Segment} {cs ds rest : List Char}
  {text : String} {m : Marker}

/-- The text of segments, as characters. -/
def written (segments : List Segment) : List Char :=
  segments.flatMap fun segment => segment.source.toList

/-- A text from its first opening brace on. -/
def fromBrace (cs : List Char) : List Char := cs.dropWhile (· ≠ '{')

/-- The form in which no two segments could be one and none could be several. -/
structure Canonical (segments : List Segment) : Prop where
  nonempty : ∀ text, .literal text ∈ segments → text ≠ ""
  apart : segments.IsChain fun a b => ¬ (a.IsLiteral ∧ b.IsLiteral)
  closed : ∀ m, .marker m ∈ segments → '}' ∉ m.body.toList
  /-- An opening brace in a literal is one that nothing closes. -/
  unclosed : ∀ before text after, segments = before ++ .literal text :: after →
    '{' ∈ text.toList → after = [] ∧ '}' ∉ fromBrace text.toList

@[simp] theorem written_nil : written [] = [] := rfl

@[simp] theorem written_cons :
    written (segment :: segments) = segment.source.toList ++ written segments := rfl

theorem written_append (segments others : List Segment) :
    written (segments ++ others) = written segments ++ written others := List.flatMap_append

theorem toList_source (t : Template) : t.source.toList = written t.segments := by
  simp [source, written]

@[simp] theorem toList_source_literal : (Segment.literal text).source.toList = text.toList := rfl

@[simp] theorem toList_source_marker :
    (Segment.marker m).source.toList = '{' :: (m.body.toList ++ ['}']) := by
  simp [Segment.source, Marker.source]

@[simp] theorem fromBrace_cons_brace : fromBrace ('{' :: cs) = '{' :: cs := rfl

theorem fromBrace_append_of_mem (h : '{' ∈ cs) : fromBrace (cs ++ ds) = fromBrace cs ++ ds := by
  have hne : cs.dropWhile (· ≠ '{') ≠ [] := by
    intro he
    simpa using List.dropWhile_eq_nil_iff.1 he _ h
  rw [fromBrace, List.dropWhile_append, if_neg (by simpa using hne)]
  rfl

theorem fromBrace_append_of_notMem (h : '{' ∉ cs) (ds : List Char) :
    fromBrace (cs ++ ds) = fromBrace ds := by
  refine List.dropWhile_append_of_pos fun c hc => ?_
  simpa using ne_of_mem_of_not_mem hc h

theorem notMem_takeWhile_ne (a : Char) (cs : List Char) : a ∉ cs.takeWhile (· ≠ a) := by
  intro hmem
  simpa using List.mem_takeWhile_imp hmem

theorem eq_of_dropWhile_ne {a c : Char} (h : cs.dropWhile (· ≠ a) = c :: rest) : c = a := by
  have hhead := List.head_dropWhile_not (fun x => decide (x ≠ a)) (l := cs)
    (h ▸ List.cons_ne_nil c rest)
  simp only [h, List.head_cons] at hhead
  simpa using hhead

theorem fromBrace_eq_cons (h : '{' ∈ cs) : ∃ back, fromBrace cs = '{' :: back := by
  cases hfrom : fromBrace cs with
  | nil => simpa using List.dropWhile_eq_nil_iff.1 hfrom _ h
  | cons c back => exact ⟨back, by rw [eq_of_dropWhile_ne hfrom]⟩

/-- A character divides a text in one way into what precedes it for the first time and the rest. -/
theorem eq_of_append_cons {a : Char} {xs ys xs' ys' : List Char} (hx : a ∉ xs) (hy : a ∉ ys)
    (h : xs ++ a :: xs' = ys ++ a :: ys') : xs = ys ∧ xs' = ys' := by
  induction xs generalizing ys with
  | nil =>
    cases ys with
    | nil => simpa using h
    | cons y ys =>
      obtain ⟨rfl, _⟩ := List.cons.inj h
      exact absurd List.mem_cons_self hy
  | cons x xs ih =>
    cases ys with
    | nil =>
      obtain ⟨rfl, _⟩ := List.cons.inj h
      exact absurd List.mem_cons_self hx
    | cons y ys =>
      obtain ⟨rfl, htail⟩ := List.cons.inj h
      obtain ⟨rfl, he⟩ := ih (fun hm => hx (List.mem_cons_of_mem _ hm))
        (fun hm => hy (List.mem_cons_of_mem _ hm)) htail
      exact ⟨rfl, he⟩

/-! ### One step -/

theorem takeMarker?_eq_some (h : takeMarker? cs = some (segment, rest)) :
    ∃ body, segment = .marker ⟨String.ofList body⟩ ∧ '}' ∉ body ∧
      cs = '{' :: body ++ '}' :: rest := by
  unfold takeMarker? at h
  split at h
  next body =>
    have hcut := List.takeWhile_append_dropWhile (p := fun c => decide (c ≠ '}')) (l := body)
    split at h
    · cases h
    next c tail hdrop =>
      cases h
      rw [hdrop, eq_of_dropWhile_ne hdrop] at hcut
      refine ⟨body.takeWhile (· ≠ '}'), rfl, notMem_takeWhile_ne _ _, ?_⟩
      rw [List.cons_append, hcut]
  · cases h

theorem takeMarker?_eq_none (h : takeMarker? ('{' :: cs) = none) : '}' ∉ cs := by
  intro hmem
  unfold takeMarker? at h
  split at h
  next he =>
    cases he
    split at h
    next hdrop => simpa using List.dropWhile_eq_nil_iff.1 hdrop _ hmem
    · cases h
  next hne => exact hne cs rfl

theorem takeRun?_eq_some (h : takeRun? cs = some (segment, rest)) :
    ∃ run, segment = .literal (String.ofList run) ∧ run ≠ [] ∧ '{' ∉ run ∧ cs = run ++ rest := by
  unfold takeRun? at h
  split at h
  · cases h
  next hne =>
    cases h
    exact ⟨cs.takeWhile (· ≠ '{'), rfl, hne, notMem_takeWhile_ne _ _,
      List.takeWhile_append_dropWhile.symm⟩

/-- What one step takes: a marker, a run without an opening brace, or an opening brace that no
closing brace follows. -/
theorem takeSegment?_cases (h : takeSegment? cs = some (segment, rest)) :
    (∃ body, segment = .marker ⟨String.ofList body⟩ ∧ '}' ∉ body ∧
      cs = '{' :: body ++ '}' :: rest) ∨
    (∃ run, segment = .literal (String.ofList run) ∧ run ≠ [] ∧ '{' ∉ run ∧ cs = run ++ rest) ∨
    (segment = .literal (String.singleton '{') ∧ '}' ∉ rest ∧ cs = '{' :: rest) := by
  unfold takeSegment? at h
  cases hm : takeMarker? cs with
  | some found =>
    rw [hm] at h
    cases h
    exact .inl (takeMarker?_eq_some hm)
  | none =>
    cases hr : takeRun? cs with
    | some found =>
      rw [hm, hr] at h
      cases h
      exact .inr (.inl (takeRun?_eq_some hr))
    | none =>
      rw [hm, hr] at h
      simp only [Option.orElse_eq_orElse, Option.orElse_none] at h
      unfold takeBrace? at h
      split at h
      · cases h
        exact .inr (.inr ⟨rfl, takeMarker?_eq_none hm, rfl⟩)
      · cases h

/-! ### A pass over the text -/

/-- What a pass gives before neighbouring literals are joined. The brace that a literal leaves open
is not closed in any later segment either. -/
def Scanned : List Segment → Prop
  | [] => True
  | .marker m :: segments => '}' ∉ m.body.toList ∧ Scanned segments
  | .literal text :: segments =>
    text ≠ "" ∧ ('{' ∈ text.toList → '}' ∉ fromBrace text.toList ++ written segments) ∧
      Scanned segments

theorem takeSegments_spec (limit : Nat) (h : cs.length ≤ limit) :
    ∃ segments, takeSegments limit cs = (segments, []) ∧ written segments = cs ∧
      Scanned segments := by
  induction limit generalizing cs with
  | zero =>
    have hnil := List.eq_nil_of_length_eq_zero (Nat.le_zero.1 h)
    exact ⟨[], by simp [takeSegments, hnil], hnil.symm, trivial⟩
  | succ limit ih =>
    cases hstep : takeSegment? cs with
    | none =>
      have hnil : cs = [] := by
        by_contra hne
        simpa [hstep] using takeSegment?_isSome hne
      subst hnil
      exact ⟨[], by simp only [takeSegments, hstep], rfl, trivial⟩
    | some found =>
      obtain ⟨segment, rest⟩ := found
      have hlt := length_lt_of_takeSegment? hstep
      have hbound : rest.length ≤ limit := by omega
      obtain ⟨segments, htake, hwritten, hscanned⟩ := ih hbound
      refine ⟨segment :: segments, by simp [takeSegments, hstep, htake], ?_⟩
      rcases takeSegment?_cases hstep with
        ⟨body, rfl, hbody, rfl⟩ | ⟨run, rfl, hne, hrun, rfl⟩ | ⟨rfl, hrest, rfl⟩
      · exact ⟨by simp [hwritten], by simpa using hbody, hscanned⟩
      · exact ⟨by simp [hwritten], by simpa using hne, by simp [hrun], hscanned⟩
      · exact ⟨by simp [hwritten], by simp, by simpa [hwritten] using hrest, hscanned⟩

theorem written_joinLiterals (segments : List Segment) :
    written (joinLiterals segments) = written segments := by
  fun_induction joinLiterals segments <;> simp_all

theorem scanned_joinLiterals (h : Scanned segments) : Scanned (joinLiterals segments) := by
  fun_induction joinLiterals segments with
  | case1 => trivial
  | case2 m segments ih => exact ⟨h.1, ih h.2⟩
  | case3 text segments more others hjoin ih =>
    obtain ⟨hne, hopen, hrest⟩ := h
    obtain ⟨_, hmore, hothers⟩ := hjoin ▸ ih hrest
    have hwritten := written_joinLiterals segments
    rw [hjoin, written_cons, toList_source_literal] at hwritten
    refine ⟨by simp [hne], fun hmem => ?_, hothers⟩
    by_cases htext : '{' ∈ text.toList
    · rw [String.toList_append, fromBrace_append_of_mem htext, List.append_assoc, hwritten]
      exact hopen htext
    · rw [String.toList_append, fromBrace_append_of_notMem htext]
      rw [String.toList_append, List.mem_append] at hmem
      exact hmore (hmem.resolve_left htext)
  | case4 text segments _ ih =>
    exact ⟨h.1, by rw [written_joinLiterals]; exact h.2.1, ih h.2.2⟩

theorem isChain_joinLiterals (segments : List Segment) :
    (joinLiterals segments).IsChain fun a b => ¬ (a.IsLiteral ∧ b.IsLiteral) := by
  fun_induction joinLiterals segments with
  | case1 => exact .nil
  | case2 m segments ih => exact List.isChain_cons.2 ⟨fun _ _ h => h.1, ih⟩
  | case3 text segments more others hjoin ih =>
    rw [hjoin] at ih
    obtain ⟨hhead, htail⟩ := List.isChain_cons.1 ih
    exact List.isChain_cons.2 ⟨hhead, htail⟩
  | case4 text segments hjoin ih =>
    refine List.isChain_cons.2 ⟨fun b hb hlit => ?_, ih⟩
    cases b with
    | marker m => exact hlit.2
    | literal more =>
      cases htail : joinLiterals segments with
      | nil => simp [htail] at hb
      | cons c others =>
        rw [htail, List.head?_cons, Option.mem_some_iff] at hb
        exact hjoin more others (hb ▸ htail)

theorem scanned_append (h : Scanned (segments ++ others)) : Scanned others := by
  induction segments with
  | nil => exact h
  | cons segment segments ih => cases segment <;> simp_all [Scanned]

theorem canonical_of_scanned (h : Scanned segments)
    (hapart : segments.IsChain fun a b => ¬ (a.IsLiteral ∧ b.IsLiteral)) :
    Canonical segments where
  nonempty text hmem := by
    obtain ⟨before, after, rfl⟩ := List.append_of_mem hmem
    exact (scanned_append h).1
  apart := hapart
  closed m hmem := by
    obtain ⟨before, after, rfl⟩ := List.append_of_mem hmem
    exact (scanned_append h).1
  unclosed before text after he hopen := by
    subst he
    have hno := (scanned_append h).2.1 hopen
    refine ⟨?_, fun hclose => hno (List.mem_append_left _ hclose)⟩
    cases after with
    | nil => rfl
    | cons next after =>
      cases next with
      | marker m => simp at hno
      | literal more =>
        have hchain := (List.isChain_append.1 hapart).2.1
        exact ((List.isChain_cons.1 hchain).1 (.literal more) rfl ⟨trivial, trivial⟩).elim

/-- Scanning takes in the whole text and gives the canonical form of it. -/
theorem scan_spec (text : String) :
    written (scan text).segments = text.toList ∧ Canonical (scan text).segments := by
  obtain ⟨segments, htake, hwritten, hscanned⟩ :=
    takeSegments_spec _ (Nat.le_refl text.toList.length)
  have hscan : (scan text).segments = joinLiterals segments := by simp only [scan, htake]
  rw [hscan]
  exact ⟨(written_joinLiterals segments).trans hwritten,
    canonical_of_scanned (scanned_joinLiterals hscanned) (isChain_joinLiterals segments)⟩

/-! ### Uniqueness -/

theorem canonical_tail (h : Canonical (segment :: segments)) : Canonical segments where
  nonempty text hmem := h.nonempty text (List.mem_cons_of_mem _ hmem)
  apart := (List.isChain_cons.1 h.apart).2
  closed m hmem := h.closed m (List.mem_cons_of_mem _ hmem)
  unclosed before text after he := h.unclosed (segment :: before) text after (by rw [he]; rfl)

theorem canonical_written_ne_nil (h : Canonical (segment :: segments)) :
    written (segment :: segments) ≠ [] := by
  cases segment with
  | marker m => simp
  | literal text => simp [h.nonempty text List.mem_cons_self]

/-- A closed pair of braces at the front of a text is the first marker. -/
theorem canonical_marker_head {body : List Char} (h : Canonical segments) (hbody : '}' ∉ body)
    (he : written segments = '{' :: body ++ '}' :: rest) :
    ∃ others, segments = .marker ⟨String.ofList body⟩ :: others ∧ written others = rest := by
  cases segments with
  | nil => cases he
  | cons segment others =>
    cases segment with
    | marker m =>
      have hm := h.closed m List.mem_cons_self
      simp only [written_cons, toList_source_marker, List.cons_append, List.append_assoc,
        List.nil_append, List.cons.injEq, true_and] at he
      obtain ⟨rfl, hrest⟩ := eq_of_append_cons hm hbody he
      exact ⟨others, by simp, hrest⟩
    | literal text =>
      have hne := h.nonempty text List.mem_cons_self
      obtain ⟨c, cs, hcs⟩ := List.exists_cons_of_ne_nil (String.toList_eq_nil_iff.not.2 hne)
      have hc : c = '{' := by
        rw [written_cons, toList_source_literal, hcs] at he
        exact (List.cons.inj he).1
      obtain ⟨rfl, hno⟩ := h.unclosed [] text others rfl (by simp [hcs, hc])
      rw [hcs, hc, fromBrace_cons_brace, ← hc, ← hcs] at hno
      simp only [written_cons, toList_source_literal, written_nil, List.append_nil] at he
      simp [he] at hno

/-- How far the literal at the front of a canonical form reaches. -/
theorem canonical_literal_head (h : Canonical (.literal text :: segments))
    (he : written (.literal text :: segments) = cs) :
    text.toList = if '}' ∈ fromBrace cs then cs.takeWhile (· ≠ '{') else cs := by
  rw [written_cons, toList_source_literal] at he
  by_cases hopen : '{' ∈ text.toList
  · obtain ⟨rfl, hno⟩ := h.unclosed [] text segments rfl hopen
    rw [written_nil, List.append_nil] at he
    rw [← he, if_neg hno]
  · have hfrom := fromBrace_append_of_notMem hopen (written segments)
    rw [he] at hfrom
    cases segments with
    | nil =>
      rw [written_nil, List.append_nil] at he
      rw [hfrom, if_neg (by simp [fromBrace]), he]
    | cons next segments =>
      cases next with
      | literal more =>
        exact ((List.isChain_cons.1 h.apart).1 (.literal more) rfl ⟨trivial, trivial⟩).elim
      | marker m =>
        have hrun : ∀ c ∈ text.toList, decide (c ≠ '{') = true := fun c hc => by
          simpa using ne_of_mem_of_not_mem hc hopen
        rw [hfrom, if_pos (by simp), ← he, List.takeWhile_append_of_pos hrun]
        simp

/-- A text has at most one canonical form. -/
theorem canonical_unique (h : Canonical segments) (ho : Canonical others)
    (he : written segments = written others) : segments = others := by
  induction segments generalizing others with
  | nil =>
    cases others with
    | nil => rfl
    | cons segment others => exact (canonical_written_ne_nil ho he.symm).elim
  | cons segment segments ih =>
    cases segment with
    | marker m =>
      have hm := h.closed m List.mem_cons_self
      have hfront : written others = '{' :: m.body.toList ++ '}' :: written segments := by
        simp [← he]
      obtain ⟨tail, rfl, htail⟩ := canonical_marker_head ho hm hfront
      rw [ih (canonical_tail h) (canonical_tail ho) htail.symm]
      simp
    | literal text =>
      cases others with
      | nil => exact (canonical_written_ne_nil h he).elim
      | cons other others =>
        cases other with
        | marker m =>
          have hm := ho.closed m List.mem_cons_self
          have hfront : written (.literal text :: segments) =
              '{' :: m.body.toList ++ '}' :: written others := by
            simp [he]
          obtain ⟨tail, hcons, _⟩ := canonical_marker_head h hm hfront
          cases hcons
        | literal more =>
          have htext : text = more := String.toList_inj.1
            ((canonical_literal_head h he).trans (canonical_literal_head ho rfl).symm)
          subst htext
          rw [ih (canonical_tail h) (canonical_tail ho) (List.append_cancel_left he)]

end Template
end Almanac
