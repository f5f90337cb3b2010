import Almanac.Template

/-!
Reading a template. A segment is, in this order of choice, a marker, a run of text up to the next
opening brace, or an opening brace that no closing brace follows. Each choice takes at least one
character (`length_lt_of_takeSegment?`).
-/

namespace Almanac.Template
variable {segment : Segment} {cs rest : List Char}

def takeMarker? : List Char → Option (Segment × List Char)
  | '{' :: cs =>
    match cs.dropWhile (· ≠ '}') with
    | [] => none
    | _ :: rest => some (.marker ⟨String.ofList (cs.takeWhile (· ≠ '}'))⟩, rest)
  | _ => none

def takeRun? (cs : List Char) : Option (Segment × List Char) :=
  match cs.takeWhile (· ≠ '{') with
  | [] => none
  | run => some (.literal (String.ofList run), cs.dropWhile (· ≠ '{'))

def takeBrace? : List Char → Option (Segment × List Char)
  | '{' :: cs => some (.literal (String.singleton '{'), cs)
  | _ => none

def takeSegment? (cs : List Char) : Option (Segment × List Char) :=
  takeMarker? cs <|> takeRun? cs <|> takeBrace? cs

/-- Takes segments while there are any, at most `limit`, and gives what is left. -/
def takeSegments : (limit : Nat) → List Char → List Segment × List Char
  | 0, cs => ([], cs)
  | limit + 1, cs =>
    match takeSegment? cs with
    | none => ([], cs)
    | some (segment, rest) =>
      let (segments, left) := takeSegments limit rest
      (segment :: segments, left)

/-- Makes neighbouring literals one. -/
def joinLiterals : List Segment → List Segment
  | [] => []
  | .marker m :: segments => .marker m :: joinLiterals segments
  | .literal text :: segments =>
    match joinLiterals segments with
    | .literal more :: others => .literal (text ++ more) :: others
    | others => .literal text :: others

/-- Reads a template; a text that the segments did not cover would be one literal. -/
def scan (text : String) : Template :=
  match takeSegments text.toList.length text.toList with
  | (segments, []) => ⟨joinLiterals segments⟩
  | _ => literal text

theorem length_lt_of_takeSegment? (h : takeSegment? cs = some (segment, rest)) :
    rest.length < cs.length := by
  have hdrop : ∀ (p : Char → Bool) (l : List Char), (l.dropWhile p).length ≤ l.length :=
    fun p l => (List.dropWhile_sublist p).length_le
  unfold takeSegment? at h
  cases hm : takeMarker? cs with
  | some found =>
    simp only [hm, Option.orElse_eq_orElse, Option.orElse_some, Option.some.injEq] at h
    subst h
    unfold takeMarker? at hm
    split at hm
    · rename_i body
      have hlen := hdrop (· ≠ '}') body
      split at hm
      · cases hm
      · rename_i hcut
        rw [hcut] at hlen
        cases hm
        simp at hlen ⊢
        omega
    · cases hm
  | none =>
    cases hr : takeRun? cs with
    | some found =>
      simp only [hm, hr, Option.orElse_eq_orElse, Option.orElse_none, Option.orElse_some,
        Option.some.injEq] at h
      subst h
      unfold takeRun? at hr
      split at hr
      · cases hr
      · rename_i hne
        cases hr
        have hsum := congrArg List.length
          (List.takeWhile_append_dropWhile (p := fun c => decide (c ≠ '{')) (l := cs))
        rw [List.length_append] at hsum
        have := List.length_pos_iff.2 hne
        omega
    | none =>
      simp only [hm, hr, Option.orElse_eq_orElse, Option.orElse_none] at h
      unfold takeBrace? at h
      split at h
      · cases h; simp
      · cases h

theorem takeSegment?_isSome (h : cs ≠ []) : (takeSegment? cs).isSome := by
  match cs, h with
  | c :: cs, _ =>
    unfold takeSegment?
    by_cases hc : c = '{'
    · subst hc
      cases takeMarker? ('{' :: cs) <;> cases takeRun? ('{' :: cs) <;> simp [takeBrace?]
    · have hr : (takeRun? (c :: cs)).isSome := by simp [takeRun?, hc]
      cases takeMarker? (c :: cs) <;> cases h : takeRun? (c :: cs) <;> simp_all

end Almanac.Template
