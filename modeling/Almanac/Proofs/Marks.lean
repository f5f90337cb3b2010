import Almanac.DataFile.Report
import Mathlib.Data.List.Basic

/-! Where a report on malformed text points. The position of the fault counts every byte of the
lines before it; the mark counts a line end as one byte, and so comes early by the carriage returns
that stand in front of newlines. -/

namespace Almanac

namespace Text
variable {line : List Char} {lines : List (List Char)}

/-- Lines, each with a newline behind it. -/
def ended (lines : List (List Char)) : List Char := lines.flatMap (· ++ ['\n'])

/-- The lines whose newline has a carriage return in front of it. -/
def returns (lines : List (List Char)) : Nat := lines.countP fun line => line.getLast? = some '\r'

theorem ended_cons (line : List Char) (lines : List (List Char)) :
    ended (line :: lines) = line ++ '\n' :: ended lines := by
  simp [ended]

theorem linesFrom_append (h : '\n' ∉ line) (start cs : List Char) :
    linesFrom start (line ++ '\n' :: cs) =
      (dropReturn (line.reverse ++ start)).reverse :: Text.lines cs := by
  induction line generalizing start with
  | nil => rfl
  | cons c line ih =>
    have hc : c ≠ '\n' := fun he => h (he ▸ List.mem_cons_self)
    have hline : '\n' ∉ line := fun hmem => h (List.mem_cons_of_mem c hmem)
    rw [List.cons_append, linesFrom, ih hline, List.reverse_cons, List.append_assoc]
    · rfl
    · exact hc

theorem lines_ended (h : ∀ line ∈ lines, '\n' ∉ line) (cs : List Char) :
    Text.lines (ended lines ++ cs) =
      lines.map (fun line => (dropReturn line.reverse).reverse) ++ Text.lines cs := by
  induction lines with
  | nil => rfl
  | cons line lines ih =>
    have hlines := ih fun line' hmem => h line' (List.mem_cons_of_mem line hmem)
    have hline := linesFrom_append (h line List.mem_cons_self) [] (ended lines ++ cs)
    rw [ended_cons, List.append_assoc, List.cons_append, Text.lines, hline, hlines,
      List.append_nil]
    rfl

theorem byteLength_dropReturn (line : List Char) :
    Json.byteLength (dropReturn line.reverse).reverse +
      (if line.getLast? = some '\r' then 1 else 0) = Json.byteLength line := by
  rcases List.eq_nil_or_concat line with rfl | ⟨front, c, rfl⟩
  · rfl
  · by_cases hc : c = '\r'
    · subst hc
      simp [dropReturn]
      rfl
    · simp [dropReturn, hc]

/-- A line that is cut off lacks its newline and the carriage return in front of it. -/
theorem byteLength_cut (lines : List (List Char)) :
    Json.byteLength (ended (lines.map fun line => (dropReturn line.reverse).reverse)) +
      returns lines = Json.byteLength (ended lines) := by
  induction lines with
  | nil => rfl
  | cons line lines ih =>
    have hline := byteLength_dropReturn line
    simp only [returns, List.countP_cons, decide_eq_true_eq] at ih ⊢
    simp only [List.map_cons, ended_cons, Json.byteLength_append, Json.byteLength_cons]
    omega

theorem pair_infix_iff (h : '\n' ∉ line) (cs : List Char) :
    ['\r', '\n'] <:+: line ++ '\n' :: cs ↔ line.getLast? = some '\r' ∨ ['\r', '\n'] <:+: cs := by
  induction line with
  | nil => simp [List.infix_cons_iff]
  | cons c line ih =>
    have hline : '\n' ∉ line := fun hmem => h (List.mem_cons_of_mem c hmem)
    rw [List.cons_append, List.infix_cons_iff, ih hline, ← or_assoc]
    refine or_congr_left ?_
    cases line with
    | nil => simp [eq_comm]
    | cons d line =>
      have hd : d ≠ '\n' := fun he => hline (he ▸ List.mem_cons_self)
      simp [Ne.symm hd]

/-- No line ends in a carriage return exactly if no newline stands behind one. -/
theorem returns_eq_zero_iff (h : ∀ line ∈ lines, '\n' ∉ line) :
    returns lines = 0 ↔ ¬ ['\r', '\n'] <:+: ended lines := by
  induction lines with
  | nil => simp [returns, ended]
  | cons line lines ih =>
    have htail := ih fun line' hmem => h line' (List.mem_cons_of_mem line hmem)
    rw [ended_cons, pair_infix_iff (h line List.mem_cons_self), not_or, ← htail, returns, returns,
      List.countP_cons]
    by_cases hreturn : line.getLast? = some '\r' <;> simp [hreturn]

end Text

namespace Json
variable {cs : List Char} {bytes : Nat}

/-- The lines before a position, and the text from the start of its own line on. -/
structure Position.Divides (p : Position) (text : List Char) (before : List (List Char))
    (rest : List Char) : Prop where
  text_eq : text = Text.ended before ++ rest
  line_ends : ∀ line ∈ before, '\n' ∉ line
  line_eq : p.line = before.length + 1

/-- A position that moves on counts the newlines, and the bytes behind the last of them. -/
theorem advance_line_column (line : List Char) (before : Nat) (hline : '\n' ∉ line)
    (h : bytes ≤ byteLength cs) :
    ∃ lines rest, line ++ cs = Text.ended lines ++ rest ∧ (∀ line ∈ lines, '\n' ∉ line) ∧
      (Position.advance ⟨before, byteLength line⟩ bytes cs).line = before + lines.length ∧
      byteLength line + bytes = byteLength (Text.ended lines) +
        (Position.advance ⟨before, byteLength line⟩ bytes cs).column := by
  induction cs generalizing line before bytes with
  | nil =>
    obtain rfl : bytes = 0 := Nat.le_zero.1 h
    refine ⟨[], line, ?_, by simp, rfl, ?_⟩
    · simp [Text.ended]
    · simp [Text.ended, Position.advance]
  | cons c cs ih =>
    rw [byteLength_cons] at h
    by_cases hwithin : bytes < c.utf8Size
    · refine ⟨[], line ++ c :: cs, by simp [Text.ended], by simp, ?_, ?_⟩
      · simp [Position.advance, hwithin]
      · simp [Text.ended, Position.advance, hwithin]
    by_cases hc : c = '\n'
    · subst hc
      have hone : '\n'.utf8Size = 1 := rfl
      obtain ⟨lines, rest, htext, hlines, hcount, hbytes⟩ :=
        @ih (bytes - 1) [] (before + 1) (by simp) (by omega)
      rw [List.nil_append] at htext
      refine ⟨line :: lines, rest, ?_, ?_, ?_, ?_⟩
      · rw [Text.ended_cons, htext, List.append_assoc, List.cons_append]
      · intro line' hmem
        rcases List.mem_cons.1 hmem with rfl | hmem
        · exact hline
        · exact hlines line' hmem
      · simp only [Position.advance, if_neg hwithin, if_true, List.length_cons]
        rw [byteLength_nil] at hcount
        omega
      · simp only [Position.advance, if_neg hwithin, if_true, Text.ended_cons,
          byteLength_append, byteLength_cons]
        rw [byteLength_nil] at hbytes
        omega
    · obtain ⟨lines, rest, htext, hlines, hcount, hbytes⟩ :=
        @ih (bytes - c.utf8Size) (line ++ [c]) before (by simp [hline, Ne.symm hc]) (by omega)
      have hlength : byteLength (line ++ [c]) = byteLength line + c.utf8Size := by simp
      rw [hlength] at hcount hbytes
      refine ⟨lines, rest, ?_, hlines, ?_, ?_⟩
      · rw [← htext]
        simp
      · simpa only [Position.advance, if_neg hwithin, if_neg hc] using hcount
      · simp only [Position.advance, if_neg hwithin, if_neg hc]
        omega

/-- The byte at a position is as far behind the start of its line as its column says. -/
theorem divides_ofOffset {text : List Char} (h : bytes ≤ byteLength text) :
    ∃ before rest, (Position.ofOffset bytes text).Divides text before rest ∧
      byteLength (Text.ended before) + (Position.ofOffset bytes text).column = bytes := by
  obtain ⟨before, rest, htext, hlines, hline, hbytes⟩ := advance_line_column [] 1 (by simp) h
  rw [byteLength_nil, Nat.zero_add] at hbytes
  refine ⟨before, rest, ⟨htext, hlines, ?_⟩, hbytes.symm⟩
  rw [Position.ofOffset, Position.start, Nat.add_comm]
  exact hline

end Json

namespace Report
open Json (byteLength)
variable {text rest : List Char} {before : List (List Char)} {p : Json.Position}

/-- The bytes that a mark counts before it, whatever the length of the text. -/
def countedBytes (p : Json.Position) (text : List Char) : Nat :=
  byteLength (Text.ended ((Text.lines text).take (p.line - 1))) + (p.column - 1)

theorem offsetOf_eq (p : Json.Position) (text : List Char) :
    offsetOf p text = min (countedBytes p text) (byteLength text) := rfl

/-- The carriage returns in front of the newlines before a line are not counted. -/
theorem countedBytes_add (h : p.Divides text before rest) :
    countedBytes p text + Text.returns before + 1 =
      byteLength (Text.ended before) + max p.column 1 := by
  have hcut := Text.byteLength_cut before
  have htake : (Text.lines text).take (p.line - 1) =
      before.map fun line => (Text.dropReturn line.reverse).reverse := by
    rw [h.text_eq, Text.lines_ended h.line_ends, h.line_eq]
    exact List.take_left' (by simp)
  rw [countedBytes, htake]
  omega

/-- Where the mark of a fault stands. It is never moved to the end of the text. -/
theorem offsetOf_position (f : Json.Failure) (text : List Char) :
    ∃ before rest, (f.position text).Divides text before rest ∧
      byteLength (Text.ended before) + (f.position text).column ≤ byteLength text ∧
      offsetOf (f.position text) text = countedBytes (f.position text) text ∧
      offsetOf (f.position text) text + Text.returns before + 1 =
        byteLength (Text.ended before) + max (f.position text).column 1 := by
  have hoffset := f.offset_le text
  obtain ⟨before, rest, hdivides, hbytes⟩ := Json.divides_ofOffset hoffset
  change (f.position text).Divides text before rest at hdivides
  change _ + (f.position text).column = f.offset text at hbytes
  have hcounted := countedBytes_add hdivides
  have hmark : offsetOf (f.position text) text = countedBytes (f.position text) text := by
    rw [offsetOf_eq]
    omega
  exact ⟨before, rest, hdivides, by omega, hmark, by rw [hmark, hcounted]⟩

end Report
end Almanac
