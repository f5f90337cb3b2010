import Almanac.Json.Grammar
import Almanac.Json.Write

/-! What is written is of the grammar: strings spell their text, and items stand between their
brackets. -/

namespace Almanac.Json
variable {c : Char} {s cs : List Char}

theorem isHexDigit_digitChar {d : Nat} (h : d < 16) : IsHexDigit d d.digitChar := ⟨h, .inl rfl⟩

theorem codeUnit_lowByte {n : Nat} (h : n < 0x100) :
    CodeUnit n ['0', '0', (n / 16).digitChar, (n % 16).digitChar] := by
  have hzero : IsHexDigit 0 '0' := isHexDigit_digitChar (by decide)
  refine .mk hzero hzero (isHexDigit_digitChar ?_) (isHexDigit_digitChar ?_) ?_ <;> omega

/-- A character is spelled the way it is written. -/
theorem spells_escapeInText (c : Char) (h : Spells s cs) :
    Spells (c :: s) (escapeInText c ++ cs) := by
  unfold escapeInText
  split
  case h_8 hquote hslash _ _ _ _ _ =>
    split
    next hcontrol => exact .unit (codeUnit_lowByte (by omega)) h
    next hplain => exact .simple (.plain hquote hslash (by omega)) h
  all_goals exact .simple (.escaped (by decide)) h

theorem spells_escaped (s : List Char) : Spells s (s.flatMap escapeInText) := by
  induction s with
  | nil => exact .nil
  | cons c s ih => exact spells_escapeInText c ih

theorem isText_writeText (s : String) : IsText s (writeText s) := ⟨_, spells_escaped s.toList, rfl⟩

def lineSpaces (indent : Nat) : Spaces := ⟨newline indent, by simp [newline, isSpace]⟩

/-- A member as it is laid out. -/
def MemberText.written (name : String) (value : List Char) : MemberText :=
  ⟨name.toList.flatMap escapeInText, .none, ⟨[' '], by decide⟩, value⟩

theorem chars_written (name : String) (value : List Char) :
    (MemberText.written name value).chars = writeMember name value := by
  simp [MemberText.chars, MemberText.written, writeMember, writeText, quote, Spaces.none]

theorem names_written (name : String) (value : List Char) :
    (MemberText.written name value).Names name := spells_escaped name.toList

/-- Items with the same space behind each comma. -/
theorem itemsAfter_intercalate (b : Bracket) (between after : Spaces) (item : List Char)
    (items : List (List Char)) : ∃ cs, ItemsAfter b items cs ∧
      (',' :: between.chars).intercalate (item :: items) ++ (after.chars ++ [b.closing]) =
        item ++ cs := by
  induction items generalizing item with
  | nil => exact ⟨_, .nil after, by simp⟩
  | cons next items ih =>
    obtain ⟨cs, h, hcs⟩ := ih next
    refine ⟨_, .cons .none between h, ?_⟩
    rw [List.intercalate_cons_cons]
    simp only [List.append_assoc, hcs]
    rfl

/-- Laid out items are those of the grammar. -/
theorem bracketed_layOut (b : Bracket) (indent : Nat) (items : List (List Char)) :
    Bracketed b items (layOut b.opening b.closing indent items) := by
  cases items with
  | nil => exact .nil .none
  | cons item items =>
    obtain ⟨cs, h, hcs⟩ :=
      itemsAfter_intercalate b (lineSpaces (indent + 2)) (lineSpaces indent) item items
    have hlayout : layOut b.opening b.closing indent (item :: items) =
        b.opening :: ((lineSpaces (indent + 2)).chars ++ (item ++ cs)) := by
      rw [← hcs]
      simp [layOut, lineSpaces]
    rw [hlayout]
    exact .cons (lineSpaces (indent + 2)) h

end Almanac.Json
