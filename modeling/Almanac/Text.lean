/-!
Texts as lists of characters: how they are cut at a marker and into lines, which of them are blank,
and how numbers are written in them.
-/

namespace Almanac

namespace Text

/-! ### Parts

A text is cut at every occurrence of a marker, from the left and without overlap. Putting the marker
back between the parts restores the text (`intercalate_parts`). -/

variable {marker part cs rest : List Char} {c : Char}

/-- Cuts `cs`, whose first `skip` characters end a marker, after the text of `part` reversed. -/
def partsFrom (marker : List Char) : Nat → List Char → List Char → List (List Char)
  | _, part, [] => [part.reverse]
  | 0, part, c :: cs =>
    if marker <+: c :: cs then
      part.reverse :: partsFrom marker (marker.length - 1) [] cs
    else
      partsFrom marker 0 (c :: part) cs
  | skip + 1, part, _ :: cs => partsFrom marker skip part cs

def parts (marker cs : List Char) : List (List Char) := partsFrom marker 0 [] cs

/-- Puts `value` in the place of each occurrence of `marker`. -/
def replace (marker value cs : List Char) : List Char := value.intercalate (parts marker cs)

/-- Whether `marker` stands somewhere in a text. -/
def occurs (marker : List Char) : List Char → Bool
  | [] => marker.isEmpty
  | c :: cs => marker.isPrefixOf (c :: cs) || occurs marker cs

theorem occurs_iff : occurs marker cs ↔ marker <:+: cs := by
  induction cs with
  | nil => simp [occurs]
  | cons c cs ih => simp [occurs, ih, List.infix_cons_iff]

theorem partsFrom_skip (skip : Nat) :
    partsFrom marker skip part cs = partsFrom marker 0 part (cs.drop skip) := by
  induction skip generalizing cs with
  | zero => rfl
  | succ skip ih => cases cs <;> simp [partsFrom, ih]

theorem partsFrom_part (part cs : List Char) :
    partsFrom marker 0 part cs = (parts marker cs).modifyHead (part.reverse ++ ·) := by
  induction cs generalizing part with
  | nil => simp [parts, partsFrom]
  | cons c cs ih =>
    unfold parts partsFrom
    split
    · simp
    · rw [ih, ih [c]]
      cases parts marker cs <;> simp

@[simp] theorem parts_nil : parts marker [] = [[]] := rfl

theorem parts_append (h : marker ≠ []) :
    parts marker (marker ++ rest) = [] :: parts marker rest := by
  match marker, h with
  | m :: ms, _ =>
    rw [parts, List.cons_append, partsFrom]
    simp [partsFrom_skip, parts]

theorem parts_cons (h : ¬ marker <+: c :: cs) :
    parts marker (c :: cs) = (parts marker cs).modifyHead (c :: ·) := by
  rw [parts, partsFrom, if_neg h, partsFrom_part]
  rfl

theorem parts_ne_nil : parts marker cs ≠ [] := by
  induction cs with
  | nil => simp
  | cons c cs ih =>
    unfold parts partsFrom
    split
    · simp
    · rw [partsFrom_part]
      cases h : parts marker cs <;> simp_all

theorem intercalate_parts (h : marker ≠ []) : marker.intercalate (parts marker cs) = cs := by
  induction hn : cs.length using Nat.strongRecOn generalizing cs with
  | ind n ih =>
    match cs with
    | [] => simp [List.intercalate]
    | c :: cs =>
      by_cases hp : marker <+: c :: cs
      · obtain ⟨rest, hrest⟩ := hp
        have hlen : rest.length < n := by
          have := congrArg List.length hrest
          have := List.length_pos_iff.2 h
          simp only [List.length_append, List.length_cons] at *
          omega
        have hback := ih _ hlen rfl
        rw [← hrest, parts_append h]
        cases hparts : parts marker rest with
        | nil => exact absurd hparts parts_ne_nil
        | cons first others =>
          rw [hparts] at hback
          simp [List.intercalate, List.intersperse] at hback ⊢
          exact hback
      · have hback := ih cs.length (by simp at hn; omega) rfl
        rw [parts_cons hp]
        cases hparts : parts marker cs with
        | nil => exact absurd hparts parts_ne_nil
        | cons first others =>
          rw [hparts] at hback
          cases others <;> simp_all [List.intercalate, List.intersperse]

theorem prefix_intercalate (between first : List Char) (others : List (List Char)) :
    first <+: between.intercalate (first :: others) := by
  cases others with
  | nil => simp [List.intercalate]
  | cons next others => simp [List.intercalate, List.intersperse]

theorem mem_of_mem_intercalate {between : List Char} {texts : List (List Char)}
    (h : c ∈ between.intercalate texts) : c ∈ between ∨ ∃ text ∈ texts, c ∈ text := by
  induction texts with
  | nil => cases h
  | cons text others ih =>
    cases others with
    | nil =>
      rw [List.intercalate_singleton] at h
      exact .inr ⟨text, List.mem_cons_self, h⟩
    | cons next others =>
      rw [List.intercalate_cons_cons, List.mem_append, List.mem_append] at h
      obtain (htext | hbetween) | hrest := h
      · exact .inr ⟨text, List.mem_cons_self, htext⟩
      · exact .inl hbetween
      · obtain hbetween | ⟨other, hother, hc⟩ := ih hrest
        · exact .inl hbetween
        · exact .inr ⟨other, List.mem_cons_of_mem _ hother, hc⟩

/-! ### Lines

A line ends with a newline, which belongs to no line; nor does a carriage return right before it. A
text that ends with a newline has no empty line after it. -/

/-- A line in reverse without the carriage return at its end. -/
def dropReturn : List Char → List Char
  | '\r' :: line => line
  | line => line

/-- The lines of `cs` when the first of them begins with `line` reversed. -/
def linesFrom (line : List Char) : List Char → List (List Char)
  | [] => if line.isEmpty then [] else [line.reverse]
  | '\n' :: cs => (dropReturn line).reverse :: linesFrom [] cs
  | c :: cs => linesFrom (c :: line) cs

def lines (cs : List Char) : List (List Char) := linesFrom [] cs

@[simp] theorem lines_nil : lines [] = [] := rfl

end Text

/-! ### Blank texts -/

/-- The ranges of the property `White_Space` of Unicode, first and last code point of each. -/
def whiteSpaceRanges : List (Nat × Nat) :=
  [(0x09, 0x0D), (0x20, 0x20), (0x85, 0x85), (0xA0, 0xA0), (0x1680, 0x1680), (0x2000, 0x200A),
   (0x2028, 0x2029), (0x202F, 0x202F), (0x205F, 0x205F), (0x3000, 0x3000)]

def isWhiteSpace (c : Char) : Bool :=
  whiteSpaceRanges.any fun range => range.1 ≤ c.toNat ∧ c.toNat ≤ range.2

def isBlank (cs : List Char) : Bool := cs.all isWhiteSpace

@[simp] theorem isBlank_nil : isBlank [] = true := rfl

theorem isBlank_append (cs ds : List Char) : isBlank (cs ++ ds) = (isBlank cs && isBlank ds) := by
  simp [isBlank]

namespace Decimal

/-! ### Decimal numbers -/

def digits (n : Nat) : List Char := Nat.toDigits 10 n

/-- At least `width` digits, zeros in front. -/
def padded (width n : Nat) : List Char :=
  List.replicate (width - (digits n).length) '0' ++ digits n

def digitValue (c : Char) : Nat := c.toNat - '0'.toNat

/-- The number that a run of digits writes; the empty run writes zero. -/
def valueOf (ds : List Char) : Nat := ds.foldl (fun n c => 10 * n + digitValue c) 0

/-- Reads a text of one or more ASCII digits and nothing else. -/
def read? (cs : List Char) : Option Nat :=
  if cs ≠ [] ∧ cs.all Char.isDigit then some (valueOf cs) else none

@[simp] theorem valueOf_nil : valueOf [] = 0 := rfl

end Decimal

end Almanac
