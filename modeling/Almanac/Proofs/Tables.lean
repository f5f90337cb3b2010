import Almanac.Command.Listing
import Almanac.Text
import Mathlib.Data.List.Forall2

/-! The layout of a table. Its columns fit all cells and its lines are equally long. When the last
cells of its rows become longer by as much, the rest of the table is widened and these rows are the
same beside their last cells. -/

namespace Almanac.Text
variable {row heading cells : List (List Char)} {rows : List (List (List Char))}
  {widths widths' : List Nat} {width n : Nat} {last line : List Char} {c : Char}

/-! ### Columns -/

theorem columnWidths_singleton (row : List (List Char)) :
    columnWidths [row] = row.map List.length := by
  apply List.ext_getElem
  · simp [columnWidths]
  · intro i hi hi'
    have hlt : i < row.length := by simpa using hi'
    simp [columnWidths, hlt]

theorem columnWidths_cons (h : row.length = (columnWidths rows).length) :
    columnWidths (row :: rows) = List.zipWith max (row.map List.length) (columnWidths rows) := by
  apply List.ext_getElem
  · simp [columnWidths, h]
  · intro i hi hi'
    have hlt : i < row.length := by simp at hi'; omega
    simp [columnWidths, hlt, h ▸ hlt]

theorem length_columnWidths (hne : rows ≠ []) (h : ∀ row ∈ rows, row.length = n) :
    (columnWidths rows).length = n := by
  induction rows with
  | nil => exact (hne rfl).elim
  | cons row rows ih =>
    have hrow : row.length = n := h row List.mem_cons_self
    by_cases hrows : rows = []
    · rw [hrows, columnWidths_singleton, List.length_map, hrow]
    · have hwidths := ih hrows fun row' hrow' => h row' (List.mem_cons_of_mem row hrow')
      rw [columnWidths_cons (hrow.trans hwidths.symm), List.length_zipWith, List.length_map, hrow,
        hwidths, Nat.min_self]

/-- Each cell has a width that it does not exceed. -/
def Fits (widths : List Nat) (row : List (List Char)) : Prop :=
  List.Forall₂ (fun width cell => cell.length ≤ width) widths row

theorem fits_lengths (row : List (List Char)) : Fits (row.map List.length) row :=
  List.forall₂_map_left_iff.2 (List.forall₂_same.2 fun cell _ => Nat.le_refl cell.length)

theorem Fits.max_left (h : Fits widths row) (hlength : widths.length = widths'.length) :
    Fits (List.zipWith max widths widths') row := by
  induction h generalizing widths' with
  | nil => exact .nil
  | cons hcell _ ih =>
    cases widths' with
    | nil => cases hlength
    | cons width' widths' =>
      exact .cons (Nat.le_trans hcell (Nat.le_max_left _ width')) (ih (Nat.succ.inj hlength))

theorem Fits.max_right (h : Fits widths row) (hlength : widths'.length = widths.length) :
    Fits (List.zipWith max widths' widths) row := by
  rw [List.zipWith_comm_of_comm Nat.max_comm]
  exact h.max_left hlength.symm

theorem fits_columnWidths (h : ∀ row ∈ rows, row.length = n) (hrow : row ∈ rows) :
    Fits (columnWidths rows) row := by
  induction rows with
  | nil => cases hrow
  | cons first rows ih =>
    have hfirst : first.length = n := h first List.mem_cons_self
    have hrest : ∀ row ∈ rows, row.length = n := fun row' hrow' =>
      h row' (List.mem_cons_of_mem first hrow')
    by_cases hrows : rows = []
    · rw [hrows, List.mem_singleton] at hrow
      rw [hrows, columnWidths_singleton, hrow]
      exact fits_lengths first
    · have hlength := hfirst.trans (length_columnWidths hrows hrest).symm
      rw [columnWidths_cons hlength]
      obtain rfl | hrow := List.mem_cons.1 hrow
      · exact (fits_lengths row).max_left (by simpa using hlength)
      · exact (ih hrest hrow).max_right (by simpa using hlength)

theorem fits_concat_iff :
    Fits (widths ++ [width]) (cells ++ [last]) ↔ Fits widths cells ∧ last.length ≤ width := by
  unfold Fits
  rw [← List.forall₂_reverse_iff, List.reverse_concat, List.reverse_concat, List.forall₂_cons,
    List.forall₂_reverse_iff, and_comm]

/-! ### Lines -/

theorem intercalate_concat (sep : List Char) (texts : List (List Char)) (last : List Char) :
    sep.intercalate (texts ++ [last]) = texts.flatMap (· ++ sep) ++ last := by
  induction texts with
  | nil => simp
  | cons text texts ih =>
    have hne : texts ++ [last] ≠ [] := by simp
    rw [List.cons_append, List.intercalate_cons_of_ne_nil hne, ih, List.flatMap_cons]
    simp

/-- A line of a table up to its last cell. -/
def rowFront (widths : List Nat) (cells : List (List Char)) : List Char :=
  '│' :: (List.zipWith (fun width cell => ' ' :: padRight width cell ++ [' ']) widths cells).flatMap
    (· ++ [' ']) ++ [' ']

theorem tableRow_concat (h : widths.length = cells.length) (width : Nat) (last : List Char) :
    tableRow (widths ++ [width]) (cells ++ [last]) =
      rowFront widths cells ++ padRight width last ++ [' ', '│'] := by
  rw [tableRow, List.zipWith_append h, List.zipWith_cons_cons, List.zipWith_nil_left,
    intercalate_concat, rowFront]
  simp

theorem ruleLength_cons (width : Nat) (hne : widths ≠ []) :
    ruleLength (width :: widths) = width + 3 + ruleLength widths := by
  have hfold (start : Nat) : widths.foldr (· + 2 + ·) (start + 1) =
      widths.foldr (· + 2 + ·) start + 1 := by
    clear hne
    induction widths with
    | nil => rfl
    | cons first widths ih => rw [List.foldr_cons, List.foldr_cons, ih]; rfl
  obtain ⟨first, rest, rfl⟩ := List.exists_cons_of_ne_nil hne
  have hlength : (width :: first :: rest).length - 1 = (first :: rest).length - 1 + 1 := rfl
  rw [ruleLength, ruleLength, List.foldr_cons, hlength, hfold]
  omega

theorem ruleLength_add (widths : List Nat) (width n : Nat) :
    ruleLength (widths ++ [width + n]) = ruleLength (widths ++ [width]) + n := by
  induction widths with
  | nil => exact Nat.add_right_comm width n 2
  | cons first widths ih =>
    rw [List.cons_append, List.cons_append, ruleLength_cons first (by simp),
      ruleLength_cons first (by simp), ih, Nat.add_assoc _ _ n]

theorem length_rowFront (h : Fits widths cells) (width : Nat) :
    (rowFront widths cells).length + width = ruleLength (widths ++ [width]) := by
  induction h with
  | nil => exact Nat.add_comm 2 width
  | @cons first cell widths cells hcell _ ih =>
    rw [List.cons_append, ruleLength_cons first (by simp), ← ih]
    simp only [rowFront, List.zipWith_cons_cons, List.flatMap_cons, List.length_append,
      List.length_cons, List.length_nil, length_padRight]
    omega

theorem length_tableRow (h : Fits widths row) (hne : row ≠ []) :
    (tableRow widths row).length = ruleLength widths + 2 := by
  obtain ⟨cells, last, rfl⟩ := (List.eq_nil_or_concat' row).resolve_left hne
  obtain rfl | ⟨widths, width, rfl⟩ := List.eq_nil_or_concat' widths
  · exact absurd h.length_eq (by simp)
  · obtain ⟨hcells, hlast⟩ := fits_concat_iff.1 h
    rw [tableRow_concat hcells.length_eq, ← length_rowFront hcells, List.length_append,
      List.length_append, length_padRight, Nat.max_eq_left hlast]
    rfl

theorem length_tableRule (left middle right : Char) (widths : List Nat) :
    (tableRule left middle right widths).length = ruleLength widths + 2 := by
  simp [tableRule]

/-- What a table is drawn with around its cells. -/
def tableMarks : List Char := [' ', '│', '┌', '─', '┐', '╞', '═', '╡', '└', '┘']

theorem cases_of_mem_tableLines (h : line ∈ tableLines heading rows) :
    (∃ row ∈ heading :: rows, line = tableRow (columnWidths (heading :: rows)) row) ∨
    ∃ left middle right, [left, middle, right] ⊆ tableMarks ∧
      line = tableRule left middle right (columnWidths (heading :: rows)) := by
  simp only [tableLines, List.cons_append, List.mem_cons, List.mem_append, List.mem_map,
    List.not_mem_nil, or_false] at h
  obtain rfl | rfl | rfl | ⟨row, hrow, rfl⟩ | rfl := h
  · exact .inr ⟨_, _, _, by decide, rfl⟩
  · exact .inl ⟨heading, List.mem_cons_self, rfl⟩
  · exact .inr ⟨_, _, _, by decide, rfl⟩
  · exact .inl ⟨row, List.mem_cons_of_mem heading hrow, rfl⟩
  · exact .inr ⟨_, _, _, by decide, rfl⟩

/-- All lines of a table are equally long. -/
theorem length_of_mem_tableLines (hne : heading ≠ [])
    (h : ∀ row ∈ rows, row.length = heading.length) (hline : line ∈ tableLines heading rows) :
    line.length = ruleLength (columnWidths (heading :: rows)) + 2 := by
  obtain ⟨row, hrow, rfl⟩ | ⟨left, middle, right, -, rfl⟩ := cases_of_mem_tableLines hline
  · have hlengths : ∀ row ∈ heading :: rows, row.length = heading.length := by simpa using h
    refine length_tableRow (fits_columnWidths hlengths hrow) ?_
    rintro rfl
    exact hne (List.eq_nil_of_length_eq_zero (hlengths [] hrow).symm)
  · exact length_tableRule ..

/-! ### Characters -/

theorem notMem_cell (hspace : c ≠ ' ') (h : c ∉ last) :
    c ∉ ' ' :: padRight width last ++ [' '] := by
  simp [padRight, List.mem_replicate, hspace, h]

theorem notMem_tableRow (hspace : c ≠ ' ') (hborder : c ≠ '│') (h : ∀ cell ∈ row, c ∉ cell) :
    c ∉ tableRow widths row := by
  rw [tableRow, List.mem_append, List.mem_cons, List.mem_singleton]
  rintro ((hmem | hmem) | hmem)
  · exact hborder hmem
  · obtain hmem | ⟨text, htext, hmem⟩ := mem_of_mem_intercalate hmem
    · exact hspace (List.mem_singleton.1 hmem)
    · rw [← List.map_uncurry_zip_eq_zipWith, List.mem_map] at htext
      obtain ⟨⟨width, cell⟩, hcell, rfl⟩ := htext
      exact notMem_cell hspace (h cell (List.of_mem_zip hcell).2) hmem
  · exact hborder hmem

theorem notMem_tableRule {left middle right : Char} (h : c ∉ [left, middle, right]) :
    c ∉ tableRule left middle right widths := by
  simp only [List.mem_cons, List.not_mem_nil, or_false, not_or] at h
  simp [tableRule, List.mem_replicate, h]

theorem notMem_of_mem_tableLines (hmarks : c ∉ tableMarks)
    (h : ∀ row ∈ heading :: rows, ∀ cell ∈ row, c ∉ cell) (hline : line ∈ tableLines heading rows) :
    c ∉ line := by
  obtain ⟨row, hrow, rfl⟩ | ⟨left, middle, right, hrule, rfl⟩ := cases_of_mem_tableLines hline
  · have hspace : c ≠ ' ' := fun heq => hmarks (by simp [tableMarks, heq])
    have hborder : c ≠ '│' := fun heq => hmarks (by simp [tableMarks, heq])
    exact notMem_tableRow hspace hborder (h row hrow)
  · exact notMem_tableRule fun hmem => hmarks (hrule hmem)

/-! ### Longer cells -/

/-- A line with more of a character before its last. -/
def widened (n : Nat) (fill : Char) (line : List Char) : List Char :=
  line.dropLast ++ List.replicate n fill ++ line.getLast?.toList

theorem widened_concat (n : Nat) (fill : Char) (line : List Char) (c : Char) :
    widened n fill (line ++ [c]) = line ++ List.replicate n fill ++ [c] := by
  simp [widened]

theorem length_widened (hne : line ≠ []) (n : Nat) (fill : Char) :
    (widened n fill line).length = line.length + n := by
  obtain ⟨front, last, rfl⟩ := (List.eq_nil_or_concat' line).resolve_left hne
  rw [widened_concat]
  simp
  omega

theorem notMem_widened {fill : Char} (hfill : c ≠ fill) (h : c ∉ line) (n : Nat) :
    c ∉ widened n fill line := by
  obtain rfl | ⟨front, last, rfl⟩ := List.eq_nil_or_concat' line
  · simp [widened, List.mem_replicate, hfill]
  · rw [widened_concat]
    simpa [List.mem_replicate, hfill] using h

theorem tableRule_widened (left middle right : Char) (widths : List Nat) (width n : Nat) :
    tableRule left middle right (widths ++ [width + n]) =
      widened n middle (tableRule left middle right (widths ++ [width])) := by
  rw [tableRule, tableRule, widened_concat, ruleLength_add, List.replicate_add, List.cons_append,
    List.cons_append, List.cons_append, List.append_assoc]

theorem padRight_add (h : last.length ≤ width) (n : Nat) :
    padRight (width + n) last = padRight width last ++ List.replicate n ' ' := by
  rw [padRight, padRight, Nat.sub_add_comm h, List.replicate_add, List.append_assoc]

theorem tableRow_widened (h : widths.length = cells.length) (hlast : last.length ≤ width)
    (n : Nat) : tableRow (widths ++ [width + n]) (cells ++ [last]) =
      widened n ' ' (tableRow (widths ++ [width]) (cells ++ [last])) := by
  have hborder (line : List Char) : line ++ [' ', '│'] = line ++ [' '] ++ ['│'] := by simp
  have hspaces : List.replicate n ' ' ++ [' '] = [' '] ++ List.replicate n ' ' :=
    List.replicate_succ'.symm
  rw [tableRow_concat h, tableRow_concat h, padRight_add hlast, hborder, hborder, widened_concat]
  simp only [List.append_assoc]
  rw [← List.append_assoc (List.replicate n ' '), hspaces]
  simp only [List.append_assoc]

/-- The lines of a table around its rows. -/
structure Frame where
  top : List Char
  names : List Char
  rule : List Char
  bottom : List Char

def Frame.around (f : Frame) (rows : List (List Char)) : List (List Char) :=
  f.top :: f.names :: f.rule :: rows ++ [f.bottom]

def Frame.widen (n : Nat) (f : Frame) : Frame :=
  ⟨widened n '─' f.top, widened n ' ' f.names, widened n '═' f.rule, widened n '─' f.bottom⟩

section
variable {f : Frame} {lines : List (List Char)} {P Q : List Char → Prop}

theorem Frame.forall_mem_around :
    (∀ line ∈ f.around lines, P line) ↔
      (∀ line ∈ f.around [], P line) ∧ ∀ line ∈ lines, P line := by
  simp only [around, List.cons_append, List.nil_append, List.forall_mem_cons,
    List.forall_mem_append]
  tauto

theorem Frame.forall_mem_widen
    (h : ∀ line ∈ f.around [], P line)
    (hwiden : ∀ fill ∈ tableMarks, ∀ line, P line → Q (widened n fill line)) :
    ∀ line ∈ (f.widen n).around [], Q line := by
  simp only [around, List.cons_append, List.nil_append, List.forall_mem_cons] at h ⊢
  obtain ⟨htop, hnames, hrule, hbottom, -⟩ := h
  exact ⟨hwiden '─' (by decide) _ htop, hwiden ' ' (by decide) _ hnames,
    hwiden '═' (by decide) _ hrule, hwiden '─' (by decide) _ hbottom, List.forall_mem_nil _⟩

end

/-- Two lines that are the same but for one cell. -/
def CellChanged (change : List Char → List Char) (line line' : List Char) : Prop :=
  ∃ before cell after, line = before ++ cell ++ after ∧ line' = before ++ change cell ++ after

section
variable {α : Type} {entries : List α} {front : α → List (List Char)} {back : α → List Char}
  {change : List Char → List Char}

theorem tableRow_changed (hchange : ∀ cell, (change cell).length = cell.length + n)
    (h : widths.length = cells.length) (width : Nat) (last : List Char) :
    CellChanged change (tableRow (widths ++ [width]) (cells ++ [last]))
      (tableRow (widths ++ [width + n]) (cells ++ [change last])) := by
  refine ⟨rowFront widths cells, last, List.replicate (width - last.length) ' ' ++ [' ', '│'],
    ?_, ?_⟩
  · rw [tableRow_concat h, padRight]
    simp only [List.append_assoc]
  · rw [tableRow_concat h, padRight, hchange, Nat.add_sub_add_right]
    simp only [List.append_assoc]

theorem columnWidths_cons_concat (h : columnWidths rows = widths ++ [width])
    (hlength : cells.length = widths.length) (last : List Char) :
    columnWidths ((cells ++ [last]) :: rows) =
      List.zipWith max (cells.map List.length) widths ++ [max last.length width] := by
  rw [columnWidths_cons (by simp [h, hlength]), h, List.map_append,
    List.zipWith_append (by simp [hlength])]
  rfl

/-- The last column becomes wider by what its cells become longer. -/
theorem columnWidths_changed (back : α → List Char)
    (hchange : ∀ cell, (change cell).length = cell.length + n) (hne : entries ≠ [])
    (h : ∀ entry ∈ entries, (front entry).length = cells.length) :
    ∃ widths width, widths.length = cells.length ∧
      columnWidths (entries.map fun entry => front entry ++ [back entry]) = widths ++ [width] ∧
      columnWidths (entries.map fun entry => front entry ++ [change (back entry)]) =
        widths ++ [width + n] := by
  induction entries with
  | nil => exact (hne rfl).elim
  | cons entry entries ih =>
    have hentry := h entry List.mem_cons_self
    by_cases hentries : entries = []
    · refine ⟨(front entry).map List.length, (back entry).length, by simpa using hentry, ?_, ?_⟩
      · rw [hentries, List.map_singleton, columnWidths_singleton, List.map_append]
        rfl
      · rw [hentries, List.map_singleton, columnWidths_singleton, List.map_append, ← hchange]
        rfl
    · obtain ⟨widths, width, hwidths, hplain, hchanged⟩ := ih hentries fun entry' hentry' =>
        h entry' (List.mem_cons_of_mem entry hentry')
      have hlength : (front entry).length = widths.length := hentry.trans hwidths.symm
      refine ⟨List.zipWith max ((front entry).map List.length) widths,
        max (back entry).length width, by simp [hentry, hwidths], ?_, ?_⟩
      · rw [List.map_cons, columnWidths_cons_concat hplain hlength]
      · rw [List.map_cons, columnWidths_cons_concat hchanged hlength, hchange,
          Nat.add_max_add_right]

/-- A table whose last cells become longer, one of which was as long as its heading. -/
theorem tableLines_changed (hchange : ∀ cell, (change cell).length = cell.length + n)
    (h : ∀ entry ∈ entries, (front entry).length = cells.length)
    (hlast : ∃ entry ∈ entries, last.length ≤ (back entry).length) :
    ∃ (frame : Frame) (lines lines' : List (List Char)),
      tableLines (cells ++ [last]) (entries.map fun entry => front entry ++ [back entry]) =
        frame.around lines ∧
      tableLines (cells ++ [last])
          (entries.map fun entry => front entry ++ [change (back entry)]) =
        (frame.widen n).around lines' ∧
      lines.length = entries.length ∧ List.Forall₂ (CellChanged change) lines lines' := by
  obtain ⟨longest, hlongest, hle⟩ := hlast
  obtain ⟨rest, width, hrest, hplain, hchanged⟩ :=
    columnWidths_changed back hchange (List.ne_nil_of_mem hlongest) h
  have hwidth : last.length ≤ width := by
    have hlengths : ∀ row ∈ entries.map fun entry => front entry ++ [back entry],
        row.length = cells.length + 1 := by simpa using h
    have hfits := fits_columnWidths hlengths (List.mem_map_of_mem hlongest)
    rw [hplain, fits_concat_iff] at hfits
    exact Nat.le_trans hle hfits.2
  let widths := List.zipWith max (cells.map List.length) rest
  have hwidths : widths.length = cells.length := by simp [widths, hrest]
  have hplain' := columnWidths_cons_concat hplain hrest.symm last
  have hchanged' := columnWidths_cons_concat hchanged hrest.symm last
  rw [Nat.max_eq_right hwidth] at hplain'
  rw [Nat.max_eq_right (Nat.le_add_right_of_le hwidth)] at hchanged'
  let frame : Frame :=
    ⟨tableRule '┌' '─' '┐' (widths ++ [width]), tableRow (widths ++ [width]) (cells ++ [last]),
      tableRule '╞' '═' '╡' (widths ++ [width]), tableRule '└' '─' '┘' (widths ++ [width])⟩
  refine ⟨frame,
    entries.map fun entry => tableRow (widths ++ [width]) (front entry ++ [back entry]),
    entries.map fun entry =>
      tableRow (widths ++ [width + n]) (front entry ++ [change (back entry)]),
    ?_, ?_, List.length_map .., ?_⟩
  · rw [tableLines, hplain', List.map_map]
    rfl
  · rw [tableLines, hchanged', List.map_map, tableRule_widened, tableRow_widened hwidths hwidth,
      tableRule_widened, tableRule_widened]
    rfl
  · rw [List.forall₂_map_left_iff, List.forall₂_map_right_iff, List.forall₂_same]
    intro entry hentry
    exact tableRow_changed hchange (hwidths.trans (h entry hentry).symm) width (back entry)

end

end Almanac.Text
