import Almanac.Proofs.EasterDates
import Almanac.Proofs.Effects
import Almanac.Proofs.Invocations
import Almanac.Proofs.Marks
import Almanac.Proofs.Tables

/-! The table of the moving holidays with their names set off and without. The codes around a name
are not shown but take part in the width of its column. So heading and rules are drawn wider than
the rows, which are shown as they are without codes. -/

namespace Almanac

namespace Text
variable {cs cs' shown shown' line line' : List Char} {lines lines' : List (List Char)}
  {change : List Char → List Char}

/-! ### Codes -/

/-- The last character of a code. -/
def endsCode (c : Char) : Bool := '@' ≤ c ∧ c ≤ '~'

/-- What a terminal shows of a text. A code begins with an escape and a bracket. -/
def unstyledFrom : (within : Bool) → List Char → List Char
  | _, [] => []
  | true, c :: cs => unstyledFrom (!endsCode c) cs
  | false, '\x1b' :: '[' :: cs => unstyledFrom true cs
  | false, c :: cs => c :: unstyledFrom false cs

/-- A text without its codes. -/
def unstyled (cs : List Char) : List Char := unstyledFrom false cs

/-- The columns that a line takes on a terminal. -/
def columns (line : List Char) : Nat := (unstyled line).length

/-- A text within which all codes end, and what is shown of it. -/
def Shows (cs shown : List Char) : Prop :=
  ∀ rest, unstyled (cs ++ rest) = shown ++ unstyled rest

theorem Shows.append (h : Shows cs shown) (h' : Shows cs' shown') :
    Shows (cs ++ cs') (shown ++ shown') := by
  intro rest
  rw [List.append_assoc, h, h', List.append_assoc]

theorem shows_of_notMem (h : '\x1b' ∉ cs) : Shows cs cs := by
  intro rest
  induction cs with
  | nil => rfl
  | cons c cs ih =>
    rw [List.mem_cons, not_or] at h
    obtain ⟨hc, hcs⟩ := h
    have hcons (ds : List Char) : unstyled (c :: ds) = c :: unstyled ds := by
      rw [unstyled, unstyledFrom]
      · rfl
      · rintro _ rfl
        exact absurd rfl hc
    rw [List.cons_append, hcons, ih hcs, List.cons_append]

theorem Shows.unstyled_eq (h : Shows cs shown) : unstyled cs = shown := by
  simpa [unstyled, unstyledFrom] using h []

theorem columns_of_notMem (h : '\x1b' ∉ line) : columns line = line.length := by
  rw [columns, (shows_of_notMem h).unstyled_eq]

theorem shows_ended (h : List.Forall₂ Shows lines lines') : Shows (ended lines) (ended lines') := by
  induction h with
  | nil => exact fun _ => rfl
  | @cons line line' lines lines' hline _ ih =>
    rw [ended_cons, ended_cons]
    have hbreak : Shows ['\n'] ['\n'] := shows_of_notMem (by decide)
    exact hline.append (hbreak.append ih)

/-- A line without codes is what is shown of it when codes come to stand in one of its cells. -/
theorem shows_of_cellChanged (hchange : ∀ cell, '\x1b' ∉ cell → Shows (change cell) cell)
    (h : CellChanged change line line') (hline : '\x1b' ∉ line) : Shows line' line := by
  obtain ⟨before, cell, after, rfl, rfl⟩ := h
  simp only [List.mem_append, not_or] at hline
  obtain ⟨⟨hbefore, hcell⟩, hafter⟩ := hline
  exact ((shows_of_notMem hbefore).append (hchange cell hcell)).append (shows_of_notMem hafter)

theorem ended_eq (hne : lines ≠ []) : ['\n'].intercalate lines ++ ['\n'] = ended lines := by
  obtain ⟨front, last, rfl⟩ := (List.eq_nil_or_concat' lines).resolve_left hne
  rw [intercalate_concat, ended, List.flatMap_append, List.append_assoc]
  simp

end Text

/-! ### Names -/

theorem Date.notMem_chars {c : Char} (hc : c.isDigit = false) (hminus : c ≠ '-') (hplus : c ≠ '+')
    (d : Date) : c ∉ d.chars := by
  have hyear : c ∉ yearText d.year := by
    rw [yearText]
    split
    · exact Decimal.notMem_padded hc 4 _
    · split <;> simp [hminus, hplus, Decimal.notMem_padded hc]
  simp [chars, hyear, hminus, Decimal.notMem_padded hc]

theorem DayKey.notMem_chars {c : Char} (hc : c.isDigit = false) (k : DayKey) : c ∉ k.chars := by
  simp [chars, Decimal.notMem_padded hc]

namespace EasterHoliday

theorem notMem_name (holiday : EasterHoliday) : '\x1b' ∉ holiday.name.toList := by
  cases holiday <;> decide

theorem le_length_name (holiday : EasterHoliday) :
    "Holiday".toList.length ≤ holiday.name.toList.length := by
  cases holiday <;> decide

end EasterHoliday

theorem Easter.length_holidays {year : Int} (hfirst : -262143 ≤ year) (hlast : year ≤ 262142) :
    (holidays year).length = 4 := by
  cases hsunday : sunday? year with
  | none =>
    have := sunday?_eq_none_iff.1 hsunday
    omega
  | some sunday =>
    obtain ⟨friday, saturday, monday, -, heq⟩ := holidays_eq hsunday
    rw [heq]
    rfl

namespace Command
open Text

namespace Style
variable {cell : List Char}

/-- A cell within the codes of a style. -/
def around (style : Style) (cell : List Char) : List Char :=
  style.start.toList ++ cell ++ style.stop.toList

theorem toList_apply (style : Style) (coloured : Bool) (text : String) :
    (style.apply coloured text).toList =
      if coloured then style.around text.toList else text.toList := by
  cases coloured
  · rfl
  · simp [apply, around]

theorem length_around_bold (cell : List Char) : (bold.around cell).length = cell.length + 8 := by
  have hstart : bold.start.toList.length = 4 := rfl
  have hstop : bold.stop.toList.length = 4 := rfl
  rw [around, List.length_append, List.length_append, hstart, hstop]
  omega

theorem shows_around_bold (h : '\x1b' ∉ cell) : Shows (bold.around cell) cell := by
  have hstart : Shows bold.start.toList [] := fun _ => rfl
  have hstop : Shows bold.stop.toList [] := fun _ => rfl
  simpa [around] using (hstart.append (shows_of_notMem h)).append hstop

end Style

/-- The heading of the columns before that of the names. -/
def holidayHeading : List (List Char) := ["Date", "Key", "Weekday"].map String.toList

/-- The cells of a holiday before its name. -/
def holidayCells (entry : Date × EasterHoliday) : List (List Char) :=
  [entry.1.text.toList, (DayKey.ofDate entry.1).text.toList, entry.1.weekday.name.toList]

def holidayName (entry : Date × EasterHoliday) : List Char := entry.2.name.toList

theorem length_holidayCells (entry : Date × EasterHoliday) :
    (holidayCells entry).length = holidayHeading.length := by
  simp [holidayCells, holidayHeading]

/-- The lines of the table of holidays, given how their names are written. -/
def holidayLines (name : Date × EasterHoliday → List Char)
    (holidays : List (Date × EasterHoliday)) : List (List Char) :=
  tableLines (holidayHeading ++ ["Holiday".toList])
    (holidays.map fun entry => holidayCells entry ++ [name entry])

/-- The name of a holiday within the codes that set it off. -/
def boldName (entry : Date × EasterHoliday) : List Char := Style.bold.around (holidayName entry)

theorem holidayTable_eq (coloured : Bool) (holidays : List (Date × EasterHoliday)) :
    (holidayTable coloured holidays ++ "\n").toList =
      ended (holidayLines (if coloured then boldName else holidayName) holidays) := by
  have hrows : (holidays.map fun entry => [entry.1.text, (DayKey.ofDate entry.1).text,
      entry.1.weekday.name, Style.bold.apply coloured entry.2.name]).map (·.map String.toList) =
      holidays.map fun entry => holidayCells entry ++
        [(if coloured then boldName else holidayName) entry] := by
    rw [List.map_map]
    refine List.map_congr_left fun entry _ => ?_
    cases coloured <;> simp [holidayCells, holidayName, boldName, Style.toList_apply]
  have hne : holidayLines (if coloured then boldName else holidayName) holidays ≠ [] :=
    List.cons_ne_nil _ _
  rw [String.toList_append, holidayTable, String.toList_ofList, ← ended_eq hne, holidayLines,
    ← hrows]
  rfl

theorem notMem_holidayLines {holidays : List (Date × EasterHoliday)} {line : List Char}
    (h : line ∈ holidayLines holidayName holidays) : '\x1b' ∉ line := by
  refine notMem_of_mem_tableLines (by decide) ?_ h
  intro row hrow cell hcell
  obtain rfl | hrow := List.mem_cons.1 hrow
  · revert cell
    decide
  · obtain ⟨⟨date, holiday⟩, -, rfl⟩ := List.mem_map.1 hrow
    simp only [holidayCells, List.cons_append, List.nil_append, List.mem_cons, List.not_mem_nil,
      or_false] at hcell
    obtain rfl | rfl | rfl | rfl := hcell
    · rw [Date.text, String.toList_ofList]
      exact Date.notMem_chars rfl (by decide) (by decide) date
    · rw [DayKey.text, String.toList_ofList]
      exact DayKey.notMem_chars rfl _
    · cases date.weekday <;> decide
    · exact holiday.notMem_name

theorem exists_width_holidayLines (name : Date × EasterHoliday → List Char)
    (holidays : List (Date × EasterHoliday)) :
    ∃ width, 0 < width ∧ ∀ line ∈ holidayLines name holidays, line.length = width := by
  have hrows : ∀ row ∈ holidays.map fun entry => holidayCells entry ++ [name entry],
      row.length = (holidayHeading ++ ["Holiday".toList]).length := by
    intro row hrow
    obtain ⟨entry, -, rfl⟩ := List.mem_map.1 hrow
    simp [length_holidayCells]
  exact ⟨_, Nat.succ_pos _, fun line hline =>
    length_of_mem_tableLines (List.cons_ne_nil _ _) hrows hline⟩

theorem holidayLines_around {holidays : List (Date × EasterHoliday)} (hne : holidays ≠ []) :
    ∃ (frame : Frame) (rows rows' : List (List Char)),
      holidayLines holidayName holidays = frame.around rows ∧
      holidayLines boldName holidays = (frame.widen 8).around rows' ∧
      rows.length = holidays.length ∧ List.Forall₂ (CellChanged Style.bold.around) rows rows' := by
  have hname : ∃ entry ∈ holidays, "Holiday".toList.length ≤ (holidayName entry).length := by
    obtain ⟨entry, hentry⟩ := List.exists_mem_of_ne_nil holidays hne
    exact ⟨entry, hentry, entry.2.le_length_name⟩
  exact tableLines_changed Style.length_around_bold (fun entry _ => length_holidayCells entry) hname

/-! ### Lines -/

section
variable {frame : Frame} {rows rows' : List (List Char)} {width : Nat}

theorem shows_around (hframe : ∀ line ∈ frame.around [], '\x1b' ∉ line)
    (hrows : List.Forall₂ Shows rows' rows) :
    Shows (ended (frame.around rows')) (ended (frame.around rows)) := by
  simp only [Frame.around, List.cons_append, List.nil_append, List.forall_mem_cons] at hframe
  obtain ⟨htop, hnames, hrule, hbottom, -⟩ := hframe
  exact shows_ended (.cons (shows_of_notMem htop) (.cons (shows_of_notMem hnames)
    (.cons (shows_of_notMem hrule)
      (List.rel_append hrows (.cons (shows_of_notMem hbottom) .nil)))))

theorem columns_of_shows (h : List.Forall₂ Shows rows' rows)
    (hwidth : ∀ row ∈ rows, row.length = width) : ∀ row ∈ rows', columns row = width := by
  induction h with
  | nil => exact List.forall_mem_nil _
  | @cons row' row rows' rows hrow _ ih =>
    obtain ⟨hfirst, hrest⟩ := List.forall_mem_cons.1 hwidth
    refine List.forall_mem_cons.2 ⟨?_, ih hrest⟩
    rw [columns, hrow.unstyled_eq, hfirst]

/-- A wider frame makes a longer text. -/
theorem ended_around_widen_ne (hne : ∀ line ∈ frame.around [], line ≠ []) :
    ended ((frame.widen 8).around rows) ≠ ended (frame.around rows) := by
  simp only [Frame.around, List.cons_append, List.nil_append, List.forall_mem_cons] at hne
  obtain ⟨htop, hnames, hrule, hbottom, -⟩ := hne
  intro heq
  have hlength := congrArg List.length heq
  simp [ended, Frame.around, Frame.widen, length_widened, htop, hnames, hrule, hbottom] at hlength
  omega

end

theorem execute_easter {env : Environment} {words : List String} {settings : Settings} {year : Int}
    (h : readLine env words = .ok (.run settings (.easter year false)))
    (hne : Easter.holidays year ≠ []) (folder : Folder) :
    (execute env folder words).output.toList =
      ended (holidayLines (if settings.colour.inUse env.screen then boldName else holidayName)
        (Easter.holidays year)) := by
  rw [execute_run h, Request.program]
  split
  next hnil => exact absurd hnil hne
  next =>
    rw [output_printLine]
    exact holidayTable_eq ..

/-- With the names set off, the table of a year is drawn in a frame that is wider by the eight
characters of the codes around a name, and its rows take the columns that they take without. So it
is not, when the codes are left out, the table without: this one has lines of one width, and the
other has not. -/
theorem layout_of_colours {year : Int} (hfirst : -262143 ≤ year) (hlast : year ≤ 262142)
    (env : Environment) (folder : Folder) :
    (∀ colour, readLine env (easterWords colour year) =
      .ok (.run ⟨colour, false⟩ (.easter year false))) ∧
    ∀ never always verbose verbose',
      readLine env never = .ok (.run ⟨.never, verbose⟩ (.easter year false)) →
      readLine env always = .ok (.run ⟨.always, verbose'⟩ (.easter year false)) →
      let plain := (execute env folder never).output.toList
      let coloured := (execute env folder always).output.toList
      ∃ (frame : Frame) (rows rows' : List (List Char)) (width : Nat),
        rows.length = 4 ∧ List.Forall₂ (CellChanged Style.bold.around) rows rows' ∧
        plain = ended (frame.around rows) ∧
        coloured = ended ((frame.widen 8).around rows') ∧
        unstyled plain = plain ∧
        unstyled coloured = ended ((frame.widen 8).around rows) ∧
        unstyled coloured ≠ plain ∧
        (∀ line ∈ frame.around rows, columns line = width) ∧
        (∀ row ∈ rows', columns row = width) ∧
        ∀ line ∈ (frame.widen 8).around [], columns line = width + 8 := by
  refine ⟨fun colour => readLine_easterWords env colour (by omega) (by omega), ?_⟩
  intro never always verbose verbose' hnever halways plain coloured
  have hlength := Easter.length_holidays hfirst hlast
  have hne : Easter.holidays year ≠ [] := by
    intro hnil
    rw [hnil] at hlength
    cases hlength
  obtain ⟨frame, rows, rows', hplain, hcoloured, hcount, hrows⟩ := holidayLines_around hne
  obtain ⟨width, hpos, hwidth⟩ := exists_width_holidayLines holidayName (Easter.holidays year)
  have hfree : ∀ line ∈ frame.around rows, '\x1b' ∉ line := fun line hline =>
    notMem_holidayLines (hplain ▸ hline)
  rw [hplain] at hwidth
  obtain ⟨hframe, hcells⟩ := Frame.forall_mem_around.1 hfree
  obtain ⟨hframeWidth, hrowsWidth⟩ := Frame.forall_mem_around.1 hwidth
  have hplainText : plain = ended (frame.around rows) :=
    (execute_easter hnever hne folder).trans (congrArg ended hplain)
  have hcolouredText : coloured = ended ((frame.widen 8).around rows') :=
    (execute_easter halways hne folder).trans (congrArg ended hcoloured)
  have hwide : ∀ line ∈ (frame.widen 8).around [], '\x1b' ∉ line ∧ line.length = width + 8 := by
    refine Frame.forall_mem_widen (fun line hline => And.intro (hframe line hline)
      (hframeWidth line hline)) fun fill hfill line hline => ?_
    have hfillFree : '\x1b' ≠ fill := by
      rintro rfl
      exact absurd hfill (by decide)
    have hnonempty : line ≠ [] := List.ne_nil_of_length_pos (by omega)
    exact ⟨notMem_widened hfillFree hline.1 8, by rw [length_widened hnonempty, hline.2]⟩
  have hshown : List.Forall₂ Shows rows' rows := by
    have hboth := (List.forall₂_and_left rows rows').2 ⟨hcells, hrows⟩
    exact hboth.flip.imp fun row' row h =>
      shows_of_cellChanged (fun cell hcell => Style.shows_around_bold hcell) h.2 h.1
  have hunstyled : unstyled coloured = ended ((frame.widen 8).around rows) := by
    rw [hcolouredText]
    exact (shows_around (fun line hline => (hwide line hline).1) hshown).unstyled_eq
  refine ⟨frame, rows, rows', width, hcount.trans hlength, hrows, hplainText, hcolouredText, ?_,
    hunstyled, ?_, ?_, columns_of_shows hshown hrowsWidth, ?_⟩
  · have hself : List.Forall₂ Shows rows rows :=
      List.forall₂_same.2 fun row hrow => shows_of_notMem (hcells row hrow)
    rw [hplainText]
    exact (shows_around hframe hself).unstyled_eq
  · rw [hunstyled, hplainText]
    exact ended_around_widen_ne fun line hline =>
      List.ne_nil_of_length_pos (by rw [hframeWidth line hline]; exact hpos)
  · intro line hline
    rw [columns_of_notMem (hfree line hline), hwidth line hline]
  · intro line hline
    rw [columns_of_notMem (hwide line hline).1, (hwide line hline).2]

/-- The holidays of 45 BC, whose dates begin with a sign. -/
theorem layout_of_colours_before_the_era :
    let env : Environment := ⟨none, none, ⟨2024, 3, 31, by decide, by decide, by decide, by decide⟩⟩
    let never := ["easter", "--color", "never", "--", "-44"]
    let always := ["easter", "--color", "always", "--", "-44"]
    let plain := (execute env .empty never).output.toList
    let coloured := (execute env .empty always).output.toList
    readLine env never = .ok (.run ⟨.never, false⟩ (.easter (-44) false)) ∧
    readLine env always = .ok (.run ⟨.always, false⟩ (.easter (-44) false)) ∧
    -262143 ≤ (-44 : Int) ∧ (-44 : Int) ≤ 262142 ∧ unstyled coloured ≠ plain ∧
    ∃ (frame : Frame) (rows rows' : List (List Char)) (width : Nat),
      rows.length = 4 ∧ plain = ended (frame.around rows) ∧
      coloured = ended ((frame.widen 8).around rows') ∧
      (∀ row ∈ rows', columns row = width) ∧
      ∀ line ∈ (frame.widen 8).around [], columns line = width + 8 := by
  intro env never always plain coloured
  have hfirst : -262143 ≤ (-44 : Int) := by decide
  have hlast : (-44 : Int) ≤ 262142 := by decide
  obtain ⟨hlines, hlayout⟩ := layout_of_colours hfirst hlast env .empty
  have hnever := hlines .never
  have halways := hlines .always
  obtain ⟨frame, rows, rows', width, hcount, -, hplain, hcoloured, -, -, hne, -, hrows, hframe⟩ :=
    hlayout never always false false hnever halways
  exact ⟨hnever, halways, hfirst, hlast, hne, frame, rows, rows', width, hcount, hplain, hcoloured,
    hrows, hframe⟩

/-- In 2024 the heading and the rules take 62 columns, and the rows 54 as without codes. -/
theorem unstyled_ne_of_2024 :
    let env : Environment := ⟨none, none, ⟨2024, 3, 31, by decide, by decide, by decide, by decide⟩⟩
    let plain := (execute env .empty ["easter", "2024", "--color", "never"]).output.toList
    let coloured := (execute env .empty ["easter", "2024", "--color", "always"]).output.toList
    unstyled coloured ≠ plain ∧
      (Text.lines plain).map columns = [54, 54, 54, 54, 54, 54, 54, 54] ∧
      (Text.lines coloured).map columns = [62, 62, 62, 54, 54, 54, 54, 62] := by
  intro env plain coloured
  have hnever : readLine env ["easter", "2024", "--color", "never"] =
      .ok (.run ⟨.never, false⟩ (.easter 2024 false)) := by rfl
  have halways : readLine env ["easter", "2024", "--color", "always"] =
      .ok (.run ⟨.always, false⟩ (.easter 2024 false)) := by rfl
  have hne : Easter.holidays 2024 ≠ [] := by decide
  have hplain : plain = ended (holidayLines holidayName (Easter.holidays 2024)) :=
    execute_easter hnever hne .empty
  have hcoloured : coloured = ended (holidayLines boldName (Easter.holidays 2024)) :=
    execute_easter halways hne .empty
  have hcolumns : (Text.lines plain).map columns = [54, 54, 54, 54, 54, 54, 54, 54] := by
    rw [hplain]
    decide +kernel
  have hcolumns' : (Text.lines coloured).map columns = [62, 62, 62, 54, 54, 54, 54, 62] := by
    rw [hcoloured]
    decide +kernel
  refine ⟨?_, hcolumns, hcolumns'⟩
  rw [hplain, hcoloured]
  decide +kernel

end Command
end Almanac
