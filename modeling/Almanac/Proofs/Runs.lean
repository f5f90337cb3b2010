import Almanac.Command.Run

/-! What is known of a run from the steps that are taken in it. A law says which step may follow
those before it, and when a program may fail or be done; a program that obeys it whatever it is
answered runs by it. -/

namespace Almanac.Command

/-- One step of a program. -/
inductive Step {α : Type} : Program α → World → Program α → World → Prop
  | read (path : String) (next : Except FileError String → Program α) (w : World) :
    Step (.read path next) w (next (w.read path).1) (w.read path).2
  | print (text : String) (next : Program α) (w : World) :
    Step (.print text next) w next (w.print text)
  | write (path text : String) (next : Except FileError Unit → Program α) (w : World) :
    Step (.write path text next) w (next (w.write path text).1) (w.write path text).2

namespace Event

def IsRead (event : Event) : Prop := ∃ path answer, event = .read path answer

/-- A file was written. -/
def Changes (event : Event) : Prop := ∃ path text, event = .write path text (.ok ())

/-- Nothing was printed and no file written. -/
def Quiet (event : Event) : Prop := ¬ event.Changes ∧ ∀ text, event ≠ .print text

theorem IsRead.quiet {event : Event} (h : event.IsRead) : event.Quiet := by
  obtain ⟨path, answer, rfl⟩ := h
  exact ⟨by simp [Changes], by simp⟩

theorem printed_of_quiet {event : Event} (h : event.Quiet) : event.printed = "" := by
  cases event with
  | print text => exact absurd rfl (h.2 text)
  | read | write => rfl

end Event

theorem printedOf_of_quiet {events : List Event} (h : ∀ event ∈ events, event.Quiet) :
    printedOf events = "" := by
  induction events with
  | nil => rfl
  | cons event events ih =>
    obtain ⟨hevent, hevents⟩ := List.forall_mem_cons.1 h
    rw [printedOf, List.map_cons, String.join_cons, Event.printed_of_quiet hevent, ← printedOf,
      ih hevents, String.empty_append]

section
variable {α : Type} {p q : Program α} {w v : World}

/-- A step is recorded with its answer. -/
theorem events_of_step (h : Step p w q v) : ∃ event, v.events = w.events ++ [event] := by
  cases h with
  | read path next => exact ⟨_, rfl⟩
  | print text => exact ⟨_, rfl⟩
  | write path text next =>
    rw [World.write]
    split <;> exact ⟨_, rfl⟩

/-- A step that writes no file leaves the folder as it is. -/
theorem folder_of_step (h : Step p w q v) (hv : ∀ event ∈ v.events, ¬ event.Changes) :
    v.folder = w.folder := by
  cases h with
  | read path next => rfl
  | print text => rfl
  | write path text next =>
    revert hv
    rw [World.write]
    split
    · exact fun hv => absurd ⟨path, text, rfl⟩ (hv _ (by simp [World.record]))
    · exact fun _ => rfl

/-- What every step keeps still holds when no step is left. -/
theorem kept_of_run (Kept : Program α → World → Prop)
    (hstep : ∀ p w q v, Kept p w → Step p w q v → Kept q v) (h : Kept p w) :
    Kept (.ofResult (p.run w).1) (p.run w).2 := by
  induction p generalizing w with
  | done result => exact h
  | fail report => exact h
  | read path next ih => exact ih _ (hstep _ _ _ _ h (.read path next w))
  | print text next ih => exact ih (hstep _ _ _ _ h (.print text next w))
  | write path text next ih => exact ih _ (hstep _ _ _ _ h (.write path text next w))

theorem folder_of_run (p : Program α) (w : World)
    (h : ∀ event ∈ (p.run w).2.events, ¬ event.Changes) : (p.run w).2.folder = w.folder := by
  refine kept_of_run (fun _ v => (∀ event ∈ v.events, ¬ event.Changes) → v.folder = w.folder) ?_
    (fun _ => rfl) h
  intro p v q v' hkept hstep hv'
  obtain ⟨event, hevents⟩ := events_of_step hstep
  rw [folder_of_step hstep hv']
  exact hkept fun event hmem => hv' event (by simp [hevents, hmem])

end

/-- Which step may follow those before it, and after which steps a program may end in which way. -/
structure Law (α : Type) where
  next : List Event → Event → Prop
  fail : List Event → Prop
  done : List Event → α → Prop

/-- The program keeps to the law from here on, whatever it is answered. -/
def Program.Obeys {α : Type} (law : Law α) (past : List Event) : Program α → Prop
  | done result => law.done past result
  | fail _ => law.fail past
  | read path next => ∀ answer, law.next past (.read path answer) ∧
      (next answer).Obeys law (past ++ [.read path answer])
  | print text next => law.next past (.print text) ∧ next.Obeys law (past ++ [.print text])
  | write path text next => ∀ answer, law.next past (.write path text answer) ∧
      (next answer).Obeys law (past ++ [.write path text answer])

/-- Each step is one that may follow those before it. -/
def Law.Allows {α : Type} (law : Law α) (events : List Event) : Prop :=
  ∀ before event after, events = before ++ event :: after → law.next before event

section
variable {α β : Type} {law : Law α} {p q : Program α} {w v : World} {past : List Event}
  {event : Event}

theorem Law.Allows.append (h : law.Allows past) (hevent : law.next past event) :
    law.Allows (past ++ [event]) := by
  intro before event' after heq
  rcases List.eq_nil_or_concat after with rfl | ⟨after, last, rfl⟩
  · obtain ⟨rfl, hlast⟩ := List.append_inj' heq rfl
    cases hlast
    exact hevent
  · rw [List.concat_eq_append, ← List.cons_append, ← List.append_assoc] at heq
    exact h before event' after (List.append_inj' heq rfl).1

theorem obeys_step (h : Step p w q v) (hp : p.Obeys law w.events) (hw : law.Allows w.events) :
    q.Obeys law v.events ∧ law.Allows v.events := by
  cases h with
  | read path next => exact ⟨(hp _).2, hw.append (hp _).1⟩
  | print text => exact ⟨hp.2, hw.append hp.1⟩
  | write path text next =>
    rw [World.write]
    split <;> exact ⟨(hp _).2, hw.append (hp _).1⟩

/-- A program that obeys a law runs by it and ends as the law says. -/
theorem obeys_run (hp : p.Obeys law w.events) (hw : law.Allows w.events) :
    (Program.ofResult (p.run w).1).Obeys law (p.run w).2.events ∧
      law.Allows (p.run w).2.events :=
  kept_of_run (fun q v => q.Obeys law v.events ∧ law.Allows v.events)
    (fun _ _ _ _ hkept hstep => obeys_step hstep hkept.1 hkept.2) ⟨hp, hw⟩

/-- A program that goes on where another was done obeys a law that allows all that the other's law
does. -/
theorem obeys_bind {law' : Law β} {next : α → Program β} (hp : p.Obeys law past)
    (hnext : ∀ past event, law.next past event → law'.next past event)
    (hfail : ∀ past, law.fail past → law'.fail past)
    (hdone : ∀ past result, law.done past result → (next result).Obeys law' past) :
    (p >>= next).Obeys law' past := by
  induction p generalizing past with
  | done result => exact hdone past result hp
  | fail report => exact hfail past hp
  | read path rest ih => exact fun answer => ⟨hnext _ _ (hp answer).1, ih answer (hp answer).2⟩
  | print text rest ih => exact ⟨hnext _ _ hp.1, ih hp.2⟩
  | write path text rest ih =>
    exact fun answer => ⟨hnext _ _ (hp answer).1, ih answer (hp answer).2⟩

end

/-! ### Loading -/

/-- Of a program that only reads, with what it knows when it is done. -/
def Law.reading {α : Type} (known : List Event → α → Prop) : Law α where
  next past event := event.IsRead ∧ ∀ earlier ∈ past, earlier.IsRead
  fail past := ∀ event ∈ past, event.IsRead
  done past result := (∀ event ∈ past, event.IsRead) ∧ known past result

/-- The text of this file was read and holds the store. -/
def Supplied (past : List Event) (path : String) (s : Store) : Prop :=
  ∃ text, .read path (.ok text) ∈ past ∧ Store.ofText text = .ok s

/-- The store is that of the file that was read, or the bundled one. -/
def Provided (past : List Event) : Option String → Store → Prop
  | some path, s => Supplied past path s
  | none, s => s = Bundled.store

section
variable {past : List Event} {read : Reader} {path text : String} {s : Store}

theorem ofText_of_loadFile (h : Report.loadFile read path = .ok s) :
    ∃ text, read path = .ok text ∧ Store.ofText text = .ok s := by
  rw [Report.loadFile] at h
  split at h
  · cases h
  next text hread =>
    refine ⟨text, hread, ?_⟩
    split at h
    next hs =>
      cases h
      exact hs
    next => cases h

theorem obeys_loadFile (path : String) (hpast : ∀ event ∈ past, event.IsRead) :
    (Program.loadFile path).Obeys (.reading fun past => Supplied past path) past := by
  intro answer
  have hread : ∀ event ∈ past ++ [.read path answer], event.IsRead := by
    rw [List.forall_mem_append, List.forall_mem_singleton]
    exact ⟨hpast, path, answer, rfl⟩
  refine ⟨⟨⟨path, answer, rfl⟩, hpast⟩, ?_⟩
  change (Program.ofResult (Report.loadFile (fun _ => answer) path)).Obeys _ _
  cases hload : Report.loadFile (fun _ => answer) path with
  | error report => exact hread
  | ok s =>
    obtain ⟨text, htext, hs⟩ := ofText_of_loadFile hload
    exact ⟨hread, text, by simp [htext], hs⟩

theorem obeys_loadData (data : Option String) (hpast : ∀ event ∈ past, event.IsRead) :
    (loadData data).Obeys (.reading fun past => Provided past data) past := by
  cases data with
  | none => exact ⟨hpast, rfl⟩
  | some path => exact obeys_loadFile path hpast

theorem obeys_countAll (paths : List String) (hpast : ∀ event ∈ past, event.IsRead) :
    (countAll paths).Obeys (.reading fun _ _ => True) past := by
  induction paths generalizing past with
  | nil => exact ⟨hpast, trivial⟩
  | cons path paths ih =>
    refine obeys_bind (obeys_loadFile path hpast) (fun _ _ h => h) (fun _ h => h) ?_
    rintro past s ⟨hpast, -⟩
    refine obeys_bind (ih hpast) (fun _ _ h => h) (fun _ h => h) ?_
    rintro past counts ⟨hpast, -⟩
    exact ⟨hpast, trivial⟩

end

/-! ### Runs as a whole -/

section
variable {α β : Type} {folder : Folder} {data : Option String}

theorem run_bind (p : Program α) (next : α → Program β) (w : World) :
    (p >>= next).run w = match p.run w with
      | (.ok result, v) => (next result).run v
      | (.error report, v) => (.error report, v) := by
  induction p generalizing w with
  | done result => rfl
  | fail report => rfl
  | read path rest ih => exact ih _ _
  | print text rest ih => exact ih _
  | write path text rest ih => exact ih _ _

/-- The store that data are loaded as, or the report on why there is none. -/
def dataIn (folder : Folder) : Option String → Except Report Store
  | some path => Report.loadFile folder.readText path
  | none => .ok Bundled.store

def readingOf (folder : Folder) (path : String) : Event := .read path (folder.readText path)

theorem run_loadFile (path : String) (w : World) :
    (Program.loadFile path).run w =
      (Report.loadFile w.folder.readText path, w.record (readingOf w.folder path)) := by
  have hload : Report.loadFile (fun _ => w.folder.readText path) path =
      Report.loadFile w.folder.readText path := rfl
  change (Program.ofResult (Report.loadFile (fun _ => w.folder.readText path) path)).run _ = _
  rw [hload]
  cases Report.loadFile w.folder.readText path <;> rfl

theorem run_loadData (data : Option String) (w : World) :
    (loadData data).run w =
      (dataIn w.folder data,
        ⟨w.folder, w.events ++ data.toList.map (readingOf w.folder)⟩) := by
  cases data with
  | none =>
    rw [Option.toList_none, List.map_nil, List.append_nil]
    rfl
  | some path => exact run_loadFile path w

theorem run_printLines (lines : List String) (w : World) :
    (Program.printLines lines).run w =
      (.ok (), ⟨w.folder, w.events ++ lines.map fun line => .print (line ++ "\n")⟩) := by
  induction lines generalizing w with
  | nil =>
    rw [List.map_nil, List.append_nil]
    rfl
  | cons line lines ih =>
    rw [Program.printLines, run_bind]
    change (Program.printLines lines).run (w.print (line ++ "\n")) = _
    rw [ih, List.map_cons, List.append_cons]
    rfl

/-- How a request for data that cannot be loaded ends. -/
theorem ending_of_unloaded {report : Report} (h : dataIn folder data = .error report)
    (next : Store → Program Exit) :
    (loadData data >>= next).ending folder =
      ⟨.failed, some report, folder, data.toList.map (readingOf folder)⟩ := by
  simp only [Program.ending, run_bind, run_loadData, h, List.nil_append]

theorem ending_render {s : Store} (template : String) (date : Date) (json : Bool)
    (h : dataIn folder data = .ok s) (coloured : Bool) :
    ((Request.render template date data json).program coloured).ending folder =
      ⟨.ok, none, folder, data.toList.map (readingOf folder) ++
        [.print (renderText { store := s } date template json ++ "\n")]⟩ := by
  simp only [Program.ending, Request.program, run_bind, run_loadData, h, List.nil_append]
  rfl

/-- How an export of loaded data ends. -/
theorem ending_save {s : Store} (path : String) (h : dataIn folder data = .ok s) (coloured : Bool) :
    (∃ cause, folder.writeText path s.fileText = .error cause ∧
      ((Request.save path data).program coloured).ending folder =
        ⟨.failed, some (Program.exportFailure path cause), folder,
          data.toList.map (readingOf folder) ++ [.write path s.fileText (.error cause)]⟩) ∨
    ∃ folder', folder.writeText path s.fileText = .ok folder' ∧
      ((Request.save path data).program coloured).ending folder =
        ⟨.ok, none, folder',
          data.toList.map (readingOf folder) ++ [.write path s.fileText (.ok ())]⟩ := by
  simp only [Program.ending, Request.program, run_bind, run_loadData, h, List.nil_append,
    Program.saveStore, Program.run, World.write]
  cases folder.writeText path s.fileText with
  | error cause => exact .inl ⟨cause, rfl, rfl⟩
  | ok folder' => exact .inr ⟨folder', rfl, rfl⟩

/-! ### What a run prints -/

theorem printedOf_append (events events' : List Event) :
    printedOf (events ++ events') = printedOf events ++ printedOf events' := by
  simp [printedOf]

theorem printedOf_readings (folder : Folder) (paths : List String) :
    printedOf (paths.map (readingOf folder)) = "" := by
  refine printedOf_of_quiet fun event hmem => ?_
  obtain ⟨path, -, rfl⟩ := List.mem_map.1 hmem
  exact Event.IsRead.quiet ⟨path, _, rfl⟩

theorem printedOf_prints (texts : List String) :
    printedOf (texts.map Event.print) = String.join texts := by
  rw [printedOf, List.map_map]
  exact congrArg String.join (List.map_id' texts)

/-- A program that prints one line. -/
theorem output_printLine (line : String) (exit : Exit) (folder : Folder) :
    (Program.ending (do Program.printLine line; return exit) folder).output = line ++ "\n" := by
  change printedOf ([line ++ "\n"].map .print) = _
  rw [printedOf_prints, String.join_cons, String.join_nil, String.append_empty]

end

end Almanac.Command
