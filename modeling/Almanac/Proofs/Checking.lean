import Almanac.Proofs.Effects
import Almanac.Proofs.Invocations
import Almanac.Proofs.Stores
import Almanac.Proofs.Written

/-! Checking data files is all or nothing. If one of them cannot be used, the first of these is
reported and nothing is printed; else every file is counted, and lacking days are looked for in the
counts alone. -/

namespace Almanac.Command

variable {read : Reader} {paths : List String} {path : String} {report : Report}
  {counts : List Count} {folder : Folder} {coloured json : Bool}

/-- The count is that of the store in a file: of all its records, and of those with something
written in a field. -/
def CountOf (read : Reader) (path : String) (c : Count) : Prop :=
  ∃ s, Report.loadFile read path = .ok s ∧ c.path = path ∧ c.days = s.records.length ∧
    c.names = (s.records.filter fun facts => facts.names.getD "" ≠ "").length ∧
    c.holidays = (s.records.filter fun facts => facts.holiday.getD "" ≠ "").length ∧
    c.worldDays = (s.records.filter fun facts => facts.worldDay.getD "" ≠ "").length

theorem isSome_present (written : Option String) :
    (Facts.present written).isSome = decide (written.getD "" ≠ "") := by
  cases written with
  | none => rfl
  | some text => by_cases h : text = "" <;> simp [Facts.present, h]

theorem countOf_ofStore {s : Store} (h : Report.loadFile read path = .ok s) :
    CountOf read path (.ofStore path s) := by
  refine ⟨s, h, rfl, s.records_length.symm, ?_, ?_, ?_⟩
  all_goals
    rw [← List.countP_eq_length_filter]
    exact List.countP_congr fun facts _ => by rw [← isSome_present]; rfl

theorem countOf_unique {c c' : Count} (h : CountOf read path c) (h' : CountOf read path c') :
    c = c' := by
  obtain ⟨s, hs, hpath, hdays, hnames, hholidays, hworldDays⟩ := h
  obtain ⟨s', hs', hpath', hdays', hnames', hholidays', hworldDays'⟩ := h'
  obtain rfl : s = s' := Except.ok.inj (hs.symm.trans hs')
  cases c
  cases c'
  simp_all

/-- The files settle the counts. -/
theorem counts_unique {others : List Count} (h : List.Forall₂ (CountOf read) paths counts)
    (h' : List.Forall₂ (CountOf read) paths others) : counts = others := by
  have hunique : Relator.RightUnique (CountOf read) := fun _ _ _ hc hc' => countOf_unique hc hc'
  exact List.right_unique_forall₂' hunique h h'

/-- Either all files are counted, or the reading stops at the first that cannot be used. -/
theorem run_countAll (paths : List String) (w : World) :
    (∃ counts, List.Forall₂ (CountOf w.folder.readText) paths counts ∧
      (countAll paths).run w =
        (.ok counts, ⟨w.folder, w.events ++ paths.map (readingOf w.folder)⟩)) ∨
    ∃ before path after report, paths = before ++ path :: after ∧
      (∀ earlier ∈ before, ∃ s, Report.loadFile w.folder.readText earlier = .ok s) ∧
      Report.loadFile w.folder.readText path = .error report ∧
      (countAll paths).run w =
        (.error report, ⟨w.folder, w.events ++ (before ++ [path]).map (readingOf w.folder)⟩) := by
  induction paths generalizing w with
  | nil => exact .inl ⟨[], .nil, by simp [countAll, pure, Program.run]⟩
  | cons path paths ih =>
    rw [countAll, run_bind, run_loadFile]
    cases hload : Report.loadFile w.folder.readText path with
    | error report => exact .inr ⟨[], path, paths, report, rfl, by simp, hload, rfl⟩
    | ok s =>
      dsimp only
      rw [run_bind]
      obtain ⟨counts, hcounts, hrun⟩ | ⟨before, path', after, report, rfl, hbefore, herror, hrun⟩ :=
        ih (w.record (readingOf w.folder path))
      · refine .inl ⟨.ofStore path s :: counts, .cons (countOf_ofStore hload) hcounts, ?_⟩
        rw [hrun]
        simp [World.record, pure, Program.run]
      · refine .inr ⟨path :: before, path', after, report, rfl, ?_, herror, ?_⟩
        · exact List.forall_mem_cons.2 ⟨⟨s, hload⟩, hbefore⟩
        · rw [hrun]
          simp [World.record]

/-- Only one file is the first that cannot be used. -/
theorem first_unusable_unique {before before' after after' : List String} {path' : String}
    {report' : Report} (heq : before ++ path :: after = before' ++ path' :: after')
    (hbefore : ∀ earlier ∈ before, ∃ s, Report.loadFile read earlier = .ok s)
    (herror : Report.loadFile read path = .error report)
    (hbefore' : ∀ earlier ∈ before', ∃ s, Report.loadFile read earlier = .ok s)
    (herror' : Report.loadFile read path' = .error report') : before = before' ∧ path = path' := by
  induction before generalizing before' with
  | nil =>
    cases before' with
    | nil => exact ⟨rfl, (List.cons.inj heq).1⟩
    | cons head before' =>
      obtain ⟨s, hs⟩ := hbefore' head List.mem_cons_self
      obtain ⟨rfl, -⟩ := List.cons.inj heq
      cases hs.symm.trans herror
  | cons head before ih =>
    obtain ⟨⟨s, hs⟩, htail⟩ := List.forall_mem_cons.1 hbefore
    cases before' with
    | nil =>
      obtain ⟨rfl, -⟩ := List.cons.inj heq
      cases hs.symm.trans herror'
    | cons head' before' =>
      obtain ⟨rfl, hrest⟩ := List.cons.inj heq
      obtain ⟨rfl, rfl⟩ := ih hrest htail (List.forall_mem_cons.1 hbefore').2
      exact ⟨rfl, rfl⟩

theorem loads_of_countOf (h : List.Forall₂ (CountOf read) paths counts) :
    ∀ path ∈ paths, ∃ s, Report.loadFile read path = .ok s := by
  have hboth : List.Forall₂ (fun path c => (∃ s, Report.loadFile read path = .ok s) ∧
      CountOf read path c) paths counts := by
    refine h.imp fun path c hcount => ⟨?_, hcount⟩
    obtain ⟨s, hload, -⟩ := hcount
    exact ⟨s, hload⟩
  exact ((List.forall₂_and_left paths counts).1 hboth).1

theorem incomplete_iff (h : List.Forall₂ (CountOf read) paths counts) :
    counts.all Count.isComplete = false ↔
      ∃ path ∈ paths, ∃ s key, Report.loadFile read path = .ok s ∧ s.lookup key = none := by
  induction h with
  | nil => simp
  | @cons path c paths counts hcount _ ih =>
    obtain ⟨s, hload, -, hdays, -⟩ := hcount
    have hfull : c.isComplete = true ↔ ∀ key, s.lookup key ≠ none := by
      rw [← s.full_iff, Count.isComplete, hdays, s.records_length, decide_eq_true_eq,
        Count.fullYear]
    have hlacks : c.isComplete = false ↔ ∃ s key, Report.loadFile read path = .ok s ∧
        s.lookup key = none := by
      rw [← Bool.not_eq_true, hfull]
      simp [hload]
    simp only [List.all_cons, Bool.and_eq_false_iff, ih, hlacks, List.exists_mem_cons_iff]

/-! ### What is printed -/

/-- The word that stands in front of the line on a file, and its codes for green. -/
def shownMark (coloured : Bool) : String := if coloured then "\x1b[32mok\x1b[39m" else "ok"

/-- The line on a file. -/
def shownLine (coloured : Bool) (c : Count) : String :=
  String.join [shownMark coloured, " ", c.path, ": ", toString c.days, " days, ",
    toString c.names, " with name-days, ", toString c.holidays, " holidays, ",
    toString c.worldDays, " world days\n"]

/-- The object on a file. Its path stands in it as it is written in the format. -/
def shownObject (path : String) (c : Count) : String :=
  String.join ["\x7b\n    \"file\": ", path, ",\n    \"days\": ", toString c.days,
    ",\n    \"namedays\": ", toString c.names, ",\n    \"holidays\": ", toString c.holidays,
    ",\n    \"world_days\": ", toString c.worldDays, "\n  \x7d"]

def shownList (paths : List String) (counts : List Count) : String :=
  String.join ["[\n  ", ",\n  ".intercalate (List.zipWith shownObject paths counts), "\n]\n"]

/-- What is printed of counts: a line for each, or one list of objects. -/
inductive Shown (coloured : Bool) (counts : List Count) : Bool → List String → Prop
  | lines : Shown coloured counts false (counts.map (shownLine coloured))
  | list (paths : List String)
    (h : List.Forall₂ (fun path c => Json.IsText c.path path.toList) paths counts) :
    Shown coloured counts true [shownList paths counts]

theorem line_eq (coloured : Bool) (c : Count) :
    c.line coloured ++ "\n" = shownLine coloured c := by
  have hmark : Style.green.apply coloured "ok" = shownMark coloured := by cases coloured <;> rfl
  rw [← String.toList_inj, shownLine, String.toList_join, Count.line, hmark]
  simp

theorem layOutObject_members (c : Count) :
    Json.layOutObject 2 c.members =
      (shownObject (String.ofList (Json.writeText c.path)) c).toList := by
  have hfile : Json.writeText "file" = ['"', 'f', 'i', 'l', 'e', '"'] := by decide
  have hdays : Json.writeText "days" = ['"', 'd', 'a', 'y', 's', '"'] := by decide
  have hnames : Json.writeText "namedays" = ['"', 'n', 'a', 'm', 'e', 'd', 'a', 'y', 's', '"'] := by
    decide
  have hholidays : Json.writeText "holidays" =
      ['"', 'h', 'o', 'l', 'i', 'd', 'a', 'y', 's', '"'] := by decide
  have hworldDays : Json.writeText "world_days" =
      ['"', 'w', 'o', 'r', 'l', 'd', '_', 'd', 'a', 'y', 's', '"'] := by decide
  rw [shownObject, String.toList_join]
  simp only [Json.layOutObject, Json.layOut, Count.members, List.map_cons, List.map_nil,
    Json.writeMember, Json.Scalar.write, hfile, hdays, hnames, hholidays, hworldDays,
    List.intercalate_cons_cons, List.intercalate_singleton, List.flatMap_cons, List.flatMap_nil,
    Decimal.toList_natText, Decimal.digits, String.toList_ofList, Json.newline, List.replicate]
  simp

theorem listing_members (h : counts ≠ []) :
    listing (counts.map Count.members) ++ "\n" =
      shownList (counts.map fun c => String.ofList (Json.writeText c.path)) counts := by
  have hobjects : (counts.map Count.members).map (Json.layOutObject 2) =
      (List.zipWith shownObject (counts.map fun c => String.ofList (Json.writeText c.path))
        counts).map String.toList := by
    rw [List.zipWith_map_left, List.zipWith_self, List.map_map, List.map_map]
    exact List.map_congr_left fun c _ => layOutObject_members c
  have hlayout (items : List (List Char)) (hne : items ≠ []) :
      Json.layOut '[' ']' 0 items =
        ['[', '\n', ' ', ' '] ++ [',', '\n', ' ', ' '].intercalate items ++ ['\n', ']'] := by
    cases items with
    | nil => exact absurd rfl hne
    | cons item items => simp [Json.layOut, Json.newline]
  rw [← String.toList_inj, shownList, String.toList_join, String.toList_append, listing,
    String.toList_ofList, Json.layOutObjects, hobjects, hlayout _ (by simpa using h)]
  simp [String.toList_intercalate]

theorem shown_checkLines (h : counts ≠ []) :
    Shown coloured counts json ((checkLines coloured json counts).map (· ++ "\n")) := by
  cases json with
  | false =>
    have hlines : (checkLines coloured false counts).map (· ++ "\n") =
        counts.map (shownLine coloured) := by
      rw [checkLines, if_neg Bool.false_ne_true, List.map_map]
      exact List.map_congr_left fun c _ => line_eq coloured c
    rw [hlines]
    exact .lines
  | true =>
    rw [checkLines, if_pos rfl, List.map_singleton, listing_members h]
    refine .list _ ?_
    rw [List.forall₂_map_left_iff, List.forall₂_same]
    intro c _
    rw [String.toList_ofList]
    exact Json.isText_writeText c.path

/-! ### The check -/

/-- How a check ends. -/
theorem ending_check (hne : paths ≠ []) (folder : Folder) (coloured json : Bool) :
    (∃ counts texts, List.Forall₂ (CountOf folder.readText) paths counts ∧
      Shown coloured counts json texts ∧ ∀ strict,
        ((Request.check paths strict json).program coloured).ending folder =
          ⟨if strict ∧ counts.all Count.isComplete = false then .incomplete else .ok, none, folder,
            paths.map (readingOf folder) ++ texts.map .print⟩) ∨
    ∃ before path after report, paths = before ++ path :: after ∧
      (∀ earlier ∈ before, ∃ s, Report.loadFile folder.readText earlier = .ok s) ∧
      Report.loadFile folder.readText path = .error report ∧ ∀ strict,
        ((Request.check paths strict json).program coloured).ending folder =
          ⟨.failed, some report, folder, (before ++ [path]).map (readingOf folder)⟩ := by
  obtain ⟨counts, hcounts, hrun⟩ | ⟨before, path, after, report, hpaths, hbefore, herror, hrun⟩ :=
    run_countAll paths ⟨folder, []⟩
  · have hcountsNe : counts ≠ [] := by
      rintro rfl
      exact hne (List.eq_nil_of_length_eq_zero hcounts.length_eq)
    refine .inl ⟨counts, _, hcounts, shown_checkLines hcountsNe, fun strict => ?_⟩
    simp only [Program.ending, Request.program, run_bind, hrun, run_printLines, List.map_map,
      List.nil_append, Bool.not_eq_true]
    rfl
  · refine .inr ⟨before, path, after, report, hpaths, hbefore, herror, fun strict => ?_⟩
    simp only [Program.ending, Request.program, run_bind, hrun, List.nil_append]

/-- If a file cannot be used, a check reports the first such, reads no further and prints nothing.
Else it reads all files and then prints what is in each, in order, the same whether it is strict or
not. A strict one tells by its exit that a file lacks a day. -/
theorem check_all_or_nothing :
    (∀ (folder : Folder) (paths : List String) (coloured json : Bool), paths ≠ [] →
      let load := Report.loadFile folder.readText
      let ending strict := ((Request.check paths strict json).program coloured).ending folder
      ((∃ path ∈ paths, ∃ report, load path = .error report) →
        ∃ before path after report, paths = before ++ path :: after ∧
          (∀ earlier ∈ before, ∃ s, load earlier = .ok s) ∧ load path = .error report ∧
          ∀ strict, (ending strict).failure = some report ∧ (ending strict).exit.code = 70 ∧
            (ending strict).output = "" ∧ (ending strict).folder = folder ∧
            (ending strict).events =
              (before ++ [path]).map fun path => .read path (folder.readText path)) ∧
      ((∀ path ∈ paths, ∃ s, load path = .ok s) →
        ∃ counts texts, List.Forall₂ (CountOf folder.readText) paths counts ∧
          Shown coloured counts json texts ∧
          ∀ strict, (ending strict).failure = none ∧ (ending strict).folder = folder ∧
            (ending strict).output = String.join texts ∧
            (ending strict).events =
              paths.map (fun path => .read path (folder.readText path)) ++ texts.map .print ∧
            ((ending strict).exit.code = 65 ↔ strict = true ∧ ∃ path ∈ paths, ∃ s key,
              load path = .ok s ∧ s.lookup key = none) ∧
            ((ending strict).exit.code = 0 ↔ (ending strict).exit.code ≠ 65))) ∧
    (∀ env folder words settings paths strict json,
      readLine env words = .ok (.run settings (.check paths strict json)) →
      paths ≠ [] ∧ execute env folder words =
        ((Request.check paths strict json).program (settings.colour.inUse env.screen)).ending
          folder) ∧
    (∀ env paths strict json, paths ≠ [] → (∀ path ∈ paths, path ≠ "") →
      readLine env ("check" :: checkWords paths strict json) =
        .ok (.run ⟨.auto, false⟩ (.check paths strict json))) := by
  refine ⟨fun folder paths coloured json hne => ?_, fun env folder words settings paths strict
    json hline => ⟨paths_ne_nil_of_readLine hline, execute_run hline folder⟩,
    fun env paths strict json hne h => readLine_checkWords env strict json hne h⟩
  intro load ending
  obtain ⟨counts, texts, hcounts, hshown, hend⟩ |
    ⟨before, path, after, report, rfl, hbefore, herror, hend⟩ :=
    ending_check hne folder coloured json
  · have houtput : printedOf (paths.map (readingOf folder) ++ texts.map .print) =
        String.join texts := by
      rw [printedOf_append, printedOf_readings, printedOf_prints, String.empty_append]
    refine ⟨fun ⟨path, hmem, report, herror⟩ => ?_, fun _ => ⟨counts, texts, hcounts, hshown,
      fun strict => ?_⟩⟩
    · obtain ⟨s, hs⟩ := loads_of_countOf hcounts path hmem
      cases hs.symm.trans herror
    · rw [show ending strict = _ from hend strict, ← incomplete_iff hcounts]
      refine ⟨rfl, rfl, houtput, rfl, ?_⟩
      by_cases hlacks : strict = true ∧ counts.all Count.isComplete = false
      · rw [if_pos hlacks]
        exact ⟨iff_of_true rfl hlacks, iff_of_false (by simp [Exit.code]) (· rfl)⟩
      · rw [if_neg hlacks]
        exact ⟨iff_of_false (by simp [Exit.code]) hlacks, iff_of_true rfl (by simp [Exit.code])⟩
  · refine ⟨fun _ => ⟨before, path, after, report, rfl, hbefore, herror, fun strict => ?_⟩,
      fun hall => ?_⟩
    · rw [show ending strict = _ from hend strict]
      exact ⟨rfl, rfl, printedOf_readings folder _, rfl, rfl⟩
    · obtain ⟨s, hs⟩ := hall path (by simp)
      cases hs.symm.trans herror

/-- A file with two days, one that is malformed, and one that is not there. -/
theorem check_of_three_files :
    let folder := (Folder.empty.put ["a"]
      "[[[\"0101\",\"Anna\",\"\"],[\"0229\",null,\"x\",\"y\"]]]".toUTF8).put ["b"] "x".toUTF8
    let check paths strict json := ((Request.check paths strict json).program false).ending folder
    let env : Environment := ⟨none, none, ⟨2024, 3, 31, by decide, by decide, by decide, by decide⟩⟩
    (∃ report, ∀ strict, (check ["a", "b", "c"] strict true).failure = some report ∧
      (check ["a", "b", "c"] strict true).output = "" ∧
      (check ["a", "b", "c"] strict true).events =
        [.read "a" (folder.readText "a"), .read "b" (.ok "x")]) ∧
    (∀ strict, (check ["a", "a"] strict false).output =
      "ok a: 2 days, 1 with name-days, 1 holidays, 1 world days\n" ++
        "ok a: 2 days, 1 with name-days, 1 holidays, 1 world days\n") ∧
    (check ["a", "a"] true false).exit.code = 65 ∧ (check ["a", "a"] false false).exit.code = 0 ∧
    (check ["a"] true true).output =
      "[\n  \x7b\n    \"file\": \"a\",\n    \"days\": 2,\n    \"namedays\": 1,\n" ++
        "    \"holidays\": 1,\n    \"world_days\": 1\n  \x7d\n]\n" ∧
    readLine env ("check" :: checkWords ["-a", "b"] true true) =
      .ok (.run ⟨.auto, false⟩ (.check ["-a", "b"] true true)) := by
  intro folder check env
  obtain ⟨hcheck, -, hlines⟩ := check_all_or_nothing
  let anna : Facts := ⟨⟨1, 1, by decide, by decide⟩, some "Anna", some "", none⟩
  let other : Facts := ⟨⟨2, 29, by decide, by decide⟩, none, some "x", some "y"⟩
  let store := (Store.empty.insert anna).insert other
  have hload : Report.loadFile folder.readText "a" = .ok store := by rfl
  have hread : folder.readText "b" = .ok "x" := by rfl
  have hfail : ∃ report, Report.loadFile folder.readText "b" = .error report := ⟨_, rfl⟩
  have hall : ∀ path ∈ ["a", "a"], ∃ s, Report.loadFile folder.readText path = .ok s := by
    simp [hload]
  obtain ⟨counts, texts, hcounts, hshown, hend⟩ :=
    (hcheck folder ["a", "a"] false false (by simp)).2 hall
  refine ⟨?_, fun strict => ?_, ?_, ?_, ?_, hlines env ["-a", "b"] true true (by simp) (by simp)⟩
  · obtain ⟨before, path, after, report, hpaths, hbefore, herror, hreport⟩ :=
      (hcheck folder ["a", "b", "c"] false true (by simp)).1 ⟨"b", by simp, hfail⟩
    obtain ⟨report', herror'⟩ := hfail
    obtain ⟨rfl, rfl⟩ : ["a"] = before ∧ "b" = path :=
      first_unusable_unique hpaths (by simp [hload]) herror' hbefore herror
    refine ⟨report, fun strict => ⟨(hreport strict).1, (hreport strict).2.2.1, ?_⟩⟩
    rw [(hreport strict).2.2.2.2]
    simp [hread]
  · rw [(hend strict).2.2.1]
    have hcount : CountOf folder.readText "a" ⟨"a", 2, 1, 1, 1⟩ := countOf_ofStore hload
    obtain rfl := counts_unique hcounts (.cons hcount (.cons hcount .nil))
    cases hshown
    rw [← String.toList_inj]
    decide +kernel
  · exact (hend true).2.2.2.2.1.2
      ⟨rfl, "a", by simp, store, ⟨1, 2, by decide, by decide⟩, hload, rfl⟩
  · refine (hend false).2.2.2.2.2.2 fun hcode => ?_
    cases ((hend false).2.2.2.2.1.1 hcode).1
  · have hrun : (countAll ["a"]).run ⟨folder, []⟩ =
        (.ok [.ofStore "a" store], ⟨folder, [readingOf folder "a"]⟩) := by
      simp only [countAll, run_bind, run_loadFile, hload]
      rfl
    simp only [check, Program.ending, Request.program, run_bind, hrun, run_printLines]
    rw [← String.toList_inj]
    decide +kernel

end Almanac.Command
