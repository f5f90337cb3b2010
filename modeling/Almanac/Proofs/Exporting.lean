import Almanac.Proofs.Building
import Almanac.Proofs.Effects
import Almanac.Proofs.Loading

/-! An export writes a canonical form. Whatever is free in a data file, its records alone are left
in the store, and the store alone is written; so what was exported gives the same store again. -/

namespace Almanac

namespace Store
variable {s t : Store} {read : Reader} {path : String} {records others : List Facts}

/-- The text that a store is saved as is loaded as this store. -/
theorem load_fileText (h : read path = .ok s.fileText) : load read path = .ok s := by
  rw [load, h]
  exact parse_text s path (by decide)

/-- Stores of the same records are equal, in whatever order and however often they stand there. -/
theorem eq_of_mem_iff (hs : ofRecords records = .ok s) (ht : ofRecords others = .ok t)
    (h : ∀ facts, facts ∈ records ↔ facts ∈ others) : s = t := by
  have hperm := perm_of_ofRecords hs
  have hperm' := perm_of_ofRecords ht
  refine eq_of_perm ((List.perm_ext_iff_of_nodup s.nodup_keys.of_map t.nodup_keys.of_map).2 ?_)
  intro facts
  rw [hperm.mem_iff, hperm'.mem_iff, h]

end Store

namespace Command
variable {env : Environment} {folder : Folder} {words : List String} {settings : Settings}
  {template : String} {date : Date} {data : Option String} {json : Bool} {s : Store}
  {records : List Facts}

/-- A line that asks for an export, and the folder in which it runs. -/
structure Export where
  env : Environment
  folder : Folder
  words : List String
  settings : Settings
  path : String
  data : Option String
  line : readLine env words = .ok (.run settings (.save path data))

namespace Export
variable {e : Export}

def ending (e : Export) : Ending := execute e.env e.folder e.words

/-- The data file of the export can be loaded, and these are its records as they stand in it. -/
def HasData (e : Export) (records : List Facts) : Prop :=
  ∃ file text, e.data = some file ∧ e.folder.readText file = .ok text ∧
    DataFile.decode text.toList = .ok records ∧ ∃ s, Store.load e.folder.readText file = .ok s

/-- What an export leaves when its data are loaded. -/
theorem ending_cases (hload : dataIn e.folder e.data = .ok s) :
    ((∀ folder', e.folder.writeText e.path s.fileText ≠ .ok folder') ∧
      e.ending.exit.code = 70) ∨
    ∃ folder', e.folder.writeText e.path s.fileText = .ok folder' ∧ e.ending.exit.code = 0 ∧
      e.ending.folder = folder' := by
  rw [ending, execute_run e.line]
  obtain ⟨cause, hwrite, hend⟩ | ⟨folder', hwrite, hend⟩ := ending_save e.path hload _
  · rw [hend]
    exact .inl ⟨by simp [hwrite], rfl⟩
  · rw [hend]
    exact .inr ⟨folder', hwrite, rfl, rfl⟩

/-- Loaded data are exported exactly if the output can be written, which does not depend on them. -/
theorem exit_iff (hload : dataIn e.folder e.data = .ok s) :
    e.ending.exit.code = 0 ↔ ∃ content folder', e.folder.write e.path content = .ok folder' := by
  obtain ⟨hnone, hcode⟩ | ⟨folder', hwrite, hcode, -⟩ := ending_cases hload
  · rw [hcode]
    refine iff_of_false (by decide) ?_
    rintro ⟨content, folder', hwrite⟩
    obtain ⟨folder'', hwrite'⟩ := Folder.write_of_write hwrite s.fileText.toUTF8
    exact hnone folder'' hwrite'
  · exact iff_of_true hcode ⟨_, folder', hwrite⟩

/-- An export that ends well has written the store of its data. -/
theorem written_of_exit (h : e.ending.exit.code = 0) :
    ∃ s, dataIn e.folder e.data = .ok s ∧
      e.folder.writeText e.path s.fileText = .ok e.ending.folder := by
  cases hload : dataIn e.folder e.data with
  | error report =>
    rw [ending, execute_run e.line, Request.program, ending_of_unloaded hload] at h
    cases h
  | ok s =>
    refine ⟨s, rfl, ?_⟩
    obtain ⟨-, hcode⟩ | ⟨folder', hwrite, -, hfolder⟩ := ending_cases hload
    · rw [h] at hcode
      cases hcode
    · rw [hfolder]
      exact hwrite

/-- What was exported is what its path gives to read. -/
theorem read_of_exit (hload : dataIn e.folder e.data = .ok s)
    (h : e.ending.exit.code = 0) :
    e.ending.folder.read e.path = .ok s.fileText.toUTF8 ∧
      dataIn e.ending.folder (some e.path) = .ok s := by
  obtain ⟨t, ht, hwrite⟩ := written_of_exit h
  obtain rfl : s = t := Except.ok.inj (hload.symm.trans ht)
  exact ⟨Folder.read_of_write hwrite,
    Report.loadFile_of_load (Store.load_fileText (Folder.readText_of_writeText hwrite))⟩

theorem loaded_of_hasData (h : e.HasData records) :
    ∃ s, dataIn e.folder e.data = .ok s ∧ Store.ofRecords records = .ok s := by
  obtain ⟨file, text, hdata, hread, hdecode, s, hload⟩ := h
  refine ⟨s, ?_, ?_⟩
  · rw [hdata]
    exact Report.loadFile_of_load hload
  · rw [Store.load, hread] at hload
    simp only [Store.parse, hdecode] at hload
    exact Store.build_eq_ok_iff.1 hload

/-- Data in any layout. -/
theorem hasData_of_text {text : List Char} {file : String} (hdata : e.data = some file)
    (htext : DataFile.IsDataFile records text) (before after : Json.Spaces)
    (hnodup : (records.map Facts.key).Nodup)
    (hread : e.folder.readText file = .ok (String.ofList (before.chars ++ (text ++ after.chars)))) :
    e.HasData records := by
  have hdecode := DataFile.decode_file htext before after
  obtain ⟨s, hs⟩ := Store.ofRecords_isOk_iff.2 hnodup
  refine ⟨file, _, hdata, hread, by rwa [String.toList_ofList], s, ?_⟩
  rw [Store.load, hread]
  simp only [Store.parse, String.toList_ofList, hdecode, Store.build, hs]

end Export

theorem execute_render
    (h : readLine env words = .ok (.run settings (.render template date data json)))
    (hload : dataIn folder data = .ok s) :
    (execute env folder words).exit.code = 0 ∧
      (execute env folder words).output = renderText { store := s } date template json ++ "\n" := by
  rw [execute_run h, ending_render template date json hload]
  refine ⟨rfl, ?_⟩
  rw [Ending.output, printedOf_append, printedOf_readings, String.empty_append]
  simp [printedOf, Event.printed]

/-- Exports of the same records write the same bytes, whatever the layout and the order they stand
in; an export of loaded data fails only where nothing can be written. An exported file is exported
as it is, also over itself, and is rendered as what it was exported from. -/
theorem export_is_canonical :
    (∀ (e e' : Export) (records records' : List Facts), e.HasData records → e'.HasData records' →
      (∀ facts, facts ∈ records ↔ facts ∈ records') →
      e.ending.exit.code = 0 → e'.ending.exit.code = 0 →
      ∃ content, e.ending.folder.read e.path = .ok content ∧
        e'.ending.folder.read e'.path = .ok content) ∧
    (∀ (e : Export) (records : List Facts), e.HasData records →
      (e.ending.exit.code = 0 ↔ ∃ content folder', e.folder.write e.path content = .ok folder')) ∧
    (∀ (e : Export) (file : String) (records : List Facts) (text : List Char)
      (before after : Json.Spaces), e.data = some file → DataFile.IsDataFile records text →
      (records.map Facts.key).Nodup →
      e.folder.readText file = .ok (String.ofList (before.chars ++ (text ++ after.chars))) →
      e.HasData records) ∧
    (∀ e e' : Export, e.ending.exit.code = 0 → e'.folder = e.ending.folder → e'.data = some e.path →
      (e'.path = e.path → e'.ending.exit.code = 0) ∧
      (e'.ending.exit.code = 0 → ∃ content, e.ending.folder.read e.path = .ok content ∧
        e'.ending.folder.read e'.path = .ok content)) ∧
    ∀ (e : Export) (env env' : Environment) (words words' : List String)
      (settings settings' : Settings) (template : String) (date : Date) (json : Bool),
      e.ending.exit.code = 0 →
      readLine env words = .ok (.run settings (.render template date e.data json)) →
      readLine env' words' = .ok (.run settings' (.render template date (some e.path) json)) →
      (execute env e.folder words).exit.code = 0 ∧
        (execute env' e.ending.folder words').exit.code = 0 ∧
        (execute env' e.ending.folder words').output = (execute env e.folder words).output := by
  refine ⟨?_, ?_, ?_, ?_, ?_⟩
  · intro e e' records records' hdata hdata' hsame hexit hexit'
    obtain ⟨s, hload, hs⟩ := Export.loaded_of_hasData hdata
    obtain ⟨t, hload', ht⟩ := Export.loaded_of_hasData hdata'
    obtain rfl := Store.eq_of_mem_iff hs ht hsame
    exact ⟨_, (Export.read_of_exit hload hexit).1, (Export.read_of_exit hload' hexit').1⟩
  · intro e records hdata
    obtain ⟨s, hload, -⟩ := Export.loaded_of_hasData hdata
    exact Export.exit_iff hload
  · intro e file records text before after hdata htext hnodup hread
    exact Export.hasData_of_text hdata htext before after hnodup hread
  · intro e e' hexit hfolder hdata
    obtain ⟨s, hload, hwrite⟩ := Export.written_of_exit hexit
    obtain ⟨hread, hreload⟩ := Export.read_of_exit hload hexit
    rw [← hfolder, ← hdata] at hreload
    refine ⟨fun hpath => ?_, fun hexit' => ⟨_, hread, (Export.read_of_exit hreload hexit').1⟩⟩
    rw [Export.exit_iff hreload, hfolder, hpath]
    exact ⟨_, Folder.rewrite_of_write hwrite ByteArray.empty⟩
  · intro e env env' words words' settings settings' template date json hexit hline hline'
    obtain ⟨s, hload, -⟩ := Export.written_of_exit hexit
    obtain ⟨hcode, houtput⟩ := execute_render hline hload
    obtain ⟨hcode', houtput'⟩ := execute_render hline' (Export.read_of_exit hload hexit).2
    exact ⟨hcode, hcode', houtput'.trans houtput.symm⟩

/-- One day as a list and as an object. -/
theorem export_is_canonical_of_one_day :
    let env : Environment := ⟨none, none, ⟨2024, 3, 31, by decide, by decide, by decide, by decide⟩⟩
    let list := Folder.empty.put ["a"] "[[[\"0501\"]]]".toUTF8
    let object := Folder.empty.put ["a"]
      "\x7b\"dates\":[\x7b\"x\":1,\"date\":\"0501\"\x7d]\x7d".toUTF8
    let line := ["export", "b", "--data", "a"]
    let again := ["export", "b", "--data", "b"]
    let render (file : String) := ["render", "--template", "x", "--data", file]
    ∃ content, (execute env list line).folder.read "b" = .ok content ∧
      (execute env object line).folder.read "b" = .ok content ∧
      (execute env (execute env list line).folder again).folder.read "b" = .ok content ∧
      (execute env (execute env list line).folder (render "b")).output =
        (execute env list (render "a")).output := by
  intro env list object line again render
  have hline : readLine env line = .ok (.run ⟨.auto, false⟩ (.save "b" (some "a"))) := by rfl
  have hagain : readLine env again = .ok (.run ⟨.auto, false⟩ (.save "b" (some "b"))) := by rfl
  have hrender (file : String) (hfile : file = "a" ∨ file = "b") :
      readLine env (render file) =
        .ok (.run ⟨.auto, false⟩ (.render "x" env.today (some file) false)) := by
    rcases hfile with rfl | rfl <;> rfl
  have hread (text : String) : (Folder.empty.put ["a"] text.toUTF8).readText "a" = .ok text := by
    have hbytes : (Folder.empty.put ["a"] text.toUTF8).read "a" = .ok text.toUTF8 := rfl
    simp only [Folder.readText, hbytes, fromUTF8?_toUTF8, bind, Except.bind]
  let sample : Facts := ⟨DataFile.sampleKey, none, none, none⟩
  have hdecode :
      DataFile.decode "\x7b\"dates\":[\x7b\"x\":1,\"date\":\"0501\"\x7d]\x7d".toList =
        .ok [sample] := by rfl
  have hload : ∃ s, Store.load object.readText "a" = .ok s := by
    obtain ⟨s, hs⟩ := Store.ofRecords_isOk_iff.2 (show ([sample].map Facts.key).Nodup by simp)
    refine ⟨s, ?_⟩
    rw [Store.load, hread]
    simp only [Store.parse, hdecode, Store.build, hs]
  have hwritable (content : ByteArray) :
      ∃ content' folder', (Folder.empty.put ["a"] content).write "b" content' = .ok folder' :=
    ⟨content, (Folder.empty.put ["a"] content).put ["b"] content, by rfl⟩
  obtain ⟨hsame, hexit, hlayout, hdone, hprinted⟩ := export_is_canonical
  let e : Export := ⟨env, list, line, ⟨.auto, false⟩, "b", some "a", hline⟩
  let e' : Export := ⟨env, object, line, ⟨.auto, false⟩, "b", some "a", hline⟩
  let e'' : Export := ⟨env, e.ending.folder, again, ⟨.auto, false⟩, "b", some "b", hagain⟩
  have hdata : e.HasData [sample] :=
    hlayout e "a" _ _ .none .none rfl DataFile.isDataFile_sampleKey (by simp) (hread _)
  have hdata' : e'.HasData [sample] := ⟨"a", _, rfl, hread _, hdecode, hload⟩
  have hcode : e.ending.exit.code = 0 := (hexit e _ hdata).2 (hwritable _)
  have hcode' : e'.ending.exit.code = 0 := (hexit e' _ hdata').2 (hwritable _)
  obtain ⟨content, hfirst, hsecond⟩ := hsame e e' _ _ hdata hdata' (by simp) hcode hcode'
  obtain ⟨hinPlace, hthird⟩ := hdone e e'' hcode rfl rfl
  obtain ⟨content', hcontent, hcontent'⟩ := hthird (hinPlace rfl)
  obtain rfl : content = content' := Except.ok.inj (hfirst.symm.trans hcontent)
  obtain ⟨-, -, houtput⟩ := hprinted e env env _ _ _ _ _ _ _ hcode (hrender "a" (.inl rfl))
    (hrender "b" (.inr rfl))
  exact ⟨content, hfirst, hsecond, hcontent', houtput⟩

end Command
end Almanac
