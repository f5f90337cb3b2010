import Almanac.DataFile.Report
import Almanac.Proofs.Files
import Almanac.Proofs.Layouts
import Almanac.Proofs.Marks

/-! A file is loaded alike whether its failures go into a report or are passed on: a report leaves
out nothing that the failure says, and points where line and column say. -/

namespace Almanac

namespace Json
variable {α : Type} {text : List Char} {e : Error}

/-- A text that cannot be read is at fault somewhere. -/
theorem failure_of_readWhole {read : List Char → Except Failure (α × List Char)}
    (h : readWhole read text = .error e) : ∃ f : Failure, e = f.error text := by
  rw [readWhole] at h
  split at h
  next f _ =>
    cases h
    exact ⟨f, rfl⟩
  next =>
    split at h
    next => cases h
    next f _ =>
      cases h
      exact ⟨f, rfl⟩

end Json

namespace Store

/-- Where a text comes from matters to nothing but the name in its failure. -/
theorem parse_cases (path path' text : String) :
    (∃ s, parse path text = .ok s ∧ parse path' text = .ok s) ∨
    (∃ f : Json.Failure, parse path text = .error (.malformed path (f.error text.toList)) ∧
      parse path' text = .error (.malformed path' (f.error text.toList))) ∨
    ∃ key, parse path text = .error (.repeatedDay path key) ∧
      parse path' text = .error (.repeatedDay path' key) := by
  cases hdecode : DataFile.decode text.toList with
  | error error =>
    obtain ⟨f, rfl⟩ := Json.failure_of_readWhole hdecode
    exact .inr (.inl ⟨f, by rw [parse, hdecode], by rw [parse, hdecode]⟩)
  | ok records =>
    cases hrecords : ofRecords records with
    | ok s => exact .inl ⟨s, by simp [parse, hdecode, build, hrecords]⟩
    | error key => exact .inr (.inr ⟨key, by simp [parse, hdecode, build, hrecords]⟩)

theorem decode_of_malformed {path text source : String} {error : Json.Error}
    (h : parse path text = .error (.malformed source error)) :
    DataFile.decode text.toList = .error error := by
  rw [parse] at h
  split at h
  next records _ =>
    rw [build] at h
    split at h <;> cases h
  next error' hdecode =>
    cases h
    exact hdecode

end Store

namespace Report
open Json (byteLength)

theorem loadFile_of_malformed {read : Reader} {path text source : String} {error : Json.Error}
    (hread : read path = .ok text) (h : Store.ofText text = .error (.malformed source error)) :
    loadFile read path = .error (malformed text error) := by
  simp only [loadFile, hread, h, ofLoadError]

/-- What comes of loading a file in both ways. -/
inductive Loads (read : Reader) (path : String) :
    Except LoadError Store → Except Report Store → Prop
  | unreadable {cause : FileError} (hread : read path = .error cause) :
    Loads read path (.error (.unreadable path cause))
      (.error (plain ("Cannot read calendar file " ++ path ++ ": " ++ cause.message)))
  | malformed {text : String} (f : Json.Failure) (hread : read path = .ok text) :
    Loads read path (.error (.malformed path (f.error text.toList)))
      (.error (malformed text (f.error text.toList)))
  | repeatedDay (key : DayKey) :
    Loads read path (.error (.repeatedDay path key))
      (.error (plain (path ++ ": duplicate entry for day " ++ key.text)))
  | loaded (s : Store) : Loads read path (.ok s) (.ok s)

theorem loads (read : Reader) (path : String) :
    Loads read path (Store.load read path) (loadFile read path) := by
  rw [Store.load, loadFile]
  cases hread : read path with
  | error cause => exact .unreadable hread
  | ok text =>
    dsimp only
    rw [Store.ofText]
    obtain ⟨s, hs, hs'⟩ | ⟨f, he, he'⟩ | ⟨key, he, he'⟩ :=
      Store.parse_cases path "<string>" text
    · rw [hs, hs']
      exact .loaded s
    · rw [he, he']
      exact .malformed f hread
    · rw [he, he']
      exact .repeatedDay key

theorem loadFile_of_load {read : Reader} {path : String} {s : Store}
    (h : Store.load read path = .ok s) : loadFile read path = .ok s := by
  have hloads := loads read path
  rw [h] at hloads
  generalize loadFile read path = reported at hloads ⊢
  cases hloads
  rfl

/-- Both ways of loading a file give the same store, or fail for the same reason. Where a text is
malformed, the report marks the byte that line and column say, less the carriage returns in front of
the newlines before it. A file that is no text is not looked at any further, and of two faults in a
text a malformed place comes before a repeated day. -/
theorem loadFile_agrees_with_load :
    (∀ (read : Reader) (path : String),
      (∀ s, loadFile read path = .ok s ↔ Store.load read path = .ok s) ∧
      (∀ source error, Store.load read path = .error (.malformed source error) →
        ∃ text line column before rest mark, read path = .ok text ∧ source = path ∧
          error.position = some ⟨line, column⟩ ∧
          (LoadError.malformed source error).message = path ++ ":" ++ toString line ++ ":" ++
            toString column ++ ": " ++ error.message ∧
          text.toList = Text.ended before ++ rest ∧ (∀ prior ∈ before, '\n' ∉ prior) ∧
          line = before.length + 1 ∧
          mark + Text.returns before + 1 =
            byteLength (Text.ended before) + max column 1 ∧
          loadFile read path = .error ⟨"invalid calendar data: " ++ error.message,
            some "skcal::data", hintFor error.message, [⟨mark, 1, "error here"⟩]⟩) ∧
      (∀ source key, Store.load read path = .error (.repeatedDay source key) →
        source = path ∧
          (LoadError.repeatedDay source key).message =
            path ++ ": duplicate entry for day " ++ key.text ∧
          loadFile read path =
            .error (plain (path ++ ": duplicate entry for day " ++ key.text))) ∧
      ∀ source cause, Store.load read path = .error (.unreadable source cause) →
        source = path ∧ loadFile read path =
          .error (plain ("Cannot read calendar file " ++ path ++ ": " ++ cause.message))) ∧
    ∀ (folder : Folder) (path : String),
      (∀ cause, folder.read path = .error cause →
        Store.load folder.readText path = .error (.unreadable path cause)) ∧
      ∀ content, folder.read path = .ok content →
        (String.fromUTF8? content = none →
          Store.load folder.readText path = .error (.unreadable path .notText)) ∧
        ∀ text, String.fromUTF8? content = some text →
          (∀ error, DataFile.decode text.toList = .error error →
            Store.load folder.readText path = .error (.malformed path error)) ∧
          ∀ records, DataFile.decode text.toList = .ok records →
            (∀ key, Store.ofRecords records = .error key →
              Store.load folder.readText path = .error (.repeatedDay path key)) ∧
            ∀ s, Store.ofRecords records = .ok s → Store.load folder.readText path = .ok s := by
  constructor
  · intro read path
    have hloads := loads read path
    generalize Store.load read path = loaded at hloads ⊢
    generalize loadFile read path = reported at hloads ⊢
    cases hloads with
    | unreadable hread =>
      refine ⟨by simp, ?_, ?_, ?_⟩ <;> intro source detail h <;> cases h
      exact ⟨rfl, rfl⟩
    | @malformed text f hread =>
      refine ⟨by simp, ?_, ?_, ?_⟩ <;> intro source detail h <;> cases h
      obtain ⟨before, rest, hdivides, -, -, hmark⟩ := offsetOf_position f text.toList
      exact ⟨text, _, _, before, rest, _, hread, rfl, rfl, rfl, hdivides.text_eq,
        hdivides.line_ends, hdivides.line_eq, hmark, rfl⟩
    | repeatedDay key =>
      refine ⟨by simp, ?_, ?_, ?_⟩ <;> intro source detail h <;> cases h
      exact ⟨rfl, rfl, rfl⟩
    | loaded s =>
      refine ⟨fun t => by simp, ?_, ?_, ?_⟩ <;> intro source detail h <;> cases h
  · intro folder path
    refine ⟨fun cause hread => ?_, fun content hread => ⟨fun hutf8 => ?_, fun text hutf8 => ?_⟩⟩
    · simp [Store.load, Folder.readText, hread, bind, Except.bind]
    · simp [Store.load, Folder.readText, hread, hutf8, bind, Except.bind]
    · have hload : Store.load folder.readText path = Store.parse path text := by
        simp [Store.load, Folder.readText, hread, hutf8, bind, Except.bind]
      rw [hload]
      refine ⟨fun error herror => ?_, fun records hrecords => ⟨fun key hkey => ?_, fun s hs => ?_⟩⟩
      · rw [Store.parse, herror]
      · simp [Store.parse, hrecords, Store.build, hkey]
      · simp [Store.parse, hrecords, Store.build, hs]

/-- A good file, a malformed one with a pair as line end, one with a day twice, a folder, and one
that is missing or no text. -/
theorem loadFile_agrees_with_load_on_faults :
    loadFile (fun _ => .ok "[[]]") "a" = .ok .empty ∧
    (∃ error, error.position = some ⟨2, 2⟩ ∧
      Store.load (fun _ => .ok "[\r\n x") "a" = .error (.malformed "a" error) ∧
      (LoadError.malformed "a" error).message = "a:2:2: expected value at line 2 column 2" ∧
      loadFile (fun _ => .ok "[\r\n x") "a" =
        .error ⟨"invalid calendar data: expected value at line 2 column 2", some "skcal::data",
          none, [⟨3, 1, "error here"⟩]⟩) ∧
    loadFile (fun _ => .ok "[[[\"0101\"],[\"0101\"]]]") "a" =
      .error (plain "a: duplicate entry for day 0101") ∧
    loadFile (fun _ => .error .isFolder) "a" =
      .error (plain "Cannot read calendar file a: Is a directory (os error 21)") ∧
    Store.load Folder.empty.readText "a" = .error (.unreadable "a" .notFound) ∧
    Store.load (Folder.empty.put ["a"] ⟨#[0xff]⟩).readText "a" = .error (.unreadable "a" .notText) ∧
    (∃ error, Store.load (Folder.empty.put ["a"] "x".toUTF8).readText "a" =
      .error (.malformed "a" error)) ∧
    (∃ key, Store.load (Folder.empty.put ["a"] "[[[\"0101\"],[\"0101\"]]]".toUTF8).readText "a" =
      .error (.repeatedDay "a" key)) ∧
    Store.load (Folder.empty.put ["a"] "[[]]".toUTF8).readText "a" = .ok .empty := by
  obtain ⟨hread, hfolder⟩ := loadFile_agrees_with_load
  have hempty : Store.load (fun _ => .ok "[[]]") "a" = .ok .empty := by rfl
  have htwice : Store.load (fun _ => .ok "[[[\"0101\"],[\"0101\"]]]") "a" =
      .error (.repeatedDay "a" ⟨1, 1, by decide, by decide⟩) := by rfl
  let fault := (Json.Failure.within .expectedValue ['x']).error "[\r\n x".toList
  have hfault : Store.load (fun _ => .ok "[\r\n x") "a" = .error (.malformed "a" fault) := by rfl
  have hplace : fault.position = some ⟨2, 2⟩ := by rfl
  have hmessage : fault.message = "expected value at line 2 column 2" := by rfl
  have hmalformed : ∃ error, DataFile.decode "x".toList = .error error := ⟨_, rfl⟩
  have htext (text : String) :=
    ((hfolder (Folder.empty.put ["a"] text.toUTF8) "a").2 _ rfl).2 text (fromUTF8?_toUTF8 text)
  refine ⟨((hread _ "a").1 _).2 hempty, ⟨fault, hplace, hfault, ?_⟩,
    ((hread _ "a").2.2.1 _ _ htwice).2.2,
    ((hread (fun _ => .error .isFolder) "a").2.2.2 _ _ rfl).2, (hfolder _ "a").1 _ rfl,
    ((hfolder _ "a").2 _ rfl).1 rfl, ?_, ?_, ?_⟩
  · obtain ⟨text, line, column, before, rest, mark, hgiven, -, hposition, htold, hlines, hends,
      hline, hmark, hreport⟩ := (hread _ "a").2.1 _ _ hfault
    cases hgiven
    cases hplace.symm.trans hposition
    have hdivides : (Json.Position.mk 2 2).Divides "[\r\n x".toList before rest :=
      ⟨hlines, hends, hline⟩
    have hbytes : countedBytes ⟨2, 2⟩ "[\r\n x".toList = 3 := by rfl
    obtain rfl : mark = 3 := by
      have hcounted := countedBytes_add hdivides
      dsimp only at hcounted
      omega
    rw [hmessage] at htold hreport
    exact ⟨htold, hreport⟩
  · obtain ⟨error, herror⟩ := hmalformed
    exact ⟨error, (htext "x").1 error herror⟩
  · let newYear : DayKey := ⟨1, 1, by decide, by decide⟩
    let facts : Facts := ⟨newYear, none, none, none⟩
    have hrecords := (htext "[[[\"0101\"],[\"0101\"]]]").2 [facts, facts] (by rfl)
    exact ⟨newYear, hrecords.1 newYear (by rfl)⟩
  · exact ((htext "[[]]").2 [] (by rfl)).2 _ (by rfl)

/-- The mark of a malformed text stands at the byte that line and column say, early by one byte for
each line before it that ends in a carriage return and a newline. It is never moved to the end. -/
theorem mark_of_malformed (read : Reader) (path text source : String) (error : Json.Error)
    (hread : read path = .ok text) (h : Store.ofText text = .error (.malformed source error)) :
    ∃ position before rest mark, error.position = some position ∧
      position.Divides text.toList before rest ∧
      byteLength (Text.ended before) + position.column ≤ byteLength text.toList ∧
      loadFile read path = .error ⟨"invalid calendar data: " ++ error.message, some "skcal::data",
        hintFor error.message, [⟨mark, 1, "error here"⟩]⟩ ∧
      mark = countedBytes position text.toList ∧
      mark + Text.returns before + 1 = byteLength (Text.ended before) + max position.column 1 ∧
      (mark + 1 = byteLength (Text.ended before) + max position.column 1 ↔
        ¬ ['\r', '\n'] <:+: Text.ended before) := by
  obtain ⟨f, rfl⟩ := Json.failure_of_readWhole (Store.decode_of_malformed h)
  obtain ⟨before, rest, hdivides, hwithin, hmark, hcounted⟩ := offsetOf_position f text.toList
  refine ⟨f.position text.toList, before, rest, offsetOf (f.position text.toList) text.toList,
    rfl, hdivides, hwithin, ?_, hmark, hcounted, ?_⟩
  · rw [loadFile_of_malformed hread h]
    rfl
  · rw [← Text.returns_eq_zero_iff hdivides.line_ends]
    omega

/-- Two of the three line ends before the fault are pairs: it is at the byte 8 of the text, and its
mark at the byte 6. -/
theorem mark_of_malformed_behind_returns :
    ∃ error, error.position = some ⟨4, 1⟩ ∧
      Store.ofText "[\n\r\n  \r\nx" = .error (.malformed "<string>" error) ∧
      loadFile (fun _ => .ok "[\n\r\n  \r\nx") "a" =
        .error ⟨"invalid calendar data: " ++ error.message, some "skcal::data",
          hintFor error.message, [⟨6, 1, "error here"⟩]⟩ := by
  let error := (Json.Failure.within .expectedValue ['x']).error "[\n\r\n  \r\nx".toList
  have hfault : Store.ofText "[\n\r\n  \r\nx" = .error (.malformed "<string>" error) := by rfl
  obtain ⟨position, before, rest, mark, hposition, -, -, hload, hmark, -⟩ :=
    mark_of_malformed (fun _ => .ok "[\n\r\n  \r\nx") "a" _ _ error rfl hfault
  obtain rfl := Option.some.inj hposition
  subst hmark
  exact ⟨error, rfl, hfault, hload⟩

end Report
end Almanac
