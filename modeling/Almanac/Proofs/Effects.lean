import Almanac.Proofs.Files
import Almanac.Proofs.RoundTrip
import Almanac.Proofs.Runs

/-! What a command line leaves behind. A failure leaves nothing; of all requests only that for an
export writes, one file, after its data were loaded. -/

namespace Almanac.Command
variable {env : Environment} {folder : Folder} {words : List String} {settings : Settings}
  {request : Request} {coloured : Bool} {path : String} {data : Option String} {s : Store}
  {report : Report}

/-- What a request may do. All is read before anything is printed or written; only an export writes,
its data in its file, and it does nothing after that. Who fails has done nothing. -/
def Request.law (request : Request) : Law Exit where
  next past
    | .read _ _ => ∀ event ∈ past, event.IsRead
    | .print _ => ∀ path data, request ≠ .save path data
    | .write target text _ => (∀ event ∈ past, event.IsRead) ∧
      ∃ data s, request = .save target data ∧ Provided past data s ∧ text = s.fileText
  fail past := ∀ event ∈ past, event.Quiet
  done _ exit := exit = .ok ∨ exit = .incomplete

theorem obeys_printLines (lines : List String) {exit : Exit} {past : List Event}
    (hexit : exit = .ok ∨ exit = .incomplete) (hrequest : ∀ path data, request ≠ .save path data) :
    (Program.printLines lines >>= fun _ => pure exit).Obeys request.law past := by
  induction lines generalizing past with
  | nil => exact hexit
  | cons line lines ih => exact ⟨hrequest, ih⟩

/-- Whatever a request loads, it obeys its law if it does so from there on. -/
theorem obeys_of_loading {α : Type} {load : Program α} {known : List Event → α → Prop}
    {next : α → Program Exit} (h : load.Obeys (.reading known) [])
    (hnext : ∀ past result, (∀ event ∈ past, event.IsRead) → known past result →
      (next result).Obeys request.law past) :
    (load >>= next).Obeys request.law [] := by
  refine obeys_bind h ?_ ?_ fun past result hdone => hnext past result hdone.1 hdone.2
  · rintro past event ⟨⟨path, answer, rfl⟩, hpast⟩
    exact hpast
  · exact fun past hpast event hmem => (hpast event hmem).quiet

theorem obeys_saveStore {past : List Event} (hpast : ∀ event ∈ past, event.IsRead)
    (hs : Provided past data s) :
    (Program.saveStore path s >>= fun _ => pure Exit.ok).Obeys (Request.save path data).law
      past := by
  intro answer
  refine ⟨⟨hpast, data, s, rfl, hs, rfl⟩, ?_⟩
  cases answer with
  | ok _ => exact .inl rfl
  | error cause =>
    refine List.forall_mem_append.2 ⟨fun event hmem => (hpast event hmem).quiet, ?_⟩
    rw [List.forall_mem_singleton]
    exact ⟨by simp [Event.Changes], by simp⟩

theorem obeys_law (coloured : Bool) (request : Request) :
    (request.program coloured).Obeys request.law [] := by
  have hnothing : ∀ event ∈ ([] : List Event), event.IsRead := List.forall_mem_nil _
  cases request with
  | render template date data json =>
    refine obeys_of_loading (obeys_loadData data hnothing) fun past s _ _ => ?_
    exact obeys_printLines [_] (.inl rfl) (by simp)
  | easter year json =>
    rw [Request.program]
    split
    · exact List.forall_mem_nil _
    · exact obeys_printLines [_] (.inl rfl) (by simp)
  | check paths strict json =>
    refine obeys_of_loading (obeys_countAll paths hnothing) fun past counts _ _ => ?_
    refine obeys_printLines _ ?_ (by simp)
    split
    · exact .inr rfl
    · exact .inl rfl
  | save path data =>
    exact obeys_of_loading (obeys_loadData data hnothing) fun past s hpast hs =>
      obeys_saveStore hpast hs

/-- Nothing follows what an export writes. -/
theorem not_next_of_write {past : List Event} {text : String} {answer : Except FileError Unit}
    {event : Event} :
    ¬ (Request.save path data).law.next (past ++ [.write path text answer]) event := by
  have hwrite : ¬ ∀ earlier ∈ past ++ [.write path text answer], earlier.IsRead := fun hread => by
    obtain ⟨_, _, heq⟩ := hread (.write path text answer) (by simp)
    cases heq
  intro h
  cases event with
  | read => exact hwrite h
  | print => exact h path data rfl
  | write => exact hwrite h.1

theorem execute_run (h : readLine env words = .ok (.run settings request)) (folder : Folder) :
    execute env folder words =
      (request.program (settings.colour.inUse env.screen)).ending folder := by
  simp only [execute, h, Invocation.program]

/-- How a program that obeys a law ends. -/
theorem ending_cases {law : Law Exit} {p : Program Exit} (h : p.Obeys law []) (folder : Folder) :
    law.Allows (p.ending folder).events ∧
    (((p.ending folder).failure = none ∧
        law.done (p.ending folder).events (p.ending folder).exit) ∨
      (p.ending folder).exit = .failed ∧ law.fail (p.ending folder).events) := by
  have hstart : law.Allows [] := fun before event after heq => by simp at heq
  obtain ⟨hend, hallows⟩ := obeys_run (w := ⟨folder, []⟩) h hstart
  rw [Program.ending]
  split
  next hrun =>
    rw [hrun] at hend hallows
    exact ⟨hallows, .inl ⟨rfl, hend⟩⟩
  next hrun =>
    rw [hrun] at hend hallows
    exact ⟨hallows, .inr ⟨rfl, hend⟩⟩

theorem folder_of_ending {p : Program Exit}
    (h : ∀ event ∈ (p.ending folder).events, ¬ event.Changes) :
    (p.ending folder).folder = folder := by
  have hrun := folder_of_run p ⟨folder, []⟩
  rw [Program.ending] at h ⊢
  split <;> simp_all

/-! ### What is left -/

section
variable {ending : Ending} {before after : List Event} {target text : String}
  {answer : Except FileError Unit}

/-- A program that fails has printed nothing and changed no file. -/
theorem nothing_of_failed (hending : (request.program coloured).ending folder = ending)
    (hcode : ending.exit.code = 70) : ending.output = "" ∧ ending.folder = folder := by
  subst hending
  obtain ⟨-, ⟨-, hexit⟩ | ⟨-, hquiet⟩⟩ := ending_cases (obeys_law coloured request) folder
  · rcases hexit with hexit | hexit <;> rw [hexit] at hcode <;> cases hcode
  · refine ⟨printedOf_of_quiet hquiet, ?_⟩
    exact folder_of_ending fun event hmem => (hquiet event hmem).1

/-- Only an export writes. -/
theorem nothing_written (hending : (request.program coloured).ending folder = ending)
    (hrequest : ∀ path data, request ≠ .save path data) :
    ending.folder = folder ∧ ∀ path text answer, .write path text answer ∉ ending.events := by
  subst hending
  obtain ⟨hallows, -⟩ := ending_cases (obeys_law coloured request) folder
  have hnone : ∀ path text answer,
      .write path text answer ∉ ((request.program coloured).ending folder).events := by
    intro path text answer hmem
    obtain ⟨before, after, heq⟩ := List.append_of_mem hmem
    obtain ⟨-, data, s, hsave, -⟩ := hallows before _ after heq
    exact hrequest path data hsave
  refine ⟨folder_of_ending fun event hmem => ?_, hnone⟩
  rintro ⟨path, text, rfl⟩
  exact hnone path text _ hmem

/-- An export writes its file as the last it does, after its data were loaded. -/
theorem last_of_written
    (hending : ((Request.save path data).program coloured).ending folder = ending)
    (heq : ending.events = before ++ .write target text answer :: after) :
    target = path ∧ after = [] ∧ ∃ s, Provided before data s := by
  subst hending
  obtain ⟨hallows, -⟩ := ending_cases (obeys_law coloured (.save path data)) folder
  obtain ⟨-, data', s, hsave, hs, -⟩ := hallows before _ after heq
  cases hsave
  refine ⟨rfl, ?_, s, hs⟩
  cases after with
  | nil => rfl
  | cons next after =>
    rw [List.append_cons] at heq
    exact (not_next_of_write (hallows _ next after heq)).elim

/-- An export that does not fail leaves a data file of its data, and all else as it was. -/
theorem left_of_loaded
    (hending : ((Request.save path data).program coloured).ending folder = ending)
    (hload : dataIn folder data = .ok s) :
    ending.exit.code = 70 ∨
    ending.exit.code = 0 ∧ ending.output = "" ∧ ∃ text route,
      DataFile.IsDataFile s.records text ∧ DataFile.decode text = .ok s.records ∧
      text = DataFile.encode s.records ∧
      ending.folder.read path = .ok (String.ofList text ++ "\n").toUTF8 ∧
      folder.Leads path route ∧
      ending.folder.placeAt route = .file route (String.ofList text ++ "\n").toUTF8 ∧
      ∀ other, other ≠ route → ending.folder.placeAt other = folder.placeAt other := by
  subst hending
  obtain ⟨cause, -, hsave⟩ | ⟨folder', hwrite, hsave⟩ := ending_save path hload coloured
  · rw [hsave]
    exact .inl rfl
  · rw [hsave]
    have houtput : printedOf (data.toList.map (readingOf folder) ++
        [.write path s.fileText (.ok ())]) = "" := by
      rw [printedOf_append, printedOf_readings]
      rfl
    have hdecode : DataFile.decode (DataFile.encode s.records) = .ok s.records := by
      have h := @DataFile.decode_encode [] s.records rfl
      rwa [List.append_nil] at h
    obtain ⟨route, hleads, hplace, hothers⟩ := Folder.leads_of_write hwrite
    exact .inr ⟨rfl, houtput, _, route, DataFile.isDataFile_encode s.records, hdecode, rfl,
      Folder.read_of_write hwrite, hleads, hplace, hothers⟩

end

/-- A program that fails has printed nothing and changed no file. Only an export writes. It writes
once, as the last it does, in its own file and after all of its data were read and loaded, also
where it writes over them. What it leaves there is a data file of the records that were loaded, with
a newline behind it; all else is as it was. -/
theorem effects_of_line (h : readLine env words = .ok (.run settings request)) (folder : Folder) :
    let ending := execute env folder words
    (ending.exit.code = 70 → ending.output = "" ∧ ending.folder = folder) ∧
    ((∀ path data, request ≠ .save path data) →
      ending.folder = folder ∧ ∀ path text answer, .write path text answer ∉ ending.events) ∧
    ∀ path data, request = .save path data →
      (∀ before target text answer after,
        ending.events = before ++ .write target text answer :: after →
          target = path ∧ after = [] ∧ ∃ s, Provided before data s) ∧
      ((∃ report, dataIn folder data = .error report) → ending.exit.code = 70) ∧
      ∀ s, dataIn folder data = .ok s →
        ending.exit.code = 70 ∨
        ending.exit.code = 0 ∧ ending.output = "" ∧ ∃ text route,
          DataFile.IsDataFile s.records text ∧ DataFile.decode text = .ok s.records ∧
          text = DataFile.encode s.records ∧
          ending.folder.read path = .ok (String.ofList text ++ "\n").toUTF8 ∧
          folder.Leads path route ∧
          ending.folder.placeAt route = .file route (String.ofList text ++ "\n").toUTF8 ∧
          ∀ other, other ≠ route → ending.folder.placeAt other = folder.placeAt other := by
  intro ending
  have hending : _ = ending := (execute_run h folder).symm
  refine ⟨nothing_of_failed hending, nothing_written hending, fun path data hrequest => ?_⟩
  subst hrequest
  refine ⟨fun before target text answer after => last_of_written hending, ?_,
    fun s => left_of_loaded hending⟩
  rintro ⟨report, hload⟩
  rw [← hending, Request.program, ending_of_unloaded hload]
  rfl

/-- An export over its own data and one above the working folder, an export of data that are
malformed, and a check. -/
theorem effects_of_line_in_place :
    let env : Environment := ⟨none, none, ⟨2024, 3, 31, by decide, by decide, by decide, by decide⟩⟩
    let good := Folder.empty.put ["a"] "[[[\"0501\",\"Anna\"]]]".toUTF8
    let bad := Folder.empty.put ["a"] "x".toUTF8
    let written := "\x7b\n  \"dates\": [\n    \x7b\n      \"date\": \"0501\",\n" ++
      "      \"namedays\": \"Anna\"\n    \x7d\n  ]\n\x7d\n"
    let inPlace := execute env good ["export", "a", "--data", "a"]
    let above := execute env good ["export", "../b", "--data", "a"]
    inPlace.exit.code = 0 ∧ inPlace.folder.read "a" = .ok written.toUTF8 ∧
    above.exit.code = 0 ∧ above.folder.read "../b" = .ok written.toUTF8 ∧
    above.folder.placeAt ["work", "a"] = good.placeAt ["work", "a"] ∧
    (execute env bad ["export", "a", "--data", "a"]).output = "" ∧
    (execute env bad ["export", "a", "--data", "a"]).folder = bad ∧
    (execute env good ["check", "a"]).folder = good := by
  intro env good bad written inPlace above
  have hexport (path : String) (hpath : path = "a" ∨ path = "../b") :
      readLine env ["export", path, "--data", "a"] =
        .ok (.run ⟨.auto, false⟩ (.save path (some "a"))) := by
    rcases hpath with rfl | rfl <;> rfl
  have hcheck : readLine env ["check", "a"] =
      .ok (.run ⟨.auto, false⟩ (.check ["a"] false false)) := by rfl
  let anna : Facts := ⟨⟨5, 1, by decide, by decide⟩, some "Anna", none, none⟩
  have hload : dataIn good (some "a") = .ok (Store.empty.insert anna) := by rfl
  have htext : String.ofList (DataFile.encode (Store.empty.insert anna).records) ++ "\n" =
      written := by
    rw [← String.toList_inj]
    decide +kernel
  have hsaved (path : String) (hpath : path = "a" ∨ path = "../b")
      (hcode : (execute env good ["export", path, "--data", "a"]).exit.code = 0) :
      (execute env good ["export", path, "--data", "a"]).folder.read path = .ok written.toUTF8 ∧
      ∃ route, good.Leads path route ∧ ∀ other, other ≠ route →
        (execute env good ["export", path, "--data", "a"]).folder.placeAt other =
          good.placeAt other := by
    obtain hfailed | ⟨-, -, text, route, -, -, rfl, hread, hleads, -, hothers⟩ :=
      ((effects_of_line (hexport path hpath) good).2.2 _ _ rfl).2.2 _ hload
    · rw [hcode] at hfailed
      cases hfailed
    · rw [htext] at hread
      exact ⟨hread, route, hleads, hothers⟩
  have hinPlace : inPlace.exit.code = 0 := by rfl
  have habove : above.exit.code = 0 := by rfl
  have hleads : good.Leads "../b" ["b"] := by
    refine ⟨.missing ["b"], by rfl, by rfl, ?_, by rfl⟩
    rintro ⟨route, hroute⟩
    cases hroute
  obtain ⟨hread, route, hroute, hothers⟩ := hsaved "../b" (.inr rfl) habove
  obtain rfl := hroute.route_unique hleads
  have hbad : ∃ report, dataIn bad (some "a") = .error report := ⟨_, rfl⟩
  obtain ⟨hfails, -, hbadSave⟩ := effects_of_line (hexport "a" (.inl rfl)) bad
  obtain ⟨houtput, hfolder⟩ := hfails ((hbadSave _ _ rfl).2.1 hbad)
  exact ⟨hinPlace, (hsaved "a" (.inl rfl) hinPlace).1, habove, hread, hothers _ (by decide),
    houtput, hfolder, ((effects_of_line hcheck good).2.1 (by simp)).1⟩

end Almanac.Command
