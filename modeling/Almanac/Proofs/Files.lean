import Almanac.Folder

/-! A file that was written is read as it was written, by the path it was written to. Writing leaves
every other place as it was, since the folder that a file is put in is there before. -/

namespace Almanac

/-- A text survives its encoding. -/
theorem fromUTF8?_toUTF8 (text : String) : String.fromUTF8? text.toUTF8 = some text := by
  rw [String.fromUTF8?, String.toUTF8_eq_toByteArray, dif_pos text.isValidUTF8]
  rfl

def Place.route : Place → Route
  | .folder route | .file route _ | .missing route => route

/-- A path can lead on from this place. -/
def Place.IsFolder (place : Place) : Prop := ∃ route, place = .folder route

namespace Folder
variable {f g : Folder} {route other : Route} {content : ByteArray} {name path : String}
  {names : List String} {place next last : Place}

theorem hasFolder_iff : f.hasFolder route ↔ ∃ folder ∈ f.folders, route <+: folder := by
  simp [hasFolder]

/-- What lies above a folder is a folder. -/
theorem hasFolder_of_prefix (h : other <+: route) (hroute : f.hasFolder route) :
    f.hasFolder other := by
  rw [hasFolder_iff] at hroute ⊢
  obtain ⟨folder, hmem, hprefix⟩ := hroute
  exact ⟨folder, hmem, h.trans hprefix⟩

theorem hasFolder_here (f : Folder) : f.hasFolder f.here :=
  hasFolder_iff.2 ⟨f.here, by simp [folders], List.prefix_refl _⟩

theorem hasFolder_root (f : Folder) : f.hasFolder [] :=
  hasFolder_of_prefix List.nil_prefix f.hasFolder_here

/-- A file put in a folder makes no folder. -/
theorem hasFolder_putAt (h : f.hasFolder route.dropLast) (other : Route) :
    (f.putAt route content).hasFolder other = f.hasFolder other := by
  rw [Bool.eq_iff_iff, hasFolder_iff, hasFolder_iff]
  simp only [folders, putAt, List.cons_append, List.mem_cons, List.mem_append, List.mem_map,
    List.map_cons]
  constructor
  · rintro ⟨folder, rfl | hkept | rfl | ⟨file, hfile, rfl⟩, hprefix⟩
    · exact ⟨_, .inl rfl, hprefix⟩
    · exact ⟨folder, .inr (.inl hkept), hprefix⟩
    · obtain ⟨folder, hmem, hroute⟩ := hasFolder_iff.1 h
      exact ⟨folder, by simpa [folders] using hmem, hprefix.trans hroute⟩
    · exact ⟨_, .inr (.inr ⟨file, (List.mem_filter.1 hfile).1, rfl⟩), hprefix⟩
  · rintro ⟨folder, rfl | hkept | ⟨file, hfile, rfl⟩, hprefix⟩
    · exact ⟨_, .inl rfl, hprefix⟩
    · exact ⟨folder, .inr (.inl hkept), hprefix⟩
    · by_cases hroute : file.1 = route
      · exact ⟨_, .inr (.inr (.inl rfl)), hroute ▸ hprefix⟩
      · exact ⟨_, .inr (.inr (.inr ⟨file, by simp [hfile, hroute], rfl⟩)), hprefix⟩

/-- Nothing but the file is changed where a file is put in a folder. -/
theorem placeAt_putAt (h : f.hasFolder route.dropLast) (other : Route) :
    (f.putAt route content).placeAt other =
      if other = route then .file route content else f.placeAt other := by
  by_cases hroute : other = route
  · simp [placeAt, content?_putAt, hroute]
  · simp [placeAt, content?_putAt, hasFolder_putAt h, hroute]

/-- What stands at a place. -/
theorem placeAt_cases (f : Folder) (route : Route) :
    (∃ content, f.placeAt route = .file route content) ∨
    f.placeAt route = .missing route ∨
    f.placeAt route = .folder route ∧ f.hasFolder route := by
  unfold placeAt
  cases f.content? route with
  | some content => exact .inl ⟨content, rfl⟩
  | none =>
    by_cases hfolder : f.hasFolder route
    · exact .inr (.inr ⟨by simp [hfolder], hfolder⟩)
    · exact .inr (.inl (by simp [hfolder]))

@[simp] theorem route_placeAt (f : Folder) (route : Route) : (f.placeAt route).route = route := by
  obtain ⟨_, h⟩ | h | ⟨h, _⟩ := placeAt_cases f route <;> rw [h, Place.route]

/-- One name of a path leads from a folder that is there to another, wherever files are put, or to
what is in the folder by that name. -/
theorem step_cases (hroute : f.hasFolder route) (h : f.step (.folder route) name = .ok next) :
    (∃ other, next = .folder other ∧ f.hasFolder other ∧
      ∀ g : Folder, g.step (.folder route) name = .ok next) ∨
    ∃ other, next = f.placeAt other ∧ f.hasFolder other.dropLast ∧
      ∀ g : Folder, g.step (.folder route) name = .ok (g.placeAt other) := by
  by_cases hstay : name = "" ∨ name = "."
  · simp only [step, if_pos hstay, Except.ok.injEq] at h ⊢
    exact .inl ⟨route, h.symm, hroute, fun _ => h⟩
  by_cases hup : name = ".."
  · simp only [step, if_neg hstay, if_pos hup, Except.ok.injEq] at h ⊢
    exact .inl ⟨_, h.symm, hasFolder_of_prefix (List.dropLast_prefix route) hroute, fun _ => h⟩
  by_cases hlong : 255 < name.utf8ByteSize
  · simp [step, hstay, hup, hlong] at h
  · simp only [step, if_neg hstay, if_neg hup, if_neg hlong, Except.ok.injEq] at h ⊢
    exact .inr ⟨route ++ [name], h.symm, by simpa using hroute, fun _ => rfl⟩

theorem foldlM_of_not_isFolder (hplace : ¬ place.IsFolder)
    (h : names.foldlM f.step place = .ok last) : names = [] ∧ last = place := by
  cases names with
  | nil => exact ⟨rfl, by cases h; rfl⟩
  | cons name names =>
    cases place with
    | file _ _ | missing _ => cases h
    | folder route => exact (hplace ⟨route, rfl⟩).elim

/-- The place that a file is written to: in a folder, and itself none. -/
structure Writable (f : Folder) (route : Route) (last : Place) : Prop where
  place : last = f.placeAt route
  notFolder : ¬ last.IsFolder
  inFolder : f.hasFolder route.dropLast

/-- A path that leads to no folder leads to where a file can be put, and to that file once it is
put there. -/
theorem walk_cases {start : Route} (hstart : f.hasFolder start) (hlast : ¬ last.IsFolder)
    (h : f.walk start names = .ok last) :
    ∃ route, Writable f route last ∧
      ∀ content, (f.putAt route content).walk start names = .ok (.file route content) := by
  unfold walk at h ⊢
  induction names generalizing start with
  | nil =>
    cases h
    exact (hlast ⟨start, rfl⟩).elim
  | cons name names ih =>
    cases hstep : f.step (.folder start) name with
    | error e => rw [List.foldlM_cons, hstep] at h; cases h
    | ok next =>
      rw [List.foldlM_cons, hstep] at h
      obtain ⟨other, rfl, hother, hsame⟩ | ⟨other, rfl, hother, hsame⟩ := step_cases hstart hstep
      · obtain ⟨route, hroute, hput⟩ := ih hother h
        refine ⟨route, hroute, fun content => ?_⟩
        rw [List.foldlM_cons, hsame]
        exact hput content
      · by_cases hfolder : (f.placeAt other).IsFolder
        · obtain ⟨other', hplace⟩ := hfolder
          obtain ⟨_, hfile⟩ | hmissing | ⟨hplace', hthere⟩ := placeAt_cases f other
          · cases hplace.symm.trans hfile
          · cases hplace.symm.trans hmissing
          rw [hplace'] at h
          obtain ⟨route, hroute, hput⟩ := ih hthere h
          -- The way goes on through this folder, so it is not where the file is put.
          have hne : other ≠ route := by
            rintro rfl
            exact hroute.notFolder ⟨other, hroute.place.trans hplace'⟩
          refine ⟨route, hroute, fun content => ?_⟩
          rw [List.foldlM_cons, hsame, placeAt_putAt hroute.inFolder, if_neg hne, hplace']
          exact hput content
        · obtain ⟨rfl, rfl⟩ := foldlM_of_not_isFolder hfolder h
          refine ⟨other, ⟨rfl, hfolder, hother⟩, fun content => ?_⟩
          rw [List.foldlM_cons, hsame, placeAt_putAt hother, if_pos rfl]
          rfl

theorem hasFolder_start (f : Folder) (names : List String) : f.hasFolder (f.start names) := by
  unfold start
  split
  · exact f.hasFolder_root
  · exact f.hasFolder_here

/-- A path leads to a file that is there or can be put there. -/
def Leads (f : Folder) (path : String) (route : Route) : Prop :=
  ∃ last, f.walk (f.start (Folder.names path)) (Folder.names path) = .ok last ∧
    Writable f route last

/-- A path that can name a file; one that ends with a slash cannot. -/
def NamesFile (path : String) : Prop :=
  checkPath path = .ok () ∧ (Folder.names path).length ≤
    ((Folder.names path).reverse.dropWhile (· = "")).length

theorem Leads.route_unique (h : f.Leads path route) (h' : f.Leads path other) : route = other := by
  obtain ⟨last, hwalk, hlast⟩ := h
  obtain ⟨last', hwalk', hlast'⟩ := h'
  obtain rfl : last = last' := Except.ok.inj (hwalk.symm.trans hwalk')
  simpa using congrArg Place.route (hlast.place.symm.trans hlast'.place)

/-- A path still leads to the file that was put where it led. -/
theorem Leads.walk_putAt (h : f.Leads path route) (content : ByteArray) :
    (f.putAt route content).walk (f.start (Folder.names path)) (Folder.names path) =
      .ok (.file route content) := by
  obtain ⟨last, hwalk, hlast⟩ := h
  obtain ⟨route', hroute', hput⟩ := walk_cases (f.hasFolder_start _) hlast.notFolder hwalk
  obtain rfl : route = route' := Leads.route_unique ⟨last, hwalk, hlast⟩ ⟨last, hwalk, hroute'⟩
  exact hput content

theorem leads_of_walk (hlast : ¬ last.IsFolder)
    (h : f.walk (f.start (Folder.names path)) (Folder.names path) = .ok last) :
    f.Leads path last.route := by
  obtain ⟨route, hroute, -⟩ := walk_cases (f.hasFolder_start _) hlast h
  obtain rfl : last.route = route := by rw [hroute.place, route_placeAt]
  exact ⟨last, h, hroute⟩

/-- Writing puts the file in the place that the path leads to. -/
theorem write_eq_ok_iff :
    f.write path content = .ok g ↔
      NamesFile path ∧ ∃ route, f.Leads path route ∧ g = f.putAt route content := by
  constructor
  · intro h
    simp only [write, bind, Except.bind] at h
    split at h
    · cases h
    next hcheck =>
      split at h
      · split at h
        · cases h
        · split at h <;> cases h
      next hslash =>
        refine ⟨⟨hcheck, Nat.le_of_not_lt hslash⟩, ?_⟩
        split at h
        · cases h
        next last hwalk =>
          split at h
          · cases h
            exact ⟨_, leads_of_walk (fun ⟨_, hfolder⟩ => by cases hfolder) hwalk, rfl⟩
          · cases h
            exact ⟨_, leads_of_walk (fun ⟨_, hfolder⟩ => by cases hfolder) hwalk, rfl⟩
          · cases h
  · rintro ⟨⟨hcheck, hslash⟩, route, ⟨last, hwalk, hlast⟩, rfl⟩
    rw [hlast.place] at hwalk
    obtain ⟨_, hfile⟩ | hmissing | ⟨hfolder, -⟩ := placeAt_cases f route
    · rw [hfile] at hwalk
      simp [write, hcheck, Nat.not_lt.2 hslash, hwalk, bind, Except.bind]
    · rw [hmissing] at hwalk
      simp [write, hcheck, Nat.not_lt.2 hslash, hwalk, bind, Except.bind]
    · exact (hlast.notFolder ⟨route, hlast.place.trans hfolder⟩).elim

/-- Writing changes the one file that the path leads to, and makes no folder. -/
theorem leads_of_write (h : f.write path content = .ok g) :
    ∃ route, f.Leads path route ∧ g.placeAt route = .file route content ∧
      ∀ other, other ≠ route → g.placeAt other = f.placeAt other := by
  obtain ⟨-, route, hleads, rfl⟩ := write_eq_ok_iff.1 h
  obtain ⟨last, -, hlast⟩ := id hleads
  refine ⟨route, hleads, ?_, fun other hne => ?_⟩
  · rw [placeAt_putAt hlast.inFolder, if_pos rfl]
  · rw [placeAt_putAt hlast.inFolder, if_neg hne]

/-- Whether a file can be written does not depend on what is written. -/
theorem write_of_write (h : f.write path content = .ok g) (content' : ByteArray) :
    ∃ g', f.write path content' = .ok g' := by
  obtain ⟨hpath, route, hleads, -⟩ := write_eq_ok_iff.1 h
  exact ⟨_, write_eq_ok_iff.2 ⟨hpath, route, hleads, rfl⟩⟩

/-- A file that was written can be written again. -/
theorem rewrite_of_write (h : f.write path content = .ok g) (content' : ByteArray) :
    ∃ g', g.write path content' = .ok g' := by
  obtain ⟨hpath, route, hleads, rfl⟩ := write_eq_ok_iff.1 h
  have hagain : (f.putAt route content).Leads path route :=
    leads_of_walk (fun ⟨_, hfolder⟩ => by cases hfolder) (hleads.walk_putAt content)
  exact ⟨_, write_eq_ok_iff.2 ⟨hpath, route, hagain, rfl⟩⟩

/-- What was written to a path is what the path gives to read. -/
theorem read_of_write (h : f.write path content = .ok g) : g.read path = .ok content := by
  obtain ⟨⟨hcheck, -⟩, route, hleads, rfl⟩ := write_eq_ok_iff.1 h
  have hwalk : (f.putAt route content).walk ((f.putAt route content).start (Folder.names path))
      (Folder.names path) = .ok (.file route content) := hleads.walk_putAt content
  simp [read, hcheck, hwalk, bind, Except.bind]

theorem readText_of_writeText {text : String} (h : f.writeText path text = .ok g) :
    g.readText path = .ok text := by
  simp only [readText, read_of_write h, fromUTF8?_toUTF8, bind, Except.bind]

end Folder
end Almanac
