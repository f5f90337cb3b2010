import Almanac.DataFile.Store
import Almanac.Proofs.Decoding
import Almanac.Proofs.Files
import Almanac.Proofs.Stores
import Almanac.Proofs.Written

/-! A store is read back from the data file it is written to, with an empty text and no text kept
apart in each field. -/

namespace Almanac

namespace DataFile
open Json
variable {f : Facts} {spaces : List Char} {indent : Nat}

/-- The members of a record, field by field. -/
theorem members_eq (f : Facts) :
    members f = Field.all.flatMap fun field => writtenMember field (textOf f field) := by
  simp [members, Field.all, textOf, writtenMember]

theorem mem_writtenMember {field : Field} {text : Option String} {m : String × Scalar} :
    m ∈ writtenMember field text ↔ ∃ value, text = some value ∧ m = (field.name, .text value) := by
  cases text <;> simp [writtenMember]

theorem mem_members {m : String × Scalar} :
    m ∈ members f ↔
      ∃ field value, textOf f field = some value ∧ m = (field.name, .text value) := by
  rw [members_eq, List.mem_flatMap]
  constructor
  · rintro ⟨field, -, hm⟩
    exact ⟨field, mem_writtenMember.1 hm⟩
  · rintro ⟨field, hm⟩
    exact ⟨field, by cases field <;> decide, mem_writtenMember.2 hm⟩

/-- No name is written twice. -/
theorem pairwise_members (f : Facts) : (members f).Pairwise fun m m' => m.1 ≠ m'.1 := by
  cases hn : f.names <;> cases hh : f.holiday <;> cases hw : f.worldDay <;>
    simp [members, writtenMember, hn, hh, hw, Field.name]

/-- The members of a record as they are laid out. -/
def memberTexts (f : Facts) : List MemberText :=
  (members f).map fun m => .written m.1 m.2.write

theorem recordMembers_memberTexts (f : Facts) : RecordMembers f (memberTexts f) where
  each := by
    intro m hm
    obtain ⟨member, hmember, rfl⟩ := List.mem_map.1 hm
    obtain ⟨field, value, htext, rfl⟩ := mem_members.1 hmember
    refine .inl ⟨field, names_written _ _, ?_⟩
    rw [htext]
    exact isText_writeText value
  once := by
    refine fieldsOnce_of_pairwise (List.pairwise_map.2 ((pairwise_members f).imp ?_))
    exact fun {m m'} hne => ⟨m.1, m'.1, names_written _ _, names_written _ _, hne⟩
  complete := by
    intro field htext
    obtain ⟨value, htext⟩ := Option.ne_none_iff_exists'.1 htext
    exact ⟨_, List.mem_map_of_mem (mem_members.2 ⟨field, value, htext, rfl⟩), names_written _ _⟩

theorem isRecord_layOutObject (indent : Nat) (f : Facts) :
    IsRecord f (layOutObject indent (members f)) := by
  have hlayout : layOutObject indent (members f) =
      layOut '{' '}' indent ((memberTexts f).map MemberText.chars) := by
    simp only [layOutObject, memberTexts, List.map_map, Function.comp_def, chars_written]
  rw [hlayout]
  exact .object (bracketed_layOut .object indent _) (recordMembers_memberTexts f)

theorem readFacts_layOut (f : Facts) (rest : List Char) :
    readFacts (layOutObject indent (members f) ++ rest) = .ok (f, rest) :=
  (reads_record (isRecord_layOutObject indent f)).eq_ok rest

/-- The records of a file, laid out as one value. -/
def recordsText (records : List Facts) : List Char := layOutObjects 2 (records.map members)

theorem isRecordList_recordsText (records : List Facts) :
    IsRecordList records (recordsText records) := by
  refine ⟨_, bracketed_layOut .list 2 _, ?_⟩
  rw [List.map_map, List.forall₂_map_right_iff, List.forall₂_same]
  exact fun f _ => isRecord_layOutObject 4 f

/-- A data file that is written holds its records. -/
theorem isDataFile_encode (records : List Facts) : IsDataFile records (encode records) := by
  have hfile := bracketed_layOut .object 0 [writeMember datesName (recordsText records)]
  rw [← chars_written] at hfile
  exact @IsDataFile.object records [] [] _ _ hfile (names_written _ _)
    (isRecordList_recordsText records) (by simp)

theorem readFile_encode (records : List Facts) (rest : List Char) :
    readFile (encode records ++ rest) = .ok (records, rest) :=
  (reads_file (isDataFile_encode records)).eq_ok rest

/-- The records are read from their file, whatever space is left behind it. -/
theorem decode_encode (records : List Facts) (hspaces : spaces.all isSpace) :
    decode (encode records ++ spaces) = .ok records :=
  decode_file (isDataFile_encode records) .none ⟨spaces, hspaces⟩

end DataFile

namespace Store
variable {s : Store}

theorem parse_text (s : Store) (path : String) {spaces : String}
    (hspaces : spaces.toList.all Json.isSpace) : parse path (s.text ++ spaces) = .ok s := by
  have hdecode := DataFile.decode_encode s.records hspaces
  rw [parse, String.toList_append, text, String.toList_ofList, hdecode]
  simp only [build, ofRecords_records]

/-- A store is read back from its text, and from the file that it is saved to. -/
theorem read_back (s : Store) :
    ofText s.text = .ok s ∧
      ∀ folder folder' path, s.save folder path = .ok folder' →
        load folder'.readText path = .ok s := by
  constructor
  · have h := parse_text s "<string>" (show "".toList.all Json.isSpace from rfl)
    rwa [String.append_empty] at h
  · intro folder folder' path hsave
    have hwrite : folder.writeText path s.fileText = .ok folder' := by
      unfold save at hsave
      split at hsave
      · next g hg => rw [hg, Except.ok.inj hsave]
      · cases hsave
    rw [load, Folder.readText_of_writeText hwrite]
    exact parse_text s path (by decide)

/-- A day with an empty text, one that needs escapes, and one that is absent. -/
def sample : Store := empty.insert ⟨⟨6, 29, by decide, by decide⟩, some "", some "a\\\"\n", none⟩

theorem read_back_of_sample :
    ∃ folder, sample.save .empty "days.json" = .ok folder ∧
      load folder.readText "days.json" = .ok sample :=
  have hsave : sample.save .empty "days.json" =
      .ok (Folder.empty.put ["days.json"] sample.fileText.toUTF8) := by rfl
  ⟨_, hsave, (read_back sample).2 _ _ _ hsave⟩

end Store
end Almanac
