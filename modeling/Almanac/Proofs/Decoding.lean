import Almanac.DataFile.Grammar
import Almanac.Proofs.Layouts
import Almanac.Proofs.Numerals

/-! Records are read from any text that holds them. Whatever the order of the members, each of them
adds its own field to what was read before, or adds nothing. -/

namespace Almanac.DataFile
open Json
variable {f : Facts} {field : Field} {fields : List Field} {m : MemberText} {ms : List MemberText}
  {name : String} {cs rest : List Char} {records : List Facts}

/-! ### Names -/

theorem ofName?_name (field : Field) : Field.ofName? field.name.toList = some field := by
  cases field <;> decide

theorem name_of_ofName? {name : List Char} (h : Field.ofName? name = some field) :
    name = field.name.toList := by
  have hfound := List.find?_some h
  exact (of_decide_eq_true hfound).symm

theorem ofName?_eq_none (h : name ∉ fieldNames) : Field.ofName? name.toList = none := by
  cases hfield : Field.ofName? name.toList with
  | none => rfl
  | some field =>
    refine absurd ?_ h
    rw [String.toList_inj.1 (name_of_ofName? hfield)]
    exact List.mem_map_of_mem (by cases field <;> decide)

/-- A member has one name. -/
theorem names_unique {name' : String} (h : m.Names name) (h' : m.Names name') : name = name' :=
  String.toList_inj.1 (spells_unique h h')

theorem field_unique {field' : Field} (h : m.Names field.name) (h' : m.Names field'.name) :
    field = field' := by
  have hname := ofName?_name field
  rw [names_unique h h', ofName?_name] at hname
  exact (Option.some.inj hname).symm

/-! ### Members -/

/-- A draft in which these fields of a record have been read. -/
def Draft.of (f : Facts) (fields : List Field) : Draft where
  key := if .key ∈ fields then some f.key else none
  names := if .names ∈ fields then some f.names else none
  holiday := if .holiday ∈ fields then some f.holiday else none
  worldDay := if .worldDay ∈ fields then some f.worldDay else none

theorem has_of (f : Facts) (fields : List Field) (field : Field) :
    (Draft.of f fields).has field = true ↔ field ∈ fields := by
  cases field <;> simp only [Draft.has, Draft.of] <;> split <;> simp_all

theorem readKey_text {k : DayKey} (h : IsText k.text cs) (spaces : Spaces) (rest : List Char) :
    readKey (spaces.chars ++ (cs ++ rest)) = .ok (k, rest) := by
  simp only [readKey, reads_text h spaces rest, String.ofList_toList, k.read_text]

/-- A field that is read for the first time is added to the draft. -/
theorem readFactsMember_field (hname : m.Names field.name)
    (hvalue : IsOptionalText (textOf f field) m.value) (hnew : field ∉ fields) (rest : List Char) :
    readFactsMember (.of f fields) field.name.toList (m.afterName rest) =
      .ok (.of f (field :: fields), rest) := by
  have hhas : (Draft.of f fields).has field = false := by
    rw [← Bool.not_eq_true, has_of]
    exact hnew
  simp only [readFactsMember, ofName?_name, hhas, Bool.false_eq_true, if_false,
    expectColon_afterName]
  cases field with
  | key =>
    simp only [readField, readKey_text hvalue, bind, Except.bind]
    simp [Draft.of]
  | names | holiday | worldDay =>
    simp only [readField, reads_optionalText hvalue _ rest, reading_ok, bind, Except.bind]
    simp [Draft.of, textOf]

theorem skipMember_value (h : Value m.value) (hrest : NoNumeral rest) :
    skipMember (m.afterName rest) = .ok rest := by
  simp only [skipMember, expectColon_afterName, skipValue_value h m.afterColon hrest, bind,
    Except.bind]

/-- A member by another name leaves the draft as it is. -/
theorem readFactsMember_other (d : Draft) (hname : name ∉ fieldNames) (hvalue : Value m.value)
    (hrest : NoNumeral rest) :
    readFactsMember d name.toList (m.afterName rest) = .ok (d, rest) := by
  simp only [readFactsMember, ofName?_eq_none hname, skipMember_value hvalue hrest, Except.map,
    reading_ok]

/-- Members of a record are read in any order, and those of other names may stand between them. -/
theorem memberRun_record
    (heach : ∀ m ∈ ms, (∃ field, m.Names field.name ∧ IsOptionalText (textOf f field) m.value) ∨
      IsOther fieldNames m)
    (honce : FieldsOnce ms)
    (hnew : ∀ m ∈ ms, ∀ field : Field, m.Names field.name → field ∉ fields) :
    ∃ fields', MemberRun readFactsMember (.of f fields) ms (.of f fields') ∧
      ∀ field, field ∈ fields' ↔ field ∈ fields ∨ ∃ m ∈ ms, m.Names field.name := by
  -- What is carried along is which fields were read. Their order is lost in the draft.
  induction ms generalizing fields with
  | nil => exact ⟨fields, .nil, by simp⟩
  | cons m ms ih =>
    obtain ⟨honce, htail⟩ := List.pairwise_cons.1 honce
    have heach' := fun m' hm' => heach m' (List.mem_cons_of_mem m hm')
    have hnames (field : Field) : (∃ m' ∈ m :: ms, m'.Names field.name) ↔
        m.Names field.name ∨ ∃ m' ∈ ms, m'.Names field.name := by
      simp
    obtain ⟨field, hname, hvalue⟩ | ⟨name, hname, hother, hvalue⟩ := heach m List.mem_cons_self
    · obtain ⟨fields', hrun, hfields⟩ := @ih (field :: fields) heach' htail
        (fun m' hm' field' hname' hmem => by
          rcases List.mem_cons.1 hmem with rfl | hmem
          · exact honce m' hm' field' hname hname'
          · exact hnew m' (List.mem_cons_of_mem m hm') field' hname' hmem)
      refine ⟨fields', .cons hname (fun rest _ => readFactsMember_field hname hvalue
        (hnew m List.mem_cons_self field hname) rest) hrun, fun field' => ?_⟩
      rw [hfields, List.mem_cons, hnames, or_assoc, or_left_comm]
      refine or_congr_right (or_congr_left ⟨?_, fun hname' => field_unique hname' hname⟩)
      rintro rfl
      exact hname
    · obtain ⟨fields', hrun, hfields⟩ := ih heach' htail
        (fun m' hm' => hnew m' (List.mem_cons_of_mem m hm'))
      refine ⟨fields', .cons hname (fun rest => readFactsMember_other _ hother hvalue) hrun,
        fun field' => ?_⟩
      have hnot : ¬ m.Names field'.name := by
        intro hname'
        rw [names_unique hname hname'] at hother
        exact hother (List.mem_map_of_mem (by cases field' <;> decide))
      rw [hfields, hnames, or_iff_right hnot]

theorem join_of_if {text : Option String} {p : Prop} [Decidable p] (h : text ≠ none → p) :
    (if p then some text else none).join = text := by
  cases text with
  | none => split <;> rfl
  | some s =>
    rw [if_pos (h (by simp))]
    rfl

theorem factsFromObject_draft {rest' : List Char} (hkey : .key ∈ fields)
    (hcomplete : ∀ field, textOf f field ≠ none → field ∈ fields)
    (hread : readMembers readFactsMember cs true .empty cs = .ok (.of f fields, rest')) :
    factsFromObject cs = .ok (f, rest') := by
  have hnames : (if .names ∈ fields then some f.names else none).join = f.names :=
    join_of_if (hcomplete .names)
  have hholiday : (if .holiday ∈ fields then some f.holiday else none).join = f.holiday :=
    join_of_if (hcomplete .holiday)
  have hworld : (if .worldDay ∈ fields then some f.worldDay else none).join = f.worldDay :=
    join_of_if (hcomplete .worldDay)
  simp only [factsFromObject, hread, bind, Except.bind, Draft.of, if_pos hkey, hnames, hholiday,
    hworld]

/-! ### Lists of fields -/

/-- A field is taken by its place, or found to be left out. -/
theorem readNextField_byPlace {text : Option String} {texts : List (Option String)}
    {items : List (List Char)} (h : ItemsAfter .list items cs)
    (hitems : ByPlace (text :: texts) items) :
    ∃ items' cs', ItemsAfter .list items' cs' ∧ ByPlace texts items' ∧
      ∀ rest, readNextField (cs ++ rest) = .ok (text, cs' ++ rest) := by
  cases hitems with
  | leftOut hnone =>
    cases h with
    | nil spaces =>
      refine ⟨[], [']'], .nil .none,
        .leftOut fun text hmem => hnone text (List.mem_cons_of_mem _ hmem), fun rest => ?_⟩
      obtain rfl := hnone text List.mem_cons_self
      simp only [List.append_assoc, List.singleton_append, readNextField, Bracket.closing,
        nextElement_end spaces, bind, Except.bind]
      rfl
  | @cons _ _ item items hitem htail =>
    cases h with
    | @cons spaces spaces' _ _ cs h =>
      refine ⟨items, cs, h, htail, fun rest => ?_⟩
      simp only [List.append_assoc, List.cons_append, readNextField,
        nextElement_comma spaces spaces' (begins_optionalText hitem),
        (reads_optionalText hitem).eq_ok, if_true, bind, Except.bind]

theorem factsFromList_byPlace {item : List Char} {items : List (List Char)}
    (h : ItemsAfter .list items cs) (hkey : IsText f.key.text item)
    (hitems : ByPlace [f.names, f.holiday, f.worldDay] items) (spaces : Spaces) :
    ∃ spaces' : Spaces, ∀ rest, factsFromList (spaces.chars ++ (item ++ (cs ++ rest))) =
      .ok (f, spaces'.chars ++ ']' :: rest) := by
  have hbegins : Begins .list item :=
    begins_optionalText (show IsOptionalText (some _) item from hkey)
  obtain ⟨_, _, h₁, hitems₁, hnames⟩ := readNextField_byPlace h hitems
  obtain ⟨_, _, h₂, hitems₂, hholiday⟩ := readNextField_byPlace h₁ hitems₁
  obtain ⟨_, _, h₃, hitems₃, hworld⟩ := readNextField_byPlace h₂ hitems₂
  cases hitems₃
  cases h₃ with
  | nil spaces' =>
    refine ⟨spaces', fun rest => ?_⟩
    have hkey' (rest : List Char) : readKey (item ++ rest) = .ok (f.key, rest) :=
      readKey_text hkey .none rest
    simp only [factsFromList, nextElement_first spaces hbegins, hkey', hnames, hholiday, hworld,
      reading_ok, bind, Except.bind]
    rw [List.append_assoc]
    rfl

/-- A record is read from any text that holds it. -/
theorem reads_record (h : IsRecord f cs) : Reads readFacts f cs := by
  intro spaces rest
  cases h with
  | object h hmembers =>
    obtain ⟨fields, hrun, hfields⟩ := memberRun_record hmembers.each hmembers.once
      (fun _ _ field _ => @List.not_mem_nil Field field)
    obtain ⟨cs', hcs, hread⟩ := readMembers_object hrun h rest
    have hcomplete (field : Field) (htext : textOf f field ≠ none) : field ∈ fields :=
      (hfields field).2 (.inr (hmembers.complete field htext))
    rw [hcs]
    exact readRecord_object spaces (factsFromObject_draft (hcomplete .key (by simp [textOf]))
      hcomplete (hread cs' (Nat.le_refl _)))
  | list h hitems =>
    cases hitems with
    | leftOut hnone => exact absurd (hnone _ List.mem_cons_self) (by simp [textOf])
    | cons hkey hitems =>
      cases h with
      | cons spaces' h =>
        obtain ⟨spaces'', hfacts⟩ := factsFromList_byPlace h hkey hitems spaces'
        simp only [List.cons_append, List.append_assoc]
        exact readRecord_list spaces spaces'' (hfacts rest)

/-! ### Objects that hold no record -/

/-- The draft has the fields that have been read, each of them once. -/
def Drafted (done : List MemberText) (d : Draft) : Prop :=
  FieldsOnce done ∧ ∀ field, d.has field = true ↔ ∃ m ∈ done, m.Names field.name

theorem rest_of_readKey {v : List Char} {k : DayKey} {rest' : List Char} (h : Value v)
    (spaces : Spaces) (hread : readKey (spaces.chars ++ (v ++ rest)) = .ok (k, rest')) :
    rest' = rest := by
  rw [readKey] at hread
  split at hread
  next => cases hread
  next text rest'' htext =>
    obtain rfl := rest_of_readExpectedText h spaces htext
    split at hread <;> cases hread
    rfl

/-- A field is read up to the end of its value, and is the only one that is added. -/
theorem readField_value {d : Draft} {v : List Char} {next : Draft × List Char} (h : Value v)
    (spaces : Spaces) (hread : readField d field (spaces.chars ++ (v ++ rest)) = .ok next) :
    next.2 = rest ∧ ∀ other, next.1.has other = true ↔ d.has other = true ∨ other = field := by
  cases field with
  | key =>
    obtain ⟨⟨k, rest'⟩, hkey, hnext⟩ := ok_of_bind hread
    cases hnext
    refine ⟨rest_of_readKey h spaces hkey, fun other => ?_⟩
    cases other <;> simp [Draft.has]
  | names | holiday | worldDay =>
    obtain ⟨⟨text, rest'⟩, htext, hnext⟩ := ok_of_bind hread
    cases hnext
    refine ⟨rest_of_readOptionalText h spaces (ok_of_reading htext), fun other => ?_⟩
    cases other <;> simp [Draft.has]

theorem fieldsOnce_append (honce : FieldsOnce ms)
    (hnew : ∀ field : Field, m.Names field.name → ¬ ∃ m' ∈ ms, m'.Names field.name) :
    FieldsOnce (ms ++ [m]) := by
  refine List.pairwise_append.2 ⟨honce, List.pairwise_singleton _ m, ?_⟩
  intro m' hm' m'' hm'' field h h'
  obtain rfl := List.mem_singleton.1 hm''
  exact hnew field h' ⟨m', hm', h⟩

theorem preserves_drafted : Preserves readFactsMember Drafted := by
  intro done d m name rest next hname hvalue hrest ⟨honce, hhas⟩ hread
  have hnames (field : Field) : (∃ m' ∈ done ++ [m], m'.Names field.name) ↔
      (∃ m' ∈ done, m'.Names field.name) ∨ m.Names field.name := by
    simp [or_and_right, exists_or]
  rw [readFactsMember] at hread
  split at hread
  next hnone =>
    have hother (field : Field) : ¬ m.Names field.name := by
      intro hfield
      rw [spells_unique hname hfield, ofName?_name] at hnone
      cases hnone
    rw [skipMember_value hvalue hrest] at hread
    cases hread
    refine ⟨rfl, fieldsOnce_append honce fun field hfield => absurd hfield (hother field),
      fun field => ?_⟩
    rw [hnames, hhas, or_iff_left (hother field)]
  next field hfield =>
    obtain rfl := name_of_ofName? hfield
    -- A field that the draft has is refused, and that is where a name that stands twice ends.
    split at hread
    next => cases hread
    next hnew =>
      rw [expectColon_afterName] at hread
      obtain ⟨hrest', hnext⟩ := readField_value hvalue m.afterColon hread
      refine ⟨hrest', fieldsOnce_append honce fun other hother => ?_, fun other => ?_⟩
      · rw [field_unique hother hname, ← hhas]
        exact hnew
      · rw [hnames, hnext, hhas]
        refine or_congr_right ⟨?_, fun hother => field_unique hother hname⟩
        rintro rfl
        exact hname

/-- An object that is read as a record has each field at most once, and has the key. -/
theorem fields_of_readFacts {result : Facts × List Char} (h : IsObject ms cs)
    (hletters : ∀ m ∈ ms, Letters m.name) (hvalues : ∀ m ∈ ms, Value m.value) (spaces : Spaces)
    (hread : readFacts (spaces.chars ++ (cs ++ rest)) = .ok result) :
    FieldsOnce ms ∧ ∃ m ∈ ms, m.Names Field.key.name := by
  obtain ⟨cs', rfl⟩ := opening_of_bracketed h
  obtain ⟨rest', hfacts⟩ := ok_of_readRecord_object spaces hread
  obtain ⟨⟨d, rest''⟩, hmembers, hfacts⟩ := ok_of_bind hfacts
  have hempty : Drafted [] .empty :=
    ⟨.nil, fun field => by cases field <;> simp [Draft.has, Draft.empty]⟩
  obtain ⟨honce, hhas⟩ :=
    inv_of_readMembers_object preserves_drafted hletters hvalues h hempty rfl hmembers
  refine ⟨honce, (hhas .key).1 ?_⟩
  cases hkey : d.key with
  | none => simp [hkey] at hfacts
  | some k => simp [Draft.has, hkey]

/-- Members of different names have no field twice. -/
theorem fieldsOnce_of_pairwise
    (h : ms.Pairwise fun m m' => ∃ name name', m.Names name ∧ m'.Names name' ∧ name ≠ name') :
    FieldsOnce ms := by
  refine h.imp fun ⟨name, name', hname, hname', hne⟩ field hfield hfield' => hne ?_
  rw [names_unique hname hfield, names_unique hname' hfield']

/-! ### Files -/

theorem begins_record {b : Bracket} (h : IsRecord f cs) : Begins b cs := by
  cases h with
  | object h _ => exact begins_bracketed h
  | list h _ => exact begins_bracketed h

theorem reads_recordList (h : IsRecordList records cs) : Reads (readList readFacts) records cs := by
  obtain ⟨items, h, hitems⟩ := h
  exact readList_bracketed h (hitems.imp fun _ _ h => ⟨begins_record h, reads_record h⟩)

theorem readFileMember_other (found : Option (List Facts)) (hname : name ≠ datesName)
    (hvalue : Value m.value) (hrest : NoNumeral rest) :
    readFileMember found name.toList (m.afterName rest) = .ok (found, rest) := by
  have hne : name.toList ≠ datesName.toList := mt String.toList_inj.1 hname
  simp only [readFileMember, if_neg hne, skipMember_value hvalue hrest, Except.map, reading_ok]

theorem readFileMember_dates (h : IsRecordList records m.value) (rest : List Char) :
    readFileMember none datesName.toList (m.afterName rest) = .ok (some records, rest) := by
  simp only [readFileMember, if_true, Option.isSome_none, Bool.false_eq_true, if_false,
    expectColon_afterName, reads_recordList h m.afterColon rest, reading_ok, bind, Except.bind]

theorem memberRun_others (found : Option (List Facts)) (h : ∀ m ∈ ms, IsOther [datesName] m) :
    MemberRun readFileMember found ms found := by
  induction ms with
  | nil => exact .nil
  | cons m ms ih =>
    obtain ⟨name, hname, hother, hvalue⟩ := h m List.mem_cons_self
    have hne := List.ne_of_not_mem_cons hother
    exact .cons hname (fun rest => readFileMember_other found hne hvalue)
      (ih fun m' hm' => h m' (List.mem_cons_of_mem m hm'))

/-- A data file is read from any text that holds its records. -/
theorem reads_file (h : IsDataFile records cs) : Reads readFile records cs := by
  intro spaces rest
  cases h with
  | @object before after m _ h hname hrecords hothers =>
    have hrun : MemberRun readFileMember none (before ++ m :: after) (some records) :=
      (memberRun_others none fun other hmem => hothers other (List.mem_append_left _ hmem)).append
        (.cons hname (fun rest _ => readFileMember_dates hrecords rest)
          (memberRun_others _ fun other hmem => hothers other (List.mem_append_right _ hmem)))
    obtain ⟨cs', hcs, hread⟩ := readMembers_object hrun h rest
    have hfile : fileFromObject cs' = .ok (records, '}' :: rest) := by
      simp only [fileFromObject, hread cs' (Nat.le_refl _), bind, Except.bind]
    rw [hcs]
    exact readRecord_object spaces hfile
  | @list item _ h hrecords =>
    have hbegins : Begins .list item := by
      obtain ⟨_, hitems, -⟩ := hrecords
      exact begins_bracketed hitems
    cases h with
    | cons spaces' h =>
      cases h with
      | nil spaces'' =>
        simp only [List.cons_append, List.append_assoc]
        refine readRecord_list spaces spaces'' ?_
        simp only [fileFromList, nextElement_first spaces' hbegins,
          (reads_recordList hrecords).eq_ok, reading_ok]
        rfl

/-- The records of a text are decoded, with any space around it. -/
theorem decode_file (h : IsDataFile records cs) (before after : Spaces) :
    decode (before.chars ++ (cs ++ after.chars)) = .ok records :=
  readWhole_reads (reads_file h) before after

/-- A record is decoded from every text that holds it, alone and among others. No object that
repeats a field or lacks the key is decoded, whatever follows it. -/
theorem decode_any_layout :
    (∀ (f : Facts) (text : List Char) (before after : Spaces), IsRecord f text →
      decodeFacts (before.chars ++ (text ++ after.chars)) = .ok f) ∧
    (∀ (records : List Facts) (text : List Char) (before after : Spaces), IsDataFile records text →
      decode (before.chars ++ (text ++ after.chars)) = .ok records) ∧
    ∀ (members : List MemberText) (text : List Char) (before : Spaces) (rest : List Char),
      IsObject members text → (∀ m ∈ members, Letters m.name) → (∀ m ∈ members, Value m.value) →
      (¬ FieldsOnce members ∨ ∀ m ∈ members, ¬ m.Names Field.key.name) →
      ∀ f, decodeFacts (before.chars ++ (text ++ rest)) ≠ .ok f ∧
        ∀ rest', readFacts (before.chars ++ (text ++ rest)) ≠ .ok (f, rest') := by
  refine ⟨fun f text before after h => readWhole_reads (reads_record h) before after,
    fun records text before after h => decode_file h before after, ?_⟩
  intro members text before rest hobject hletters hvalues hfault f
  have hread (rest' : List Char) : readFacts (before.chars ++ (text ++ rest)) ≠ .ok (f, rest') := by
    intro hread
    obtain ⟨honce, m, hm, hkey⟩ := fields_of_readFacts hobject hletters hvalues before hread
    exact hfault.elim (fun h => h honce) fun h => h m hm hkey
  refine ⟨fun hdecode => ?_, hread⟩
  obtain ⟨rest', hrest⟩ := ok_of_readWhole hdecode
  exact hread rest' hrest

/-- A member with no space in it. -/
def denseMember (name value : String) : MemberText := ⟨name.toList, .none, .none, value.toList⟩

def sampleKey : DayKey := ⟨5, 1, by decide, by decide⟩

/-- The key stands last, behind a text with an escape in its name and a member no field reads. -/
def rearranged : List MemberText :=
  [denseMember "x" "[[]]", denseMember "n\\u0061medays" "\"\"", denseMember "date" "\"0501\""]

theorem isText_sampleKey : IsText sampleKey.text "\"0501\"".toList :=
  ⟨"0501".toList, spells_self (by decide), by decide⟩

theorem isDataFile_sampleKey :
    IsDataFile [⟨sampleKey, none, none, none⟩] "[[[\"0501\"]]]".toList := by
  have hlist : IsRecord ⟨sampleKey, none, none, none⟩ "[\"0501\"]".toList :=
    .list (.cons .none (.nil .none)) (.cons isText_sampleKey (.leftOut (by simp [textOf])))
  exact .list (.cons .none (.nil .none)) ⟨_, .cons .none (.nil .none), .cons hlist .nil⟩

theorem recordMembers_rearranged : RecordMembers ⟨sampleKey, some "", none, none⟩ rearranged := by
  have hcode : CodeUnit 'a'.toNat "0061".toList :=
    @CodeUnit.mk _ 0 0 6 1 _ _ _ _ ⟨by decide, .inl rfl⟩ ⟨by decide, .inl rfl⟩ ⟨by decide, .inl rfl⟩
      ⟨by decide, .inl rfl⟩ rfl
  have hother : (denseMember "x" "[[]]").Names "x" := spells_self (by decide)
  have hnames : (denseMember "n\\u0061medays" "\"\"").Names Field.names.name :=
    .simple (.plain (by decide) (by decide) (by decide)) (.unit hcode (spells_self (by decide)))
  have hkey : (denseMember "date" "\"0501\"").Names Field.key.name := spells_self (by decide)
  have hempty : Value "[]".toList := @Value.list [] _ (.nil .none) (by simp)
  have hlist : Bracketed .list ["[]".toList] "[[]]".toList := .cons .none (.nil .none)
  have hvalue : Value "[[]]".toList :=
    .list hlist fun item hitem => List.mem_singleton.1 hitem ▸ hempty
  constructor
  · intro m hm
    simp only [rearranged, List.mem_cons, List.not_mem_nil, or_false] at hm
    rcases hm with rfl | rfl | rfl
    · exact .inr ⟨"x", hother, by decide, hvalue⟩
    · exact .inl ⟨.names, hnames, [], .nil, rfl⟩
    · exact .inl ⟨.key, hkey, isText_sampleKey⟩
  · refine fieldsOnce_of_pairwise (.cons ?_ (.cons ?_ (.cons ?_ .nil)))
    all_goals simp only [List.mem_cons, List.not_mem_nil, or_false, forall_eq_or_imp, forall_eq]
    · exact ⟨⟨_, _, hother, hnames, by decide⟩, ⟨_, _, hother, hkey, by decide⟩⟩
    · exact ⟨_, _, hnames, hkey, by decide⟩
    · simp
  · intro field htext
    cases field with
    | key => exact ⟨_, by simp [rearranged], hkey⟩
    | names => exact ⟨_, by simp [rearranged], hnames⟩
    | holiday | worldDay => exact absurd rfl htext

theorem decode_any_layout_of_rearranged :
    decodeFacts "\x7b\"x\":[[]],\"n\\u0061medays\":\"\",\"date\":\"0501\"\x7d".toList =
      .ok ⟨sampleKey, some "", none, none⟩ ∧
    decode "[[[\"0501\"]]]".toList = .ok [⟨sampleKey, none, none, none⟩] ∧
    ∀ f, decodeFacts "\x7b\"date\":\"0501\",\"date\":\"0501\"\x7d".toList ≠ .ok f := by
  have hobject : IsObject rearranged
      "\x7b\"x\":[[]],\"n\\u0061medays\":\"\",\"date\":\"0501\"\x7d".toList :=
    .cons .none (.cons .none .none (.cons .none .none (.nil .none)))
  let m := denseMember "date" "\"0501\""
  have hname : m.Names Field.key.name := spells_self (by decide)
  have hvalue : Value m.value :=
    @Value.text "0501".toList (letters_of_spells (spells_self (by decide)))
  have htwice : IsObject [m, m] "\x7b\"date\":\"0501\",\"date\":\"0501\"\x7d".toList :=
    .cons .none (.cons .none .none (.nil .none))
  have honce : ¬ FieldsOnce [m, m] :=
    fun h => (List.pairwise_cons.1 h).1 m List.mem_cons_self .key hname hname
  refine ⟨decode_any_layout.1 _ _ .none .none (.object hobject recordMembers_rearranged),
    decode_any_layout.2.1 _ _ .none .none isDataFile_sampleKey, fun f => ?_⟩
  refine (decode_any_layout.2.2 [m, m] _ .none [] htwice (fun m' hm' => ?_) (fun m' hm' => ?_)
    (.inl honce) f).1
  · obtain rfl : m' = m := by simpa using hm'
    exact letters_of_spells hname
  · obtain rfl : m' = m := by simpa using hm'
    exact hvalue

end Almanac.DataFile
