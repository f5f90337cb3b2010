import Almanac.Proofs.Stores
import Almanac.Proofs.Unreadable

/-! A store is built of records whose days differ, in whatever order they come, and the first record
of a day that an earlier one has is named otherwise. Of a text, all records are read before. -/

namespace Almanac

namespace Store
variable {s t : Store} {records others : List Facts} {facts : Facts} {key : DayKey}
  {path path' : String} {result result' : Except LoadError Store}

/-- The first of some records whose day a record before it has. -/
def FirstRepeat (records : List Facts) (facts : Facts) : Prop :=
  ∃ before after, records = before ++ facts :: after ∧ (before.map Facts.key).Nodup ∧
    facts.key ∈ before.map Facts.key

theorem perm_of_insertAll (h : s.insertAll records = .ok t) :
    t.records.Perm (s.records ++ records) := by
  induction records generalizing s with
  | nil =>
    cases h
    simp
  | cons facts rest ih =>
    unfold insertAll at h
    split at h
    · cases h
    next hfresh =>
      have hperm := insert_perm (Option.not_isSome_iff_eq_none.1 hfresh)
      exact (ih h).trans ((hperm.append_right rest).trans List.perm_middle.symm)

/-- Adding stops at a record whose day the store or a record before it has. -/
theorem insertAll_eq_error_iff :
    s.insertAll records = .error key ↔
      ∃ before facts after, records = before ++ facts :: after ∧ facts.key = key ∧
        ((s.records ++ before).map Facts.key).Nodup ∧
        key ∈ (s.records ++ before).map Facts.key := by
  induction records generalizing s with
  | nil => simp [insertAll]
  | cons facts rest ih =>
    unfold insertAll
    by_cases hmem : facts.key ∈ s.records.map Facts.key
    · have hsome : (s.lookup facts.key).isSome := by
        rw [Option.isSome_iff_ne_none, Ne, lookup_eq_none, not_not]
        exact hmem
      rw [if_pos hsome, Except.error.injEq]
      constructor
      · rintro rfl
        exact ⟨[], facts, rest, rfl, rfl, by simpa using s.nodup_keys, by simpa using hmem⟩
      · rintro ⟨before, other, after, heq, hkey, hnodup, -⟩
        cases before with
        | nil => rw [(List.cons.inj heq).1, hkey]
        | cons head before =>
          rw [← (List.cons.inj heq).1, (List.perm_middle.map Facts.key).nodup_iff, List.map_cons,
            List.nodup_cons, List.map_append, List.mem_append] at hnodup
          exact (hnodup.1 (.inl hmem)).elim
    · have hfresh : s.lookup facts.key = none := lookup_eq_none.2 hmem
      have hperm (before : List Facts) :
          (((s.insert facts).records ++ before).map Facts.key).Perm
            ((s.records ++ facts :: before).map Facts.key) :=
        (((insert_perm hfresh).append_right before).trans List.perm_middle.symm).map _
      rw [if_neg (by simp [hfresh]), ih]
      constructor
      · rintro ⟨before, other, after, rfl, hkey, hnodup, hold⟩
        exact ⟨facts :: before, other, after, rfl, hkey, (hperm before).nodup_iff.1 hnodup,
          (hperm before).mem_iff.1 hold⟩
      · rintro ⟨before, other, after, heq, hkey, hnodup, hold⟩
        cases before with
        | nil =>
          rw [← (List.cons.inj heq).1] at hkey
          rw [List.append_nil, ← hkey] at hold
          exact (hmem hold).elim
        | cons head before =>
          obtain ⟨rfl, rfl⟩ := List.cons.inj heq
          exact ⟨before, other, after, rfl, hkey, (hperm before).nodup_iff.2 hnodup,
            (hperm before).mem_iff.2 hold⟩

theorem ofRecords_eq_error_iff :
    ofRecords records = .error key ↔ ∃ facts, FirstRepeat records facts ∧ facts.key = key := by
  rw [ofRecords, insertAll_eq_error_iff]
  constructor
  · rintro ⟨before, facts, after, heq, rfl, hnodup, hmem⟩
    exact ⟨facts, ⟨before, after, heq, hnodup, hmem⟩, rfl⟩
  · rintro ⟨facts, ⟨before, after, heq, hnodup, hmem⟩, rfl⟩
    exact ⟨before, facts, after, heq, rfl, hnodup, hmem⟩

theorem perm_of_ofRecords (h : ofRecords records = .ok s) : s.records.Perm records :=
  perm_of_insertAll h

theorem ofRecords_isOk_iff :
    (∃ s, ofRecords records = .ok s) ↔ (records.map Facts.key).Nodup := by
  constructor
  · rintro ⟨s, h⟩
    exact ((perm_of_ofRecords h).map Facts.key).nodup_iff.1 s.nodup_keys
  · intro h
    obtain ⟨s, hs, -⟩ := insertAll_of_nodup (s := empty) h
    exact ⟨s, hs⟩

/-- The order of the records does not matter to the store. -/
theorem ofRecords_of_perm (h : ofRecords records = .ok s) (hperm : others.Perm records) :
    ofRecords others = .ok s := by
  have hnodup := (hperm.map Facts.key).nodup_iff.2 (ofRecords_isOk_iff.1 ⟨s, h⟩)
  obtain ⟨t, ht⟩ := ofRecords_isOk_iff.2 hnodup
  have hsame : t.records.Perm s.records :=
    ((perm_of_ofRecords ht).trans hperm).trans (perm_of_ofRecords h).symm
  rw [ht, eq_of_perm hsame]

/-- The store has these records, in calendar order, and finds each by its day. -/
structure Holds (s : Store) (records : List Facts) : Prop where
  perm : s.records.Perm records
  sorted : s.records.Pairwise fun a b => a.key < b.key
  size_eq : s.size = records.length
  size_le : s.size ≤ 366
  found : ∀ key facts, s.lookup key = some facts ↔ facts ∈ records ∧ facts.key = key
  missing : ∀ key, s.lookup key = none ↔ ∀ facts ∈ records, facts.key ≠ key

theorem holds_of_ofRecords (h : ofRecords records = .ok s) : s.Holds records := by
  have hperm := perm_of_ofRecords h
  refine ⟨hperm, s.records_sorted, ?_, s.size_le, fun key facts => ?_, fun key => ?_⟩
  · rw [← records_length, hperm.length_eq]
  · rw [lookup_eq_some, hperm.mem_iff]
  · simp only [lookup_eq_none, List.mem_map, not_exists, not_and, hperm.mem_iff]

theorem build_eq_ok_iff : build path records = .ok s ↔ ofRecords records = .ok s := by
  unfold build
  cases ofRecords records <;> simp

theorem build_eq_error_iff {e : LoadError} :
    build path records = .error e ↔
      ∃ facts, FirstRepeat records facts ∧ e = .repeatedDay path facts.key := by
  have herror (key : DayKey) : ofRecords records = .error key ↔
      ∃ facts, FirstRepeat records facts ∧ facts.key = key := ofRecords_eq_error_iff
  unfold build
  cases hresult : ofRecords records with
  | ok s =>
    simp only [reduceCtorEq, false_iff, not_exists, not_and]
    intro facts hfirst
    cases hresult.symm.trans ((herror facts.key).2 ⟨facts, hfirst, rfl⟩)
  | error key =>
    simp only [Except.error.injEq]
    constructor
    · rintro rfl
      obtain ⟨facts, hfirst, rfl⟩ := (herror key).1 hresult
      exact ⟨facts, hfirst, rfl⟩
    · rintro ⟨facts, hfirst, rfl⟩
      rw [Except.error.inj (hresult.symm.trans ((herror facts.key).2 ⟨facts, hfirst, rfl⟩))]

/-- What comes of a text, which is given as it is or found in a file. -/
inductive FromText : Except LoadError Store → String → String → Prop
  | given (text : String) : FromText (ofText text) "<string>" text
  | file {read : Reader} {path text : String} (hread : read path = .ok text) :
    FromText (load read path) path text

/-- What comes of records, which are given as they are or read from a text. -/
inductive FromRecords : Except LoadError Store → String → List Facts → Prop
  | given (records : List Facts) : FromRecords (ofFacts records) "<memory>" records
  | decoded {result : Except LoadError Store} {path text : String} {records : List Facts}
    (htext : FromText result path text) (hdecode : DataFile.decode text.toList = .ok records) :
    FromRecords result path records

theorem eq_parse {text : String} (h : FromText result path text) : result = parse path text := by
  cases h with
  | given => rfl
  | file hread => rw [load, hread]

theorem eq_build (h : FromRecords result path records) : result = build path records := by
  cases h with
  | given => rfl
  | decoded htext hdecode => rw [eq_parse htext, parse, hdecode]

/-- Records make a store exactly if their days differ. It holds them and nothing else, whatever
their order was; else the first record of a day that was there is named. A text with a fault in it,
before or behind a repeated day, is malformed. -/
theorem built_from_distinct_days :
    (∀ result path records, FromRecords result path records →
      ((∃ s, result = .ok s) ↔ (records.map Facts.key).Nodup) ∧
      (∀ s, result = .ok s → s.Holds records ∧ ∀ result' path' others,
        FromRecords result' path' others → others.Perm records → result' = .ok s) ∧
      (∀ e, result = .error e ↔
        ∃ facts, FirstRepeat records facts ∧ e = .repeatedDay path facts.key)) ∧
    (∀ result path text, FromText result path text →
      (∀ source key, result = .error (.repeatedDay source key) →
        ∃ records, DataFile.decode text.toList = .ok records) ∧
      (∀ e, DataFile.decode text.toList = .error e → result = .error (.malformed path e)) ∧
      (∀ records c cs f, text.toList = DataFile.fileThen records (c :: cs) →
        Json.isSpace c = false → c ≠ ']' → DataFile.readFacts (c :: cs) = .error f →
        result = .error (.malformed path (f.error text.toList))) ∧
      (∀ records rest, text.toList = DataFile.encode records ++ rest → ¬ rest.all Json.isSpace →
        ∃ e, e.fault = .trailingCharacters ∧ result = .error (.malformed path e))) := by
  constructor
  · intro result path records h
    obtain rfl := eq_build h
    refine ⟨?_, fun s hs => ⟨?_, ?_⟩, fun e => build_eq_error_iff⟩
    · simp only [build_eq_ok_iff, ofRecords_isOk_iff]
    · exact holds_of_ofRecords (build_eq_ok_iff.1 hs)
    · intro result' path' others h' hperm
      rw [eq_build h', build_eq_ok_iff]
      exact ofRecords_of_perm (build_eq_ok_iff.1 hs) hperm
  · intro result path text h
    obtain rfl := eq_parse h
    have hmalformed (e : Json.Error) (he : DataFile.decode text.toList = .error e) :
        parse path text = .error (.malformed path e) := by
      rw [parse, he]
    refine ⟨fun source key hrepeat => ?_, hmalformed, ?_, ?_⟩
    · cases hdecode : DataFile.decode text.toList with
      | ok records => exact ⟨records, rfl⟩
      | error e => cases hrepeat.symm.trans (hmalformed e hdecode)
    · intro records c cs f htext hc hend hfail
      exact hmalformed _ (htext ▸ DataFile.decode_fileThen records hc hend hfail)
    · intro records rest htext hrest
      exact ⟨_, rfl, hmalformed _ (htext ▸ DataFile.decode_encode_then records hrest)⟩

theorem built_from_two_days :
    let christmas : Facts := ⟨⟨12, 25, by decide, by decide⟩, none, some "a", none⟩
    let leapDay : Facts := ⟨⟨2, 29, by decide, by decide⟩, some "", none, none⟩
    (∃ s, ofFacts [christmas, leapDay] = .ok s ∧ s.Holds [christmas, leapDay] ∧
      ofFacts [leapDay, christmas] = .ok s) ∧
    ofFacts [christmas, leapDay, leapDay, christmas] =
      .error (.repeatedDay "<memory>" leapDay.key) ∧
    ∃ e, ofText (String.ofList (DataFile.fileThen [leapDay, leapDay] ['x'])) =
      .error (.malformed "<string>" e) := by
  intro christmas leapDay
  obtain ⟨hrecords, htexts⟩ := built_from_distinct_days
  refine ⟨?_, ?_, ?_⟩
  · obtain ⟨hiff, hholds, -⟩ := hrecords _ _ _ (.given [christmas, leapDay])
    obtain ⟨s, hs⟩ := hiff.2 (by decide)
    obtain ⟨hs', hperm⟩ := hholds s hs
    exact ⟨s, hs, hs', hperm _ _ _ (.given [leapDay, christmas]) (.swap _ _ _)⟩
  · refine ((hrecords _ _ _ (.given [christmas, leapDay, leapDay, christmas])).2.2 _).2 ?_
    exact ⟨leapDay, ⟨[christmas, leapDay], [christmas], rfl, by decide, by decide⟩, rfl⟩
  · exact ⟨_, (htexts _ _ _ (.given _)).2.2.1 [leapDay, leapDay] 'x' [] _ (String.toList_ofList ..)
      (by decide) (by decide) rfl⟩

end Store
end Almanac
