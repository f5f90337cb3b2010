import Almanac.Store
import Mathlib.Algebra.BigOperators.Fin
import Mathlib.Data.Fintype.BigOperators

/-! A store is its set of records: two stores with the same records are one, and records with
distinct keys make a store in whatever order they come. There are as many day keys as days in a leap
year; so a store has no more records than that, and with all of them it has one for every day. -/

namespace Almanac

theorem DayKey.ne_of_lt {k l : DayKey} (h : k < l) : k ≠ l := by
  rintro rfl
  exact lt_irrefl k h

namespace DayTable
variable {α : Type} {key k : DayKey} {value : α} {rows : List (DayKey × α)}

theorem lookupRow_eq_none : lookupRow k rows = none ↔ k ∉ rows.map Prod.fst := by
  simp only [lookupRow, Option.map_eq_none_iff, List.find?_eq_none, List.mem_map, not_exists,
    not_and, decide_eq_true_eq]

theorem insertRow_perm (h : key ∉ rows.map Prod.fst) :
    (insertRow key value rows).Perm ((key, value) :: rows) := by
  induction rows with
  | nil => exact .refl _
  | cons head tail ih =>
    simp only [List.map_cons, List.mem_cons, not_or] at h
    unfold insertRow
    split
    · exact .refl _
    · rw [if_neg h.1]
      exact ((ih h.2).cons head).trans (.swap _ _ _)

theorem nodup_keys (t : DayTable α) : (t.rows.map Prod.fst).Nodup := by
  rw [List.Nodup, List.pairwise_map]
  exact t.sorted.imp DayKey.ne_of_lt

theorem lookup_eq_some {t : DayTable α} : t.lookup k = some value ↔ (k, value) ∈ t.rows := by
  have hfound (v : α) (h : t.lookup k = some v) : (k, v) ∈ t.rows := by
    obtain ⟨row, hrow, rfl⟩ := Option.map_eq_some_iff.1 h
    have hkey : row.1 = k := by simpa using List.find?_some hrow
    rw [← hkey]
    exact List.mem_of_find?_eq_some hrow
  constructor
  · exact hfound value
  · intro hmem
    have hsome : t.lookup k ≠ none := fun hnone =>
      lookupRow_eq_none.1 hnone (List.mem_map_of_mem hmem)
    obtain ⟨v, hv⟩ := Option.ne_none_iff_exists'.1 hsome
    have hrow := List.inj_on_of_nodup_map t.nodup_keys (hfound v hv) hmem rfl
    rw [hv, (Prod.mk.inj hrow).2]

end DayTable

namespace Store
variable {s t : Store} {facts : Facts} {records : List Facts} {key : DayKey}

theorem rows_eq (s : Store) : s.table.rows = s.records.map fun facts => (facts.key, facts) := by
  rw [records, DayTable.values, List.map_map]
  calc s.table.rows = s.table.rows.map id := (List.map_id _).symm
    _ = _ := List.map_congr_left fun row hrow => by simp [s.keyed row hrow]

theorem keys_eq (s : Store) : s.table.rows.map Prod.fst = s.records.map Facts.key := by
  rw [rows_eq, List.map_map]
  rfl

theorem records_sorted (s : Store) : s.records.Pairwise fun a b => a.key < b.key := by
  have h := s.table.sorted
  rw [rows_eq, List.pairwise_map] at h
  exact h

theorem ext_records (h : s.records = t.records) : s = t := by
  refine ext_table (DayTable.ext_rows ?_)
  rw [rows_eq, rows_eq, h]

/-- Stores that hold the same records are equal. -/
theorem eq_of_perm (h : s.records.Perm t.records) : s = t := by
  have hasymm : ∀ a b : Facts, a ∈ s.records → b ∈ t.records → a.key < b.key → b.key < a.key →
      a = b := by
    intro a b _ _ hab hba
    exact (DayKey.lt_irrefl _ (DayKey.lt_trans hab hba)).elim
  exact ext_records (h.eq_of_pairwise hasymm s.records_sorted t.records_sorted)

theorem lookup_eq_none : s.lookup key = none ↔ key ∉ s.records.map Facts.key := by
  rw [← keys_eq]
  exact DayTable.lookupRow_eq_none

theorem lookup_eq_some : s.lookup key = some facts ↔ facts ∈ s.records ∧ facts.key = key := by
  rw [lookup, DayTable.lookup_eq_some, rows_eq, List.mem_map]
  constructor
  · rintro ⟨found, hmem, heq⟩
    obtain ⟨rfl, rfl⟩ := Prod.mk.inj heq
    exact ⟨hmem, rfl⟩
  · rintro ⟨hmem, rfl⟩
    exact ⟨facts, hmem, rfl⟩

theorem insert_perm (h : s.lookup facts.key = none) :
    (s.insert facts).records.Perm (facts :: s.records) := by
  rw [lookup_eq_none, ← keys_eq] at h
  exact (DayTable.insertRow_perm h).map Prod.snd

theorem nodup_keys (s : Store) : (s.records.map Facts.key).Nodup := by
  rw [← keys_eq]
  exact s.table.nodup_keys

/-- Records of distinct days that the store has not are added, all of them. -/
theorem insertAll_of_nodup (h : ((s.records ++ records).map Facts.key).Nodup) :
    ∃ t, s.insertAll records = .ok t ∧ t.records.Perm (s.records ++ records) := by
  induction records generalizing s with
  | nil => exact ⟨s, rfl, by simp⟩
  | cons facts rest ih =>
    have hperm : (s.records ++ facts :: rest).Perm ((facts :: s.records) ++ rest) :=
      List.perm_middle
    have hfresh : s.lookup facts.key = none := by
      have hnodup := (hperm.map Facts.key).nodup_iff.1 h
      rw [lookup_eq_none]
      simp only [List.cons_append, List.map_cons, List.nodup_cons, List.map_append,
        List.mem_append, not_or] at hnodup
      exact hnodup.1.1
    have hstep := ((insert_perm hfresh).append_right rest).trans hperm.symm
    obtain ⟨t, ht, htrecords⟩ := ih ((hstep.map Facts.key).nodup_iff.2 h)
    exact ⟨t, by simp [insertAll, hfresh, ht], htrecords.trans hstep⟩

theorem ofRecords_records (s : Store) : ofRecords s.records = .ok s := by
  have hnodup : ((empty.records ++ s.records).map Facts.key).Nodup := s.nodup_keys
  obtain ⟨t, ht, hperm⟩ := insertAll_of_nodup hnodup
  rw [ofRecords, ht, eq_of_perm hperm]

end Store

/-! ### How many days there are -/

namespace DayKey

/-- A key is a month and a day of that month, both counted from 0. -/
def equivDays : DayKey ≃ Σ month : Fin 12, Fin (monthLength true (month + 1)) where
  toFun k :=
    have hmonth := k.month_bounds
    have hsucc : k.month - 1 + 1 = k.month := Nat.sub_add_cancel hmonth.1
    ⟨⟨k.month - 1, by omega⟩, ⟨k.day - 1, by
      have := k.day_pos
      have := k.day_le
      simp only [hsucc]
      omega⟩⟩
  invFun place := ⟨place.1 + 1, place.2 + 1, Nat.succ_pos _, place.2.isLt⟩
  left_inv k := ext_parts (Nat.sub_add_cancel k.month_bounds.1) (Nat.sub_add_cancel k.day_pos)
  right_inv _ := rfl

instance : Fintype DayKey := .ofEquiv _ equivDays.symm

theorem card_eq : Fintype.card DayKey = 366 := by
  rw [Fintype.card_congr equivDays, Fintype.card_sigma]
  rfl

end DayKey

namespace Store

theorem card_keys (s : Store) : (s.records.map Facts.key).toFinset.card = s.size := by
  rw [List.toFinset_card_of_nodup s.nodup_keys, List.length_map, records_length]

theorem size_le (s : Store) : s.size ≤ 366 := by
  rw [← card_keys, ← DayKey.card_eq]
  exact Finset.card_le_univ _

/-- A store that lacks no day has 366 records, and only such a store has. -/
theorem full_iff (s : Store) : 366 ≤ s.size ↔ ∀ key, s.lookup key ≠ none := by
  have hmem (key : DayKey) : s.lookup key ≠ none ↔ key ∈ (s.records.map Facts.key).toFinset := by
    rw [Ne, lookup_eq_none, not_not, List.mem_toFinset]
  simp only [hmem, ← Finset.eq_univ_iff_forall, ← Finset.card_eq_iff_eq_univ, card_keys,
    DayKey.card_eq]
  have := s.size_le
  omega

end Store

end Almanac
