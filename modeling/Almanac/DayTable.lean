import Almanac.DayKey

/-!
Tables with one value for each of some days, kept in calendar order. `lookup_insert` says what an
insertion changes.
-/

namespace Almanac

structure DayTable (α : Type) where
  rows : List (DayKey × α)
  sorted : rows.Pairwise fun a b => a.1 < b.1

namespace DayTable
variable {α : Type} {key k : DayKey} {value : α} {row : DayKey × α} {rows : List (DayKey × α)}

instance : EmptyCollection (DayTable α) := ⟨⟨[], .nil⟩⟩

theorem ext_rows {s t : DayTable α} (h : s.rows = t.rows) : s = t := by
  cases s; cases t; simp_all

/-- Puts a row in its place, over a row of the same day. -/
def insertRow (key : DayKey) (value : α) : List (DayKey × α) → List (DayKey × α)
  | [] => [(key, value)]
  | row :: rows =>
    if key < row.1 then (key, value) :: row :: rows
    else if key = row.1 then (key, value) :: rows
    else row :: insertRow key value rows

theorem mem_of_mem_insertRow (h : row ∈ insertRow key value rows) :
    row = (key, value) ∨ row ∈ rows := by
  induction rows with
  | nil => simpa [insertRow] using h
  | cons head tail ih =>
    unfold insertRow at h
    split at h
    · simpa using h
    · split at h
      · rcases List.mem_cons.1 h with h | h
        · exact .inl h
        · exact .inr (List.mem_cons_of_mem _ h)
      · rcases List.mem_cons.1 h with h | h
        · exact .inr (h ▸ List.mem_cons_self)
        · exact (ih h).imp_right (List.mem_cons_of_mem _)

theorem sorted_insertRow (h : rows.Pairwise fun a b => a.1 < b.1) :
    (insertRow key value rows).Pairwise fun a b => a.1 < b.1 := by
  induction rows with
  | nil => simp [insertRow]
  | cons head tail ih =>
    obtain ⟨hhead, htail⟩ := List.pairwise_cons.1 h
    unfold insertRow
    split
    next hlt =>
      refine List.pairwise_cons.2 ⟨fun row hrow => ?_, h⟩
      rcases List.mem_cons.1 hrow with rfl | hrow
      · exact hlt
      · exact DayKey.lt_trans hlt (hhead row hrow)
    next hlt =>
      split
      next heq => exact List.pairwise_cons.2 ⟨fun row hrow => heq ▸ hhead row hrow, htail⟩
      next hne =>
        refine List.pairwise_cons.2 ⟨fun row hrow => ?_, ih htail⟩
        rcases mem_of_mem_insertRow hrow with rfl | hrow
        · exact DayKey.lt_of_not_lt_of_ne hlt hne
        · exact hhead row hrow

def insert (t : DayTable α) (key : DayKey) (value : α) : DayTable α :=
  ⟨insertRow key value t.rows, sorted_insertRow t.sorted⟩

def lookupRow (k : DayKey) (rows : List (DayKey × α)) : Option α :=
  (rows.find? fun row => row.1 = k).map (·.2)

def lookup (t : DayTable α) (k : DayKey) : Option α := lookupRow k t.rows

def size (t : DayTable α) : Nat := t.rows.length

def values (t : DayTable α) : List α := t.rows.map (·.2)

theorem lookupRow_insertRow :
    lookupRow k (insertRow key value rows) = if key = k then some value else lookupRow k rows := by
  induction rows with
  | nil => by_cases h : key = k <;> simp [insertRow, lookupRow, h]
  | cons head tail ih =>
    unfold insertRow
    split
    · by_cases h : key = k <;> simp [lookupRow, h]
    · split
      next heq => by_cases h : key = k <;> simp_all [lookupRow]
      next hne =>
        by_cases hk : head.1 = k
        · have : key ≠ k := fun e => hne (e.trans hk.symm)
          simp [lookupRow, hk, this]
        · simpa [lookupRow, hk] using ih

theorem lookup_insert (t : DayTable α) :
    (t.insert key value).lookup k = if key = k then some value else t.lookup k :=
  lookupRow_insertRow

@[simp] theorem lookup_empty : (∅ : DayTable α).lookup k = none := rfl

end DayTable
end Almanac
