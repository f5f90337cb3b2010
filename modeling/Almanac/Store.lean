import Almanac.DayTable

/-!
What is known about the days of the year, and a store of it: at most one record for a day, in
calendar order. `Store.ofRecords` builds one from records in any order and refuses a second record
of a day.
-/

namespace Almanac

/-- What is known about one day. A fact is absent when nothing is written for it or the written text
is empty. -/
structure Facts where
  key : DayKey
  /-- The names that celebrate, as written. -/
  names : Option String
  /-- The public holiday with a fixed date, as written. -/
  holiday : Option String
  /-- The world day or memorial day, as written. -/
  worldDay : Option String
deriving DecidableEq, Repr

namespace Facts

/-- The written text, unless it is empty. -/
def present (written : Option String) : Option String := written.filter (· ≠ "")

def presentNames (f : Facts) : Option String := present f.names

def presentHoliday (f : Facts) : Option String := present f.holiday

def presentWorldDay (f : Facts) : Option String := present f.worldDay

@[simp] theorem present_none : present none = none := rfl

@[simp] theorem present_empty : present (some "") = none := rfl

theorem present_some {s : String} (h : s ≠ "") : present (some s) = some s := by
  simp [present, h]

theorem present_bind (record : Option Facts) (field : Facts → Option String) :
    (record.bind fun facts => present (field facts)) = present (record.bind field) := by
  cases record <;> rfl

end Facts

structure Store where
  table : DayTable Facts
  keyed : ∀ row ∈ table.rows, row.2.key = row.1

namespace Store
variable {s t : Store}

theorem ext_table (h : s.table = t.table) : s = t := by
  cases s; cases t; simp_all

def empty : Store := ⟨∅, fun _ h => nomatch h⟩

instance : EmptyCollection Store := ⟨empty⟩

/-- The records in calendar order. -/
def records (s : Store) : List Facts := s.table.values

def size (s : Store) : Nat := s.table.size

def lookup (s : Store) (key : DayKey) : Option Facts := s.table.lookup key

/-- Adds a record, in the place of an earlier one of its day. -/
def insert (s : Store) (facts : Facts) : Store :=
  ⟨s.table.insert facts.key facts, fun row h => by
    rcases DayTable.mem_of_mem_insertRow h with rfl | h
    · rfl
    · exact s.keyed row h⟩

/-- Adds records one after another up to the first whose day has one, and names that day. -/
def insertAll (s : Store) : List Facts → Except DayKey Store
  | [] => .ok s
  | facts :: rest =>
    if (s.lookup facts.key).isSome then .error facts.key else (s.insert facts).insertAll rest

def ofRecords (records : List Facts) : Except DayKey Store := empty.insertAll records

theorem lookup_insert (facts : Facts) (key : DayKey) :
    (s.insert facts).lookup key = if facts.key = key then some facts else s.lookup key :=
  DayTable.lookup_insert _

theorem records_length : s.records.length = s.size := by
  simp [records, size, DayTable.values, DayTable.size]

end Store
end Almanac
