import Almanac.Date
import Almanac.Text

/-!
Day keys: a day of the year without the year, written `MMDD`. The 29th of February is one of the
366 keys. Keys are ordered by month, then by day.
-/

namespace Almanac

/-- Why a text or a pair of numbers is no day key. -/
inductive DayKeyError
  | format (input : String)
  | outOfRange (month day : Nat)
deriving DecidableEq, Repr

def DayKeyError.message : DayKeyError → String
  | format input => "day key must be four digits in MMDD form, got '" ++ input ++ "'"
  | outOfRange month day =>
    "day key " ++ String.ofList (Decimal.padded 2 month ++ Decimal.padded 2 day) ++
      " is not a calendar day"

structure DayKey where
  month : Nat
  day : Nat
  day_pos : 1 ≤ day
  day_le : day ≤ monthLength true month
deriving Repr

namespace DayKey
variable {k l m : DayKey}

theorem ext_parts (hm : k.month = l.month) (hd : k.day = l.day) : k = l := by
  cases k; cases l; simp_all

instance : DecidableEq DayKey := fun k l =>
  decidable_of_iff (k.month = l.month ∧ k.day = l.day)
    ⟨fun h => ext_parts h.1 h.2, fun h => ⟨congrArg month h, congrArg day h⟩⟩

theorem month_bounds (k : DayKey) : 1 ≤ k.month ∧ k.month ≤ 12 :=
  month_bounds_of_monthLength_pos (Nat.lt_of_lt_of_le k.day_pos k.day_le)

def ofParts (month day : Nat) : Except DayKeyError DayKey :=
  if h : 1 ≤ day ∧ day ≤ monthLength true month then .ok ⟨month, day, h.1, h.2⟩
  else .error (.outOfRange month day)

/-- The key of a date, whatever its year. -/
def ofDate (d : Date) : DayKey :=
  ⟨d.month, d.day, d.day_pos, Nat.le_trans d.day_le (monthLength_le_leap _ _)⟩

theorem ofParts_parts (k : DayKey) : ofParts k.month k.day = .ok k := by
  simp [ofParts, k.day_pos, k.day_le]

def chars (k : DayKey) : List Char := Decimal.padded 2 k.month ++ Decimal.padded 2 k.day

def text (k : DayKey) : String := String.ofList k.chars

/-- Reads the four digits of a key. -/
def read (s : String) : Except DayKeyError DayKey :=
  match s.toList with
  | [m₁, m₂, d₁, d₂] =>
    match Decimal.read? [m₁, m₂], Decimal.read? [d₁, d₂] with
    | some month, some day => ofParts month day
    | _, _ => .error (.format s)
  | _ => .error (.format s)

protected def Before (k l : DayKey) : Prop :=
  k.month < l.month ∨ k.month = l.month ∧ k.day < l.day

instance : LT DayKey := ⟨DayKey.Before⟩

instance (k l : DayKey) : Decidable (k < l) := inferInstanceAs (Decidable (_ ∨ _ ∧ _))

theorem lt_iff : k < l ↔ k.month < l.month ∨ k.month = l.month ∧ k.day < l.day := Iff.rfl

theorem lt_irrefl (k : DayKey) : ¬ k < k := by
  rw [lt_iff]; omega

theorem lt_trans (h : k < l) (h' : l < m) : k < m := by
  rw [lt_iff] at *; omega

theorem lt_of_not_lt_of_ne (h : ¬ k < l) (hne : k ≠ l) : l < k := by
  have : ¬ (k.month = l.month ∧ k.day = l.day) := fun e => hne (ext_parts e.1 e.2)
  rw [lt_iff] at *; omega

/-- Keys in their order. -/
def sort (keys : List DayKey) : List DayKey := keys.mergeSort fun k l => ¬ l < k

theorem sort_perm (keys : List DayKey) : (sort keys).Perm keys := List.mergeSort_perm _ _

end DayKey
end Almanac
