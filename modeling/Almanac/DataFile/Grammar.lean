import Almanac.DataFile.Decode
import Almanac.Json.Grammar
import Mathlib.Data.List.Forall2

/-!
The grammar of data files, apart from their readers: which texts hold a record, and which hold a
list of them. A record is an object or a list; nothing is said of the order of members, of their
spaces and spelling, or of members with other names.
-/

namespace Almanac.DataFile
open Json

/-- What is written for a field of a record. -/
def textOf (f : Facts) : Field → Option String
  | .key => some f.key.text
  | .names => f.names
  | .holiday => f.holiday
  | .worldDay => f.worldDay

def fieldNames : List String := Field.all.map Field.name

/-- A member that is not asked for: any value by another name. -/
def IsOther (known : List String) (m : MemberText) : Prop :=
  ∃ name, m.Names name ∧ name ∉ known ∧ Value m.value

/-- No name of a field stands twice. -/
def FieldsOnce (members : List MemberText) : Prop :=
  members.Pairwise fun m m' => ∀ field : Field, m.Names field.name → ¬ m'.Names field.name

/-- The members of an object that holds a record, in any order. An absent field may be left out. -/
structure RecordMembers (f : Facts) (members : List MemberText) : Prop where
  each : ∀ m ∈ members,
    (∃ field, m.Names field.name ∧ IsOptionalText (textOf f field) m.value) ∨ IsOther fieldNames m
  once : FieldsOnce members
  complete : ∀ field, textOf f field ≠ none → ∃ m ∈ members, m.Names field.name

/-- Texts by their place. The last ones may be left out where there are none. -/
inductive ByPlace : List (Option String) → List (List Char) → Prop
  | leftOut {texts : List (Option String)} (h : ∀ text ∈ texts, text = none) : ByPlace texts []
  | cons {text : Option String} {texts : List (Option String)} {item : List Char}
    {items : List (List Char)} (h : IsOptionalText text item) (htail : ByPlace texts items) :
    ByPlace (text :: texts) (item :: items)

inductive IsRecord (f : Facts) : List Char → Prop
  | object {members : List MemberText} {cs : List Char} (h : IsObject members cs)
    (hmembers : RecordMembers f members) : IsRecord f cs
  | list {items : List (List Char)} {cs : List Char} (h : Bracketed .list items cs)
    (hitems : ByPlace (Field.all.map (textOf f)) items) : IsRecord f cs

/-- A list with these records, in their order. -/
def IsRecordList (records : List Facts) (cs : List Char) : Prop :=
  ∃ items, Bracketed .list items cs ∧ List.Forall₂ IsRecord records items

inductive IsDataFile (records : List Facts) : List Char → Prop
  | object {before after : List MemberText} {m : MemberText} {cs : List Char}
    (h : IsObject (before ++ m :: after) cs) (hname : m.Names datesName)
    (hrecords : IsRecordList records m.value)
    (hothers : ∀ other ∈ before ++ after, IsOther [datesName] other) : IsDataFile records cs
  | list {item cs : List Char} (h : Bracketed .list [item] cs)
    (hrecords : IsRecordList records item) : IsDataFile records cs

end Almanac.DataFile
