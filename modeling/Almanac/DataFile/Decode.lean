import Almanac.Json.Record
import Almanac.Json.Skip
import Almanac.Store

/-!
Reading data files. The file is a record with the list `dates` of records, one a day: the day key
`date` and the optional texts `namedays`, `holidays` and `worldDay`. Fields of other names are
passed over, and a known field must not be repeated.
-/

namespace Almanac.DataFile
open Json

inductive Field
  | key | names | holiday | worldDay
deriving DecidableEq, Repr

namespace Field

def all : List Field := [key, names, holiday, worldDay]

def name : Field → String
  | key => "date"
  | names => "namedays"
  | holiday => "holidays"
  | worldDay => "worldDay"

def ofName? (name : List Char) : Option Field := all.find? (·.name.toList = name)

end Field

/-- The fields of a record that have been read; an optional field may have been read as absent. -/
structure Draft where
  key : Option DayKey
  names : Option (Option String)
  holiday : Option (Option String)
  worldDay : Option (Option String)

namespace Draft

def empty : Draft := ⟨none, none, none, none⟩

def has (d : Draft) : Field → Bool
  | .key => d.key.isSome
  | .names => d.names.isSome
  | .holiday => d.holiday.isSome
  | .worldDay => d.worldDay.isSome

end Draft

/-- Reads a day key. A text that is none is refused, not unreadable. -/
def readKey (cs : List Char) : Except Stop (DayKey × List Char) :=
  match readExpectedText cs with
  | .error f => .error (.failed f)
  | .ok (text, rest) =>
    match DayKey.read (String.ofList text) with
    | .ok key => .ok (key, rest)
    | .error e => .error (.refused (.invalidKey e) rest)

/-- Reads the value of a field. -/
def readField (d : Draft) (field : Field) (cs : List Char) : Except Stop (Draft × List Char) :=
  match field with
  | .key => do
    let (key, rest) ← readKey cs
    .ok ({ d with key := some key }, rest)
  | .names => do
    let (text, rest) ← reading (readOptionalText cs)
    .ok ({ d with names := some text }, rest)
  | .holiday => do
    let (text, rest) ← reading (readOptionalText cs)
    .ok ({ d with holiday := some text }, rest)
  | .worldDay => do
    let (text, rest) ← reading (readOptionalText cs)
    .ok ({ d with worldDay := some text }, rest)

/-- Passes over a member behind its name. -/
def skipMember (cs : List Char) : Except Failure (List Char) := do
  let rest ← expectColon cs
  skipValue rest

def readFactsMember (d : Draft) (name cs : List Char) : Except Stop (Draft × List Char) :=
  match Field.ofName? name with
  | none => reading ((skipMember cs).map (d, ·))
  | some field =>
    if d.has field then .error (.refused (.repeatedField field.name) cs)
    else match expectColon cs with
      | .error f => .error (.failed f)
      | .ok rest => readField d field rest

def factsFromObject (cs : List Char) : Except Stop (Facts × List Char) := do
  let (d, rest) ← readMembers readFactsMember cs true .empty cs
  match d.key with
  | none => .error (.refused (.missingField Field.key.name) rest)
  | some key => .ok (⟨key, d.names.join, d.holiday.join, d.worldDay.join⟩, rest)

/-- Reads an optional field by its place; fields left out at the end are absent. -/
def readNextField (cs : List Char) : Except Failure (Option String × List Char) := do
  let (more, rest) ← nextElement false cs
  if more then readOptionalText rest else .ok (none, rest)

def factsFromList (cs : List Char) : Except Stop (Facts × List Char) :=
  match nextElement true cs with
  | .error f => .error (.failed f)
  | .ok (false, rest) => .error (.refused (.emptyRecord "DateFacts" 4) rest)
  | .ok (true, rest) => do
    let (key, rest) ← readKey rest
    let (names, rest) ← reading (readNextField rest)
    let (holiday, rest) ← reading (readNextField rest)
    let (worldDay, rest) ← reading (readNextField rest)
    .ok (⟨key, names, holiday, worldDay⟩, rest)

def readFacts (cs : List Char) : Except Failure (Facts × List Char) :=
  readRecord "DateFacts" factsFromList factsFromObject cs

def datesName : String := "dates"

def readFileMember (found : Option (List Facts)) (name cs : List Char) :
    Except Stop (Option (List Facts) × List Char) :=
  if name = datesName.toList then
    if found.isSome then .error (.refused (.repeatedField datesName) cs)
    else reading do
      let rest ← expectColon cs
      let (records, rest) ← readList readFacts rest
      .ok (some records, rest)
  else reading ((skipMember cs).map (found, ·))

def fileFromObject (cs : List Char) : Except Stop (List Facts × List Char) := do
  let (found, rest) ← readMembers readFileMember cs true none cs
  match found with
  | none => .error (.refused (.missingField datesName) rest)
  | some records => .ok (records, rest)

def fileFromList (cs : List Char) : Except Stop (List Facts × List Char) :=
  match nextElement true cs with
  | .error f => .error (.failed f)
  | .ok (false, rest) => .error (.refused (.emptyRecord "CalendarFile" 1) rest)
  | .ok (true, rest) => reading (readList readFacts rest)

def readFile (cs : List Char) : Except Failure (List Facts × List Char) :=
  readRecord "CalendarFile" fileFromList fileFromObject cs

/-- The records of a data file, in the order of the text. -/
def decode (text : List Char) : Except Error (List Facts) := readWhole readFile text

/-- The record that a text holds alone. -/
def decodeFacts (text : List Char) : Except Error Facts := readWhole readFacts text

/-- The day key that a text holds alone. A text that is no key is refused without a position. -/
def decodeKey (text : List Char) : Except Error DayKey :=
  match readKey text with
  | .error (.failed f) => .error (f.error text)
  | .error (.refused fault _) => .error ⟨fault, none⟩
  | .ok (key, rest) =>
    match expectEnd rest with
    | .ok () => .ok key
    | .error f => .error (f.error text)

end Almanac.DataFile
