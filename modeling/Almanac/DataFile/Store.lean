import Almanac.DataFile.Decode
import Almanac.Folder
import Almanac.Json.Write

/-!
Stores as data files. The records are written one after another, each with the fields that are
written for it. A text is decoded as a whole before a repeated day in it is looked for.
-/

namespace Almanac

namespace DataFile
open Json

def writtenMember (field : Field) (written : Option String) : Members :=
  match written with
  | none => []
  | some value => [(field.name, .text value)]

/-- The members of a record. An absent field has none, an empty one has. -/
def members (f : Facts) : Members :=
  (Field.key.name, .text f.key.text) :: writtenMember .names f.names ++
    writtenMember .holiday f.holiday ++ writtenMember .worldDay f.worldDay

/-- A data file with these records. -/
def encode (records : List Facts) : List Char :=
  layOut '{' '}' 0 [writeMember datesName (layOutObjects 2 (records.map members))]

/-- A record alone, on one line. -/
def encodeFacts (f : Facts) : List Char := writeCompact (members f)

/-- A day key alone. -/
def encodeKey (k : DayKey) : List Char := writeText k.text

end DataFile

/-- Why a store cannot be built. The path says where the records come from. -/
inductive LoadError
  | unreadable (path : String) (cause : FileError)
  | malformed (path : String) (error : Json.Error)
  | repeatedDay (path : String) (key : DayKey)

/-- Why a store cannot be written. -/
inductive SaveError
  | unwritable (path : String) (cause : FileError)

/-- The position of an error as it stands in a message; no position is 0. -/
def Json.Error.place (e : Json.Error) : Json.Position := e.position.getD ⟨0, 0⟩

def LoadError.message : LoadError → String
  | unreadable path cause => "failed to read '" ++ path ++ "': " ++ cause.message
  | malformed path error =>
    path ++ ":" ++ toString error.place.line ++ ":" ++ toString error.place.column ++ ": " ++
      error.message
  | repeatedDay path key => path ++ ": duplicate entry for day " ++ key.text

def SaveError.message : SaveError → String
  | unwritable path cause => "failed to write '" ++ path ++ "': " ++ cause.message

namespace Store

/-- Builds a store from records that come from `path`. -/
def build (path : String) (records : List Facts) : Except LoadError Store :=
  match ofRecords records with
  | .ok s => .ok s
  | .error key => .error (.repeatedDay path key)

def parse (path text : String) : Except LoadError Store :=
  match DataFile.decode text.toList with
  | .ok records => build path records
  | .error e => .error (.malformed path e)

/-- The store of records that are given and not read. -/
def ofFacts (records : List Facts) : Except LoadError Store := build "<memory>" records

/-- The store of a data file that is given as a text. -/
def ofText (text : String) : Except LoadError Store := parse "<string>" text

def load (read : Reader) (path : String) : Except LoadError Store :=
  match read path with
  | .ok text => parse path text
  | .error cause => .error (.unreadable path cause)

/-- The store as a data file. -/
def text (s : Store) : String := String.ofList (DataFile.encode s.records)

/-- The text with the newline that ends a file. -/
def fileText (s : Store) : String := s.text ++ "\n"

def save (s : Store) (folder : Folder) (path : String) : Except SaveError Folder :=
  match folder.writeText path s.fileText with
  | .ok folder => .ok folder
  | .error cause => .error (.unwritable path cause)

end Store
end Almanac
