import Almanac.DayKey
import Almanac.Json.Float
import Almanac.Text.Quoted

/-!
What can be wrong with the text of a data file, and where. A failure keeps the text that was still
unread; its position follows from the length of that text (`Failure.position`).
-/

namespace Almanac.Json

/-! ### Positions

Lines count from 1, and the column is the number of bytes between the start of the line and the
position. -/

/-- The length of a text in UTF-8. -/
def byteLength : List Char → Nat
  | [] => 0
  | c :: cs => c.utf8Size + byteLength cs

structure Position where
  line : Nat
  column : Nat
deriving DecidableEq, Repr

namespace Position

def start : Position := ⟨1, 0⟩

/-- Moves a position on by `bytes` bytes of a text, which may end within a character. -/
def advance (p : Position) (bytes : Nat) : List Char → Position
  | [] => p
  | c :: cs =>
    if bytes < c.utf8Size then ⟨p.line, p.column + bytes⟩
    else if c = '\n' then advance ⟨p.line + 1, 0⟩ (bytes - 1) cs
    else advance ⟨p.line, p.column + c.utf8Size⟩ (bytes - c.utf8Size) cs

/-- The position `bytes` bytes into a text. -/
def ofOffset (bytes : Nat) (cs : List Char) : Position := start.advance bytes cs

end Position

@[simp] theorem byteLength_nil : byteLength [] = 0 := rfl

@[simp] theorem byteLength_cons (c : Char) (cs : List Char) :
    byteLength (c :: cs) = c.utf8Size + byteLength cs := rfl

@[simp] theorem byteLength_append (cs ds : List Char) :
    byteLength (cs ++ ds) = byteLength cs + byteLength ds := by
  induction cs with
  | nil => simp
  | cons c cs ih => simp [ih, Nat.add_assoc]

/-! ### Faults -/

/-- A value that stands where one of another kind is expected. -/
inductive Found
  | null
  | boolean (value : Bool)
  | integer (value : Int)
  | float (value : Float)
  | text (value : List Char)
  | list
  | object

inductive Expected
  | text
  | list
  | record (name : String)
deriving DecidableEq, Repr

inductive Fault
  | endInValue | endInList | endInObject | endInText
  | expectedColon | expectedListEnd | expectedObjectEnd | expectedValue | expectedWord
  | invalidEscape | invalidNumber | numberTooLarge
  | controlCharacter | nameNotText | loneSurrogate | missingSurrogate
  | trailingComma | trailingCharacters
  | invalidType (found : Found) (expected : Expected)
  /-- A field that must be written is not. -/
  | missingField (name : String)
  /-- A field is written twice. -/
  | repeatedField (name : String)
  /-- A record written as a list lacks its first field. -/
  | emptyRecord (name : String) (fields : Nat)
  | invalidKey (reason : DayKeyError)

def Found.message : Found → String
  | null => "null"
  | boolean value => "boolean `" ++ toString value ++ "`"
  | integer value => "integer `" ++ toString value ++ "`"
  | float value => "floating point `" ++ String.ofList (floatText value) ++ "`"
  | text value => "string " ++ String.ofList (Text.quoted value)
  | list => "sequence"
  | object => "map"

def Expected.message : Expected → String
  | text => "a string"
  | list => "a sequence"
  | record name => "struct " ++ name

def Fault.message : Fault → String
  | endInValue => "EOF while parsing a value"
  | endInList => "EOF while parsing a list"
  | endInObject => "EOF while parsing an object"
  | endInText => "EOF while parsing a string"
  | expectedColon => "expected `:`"
  | expectedListEnd => "expected `,` or `]`"
  | expectedObjectEnd => "expected `,` or `\x7d`"
  | expectedValue => "expected value"
  | expectedWord => "expected ident"
  | invalidEscape => "invalid escape"
  | invalidNumber => "invalid number"
  | numberTooLarge => "number out of range"
  | controlCharacter => "control character (\\u0000-\\u001F) found while parsing a string"
  | nameNotText => "key must be a string"
  | loneSurrogate => "lone leading surrogate in hex escape"
  | missingSurrogate => "unexpected end of hex escape"
  | trailingComma => "trailing comma"
  | trailingCharacters => "trailing characters"
  | invalidType found expected =>
    "invalid type: " ++ found.message ++ ", expected " ++ expected.message
  | missingField name => "missing field `" ++ name ++ "`"
  | repeatedField name => "duplicate field `" ++ name ++ "`"
  | emptyRecord name fields =>
    "invalid length 0, expected struct " ++ name ++ " with " ++ toString fields ++
      (if fields = 1 then " element" else " elements")
  | invalidKey reason => reason.message

/-- A fault met while reading, `ahead` bytes into the text `rest` that is unread. -/
structure Failure where
  fault : Fault
  rest : List Char
  ahead : Nat

namespace Failure

/-- A fault right before `rest`. -/
def before (fault : Fault) (rest : List Char) : Failure := ⟨fault, rest, 0⟩

/-- A fault of the first byte of `rest`, which the position counts as read. -/
def within (fault : Fault) (rest : List Char) : Failure := ⟨fault, rest, 1⟩

/-- The number of bytes up to the fault, at most those of the whole text. -/
def offset (f : Failure) (text : List Char) : Nat :=
  min (byteLength text) (byteLength text - byteLength f.rest + f.ahead)

def position (f : Failure) (text : List Char) : Position := .ofOffset (f.offset text) text

theorem offset_le (f : Failure) (text : List Char) : f.offset text ≤ byteLength text :=
  Nat.min_le_left _ _

end Failure

/-- A fault of a text with its position; a value on its own may be refused without one. -/
structure Error where
  fault : Fault
  position : Option Position

def Error.message (e : Error) : String :=
  match e.position with
  | none => e.fault.message
  | some p =>
    e.fault.message ++ " at line " ++ toString p.line ++ " column " ++ toString p.column

def Failure.error (f : Failure) (text : List Char) : Error := ⟨f.fault, some (f.position text)⟩

end Almanac.Json
