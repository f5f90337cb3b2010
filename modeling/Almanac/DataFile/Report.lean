import Almanac.DataFile.Store
import Almanac.Text

/-!
Reports on data files that cannot be used. A report on malformed text points at a byte of it, which
is found from line and column: each line before counts its bytes and one for its end.
-/

namespace Almanac

/-- A marked place in a text, in bytes. -/
structure Mark where
  offset : Nat
  length : Nat
  caption : String
deriving DecidableEq, Repr

structure Report where
  message : String
  code : Option String
  hint : Option String
  marks : List Mark
deriving DecidableEq, Repr

namespace Report

/-- A report that says only what happened. -/
def plain (message : String) : Report := ⟨message, none, none, []⟩

/-- The byte at a position, at most the end of the text. A carriage return at the end of a line is
not counted. -/
def offsetOf (p : Json.Position) (text : List Char) : Nat :=
  let before := (Text.lines text).take (p.line - 1)
  min (Json.byteLength (before.flatMap (· ++ ['\n'])) + (p.column - 1)) (Json.byteLength text)

def keyHint : String := "day keys are four digits in MMDD form, e.g. \"0629\""

/-- The hint on day keys, for a message that names them. -/
def hintFor (message : String) : Option String :=
  if Text.occurs "day key".toList message.toList then some keyHint else none

def malformed (text : String) (error : Json.Error) : Report where
  message := "invalid calendar data: " ++ error.message
  code := some "skcal::data"
  hint := hintFor error.message
  marks := [⟨offsetOf error.place text.toList, 1, "error here"⟩]

/-- The report on a text of the file `path` that gives no store. -/
def ofLoadError (path text : String) : LoadError → Report
  | .malformed _ error => malformed text error
  | .repeatedDay _ key => plain (path ++ ": duplicate entry for day " ++ key.text)
  | .unreadable source cause => plain (LoadError.unreadable source cause).message

/-- Loads the store of a file or reports why it cannot. -/
def loadFile (read : Reader) (path : String) : Except Report Store :=
  match read path with
  | .error cause => .error (plain ("Cannot read calendar file " ++ path ++ ": " ++ cause.message))
  | .ok text =>
    match Store.ofText text with
    | .ok s => .ok s
    | .error e => .error (ofLoadError path text e)

end Report
end Almanac
