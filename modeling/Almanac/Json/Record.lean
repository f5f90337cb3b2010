import Almanac.Json.Number
import Almanac.Json.Text

/-!
Records of the data format. A record is an object with named fields or a list of the fields in their
order. What the content of a record violates is reported where the record closes; what cannot be
read, where reading stops.
-/

namespace Almanac.Json
variable {α σ : Type}

/-! ### Values of another kind

A value of another kind than the one expected is read for the message; a list or an object is only
recognised by its bracket. -/

def readFound (cs : List Char) : Except Failure (Found × List Char) :=
  match cs with
  | [] => .error (.within .endInValue [])
  | '[' :: _ => .ok (.list, cs)
  | '{' :: _ => .ok (.object, cs)
  | 'n' :: rest => (expectWord ['u', 'l', 'l'] rest).map (.null, ·)
  | 't' :: rest => (expectWord ['r', 'u', 'e'] rest).map (.boolean true, ·)
  | 'f' :: rest => (expectWord ['a', 'l', 's', 'e'] rest).map (.boolean false, ·)
  | '"' :: rest => (readText rest).map fun (value, rest) => (.text value, rest)
  | '-' :: rest => readNumber true rest
  | c :: _ => if c.isDigit then readNumber false cs else .error (.within .expectedValue cs)

/-- The failure of a value that is none of the expected kind. -/
def mismatch (expected : Expected) (cs : List Char) : Failure :=
  match readFound cs with
  | .ok (found, rest) => .before (.invalidType found expected) rest
  | .error f => f

/-- Reads a string from before its quote. -/
def readExpectedText (cs : List Char) : Except Failure (List Char × List Char) :=
  match skipSpace cs with
  | [] => .error (.within .endInValue [])
  | '"' :: rest => readText rest
  | rest => .error (mismatch .text rest)

/-- Reads a string or `null`. -/
def readOptionalText (cs : List Char) : Except Failure (Option String × List Char) :=
  match skipSpace cs with
  | 'n' :: rest => (expectWord ['u', 'l', 'l'] rest).map (none, ·)
  | rest => (readExpectedText rest).map fun (value, rest) => (some (String.ofList value), rest)

/-! ### Records -/

/-- Why the content of a record is not accepted. -/
inductive Stop
  | failed (f : Failure)
  /-- The content is at fault, and `rest` follows it. -/
  | refused (fault : Fault) (rest : List Char)

/-- Reading whose only stops are failures. -/
def reading (result : Except Failure α) : Except Stop α := result.mapError .failed

/-- Takes the closing bracket of a record. A refused record is looked through up to its closing
bracket, too, for the position of the fault. -/
def closeRecord (close : List Char → Except Failure (List Char)) :
    Except Stop (α × List Char) → Except Failure (α × List Char)
  | .ok (record, rest) => (close rest).map (record, ·)
  | .error (.failed f) => .error f
  | .error (.refused fault rest) =>
    match close rest with
    | .ok rest => .error (.before fault rest)
    | .error f => .error (.before fault f.rest)

/-- Reads a record in either form. -/
def readRecord (name : String) (fromList fromObject : List Char → Except Stop (α × List Char))
    (cs : List Char) : Except Failure (α × List Char) :=
  match skipSpace cs with
  | [] => .error (.within .endInValue [])
  | '[' :: rest => closeRecord closeList (fromList rest)
  | '{' :: rest => closeRecord closeObject (fromObject rest)
  | rest => .error (mismatch (.record name) rest)

/-- Reads members up to the end brace of an object. `member` takes a member behind its name. Every
round takes a character at least, so a text no longer than `bound` is read to its end. -/
def readMembers (member : σ → List Char → List Char → Except Stop (σ × List Char)) :
    (bound : List Char) → (first : Bool) → σ → List Char → Except Stop (σ × List Char)
  | [], _, _, cs => .error (.failed (.within .endInObject cs))
  | _ :: bound, first, state, cs =>
    match nextName first cs with
    | .error f => .error (.failed f)
    | .ok (false, rest) => .ok (state, rest)
    | .ok (true, rest) => do
      let (name, rest) ← reading (readText rest)
      let (state, rest) ← member state name rest
      readMembers member bound false state rest

/-- Reads elements up to the end bracket of a list, after those of `done` reversed. A text no longer
than `bound` is read to its end. -/
def readElements (element : List Char → Except Failure (α × List Char)) :
    (bound : List Char) → (first : Bool) → (done : List α) → List Char →
      Except Failure (List α × List Char)
  | [], _, _, cs => .error (.within .endInList cs)
  | _ :: bound, first, done, cs =>
    match nextElement first cs with
    | .error f => .error f
    | .ok (false, rest) => .ok (done.reverse, rest)
    | .ok (true, rest) => do
      let (x, rest) ← element rest
      readElements element bound false (x :: done) rest

/-- Reads a list of any length. -/
def readList (element : List Char → Except Failure (α × List Char)) (cs : List Char) :
    Except Failure (List α × List Char) :=
  match skipSpace cs with
  | [] => .error (.within .endInValue [])
  | '[' :: rest => do
    let (xs, rest) ← readElements element rest true [] rest
    let rest ← closeList rest
    .ok (xs, rest)
  | rest => .error (mismatch .list rest)

/-- Reads a whole text as one value. -/
def readWhole (read : List Char → Except Failure (α × List Char)) (text : List Char) :
    Except Error α :=
  match read text with
  | .error f => .error (f.error text)
  | .ok (value, rest) =>
    match expectEnd rest with
    | .ok () => .ok value
    | .error f => .error (f.error text)

end Almanac.Json
