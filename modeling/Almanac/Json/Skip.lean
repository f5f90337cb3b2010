import Almanac.Json.Number
import Almanac.Json.Text

/-!
Passing over a value that is not wanted. The brackets that are open stand in a list, so values may
be nested to any depth.
-/

namespace Almanac.Json

inductive Bracket
  | list | object
deriving DecidableEq, Repr

namespace Bracket

def closing : Bracket → Char
  | list => ']'
  | object => '}'

/-- The fault of a text that ends within the brackets. -/
def unclosed : Bracket → Fault
  | list => .endInList
  | object => .endInObject

/-- The fault of a text that has something else in the place of a comma or the closing bracket. -/
def unseparated : Bracket → Fault
  | list => .expectedListEnd
  | object => .expectedObjectEnd

end Bracket

/-- Passes over the beginning of a value: its opening bracket, or all of a value without one. -/
def skipHead (cs : List Char) : Except Failure (Option Bracket × List Char) :=
  match skipSpace cs with
  | [] => .error (.within .endInValue [])
  | '[' :: rest => .ok (some .list, rest)
  | '{' :: rest => .ok (some .object, rest)
  | 'n' :: rest => (expectWord ['u', 'l', 'l'] rest).map (none, ·)
  | 't' :: rest => (expectWord ['r', 'u', 'e'] rest).map (none, ·)
  | 'f' :: rest => (expectWord ['a', 'l', 's', 'e'] rest).map (none, ·)
  | '"' :: rest => (skipText rest).map (none, ·)
  | '-' :: rest => (skipNumber rest).map (none, ·)
  | c :: rest =>
    if c.isDigit then (skipNumber (c :: rest)).map (none, ·)
    else .error (.within .expectedValue (c :: rest))

/-- Goes on behind a value: past closing brackets and up to the comma before another value. Gives
the brackets that are still open, none when the outermost value is complete. -/
def resume : List Bracket → List Char → Except Failure (List Bracket × List Char)
  | [], cs => .ok ([], cs)
  | b :: outer, cs =>
    match skipSpace cs with
    | [] => .error (.within b.unclosed [])
    | ',' :: rest => .ok (b :: outer, rest)
    | c :: rest =>
      if c = b.closing then resume outer rest else .error (.within b.unseparated (c :: rest))

/-- Goes on behind an opening bracket: to the first value in it, or as behind a value when the
bracket is closed at once. -/
def enter (b : Bracket) (outer : List Bracket) (cs : List Char) :
    Except Failure (List Bracket × List Char) :=
  match skipSpace cs with
  | [] => .error (.within b.unclosed [])
  | c :: rest => if c = b.closing then resume outer rest else .ok (b :: outer, c :: rest)

/-- Passes over the name of a member and its colon, if the innermost bracket is an object. -/
def skipName (b : Bracket) (cs : List Char) : Except Failure (List Char) :=
  match b with
  | .list => .ok cs
  | .object =>
    match skipSpace cs with
    | [] => .error (.within .endInObject [])
    | '"' :: rest => do
      let rest ← skipText rest
      expectColon rest
    | rest => .error (.within .nameNotText rest)

/-- Passes over a value within open brackets and over all that follows up to the last of them. Every
round takes a character at least, so a text no longer than `bound` is gone through to its end. -/
def skipWithin : (bound : List Char) → List Bracket → List Char → Except Failure (List Char)
  | [], _, cs => .error (.within .endInValue cs)
  | _ :: bound, brackets, cs => do
    let (opened, rest) ← skipHead cs
    let next ← match opened with
      | some b => enter b brackets rest
      | none => resume brackets rest
    match next with
    | ([], rest) => .ok rest
    | (b :: brackets, rest) => do
      let rest ← skipName b rest
      skipWithin bound (b :: brackets) rest

/-- Passes over one value. -/
def skipValue (cs : List Char) : Except Failure (List Char) := skipWithin cs [] cs

end Almanac.Json
