import Almanac.Text

/-!
Writing the data format: strings, flat objects on one line or laid out over several, and lists of
them. Layout puts each item on a line of its own, two spaces further in than its brackets.
-/

namespace Almanac.Json

/-- A character within a string. Only the quote, the backslash and the control characters are
written otherwise than as themselves. -/
def escapeInText (c : Char) : List Char :=
  match c with
  | '"' => ['\\', '"']
  | '\\' => ['\\', '\\']
  | '\x08' => ['\\', 'b']
  | '\t' => ['\\', 't']
  | '\n' => ['\\', 'n']
  | '\x0c' => ['\\', 'f']
  | '\r' => ['\\', 'r']
  | c =>
    if c.toNat < 0x20 then
      ['\\', 'u', '0', '0', Nat.digitChar (c.toNat / 16), Nat.digitChar (c.toNat % 16)]
    else [c]

def writeText (s : String) : List Char := '"' :: s.toList.flatMap escapeInText ++ ['"']

inductive Scalar
  | text (value : String)
  | count (value : Nat)
deriving DecidableEq, Repr

def Scalar.write : Scalar → List Char
  | text value => writeText value
  | count value => Decimal.digits value

/-- The members of an object, in the order of writing. -/
abbrev Members := List (String × Scalar)

/-- An object on one line, without spaces. -/
def writeCompact (members : Members) : List Char :=
  '{' :: [','].intercalate (members.map fun m => writeText m.1 ++ ':' :: m.2.write) ++ ['}']

def newline (indent : Nat) : List Char := '\n' :: List.replicate indent ' '

/-- Lays out written items between brackets; no items leave the brackets together. -/
def layOut (left right : Char) (indent : Nat) (items : List (List Char)) : List Char :=
  match items with
  | [] => [left, right]
  | _ =>
    left :: newline (indent + 2) ++ (',' :: newline (indent + 2)).intercalate items ++
      newline indent ++ [right]

def writeMember (name : String) (value : List Char) : List Char :=
  writeText name ++ ':' :: ' ' :: value

def layOutObject (indent : Nat) (members : Members) : List Char :=
  layOut '{' '}' indent (members.map fun m => writeMember m.1 m.2.write)

def layOutObjects (indent : Nat) (objects : List Members) : List Char :=
  layOut '[' ']' indent (objects.map (layOutObject (indent + 2)))

end Almanac.Json
