import Almanac.DayKey
import Almanac.Json.Fault

/-!
Day keys as two words of 32 bits, which can be the words of no day. Each way to make a key is
followed through its steps: a step that cannot be taken gives nothing, such as a difference below
zero, a place outside a table or a cut through a character.
-/

namespace Almanac

namespace Text

/-- Cuts a text behind its first `bytes` bytes, unless that is within a character. -/
def cutAt? (bytes : Nat) : List Char → Option (List Char × List Char)
  | [] => if bytes = 0 then some ([], []) else none
  | c :: cs =>
    if bytes = 0 then some ([], c :: cs)
    else if c.utf8Size ≤ bytes then
      (cutAt? (bytes - c.utf8Size) cs).map fun (front, back) => (c :: front, back)
    else none

/-- The text in UTF-8. -/
def bytes (s : String) : List UInt8 := s.toUTF8.data.toList

end Text

namespace DayKey

/-- A month and a day, of the calendar or not. -/
structure Words where
  month : UInt32
  day : UInt32
deriving DecidableEq, Repr

def words (k : DayKey) : Words := ⟨.ofNat k.month, .ofNat k.day⟩

namespace Words

/-- The length that each month has in a leap year. -/
def longestMonths : List UInt32 := [31, 29, 31, 30, 31, 30, 31, 31, 30, 31, 30, 31]

def sub? (a b : UInt32) : Option UInt32 := if b ≤ a then some (a - b) else none

def isDay? (w : Words) : Option Bool :=
  if 1 ≤ w.month ∧ w.month ≤ 12 then do
    let place ← sub? w.month 1
    let longest ← longestMonths[place.toNat]?
    some (1 ≤ w.day ∧ w.day ≤ longest)
  else
    some false

def ofParts? (month day : UInt32) : Option (Except DayKeyError Words) := do
  if ← isDay? ⟨month, day⟩ then some (.ok ⟨month, day⟩)
  else some (.error (.outOfRange month.toNat day.toNat))

/-- The words of a date, which nothing checks. -/
def ofDate (d : Date) : Words := ⟨.ofNat d.month, .ofNat d.day⟩

def text (w : Words) : String :=
  String.ofList (Decimal.padded 2 w.month.toNat ++ Decimal.padded 2 w.day.toNat)

def isDigitByte (b : UInt8) : Bool := 48 ≤ b ∧ b ≤ 57

/-- Reads a word in digits, which may have a plus sign in front. -/
def readWord? (cs : List Char) : Option UInt32 :=
  let digits := match cs with
    | '+' :: rest => rest
    | cs => cs
  (Decimal.read? digits).bind fun n => if n < 4294967296 then some (.ofNat n) else none

/-- Reads a key whose bytes are four digits. -/
def read? (s : String) : Option (Except DayKeyError Words) :=
  if (Text.bytes s).length ≠ 4 ∨ ¬ (Text.bytes s).all isDigitByte then some (.error (.format s))
  else do
    let (front, back) ← Text.cutAt? 2 s.toList
    match readWord? front, readWord? back with
    | some month, some day => ofParts? month day
    | _, _ => some (.error (.format s))

/-- The words of a key, in whatever way it is made. -/
inductive Made : Words → Prop
  | ofParts {month day : UInt32} {w : Words} (h : ofParts? month day = some (.ok w)) : Made w
  | ofText {s : String} {w : Words} (h : read? s = some (.ok w)) : Made w
  | ofDate (d : Date) : Made (ofDate d)

end Words
end DayKey
end Almanac
