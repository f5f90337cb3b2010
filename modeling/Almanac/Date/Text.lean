import Almanac.Date
import Almanac.Text

/-!
The two texts of a date: the numeric one, with hyphens between year, month and day, and the long
form in Slovak.
-/

namespace Almanac

namespace Date

/-! ### The numeric text

Writing pads the year to four digits and gives it a sign outside 0 through 9999; reading also takes
shorter numbers and white space between the parts. -/

def yearText (year : Int) : List Char :=
  if 0 ≤ year ∧ year ≤ 9999 then Decimal.padded 4 year.toNat
  else (if year < 0 then '-' else '+') :: Decimal.padded 4 year.natAbs

def chars (d : Date) : List Char :=
  yearText d.year ++ '-' :: Decimal.padded 2 d.month ++ '-' :: Decimal.padded 2 d.day

def text (d : Date) : String := String.ofList d.chars

/-- The digits that a text begins with, at most `limit` of them, and what follows. -/
def takeNumber? (limit : Nat) (cs : List Char) : Option (Nat × List Char) :=
  let run := (cs.take limit).takeWhile Char.isDigit
  (Decimal.read? run).map (·, cs.drop run.length)

/-- A signed year may have any number of digits, an unsigned one at most four. -/
def takeYear? : List Char → Option (Int × List Char)
  | '+' :: cs => (takeNumber? cs.length cs).map fun (n, rest) => ((n : Int), rest)
  | '-' :: cs => (takeNumber? cs.length cs).map fun (n, rest) => (-(n : Int), rest)
  | cs => (takeNumber? 4 cs).map fun (n, rest) => ((n : Int), rest)

def takeHyphen? (cs : List Char) : Option (List Char) :=
  match cs.dropWhile isWhiteSpace with
  | '-' :: rest => some rest
  | _ => none

/-- Reads a date from a whole text. -/
def read? (cs : List Char) : Option Date := do
  let (year, cs) ← takeYear? (cs.dropWhile isWhiteSpace)
  let cs ← takeHyphen? cs
  let (month, cs) ← takeNumber? 2 (cs.dropWhile isWhiteSpace)
  let cs ← takeHyphen? cs
  let (day, cs) ← takeNumber? 2 (cs.dropWhile isWhiteSpace)
  if isBlank cs then ofParts? year month day else none

end Date

/-! ### The long form

Weekday, day, month in the genitive case, and year. -/

def Weekday.name : Weekday → String
  | monday => "pondelok"
  | tuesday => "utorok"
  | wednesday => "streda"
  | thursday => "štvrtok"
  | friday => "piatok"
  | saturday => "sobota"
  | sunday => "nedeľa"

/-- The genitive of the name of a month, the case that follows the number of a day. -/
def monthName? : Nat → Option String
  | 1 => some "januára"
  | 2 => some "februára"
  | 3 => some "marca"
  | 4 => some "apríla"
  | 5 => some "mája"
  | 6 => some "júna"
  | 7 => some "júla"
  | 8 => some "augusta"
  | 9 => some "septembra"
  | 10 => some "októbra"
  | 11 => some "novembra"
  | 12 => some "decembra"
  | _ => none

theorem monthName?_isSome_iff {month : Nat} :
    (monthName? month).isSome ↔ 1 ≤ month ∧ month ≤ 12 := by
  unfold monthName?
  split <;> simp_all
  omega

def Date.longText (d : Date) : String :=
  d.weekday.name ++ " " ++ toString d.day ++ ". " ++ (monthName? d.month).getD "" ++ " " ++
    toString d.year

end Almanac
