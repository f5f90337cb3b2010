import Almanac.Json.Reader

/-!
Numbers of the data format, read from behind their sign. A whole number in the range of 64 bits is
kept as such; any other number becomes a double, from the digits that fit 64 bits and a power of
ten.
-/

namespace Almanac.Json

/-- The number `digits * 10 ^ exponent`, whose digits fit 64 bits. -/
structure Scaled where
  digits : Nat
  exponent : Int

namespace Scaled

def fits (n : Nat) : Bool := n < UInt64.size

/-- Appends digits while they fit; `whole` digits that are dropped multiply by ten. -/
def push (whole : Bool) (s : Scaled) : List Char → Scaled
  | [] => s
  | c :: cs =>
    let n := 10 * s.digits + Decimal.digitValue c
    if fits n then push whole ⟨n, if whole then s.exponent else s.exponent - 1⟩ cs
    else if whole then ⟨s.digits, s.exponent + (c :: cs).length⟩
    else s

/-- Scales a double, at most `steps` times by the largest power of ten. Two such steps down leave
nothing of a number of 64 bits. -/
def scale (x : Float) (exponent : Int) : (steps : Nat) → Option Float
  | 0 => some x
  | steps + 1 =>
    if exponent.natAbs ≤ 308 then
      let power := Float.ofScientific 1 false exponent.natAbs
      if 0 ≤ exponent then
        if (x * power).isInf then none else some (x * power)
      else some (x / power)
    else if x == 0 then some x
    else if 0 ≤ exponent then none
    else scale (x / 1e308) (exponent + 308) steps

/-- The double, unless it is too large. -/
def toFloat? (s : Scaled) : Option Float := scale s.digits.toUInt64.toFloat s.exponent 3

end Scaled

def signed (negative : Bool) (x : Float) : Float := if negative then -x else x

def finishFloat (negative : Bool) (s : Scaled) (rest : List Char) :
    Except Failure (Found × List Char) :=
  match s.toFloat? with
  | some x => .ok (.float (signed negative x), rest)
  | none => .error (.before .numberTooLarge rest)

/-- The value of the digits of an exponent, unless it is over 31 bits; then where it became so. -/
def readExponentDigits (n : Nat) : List Char → Except (List Char) (Nat × List Char)
  | [] => .ok (n, [])
  | c :: cs =>
    if c.isDigit then
      let m := 10 * n + Decimal.digitValue c
      if m < Nat.pow 2 31 then readExponentDigits m cs else .error cs
    else .ok (n, c :: cs)

/-- Reads an exponent from behind its letter. -/
def readExponent (negative : Bool) (s : Scaled) (cs : List Char) :
    Except Failure (Found × List Char) :=
  let (down, digits) := match cs with
    | '+' :: rest => (false, rest)
    | '-' :: rest => (true, rest)
    | _ => (false, cs)
  match digits with
  | [] => .error (.before .endInValue [])
  | c :: _ =>
    if !c.isDigit then .error (.within .invalidNumber digits)
    else match readExponentDigits 0 digits with
      | .ok (n, rest) =>
        finishFloat negative ⟨s.digits, if down then s.exponent - n else s.exponent + n⟩ rest
      | .error rest =>
        if s.digits ≠ 0 ∧ !down then .error (.before .numberTooLarge rest)
        else .ok (.float (signed negative 0), rest.dropWhile Char.isDigit)

def readFloatTail (negative : Bool) (s : Scaled) (cs : List Char) :
    Except Failure (Found × List Char) :=
  match cs with
  | 'e' :: rest | 'E' :: rest => readExponent negative s rest
  | _ => finishFloat negative s cs

/-- Reads the digits behind a decimal point. -/
def readFraction (negative : Bool) (s : Scaled) (cs : List Char) :
    Except Failure (Found × List Char) :=
  match cs.takeWhile Char.isDigit with
  | [] => .error (.within (if cs.isEmpty then .endInValue else .invalidNumber) cs)
  | ds => readFloatTail negative (s.push false ds) (cs.dropWhile Char.isDigit)

/-- A whole number as it is kept; a negative one has one bit less, and the negative zero is a
double. -/
def wholeNumber (negative : Bool) (n : Nat) : Found :=
  if !negative then .integer n
  else if 0 < n ∧ n ≤ Nat.pow 2 63 then .integer (-n)
  else .float (-n.toUInt64.toFloat)

/-- Goes on behind the whole digits of a number. -/
def readNumberTail (negative : Bool) (s : Scaled) (cs : List Char) :
    Except Failure (Found × List Char) :=
  match cs with
  | '.' :: rest => readFraction negative s rest
  | 'e' :: rest | 'E' :: rest => readExponent negative s rest
  | _ =>
    if s.exponent = 0 then .ok (wholeNumber negative s.digits, cs)
    else finishFloat negative s cs

/-- Reads a number from behind its sign. A zero in front has no digit after it. -/
def readNumber (negative : Bool) : List Char → Except Failure (Found × List Char)
  | [] => .error (.before .endInValue [])
  | '0' :: rest =>
    match rest with
    | c :: _ =>
      if c.isDigit then .error (.within .invalidNumber rest)
      else readNumberTail negative ⟨0, 0⟩ rest
    | [] => readNumberTail negative ⟨0, 0⟩ []
  | c :: rest =>
    if c.isDigit then
      readNumberTail negative (Scaled.push true ⟨0, 0⟩ ((c :: rest).takeWhile Char.isDigit))
        ((c :: rest).dropWhile Char.isDigit)
    else .error (.within .invalidNumber (c :: rest))

/-- Passes over the digits of an exponent, from behind its letter. -/
def skipExponent (cs : List Char) : Except Failure (List Char) :=
  let digits := match cs with
    | '+' :: rest | '-' :: rest => rest
    | _ => cs
  match digits with
  | c :: rest =>
    if c.isDigit then .ok (rest.dropWhile Char.isDigit)
    else .error (.within .invalidNumber digits)
  | [] => .error (.before .invalidNumber [])

def skipFraction (cs : List Char) : Except Failure (List Char) :=
  match cs.takeWhile Char.isDigit with
  | [] => .error (.within .invalidNumber cs)
  | _ =>
    match cs.dropWhile Char.isDigit with
    | 'e' :: rest | 'E' :: rest => skipExponent rest
    | rest => .ok rest

/-- Passes over a number from behind its sign, whatever its size. -/
def skipNumber : List Char → Except Failure (List Char)
  | [] => .error (.before .invalidNumber [])
  | c :: rest =>
    let after := if c = '0' then rest else rest.dropWhile Char.isDigit
    if !c.isDigit then .error (.within .invalidNumber (c :: rest))
    else match after with
      | '.' :: more => skipFraction more
      | 'e' :: more | 'E' :: more => skipExponent more
      | d :: more =>
        if c = '0' ∧ d.isDigit then .error (.within .invalidNumber (d :: more)) else .ok (d :: more)
      | [] => .ok []

end Almanac.Json
