import Almanac.Json.Reader

/-!
Strings of the data format, read from behind their opening quote. A character outside the basic
plane may be written as a pair of surrogates.
-/

namespace Almanac.Json

def isControl (c : Char) : Bool := c.toNat < 0x20

/-- The character that stands for another one after a backslash. -/
def unescape? : Char → Option Char
  | '"' => some '"'
  | '\\' => some '\\'
  | '/' => some '/'
  | 'b' => some '\x08'
  | 'f' => some '\x0c'
  | 'n' => some '\n'
  | 'r' => some '\r'
  | 't' => some '\t'
  | _ => none

def hexValue? (c : Char) : Option Nat :=
  if '0' ≤ c ∧ c ≤ '9' then some (c.toNat - '0'.toNat)
  else if 'a' ≤ c ∧ c ≤ 'f' then some (c.toNat - 'a'.toNat + 10)
  else if 'A' ≤ c ∧ c ≤ 'F' then some (c.toNat - 'A'.toNat + 10)
  else none

def hexValues? (ds : List Char) : Option Nat :=
  ds.foldl (fun n c => match n, hexValue? c with
    | some n, some d => some (16 * n + d)
    | _, _ => none) (some 0)

/-- Reads four hexadecimal digits. Four bytes have to be there before their digits are looked at. -/
def readUnit (cs : List Char) : Except Failure (Nat × List Char) :=
  match cs, hexValues? (cs.take 4) with
  | _ :: _ :: _ :: _ :: rest, some n => .ok (n, rest)
  | _, _ =>
    if byteLength (cs.take 4) < 4 then .error (.before .endInText [])
    else .error ⟨.invalidEscape, cs, 4⟩

def isHighSurrogate (n : Nat) : Bool := 0xD800 ≤ n ∧ n ≤ 0xDBFF

def isLowSurrogate (n : Nat) : Bool := 0xDC00 ≤ n ∧ n ≤ 0xDFFF

def joinSurrogates (high low : Nat) : Char :=
  Char.ofNat (0x10000 + (high - 0xD800) * 0x400 + (low - 0xDC00))

/-- Reads the second unit of a pair, from its backslash. -/
def readLowSurrogate (high : Nat) : List Char → Except Failure (Char × List Char)
  | [] => .error (.before .endInText [])
  | '\\' :: [] => .error (.before .endInText [])
  | '\\' :: 'u' :: cs => do
    let (low, rest) ← readUnit cs
    if isLowSurrogate low then .ok (joinSurrogates high low, rest)
    else .error (.before .loneSurrogate rest)
  | '\\' :: cs => .error (.within .missingSurrogate cs)
  | cs => .error (.within .missingSurrogate cs)

/-- Reads what follows a backslash. -/
def readEscape : List Char → Except Failure (Char × List Char)
  | [] => .error (.before .endInText [])
  | 'u' :: cs => do
    let (n, rest) ← readUnit cs
    if isLowSurrogate n then .error (.before .loneSurrogate rest)
    else if isHighSurrogate n then readLowSurrogate n rest
    else .ok (Char.ofNat n, rest)
  | c :: cs =>
    match unescape? c with
    | some d => .ok (d, cs)
    | none => .error (.within .invalidEscape (c :: cs))

/-- Reads characters up to the closing quote, after those of `done` reversed. A text no longer than
`bound` is read to its end. -/
def readTextFrom : (bound : List Char) → (done : List Char) → List Char →
    Except Failure (List Char × List Char)
  | [], _, cs => .error (.before .endInText cs)
  | _ :: _, _, [] => .error (.before .endInText [])
  | _ :: _, done, '"' :: cs => .ok (done.reverse, cs)
  | _ :: bound, done, '\\' :: cs => do
    let (c, rest) ← readEscape cs
    readTextFrom bound (c :: done) rest
  | _ :: bound, done, c :: cs =>
    if isControl c then .error (.within .controlCharacter (c :: cs))
    else readTextFrom bound (c :: done) cs

/-- Reads a string. -/
def readText (cs : List Char) : Except Failure (List Char × List Char) := readTextFrom cs [] cs

/-- Passes over what follows a backslash. The value of a unit is not looked at. -/
def skipEscape : List Char → Except Failure (List Char)
  | [] => .error (.before .endInText [])
  | 'u' :: cs => do
    let (_, rest) ← readUnit cs
    .ok rest
  | c :: cs =>
    match unescape? c with
    | some _ => .ok cs
    | none => .error (.within .invalidEscape (c :: cs))

/-- Passes over characters and the closing quote. A text no longer than `bound` is gone through to
its end. -/
def skipTextFrom : (bound : List Char) → List Char → Except Failure (List Char)
  | [], cs => .error (.before .endInText cs)
  | _ :: _, [] => .error (.before .endInText [])
  | _ :: _, '"' :: cs => .ok cs
  | _ :: bound, '\\' :: cs => do
    let rest ← skipEscape cs
    skipTextFrom bound rest
  | _ :: bound, c :: cs =>
    if isControl c then .error (.before .controlCharacter (c :: cs)) else skipTextFrom bound cs

/-- Passes over a string. -/
def skipText (cs : List Char) : Except Failure (List Char) := skipTextFrom cs cs

end Almanac.Json
