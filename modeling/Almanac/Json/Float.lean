import Almanac.Text

/-!
The text of a double: the shortest decimal that reads back as it, with a point in it from `0.00001`
up to below ten quadrillion, and otherwise with an exponent that always has a sign.
-/

namespace Almanac

namespace Shortest

/-! ### The shortest decimal

A binary number `m * 2 ^ q` stands for an interval of reals; among the decimals with the fewest
digits inside it, the nearest to the number itself is taken. -/

/-- A positive binary number, and whether the next smaller one is only half as far as the next
larger one. -/
structure Binary where
  significand : Nat
  exponent : Int
  narrowBelow : Bool

/-- The number `digits * 10 ^ exponent`. -/
structure Decimal where
  digits : Nat
  exponent : Int
deriving DecidableEq, Repr

/-- A nonnegative fraction. -/
structure Ratio where
  num : Nat
  den : Nat

/-- `n` quarters of the unit `2 ^ q`. -/
def quarters (n : Nat) (q : Int) : Ratio :=
  if q < 2 then ⟨n, Nat.pow 2 (2 - q).toNat⟩ else ⟨n * Nat.pow 2 (q - 2).toNat, 1⟩

namespace Binary

def value (b : Binary) : Ratio := quarters (4 * b.significand) b.exponent

/-- The least real that rounds to `b`, which rounds to it only if the significand is even. -/
def lower (b : Binary) : Ratio :=
  quarters (4 * b.significand - if b.narrowBelow then 1 else 2) b.exponent

def upper (b : Binary) : Ratio := quarters (4 * b.significand + 2) b.exponent

end Binary

def Decimal.value (d : Decimal) : Ratio :=
  if d.exponent < 0 then ⟨d.digits, Nat.pow 10 (-d.exponent).toNat⟩
  else ⟨d.digits * Nat.pow 10 d.exponent.toNat, 1⟩

def Ratio.less (a b : Ratio) : Bool := a.num * b.den < b.num * a.den

/-- Whether the decimal reads back as `b`. -/
def readsBack (b : Binary) (d : Decimal) : Bool :=
  if b.significand % 2 = 0 then !d.value.less b.lower && !b.upper.less d.value
  else b.lower.less d.value && d.value.less b.upper

/-- The least `n` with `r < 10 ^ n`, looked for from `10 ^ (limit - searched)` downwards. -/
def magnitudeFrom (r : Ratio) (limit : Int) : Nat → Int
  | 0 => limit
  | searched + 1 =>
    if r.less (Decimal.value ⟨1, limit - 1⟩) then magnitudeFrom r (limit - 1) searched else limit

/-- The place of the first digit: `10 ^ (n - 1) ≤ r < 10 ^ n`. -/
def magnitude (r : Ratio) : Int := magnitudeFrom r 310 640

/-- The two decimals on the grid of `10 ^ exponent` that enclose `r`. -/
def neighbours (r : Ratio) (exponent : Int) : Decimal × Decimal :=
  let unit := (Decimal.mk 1 exponent).value
  let below := r.num * unit.den / (r.den * unit.num)
  (⟨below, exponent⟩, ⟨below + 1, exponent⟩)

/-- Of two enclosing decimals the nearer; halfway, the one with an even last digit. -/
def nearer (r : Ratio) (below above : Decimal) : Decimal :=
  let middle : Ratio := (Decimal.mk (10 * below.digits + 5) (below.exponent - 1)).value
  if r.less middle then below
  else if middle.less r then above
  else if below.digits % 2 = 0 then below else above

/-- The first decimal with at least `count` digits that reads back, trying `more` lengths. -/
def shortestFrom (b : Binary) (place : Int) (count : Nat) : Nat → Decimal
  | 0 => (neighbours b.value (place - count)).1
  | more + 1 =>
    let (below, above) := neighbours b.value (place - count)
    match readsBack b below, readsBack b above with
    | true, true => nearer b.value below above
    | true, false => below
    | false, true => above
    | false, false => shortestFrom b place (count + 1) more

def shortest (b : Binary) : Decimal := shortestFrom b (magnitude b.value) 1 17

/-- The size of a finite double, unless it is zero. -/
def ofBits? (bits : Nat) : Option Binary :=
  let fraction : Nat := bits % Nat.pow 2 52
  let biased : Nat := bits / Nat.pow 2 52 % Nat.pow 2 11
  if biased = 0 then
    if fraction = 0 then none else some ⟨fraction, -1074, false⟩
  else some ⟨Nat.pow 2 52 + fraction, (biased : Int) - 1075, fraction = 0 ∧ 1 < biased⟩

end Shortest

namespace Json

/-! ### Its text -/

def dropTrailingZeros (ds : List Char) : List Char := (ds.reverse.dropWhile (· = '0')).reverse

/-- The digits of a decimal and the place of its point: before the first digit at place 0. -/
def digitsAndPlace (d : Shortest.Decimal) : List Char × Int :=
  let ds := Decimal.digits d.digits
  (dropTrailingZeros ds, ds.length + d.exponent)

def positional (ds : List Char) (place : Int) : List Char :=
  if place ≤ 0 then '0' :: '.' :: List.replicate (-place).toNat '0' ++ ds
  else if ds.length ≤ place.toNat then
    ds ++ List.replicate (place.toNat - ds.length) '0' ++ ['.', '0']
  else ds.take place.toNat ++ '.' :: ds.drop place.toNat

def scientific (ds : List Char) (place : Int) : List Char :=
  let mantissa := match ds with
    | first :: second :: more => first :: '.' :: second :: more
    | _ => ds
  let sign := if place < 1 then '-' else '+'
  mantissa ++ 'e' :: sign :: Decimal.digits (place - 1).natAbs

def floatText (x : Float) : List Char :=
  let bits := x.toBits.toNat
  let size := match Shortest.ofBits? bits with
    | none => ['0', '.', '0']
    | some binary =>
      let (ds, place) := digitsAndPlace (Shortest.shortest binary)
      if -5 < place ∧ place ≤ 16 then positional ds place else scientific ds place
  if Nat.pow 2 63 ≤ bits then '-' :: size else size

end Json

end Almanac
