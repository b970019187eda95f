import KeyIntrospection.Decimal.Rounding

/-!
The shortest decimal digits that read back as a given binary number. All numbers that are rounded to
a value form an interval around it, with its ends if the significand is even. For one digit, two
digits and so on, the two neighbours of the value among the decimals with that many digits are tried;
the first in the interval is taken, the nearer of two, and of two equally near the greater.
-/

namespace KeyIntrospection.Binary64

/-- The place of the decimal point of `num / den`, counted from the first digit that is not zero:
the ratio is at least `10 ^ (point - 1)` and below `10 ^ point`. -/
def decimalPoint (num den : Nat) : Int :=
  if den ≤ num then decimalWidth (num / den) else 1 - (decimalWidth ((den - 1) / num) : Int)

/-- A value and the ends of its interval, all over one denominator. -/
structure Interval where
  low : Nat
  value : Nat
  high : Nat
  den : Nat
  /-- Whether the ends belong to the interval. -/
  closed : Bool

/-- The numbers that are rounded to a finite value that is not zero. Below a power of two the next
value is only half as far away. -/
def interval (exponent : Fin 2047) (fraction : Fin fractionCount) : Interval :=
  let m := significand exponent fraction
  let scale := scale exponent - 2
  let unit := 1 <<< scale.toNat
  let below := if fraction.val = 0 ∧ 1 < exponent.val then 1 else 2
  { low := (4 * m - below) * unit
    value := 4 * m * unit
    high := (4 * m + 2) * unit
    den := 1 <<< (-scale).toNat
    closed := m % 2 = 0 }

/-- Whether `count` units of `10 ^ power` lie in the interval. -/
def Interval.covers (i : Interval) (count : Nat) (power : Int) : Bool :=
  let n := count * powTen power.toNat * i.den
  let d := powTen (-power).toNat
  if i.closed then i.low * d ≤ n && n ≤ i.high * d else i.low * d < n && n < i.high * d

/-- The nearest neighbour of the value on the grid of `10 ^ power` that lies in the interval. -/
def Interval.neighbour? (i : Interval) (power : Int) : Option Nat :=
  let n := i.value * powTen (-power).toNat
  let d := i.den * powTen power.toNat
  let below := n / d
  match i.covers below power, i.covers (below + 1) power with
  | true, true => some (if 2 * (n % d) < d then below else below + 1)
  | true, false => some below
  | false, true => some (below + 1)
  | false, false => none

/-- The first grid with a neighbour in the interval, among those with `count` and more digits. -/
def Interval.search (i : Interval) (point : Int) : Nat → Nat → Nat × Int
  | 0, count => (i.value / i.den, point - count)
  | tries + 1, count =>
    match i.neighbour? (point - count) with
    | some digits => (digits, point - count)
    | none => i.search point tries (count + 1)

/-- A number of digits and its exponent without the zeros at the end. -/
def dropZeros : Nat → Nat → Int → Nat × Int
  | 0, digits, exponent => (digits, exponent)
  | tries + 1, digits, exponent =>
    if digits % 10 = 0 ∧ digits ≠ 0 then dropZeros tries (digits / 10) (exponent + 1)
    else (digits, exponent)

/-- The shortest digits of a finite value. Seventeen always suffice. -/
def shortest (negative : Bool) (exponent : Fin 2047) (fraction : Fin fractionCount) : Decimal :=
  if significand exponent fraction = 0 then ⟨negative, 0, 0⟩
  else
    let i := interval exponent fraction
    let (digits, power) := i.search (decimalPoint i.value i.den) 17 1
    let (digits, power) := dropZeros (decimalWidth digits) digits power
    ⟨negative, digits, power⟩

end KeyIntrospection.Binary64
