import KeyIntrospection.Decimal.Shortest

/-!
The texts of binary numbers. Literals are written with the shortest digits and with an exponent where
the number is very large or very small; in what people are shown there is never an exponent, and a
number without a fraction is written with all digits of its exact value.
-/

namespace KeyIntrospection

namespace Decimal

def sign (x : Decimal) : String := if x.negative then "-" else ""

def digitText (x : Decimal) : List Char := Nat.toDigits 10 x.digits

/-- The place of the decimal point, counted from the first digit. -/
def point (x : Decimal) : Int := x.digitText.length + x.exponent

def zeros (n : Nat) : List Char := .replicate n '0'

/-- Written without an exponent and with at least one digit on each side of the point. -/
def positional (x : Decimal) : String :=
  let digits := x.digitText
  let whole := digits.take x.point.toNat ++ zeros (x.point.toNat - digits.length)
  let fraction := zeros (-x.point).toNat ++ digits.drop x.point.toNat
  x.sign ++ .ofList ((if whole.isEmpty then ['0'] else whole) ++
    '.' :: (if fraction.isEmpty then ['0'] else fraction))

/-- Written as a multiple of a power of ten, with one digit before the point. -/
def scientific (x : Decimal) : String :=
  let digits := x.digitText
  let fraction := if digits.length ≤ 1 then [] else '.' :: digits.drop 1
  x.sign ++ .ofList (digits.take 1 ++ fraction ++ ['e']) ++ toString (x.point - 1)

end Decimal

namespace Binary64

def infinityText (negative : Bool) : String := if negative then "-inf" else "inf"

/-- The value of a finite number that has no fraction. -/
def wholeMagnitude? (exponent : Fin 2047) (fraction : Fin fractionCount) : Option Nat :=
  let m := significand exponent fraction
  let q := scale exponent
  if 0 ≤ q then some (m <<< q.toNat)
  else
    let unit := 1 <<< (-q).toNat
    if m % unit = 0 then some (m / unit) else none

/-- The text of a literal: with an exponent from `10 ^ 16` upwards and below `10 ^ (-4)`. -/
def literalText : Binary64 → String
  | .finite negative exponent fraction =>
    let x := shortest negative exponent fraction
    if x.digits = 0 ∨ (-4 < x.point ∧ x.point ≤ 16) then x.positional else x.scientific
  | .infinite negative => infinityText negative
  | .nan => "NaN"

/-- The text that people are shown. -/
def displayText : Binary64 → String
  | .finite negative exponent fraction =>
    match wholeMagnitude? exponent fraction with
    | some n => (Decimal.mk negative n 0).positional
    | none => (shortest negative exponent fraction).positional
  | .infinite negative => infinityText negative
  | .nan => "NaN"

end Binary64

end KeyIntrospection
