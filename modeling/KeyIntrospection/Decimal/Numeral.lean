import KeyIntrospection.Decimal.Rounding

/-!
Reading numerals. A decimal numeral has an optional sign, digits with at most one point among or
around them, and an optional exponent; `inf`, `infinity` and `nan` name the other values, in letters
of either case.
-/

namespace KeyIntrospection

/-- The number that decimal digits stand for, read after `high`. -/
def readDigits (high : Nat) (digits : List Char) : Nat :=
  digits.foldl (fun n c => 10 * n + (c.toNat - '0'.toNat)) high

namespace Decimal

/-- The sign at the head of a numeral and what follows it. -/
def splitSign : List Char → Bool × List Char
  | '-' :: rest => (true, rest)
  | '+' :: rest => (false, rest)
  | rest => (false, rest)

def exponent? : List Char → Option Int
  | [] => some 0
  | c :: rest =>
    let (negative, digits) := splitSign rest
    if (c = 'e' ∨ c = 'E') ∧ digits ≠ [] ∧ digits.all Char.isDigit then
      let n : Int := readDigits 0 digits
      some (if negative then -n else n)
    else none

/-- The number that a numeral without sign stands for: digits, a point and digits, an exponent. -/
def unsigned? (negative : Bool) (s : List Char) : Option Decimal :=
  let whole := s.takeWhile Char.isDigit
  let rest := s.dropWhile Char.isDigit
  let afterPoint := if rest.head? = some '.' then rest.drop 1 else []
  let fraction := afterPoint.takeWhile Char.isDigit
  let rest := if rest.head? = some '.' then afterPoint.dropWhile Char.isDigit else rest
  if whole = [] ∧ fraction = [] then none
  else
    (exponent? rest).map fun e =>
      ⟨negative, readDigits (readDigits 0 whole) fraction, e - fraction.length⟩

end Decimal

namespace Binary64

def ofNumeral? (s : List Char) : Option Binary64 :=
  let (negative, rest) := Decimal.splitSign s
  let name := String.ofList (rest.map Char.toLower)
  if name = "inf" ∨ name = "infinity" then some (.infinite negative)
  else if name = "nan" then some .nan
  else (Decimal.unsigned? negative rest).map ofDecimal

end Binary64

end KeyIntrospection
