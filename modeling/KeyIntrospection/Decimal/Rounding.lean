import KeyIntrospection.Decimal.Binary64

/-!
The binary number nearest to an exact one. Of two that are equally near the one with the even
significand is taken; beyond the greatest finite value by half a unit or more the result is infinite.
-/

namespace KeyIntrospection

/-- A number written in decimal digits: `± digits · 10 ^ exponent`. -/
structure Decimal where
  negative : Bool
  digits : Nat
  exponent : Int
deriving DecidableEq

def powTen (n : Nat) : Nat := Nat.pow 10 n

/-- How many decimal digits a natural number is written with; zero takes one. -/
def decimalWidth (n : Nat) : Nat := (Nat.toDigits 10 n).length

/-- The natural number nearest to `num / den`, of two the even one. -/
def roundRatio (num den : Nat) : Nat :=
  let quotient := num / den
  let twice := 2 * (num % den)
  if den < twice ∨ (den = twice ∧ quotient % 2 = 1) then quotient + 1 else quotient

/-- The two parts of the ratio `num / den` divided by `2 ^ power`. -/
def scaleRatio (num den : Nat) (power : Int) : Nat × Nat :=
  (num <<< (-power).toNat, den <<< power.toNat)

namespace Binary64

/-- The value with this significand, of at most 53 bits, at this scale, not below `-1074`. -/
def ofSignificand (negative : Bool) (significand : Nat) (scale : Int) : Binary64 :=
  let exponent := if significand < fractionCount then 0 else (scale + 1075).toNat
  if h : exponent < 2047 then
    .finite negative ⟨exponent, h⟩ ⟨significand % fractionCount, Nat.mod_lt _ (by decide)⟩
  else .infinite negative

/-- The scale at which the significand of `num / den` has 53 bits, or the least scale. -/
def scaleOf (num den : Nat) : Int :=
  let guess : Int := (num.log2 : Int) - den.log2 - 53
  let (n, d) := scaleRatio num den guess
  max (if n / d < 2 * fractionCount then guess else guess + 1) (-1074)

def ofRatio (negative : Bool) (num den : Nat) : Binary64 :=
  if num = 0 then zero negative
  else
    let scale := scaleOf num den
    let (n, d) := scaleRatio num den scale
    let significand := roundRatio n d
    if significand < 2 * fractionCount then ofSignificand negative significand scale
    else ofSignificand negative fractionCount (scale + 1)

/-- The value nearest to a decimal number. Far outside the range of finite values the answer does
not depend on the digits, and no power of ten is computed. -/
def ofDecimal (x : Decimal) : Binary64 :=
  if x.digits = 0 then zero x.negative
  else
    let point := decimalWidth x.digits + x.exponent
    if 310 < point then .infinite x.negative
    else if point < -330 then zero x.negative
    else ofRatio x.negative (x.digits * powTen x.exponent.toNat) (powTen (-x.exponent).toNat)

end Binary64

end KeyIntrospection
