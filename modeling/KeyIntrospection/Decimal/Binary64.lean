/-!
Binary floating point numbers of 64 bits, by the fields of their format: a sign, a biased exponent
and a fraction. The greatest exponent is kept for the infinities and for the one value that is no
number, so that each value has one form. A finite value is `± significand · 2 ^ scale`.
-/

namespace KeyIntrospection

/-- How many fractions there are: they have 52 bits. -/
abbrev Binary64.fractionCount : Nat := 0x10000000000000

inductive Binary64 where
  | finite (negative : Bool) (exponent : Fin 2047) (fraction : Fin Binary64.fractionCount)
  | infinite (negative : Bool)
  | nan
deriving DecidableEq

namespace Binary64

def zero (negative : Bool) : Binary64 := .finite negative 0 0

/-- The significand of a finite value: normal values have a leading bit that is not stored. -/
def significand (exponent : Fin 2047) (fraction : Fin fractionCount) : Nat :=
  if exponent.val = 0 then fraction else fractionCount + fraction

/-- The power of two that the significand counts: the two smallest exponents share it. -/
def scale (exponent : Fin 2047) : Int := max exponent.val 1 - 1075

/-- Equality of numbers: the two zeros are equal, and no value equals `nan`. -/
def equals : Binary64 → Binary64 → Bool
  | .finite s e f, .finite s' e' f' =>
    (e == e' && f == f') && (s == s' || (e.val == 0 && f.val == 0))
  | .infinite s, .infinite s' => s == s'
  | _, _ => false

theorem equals_self (x : Binary64) : x.equals x = true ↔ x ≠ .nan := by
  cases x <;> simp [equals]

end Binary64

end KeyIntrospection
