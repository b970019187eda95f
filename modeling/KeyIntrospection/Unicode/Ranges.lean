/-!
Sets of code points as increasing lists of disjoint ranges, both ends included. A look-up stops at
the first range that starts above the code point.
-/

namespace KeyIntrospection.Unicode

def Ranges.contains : List (Nat × Nat) → Nat → Bool
  | [], _ => false
  | (first, last) :: rest, n => !decide (n < first) && (decide (n ≤ last) || contains rest n)

end KeyIntrospection.Unicode
