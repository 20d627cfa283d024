/-!
# Natural numbers as doubles

A double has 53 significant bits. `Double.nearest` rounds a natural number to that many, and a
product of two doubles is itself one unless it reaches `Double.overflowBound`. Nothing here needs
exponents below zero: whether a JSON number is too large is a question about natural numbers.
-/

namespace Closedness.Double

/-- The significant bits of a double. -/
def precision : Nat := 53

/-- What the last significant bit of a natural number counts for, when it is rounded to a double. -/
def lastPlace (n : Nat) : Nat :=
  Nat.pow 2 (n.log2 + 1 - precision)

/-- The double nearest to a natural number, as a natural number; of two that are equally near, the
one with the even significand. -/
def nearest (n : Nat) : Nat :=
  let place := lastPlace n
  let below := n / place
  let rest := n % place
  if 2 * rest < place ∨ (2 * rest = place ∧ below % 2 = 0) then below * place
  else (below + 1) * place

/-- The least magnitude that rounds past the greatest double. -/
def overflowBound : Nat :=
  Nat.pow 2 1024 - Nat.pow 2 970

end Closedness.Double
