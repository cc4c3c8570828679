import Mathlib.Algebra.Order.Archimedean.Basic
import Mathlib.Data.Int.Log
import Mathlib.Data.Rat.Floor

/-!
# Double-precision numbers

A number is rounded to 53 binary digits, a half to the even neighbour; overflow and gradual underflow
are left out.
-/
namespace Civicos.Library

/-- The nearest integer, of two the even one -/
def halfEven (x : ℚ) : ℤ :=
  if x - ⌊x⌋ < 1 / 2 ∨ x - ⌊x⌋ = 1 / 2 ∧ ⌊x⌋ % 2 = 0 then ⌊x⌋ else ⌊x⌋ + 1

/-- The distance of the doubles around a number -/
def ulp (q : ℚ) : ℚ := 2 ^ (Int.log 2 q - 52)

/-- The double that is nearest to a number -/
def nearestDouble (q : ℚ) : ℚ := halfEven (q / ulp q) * ulp q

end Civicos.Library
