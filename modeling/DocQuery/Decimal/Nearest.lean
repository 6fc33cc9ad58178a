-- SUMMARY: The floating-point number nearest to a decimal.
import DocQuery.Decimal.Shortest

/-!
# Nearest numbers
-/

namespace DocQuery

/-- The floating-point number nearest to the decimal; infinite if the decimal is too large. Far
    beyond the range of floating-point numbers the powers of ten need not be computed. -/
def Decimal.toFloat (d : Decimal) : Float :=
  if d.significand = 0 then 0
  else if 400 < d.exponent then 1 / 0
  else if d.exponent < -400 - (d.significand.log2 : Int) then 0
  else Float.ofScientific d.significand (d.exponent < 0) d.exponent.natAbs

end DocQuery
