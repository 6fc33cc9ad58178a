-- SUMMARY: Sets of characters given as lists of code point ranges.

/-!
# Ranges of code points

A property of characters that a standard gives as data is kept as an array of closed ranges of
code points, in increasing order.
-/

namespace DocQuery.Text

/-- Closed ranges of code points. -/
abbrev Ranges := Array (Nat × Nat)

/-- Whether the character lies in one of the ranges. -/
def Ranges.has (ranges : Ranges) (c : Char) : Bool :=
  ranges.any fun (first, last) => Nat.ble first c.toNat && Nat.ble c.toNat last

end DocQuery.Text
