-- SUMMARY: Ways of writing decimals as text: where positional notation ends and whether whole numbers keep a fraction.
import DocQuery.Decimal.Shortest

/-!
# Decimal formats

A `NumberFormat` holds the decisions that separate one spelling of floating-point numbers from
another. The digits themselves are always the shortest ones that read back.
-/

namespace DocQuery

structure NumberFormat where
  /-- Which of two equally near shortest decimals is written. -/
  tie : Tie
  /-- Whether a number whose leading digit stands at this power of ten is written out in full. -/
  positional : Int → Bool
  /-- Whether a whole number written out in full ends in `.0`. -/
  keepsFraction : Bool

namespace Decimal

private def zeros (n : Nat) : String :=
  String.ofList (List.replicate n '0')

/-- The digits of the significand. -/
def digits (d : Decimal) : List Char :=
  Nat.toDigits 10 d.significand

/-- The power of ten of the leading digit. -/
def leading (d : Decimal) : Int :=
  d.exponent + d.digits.length - 1

/-- The decimal written out in full. -/
def positional (d : Decimal) (keepsFraction : Bool) : String :=
  let digits := d.digits
  if 0 ≤ d.exponent then
    String.ofList digits ++ zeros d.exponent.toNat ++ if keepsFraction then ".0" else ""
  else
    let whole := (digits.length + d.exponent).toNat
    if 0 ≤ d.leading then
      String.ofList (digits.take whole) ++ "." ++ String.ofList (digits.drop whole)
    else
      "0." ++ zeros (-d.leading - 1).toNat ++ String.ofList digits

/-- The decimal as one digit, an optional fraction and a signed exponent. -/
def scientific (d : Decimal) : String :=
  let mantissa := match d.digits with
    | [] => ""
    | [c] => c.toString
    | c :: rest => c.toString ++ "." ++ String.ofList rest
  mantissa ++ "e" ++ (if d.leading < 0 then "-" else "+") ++ toString d.leading.natAbs

/-- The decimal in the notation that the format chooses for it. -/
def write (d : Decimal) (format : NumberFormat) : String :=
  if format.positional d.leading then d.positional format.keepsFraction else d.scientific

end Decimal

/-- Whether the sign bit is set, also on a zero. -/
def signBit (x : Float) : Bool :=
  x.toBits.toNat / Nat.pow 2 63 = 1

/-- A finite number in the given format; the sign of a zero is kept. -/
def NumberFormat.write (format : NumberFormat) (x : Float) : String :=
  (if signBit x then "-" else "") ++ (Decimal.ofFloat format.tie x).write format

end DocQuery
