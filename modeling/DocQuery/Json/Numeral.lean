-- SUMMARY: JSON numbers as they are written, and the value a reader takes from them.
import DocQuery.Json.Basic
import DocQuery.Json.Lexeme

/-!
# Numerals

A whole number that fits 64 bits, with or without a sign, is read exactly. Every other numeral is
read as a floating-point number in two steps, neither of them exact: the leading digits that fit
64 unsigned bits become the significand, which is then multiplied or divided by a power of ten.
A numeral whose value would be infinite has none.
-/

namespace DocQuery.Json

/-- A number as it is written. Absent parts are empty. -/
structure Numeral where
  negative : Bool
  whole : List Char
  fraction : List Char := []
  /-- Whether the exponent is negative, and its digits. -/
  exponent : Option (Bool × List Char) := none
deriving DecidableEq, Repr

/-! ## The value of digits -/

/-- The value of a digit. -/
def digitValue (c : Char) : Nat :=
  c.toNat - '0'.toNat

/-- The whole number that the digits spell. -/
def digitsValue (digits : List Char) : Nat :=
  digits.foldl (fun n c => 10 * n + digitValue c) 0

/-- The first number that no unsigned 64-bit word holds. -/
def wordLimit : Nat :=
  Nat.pow 2 64

/-- Appends digits to a significand as long as it fits a word; also the digits left over. -/
def takeDigits : Nat → List Char → Nat × List Char
  | n, [] => (n, [])
  | n, c :: cs =>
    let next := 10 * n + digitValue c
    if next < wordLimit then takeDigits next cs else (n, c :: cs)

/-! ## Scaling -/

/-- The floating-point number nearest to a power of ten. -/
def powerOfTen (n : Nat) : Float :=
  Float.ofScientific 1 false n

/-- The largest exponent for which `powerOfTen` is finite. -/
def maxExponent : Nat :=
  308

/-- Divides by `10 ^ n`, in several steps when that power is too large for one. -/
def shrink (x : Float) (n : Nat) : Float :=
  if n ≤ maxExponent then x / powerOfTen n
  else if x == 0 then x
  else shrink (x / powerOfTen maxExponent) (n - maxExponent)
termination_by n
decreasing_by simp only [maxExponent] at *; omega

/-- Multiplies by `10 ^ n`, unless the product is infinite. -/
def stretch? (x : Float) (n : Nat) : Option Float :=
  if n ≤ maxExponent then
    let y := x * powerOfTen n
    if y.isInf then none else some y
  else if x == 0 then some x
  else none

/-- The number `significand * 10 ^ exponent`. -/
def scale? (significand : Nat) (exponent : Int) : Option Float :=
  let x := Float.ofNat significand
  if 0 ≤ exponent then stretch? x exponent.toNat else some (shrink x (-exponent).toNat)

namespace Numeral

/-! ## The value of a numeral -/

/-- Exponents beyond this one are not computed with. -/
def exponentLimit : Nat :=
  2147483647

/-- The floating-point number without its sign. -/
def magnitude? (x : Numeral) : Option Float :=
  let (start, dropped) := takeDigits 0 x.whole
  let (significand, rest) := takeDigits start x.fraction
  let shift : Int := dropped.length - (x.fraction.length - rest.length : Nat)
  match x.exponent with
  | none => scale? significand shift
  | some (down, digits) =>
    let n := digitsValue digits
    if exponentLimit < n then
      if down || significand == 0 then some 0 else none
    else
      scale? significand (if down then shift - n else shift + n)

/-- Whether the numeral has neither a fraction nor an exponent. -/
def isWhole (x : Numeral) : Bool :=
  x.fraction.isEmpty && x.exponent.isNone

/-- The whole number that the numeral spells, if it fits a 64-bit word. Only a negative one needs
    the sign, so `-0` is none. -/
def int? (x : Numeral) : Option Int :=
  let n := digitsValue x.whole
  if !x.isWhole then none
  else if x.negative then
    if 0 < n && 2 * n ≤ wordLimit then some (-(n : Int)) else none
  else
    if n < wordLimit then some n else none

/-- The value of a numeral; none if it is out of range. -/
def value? (x : Numeral) : Option Number :=
  match x.int? with
  | some n => some (.int n)
  | none => x.magnitude?.map fun m => .float (if x.negative then -m else m)

/-! ## Finding a numeral in a text -/

/-- Where a digit is missing. Whoever only steps over a number does not tell the end of the text
    from a stray character. -/
def noDigit (rest : List Char) : Lexeme Numeral × List Char :=
  match rest with
  | [] => (⟨.error .truncated, .error .malformed⟩, [])
  | _ :: _ => (.broken .malformed, [])

/-- The digits at the start of a text, and what follows them. -/
def digitRun (cs : List Char) : List Char × List Char :=
  (cs.takeWhile Char.isDigit, cs.dropWhile Char.isDigit)

/-- Completes a numeral by an exponent, if one follows. -/
def scanExponent (x : Numeral) (cs : List Char) : Lexeme Numeral × List Char :=
  match cs with
  | c :: rest =>
    if c == 'e' || c == 'E' then
      let (down, rest) := match rest with
        | '+' :: rest => (false, rest)
        | '-' :: rest => (true, rest)
        | rest => (false, rest)
      match digitRun rest with
      | ([], rest) => noDigit rest
      | (digits, rest) => (.value { x with exponent := some (down, digits) }, rest)
    else (.value x, cs)
  | [] => (.value x, [])

/-- Completes a numeral by a fraction and an exponent, as far as they follow. -/
def scanFraction (x : Numeral) (cs : List Char) : Lexeme Numeral × List Char :=
  match cs with
  | '.' :: rest =>
    match digitRun rest with
    | ([], rest) => noDigit rest
    | (digits, rest) => scanExponent { x with fraction := digits } rest
  | cs => scanExponent x cs

/-- The numeral after its sign. A zero takes no further digit before the point. -/
def scanWhole (negative : Bool) (cs : List Char) : Lexeme Numeral × List Char :=
  match digitRun cs with
  | ([], rest) => noDigit rest
  | ('0' :: _ :: _, _) => (.broken .malformed, [])
  | (digits, rest) => scanFraction { negative, whole := digits } rest

/-- The numeral at the start of a text, and what follows it. -/
def scan (cs : List Char) : Lexeme Numeral × List Char :=
  match cs with
  | '-' :: rest => scanWhole true rest
  | cs => scanWhole false cs

end Numeral

/-- The number at the start of a text. One out of range can only be stepped over. -/
def scanNumber (cs : List Char) : Lexeme Number × List Char :=
  let (lexeme, rest) := Numeral.scan cs
  let read := match lexeme.read with
    | .ok x => match x.value? with
      | some n => .ok n
      | none => .error .malformed
    | .error fault => .error fault
  (⟨read, lexeme.skip⟩, rest)

end DocQuery.Json
