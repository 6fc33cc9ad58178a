-- SUMMARY: The shortest decimal that reads back as a given binary floating-point number, in exact natural-number arithmetic.

/-!
# Shortest decimals

A finite `Float` is `m * 2 ^ q` for natural `m` and integer `q`. The reals that round to it form
an interval around it, whose ends belong to it exactly when `m` is even. Among the decimals of
that interval, `Decimal.ofFloat` picks one on the coarsest grid `10 ^ j` that has a point there,
and of two such points the nearer one. An exact tie is left to the caller.
-/

namespace DocQuery

/-- The number `significand * 10 ^ exponent`. -/
structure Decimal where
  significand : Nat
  exponent : Int
deriving DecidableEq, Repr

/-- Which of two equally near decimals is taken. -/
inductive Tie where
  | toEven
  | upward
deriving DecidableEq, Repr

/-- The magnitude `mantissa * 2 ^ exponent` of a finite number. `narrowBelow` holds when the next
    number below is only half as far away as the next one above. -/
structure Magnitude where
  mantissa : Nat
  exponent : Int
  narrowBelow : Bool
deriving DecidableEq, Repr

/-- The leading mantissa bit, which the bits of a normal number leave out. -/
def Magnitude.hidden : Nat :=
  Nat.pow 2 52

/-- The magnitude of a finite number, read off its bits. -/
def Magnitude.ofFloat (x : Float) : Magnitude :=
  let bits := x.toBits.toNat
  let fraction := bits % Magnitude.hidden
  let biased := bits / Magnitude.hidden % 2048
  if biased = 0 then
    { mantissa := fraction, exponent := -1074, narrowBelow := false }
  else
    { mantissa := Magnitude.hidden + fraction, exponent := Int.ofNat biased - 1075,
      narrowBelow := fraction = 0 && biased > 1 }

namespace Magnitude

/-- Four times the mantissa, so that both ends of the rounding interval are whole. -/
def quadruple (v : Magnitude) : Nat :=
  4 * v.mantissa

/-- The lower end of the rounding interval, on the scale of `quadruple`. -/
def lower (v : Magnitude) : Nat :=
  v.quadruple - if v.narrowBelow then 1 else 2

/-- The upper end of the rounding interval, on the scale of `quadruple`. -/
def upper (v : Magnitude) : Nat :=
  v.quadruple + 2

/-- The ratio `2 ^ (exponent - 2) / 10 ^ j` as numerator and denominator: one unit of `quadruple`
    measured in steps of the grid `10 ^ j`. -/
def unit (v : Magnitude) (j : Int) : Nat × Nat :=
  let e := v.exponent - 2
  (Nat.pow 2 e.toNat * Nat.pow 10 (-j).toNat, Nat.pow 2 (-e).toNat * Nat.pow 10 j.toNat)

/-- Whether the grid point `c * 10 ^ j` rounds to the magnitude. -/
def covers (v : Magnitude) (j : Int) (c : Nat) : Bool :=
  let (num, den) := v.unit j
  if v.mantissa % 2 = 0 then
    v.lower * num ≤ c * den && c * den ≤ v.upper * num
  else
    v.lower * num < c * den && c * den < v.upper * num

/-- The point of the grid `10 ^ j` that rounds to the magnitude and lies nearest to it. -/
def nearest? (v : Magnitude) (tie : Tie) (j : Int) : Option Nat :=
  let (num, den) := v.unit j
  let below := v.quadruple * num / den
  let rest := v.quadruple * num % den
  match v.covers j below, v.covers j (below + 1) with
  | false, false => none
  | true, false => some below
  | false, true => some (below + 1)
  | true, true =>
    if 2 * rest < den then some below
    else if den < 2 * rest then some (below + 1)
    else match tie with
      | .upward => some (below + 1)
      | .toEven => some (if below % 2 = 0 then below else below + 1)

/-- An exponent above which no grid has a point in the rounding interval. -/
def topExponent (v : Magnitude) : Int :=
  ((Int.ofNat v.mantissa.log2 + v.exponent + 2) * 30103).fdiv 100000 + 1

/-- Walks from the grid `10 ^ j` to finer ones until one has a point. -/
def descend (v : Magnitude) (tie : Tie) : Nat → Int → Decimal
  | 0, j => ⟨(v.nearest? tie j).getD 0, j⟩
  | steps + 1, j =>
    match v.nearest? tie j with
    | some c => ⟨c, j⟩
    | none => v.descend tie steps (j - 1)

/-- The shortest decimal that rounds to the magnitude. Seventeen digits always suffice and the
    walk starts at most three exponents above the leading digit, so it never runs out. -/
def shortest (v : Magnitude) (tie : Tie) : Decimal :=
  if v.mantissa = 0 then ⟨0, 0⟩ else v.descend tie 24 v.topExponent

end Magnitude

/-- The shortest decimal that reads back as the magnitude of a finite number. -/
def Decimal.ofFloat (tie : Tie) (x : Float) : Decimal :=
  (Magnitude.ofFloat x).shortest tie

end DocQuery
