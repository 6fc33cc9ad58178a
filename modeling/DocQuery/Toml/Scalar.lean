-- SUMMARY: TOML numbers, truth values and dates.
import DocQuery.Decimal.Nearest
import DocQuery.Toml.Table

/-!
# Plain scalars

Scalars that are not strings are written as one word: numbers, truth values, dates and times. Only
a date and a time may also be set apart by a blank.

What a word starts with tells its kind. A word of the kind of numbers need not spell one: the
number is left out then, and is only missed by whoever asks for it.
-/

namespace DocQuery.Toml

/-! ## Digits -/

/-- The value of a digit, in any base up to sixteen. -/
def digitValue (c : Char) : Nat :=
  if c.isDigit then c.toNat - '0'.toNat
  else if c.isUpper then c.toNat - 'A'.toNat + 10
  else c.toNat - 'a'.toNat + 10

def digitsValue (base : Nat) (ds : List Char) : Nat :=
  ds.foldl (fun n c => base * n + digitValue c) 0

def isHexDigit (c : Char) : Bool :=
  c.isDigit || ('a' ≤ c && c ≤ 'f') || ('A' ≤ c && c ≤ 'F')

def isOctalDigit (c : Char) : Bool :=
  '0' ≤ c && c ≤ '7'

def isBinaryDigit (c : Char) : Bool :=
  c == '0' || c == '1'

/-- Splits off a sign; tells whether it is a minus. -/
def splitSign : List Char → Bool × List Char
  | '+' :: cs => (false, cs)
  | '-' :: cs => (true, cs)
  | cs => (false, cs)

/-- The whole number that a sign and digits spell. -/
def spelled? (base : Nat) (isDigit : Char → Bool) (cs : List Char) : Option Int :=
  let (negative, ds) := splitSign cs
  if ds.isEmpty || !ds.all isDigit then none
  else
    let n := Int.ofNat (digitsValue base ds)
    some (if negative then -n else n)

/-! ## Underscores -/

/-- The parts of a word between its underscores. -/
def parts (word : List Char) : List (List Char) :=
  word.foldr (fun c ps =>
    if c == '_' then [] :: ps
    else match ps with
      | [] => [[c]]
      | p :: ps => (c :: p) :: ps) [[]]

def withoutUnderscores (word : List Char) : List Char :=
  word.filter (· != '_')

/-- Whether the parts after the first have digits where they meet an underscore. -/
def laterPartsFit (isDigit : Char → Bool) : List (List Char) → Bool
  | [] => true
  | [p] => p.head?.any isDigit
  | p :: ps => p.head?.any isDigit && p.getLast?.any isDigit && laterPartsFit isDigit ps

/-- Whether underscores stand between digits, or between a sign in front and a digit. -/
def underscoresFit (isDigit : Char → Bool) (word : List Char) : Bool :=
  match parts word with
  | p :: q :: ps =>
    (p == ['+'] || p == ['-'] || p.getLast?.any isDigit) && laterPartsFit isDigit (q :: ps)
  | _ => true

/-! ## Numbers -/

/-- A whole number of the given base after its mark, and the number if there are digits. -/
def basedInteger? (base : Nat) (isDigit : Char → Bool) (ds : List Char) : Option (Option Int) :=
  if ds.all (fun c => isDigit c || c == '_') && underscoresFit isDigit ds then
    some (spelled? base isDigit (withoutUnderscores ds))
  else none

/-- A decimal whole number without a needless zero in front, and the number if it is one. Around
    underscores the digits of any base pass. -/
def integer? (word : List Char) : Option (Option Int) :=
  let (_, body) := splitSign word
  if (body.head? == some '0' && body.length != 1) || !underscoresFit isHexDigit word then none
  else some (spelled? 10 Char.isDigit (withoutUnderscores word))

/-- The exponent of a floating-point number, from its mark on. -/
def exponent? : List Char → Option Int
  | [] => some 0
  | c :: cs => if c == 'e' || c == 'E' then spelled? 10 Char.isDigit cs else none

/-- The digits of a fraction, from its point on, and what follows them. -/
def fraction? : List Char → Option (List Char × List Char)
  | '.' :: cs =>
    let ds := cs.takeWhile Char.isDigit
    if ds.isEmpty then none else some (ds, cs.drop ds.length)
  | cs => some ([], cs)

/-- A floating-point number, nearest to its decimal; none inside if that is infinite. -/
def float? (word : List Char) : Option (Option Float) := do
  let (negative, body) := splitSign word
  let cs := withoutUnderscores body
  let whole := cs.takeWhile Char.isDigit
  if whole.isEmpty || (body.head? == some '0' && whole.length != 1) then none
  else if !underscoresFit Char.isDigit word then none
  else
    let (fraction, rest) ← fraction? (cs.drop whole.length)
    let exponent ← exponent? rest
    let x := Decimal.toFloat ⟨digitsValue 10 (whole ++ fraction), exponent - fraction.length⟩
    return if x.isInf then none else some (if negative then -x else x)

/-! ## Dates and times -/

/-- A number of exactly `n` digits within bounds, and what follows it. -/
def field? (n low high : Nat) (cs : List Char) : Option (Nat × List Char) :=
  let ds := cs.take n
  let value := digitsValue 10 ds
  if ds.length = n && ds.all Char.isDigit && low ≤ value && value ≤ high then
    some (value, cs.drop n)
  else none

/-- What follows an expected character. -/
def after? (c : Char) : List Char → Option (List Char)
  | d :: cs => if c == d then some cs else none
  | [] => none

def isLeapYear (year : Nat) : Bool :=
  year % 4 == 0 && (year % 100 != 0 || year % 400 == 0)

def daysInMonth (year month : Nat) : Nat :=
  if month == 2 then (if isLeapYear year then 29 else 28)
  else if month == 4 || month == 6 || month == 9 || month == 11 then 30
  else 31

/-- What follows a date. -/
def afterDate? (cs : List Char) : Option (List Char) := do
  let (year, cs) ← field? 4 0 9999 cs
  let (month, cs) ← field? 2 1 12 (← after? '-' cs)
  let (_, cs) ← field? 2 1 (daysInMonth year month) (← after? '-' cs)
  return cs

/-- What follows the fraction of a second, if there is one. -/
def afterFraction? (cs : List Char) : Option (List Char) :=
  match cs with
  | '.' :: rest =>
    if (rest.takeWhile Char.isDigit).isEmpty then none else some (rest.dropWhile Char.isDigit)
  | cs => some cs

/-- What follows a time of day. Seconds may be left out. -/
def afterTime? (cs : List Char) : Option (List Char) := do
  let (_, cs) ← field? 2 0 23 cs
  let (_, cs) ← field? 2 0 59 (← after? ':' cs)
  match cs with
  | ':' :: cs =>
    let (_, cs) ← field? 2 0 60 cs
    afterFraction? cs
  | cs => return cs

/-- Whether the text is the offset of a time, or nothing. -/
def isOffset (cs : List Char) : Bool :=
  match cs with
  | [] => true
  | ['Z'] => true
  | ['z'] => true
  | sign :: cs =>
    (sign == '+' || sign == '-') && (do
      let (_, cs) ← field? 2 0 23 cs
      let (_, cs) ← field? 2 0 59 (← after? ':' cs)
      return cs.isEmpty).getD false

/-- Whether a time of day, with an offset or without, is all there is. -/
def isTime (withOffset : Bool) (cs : List Char) : Bool :=
  match afterTime? cs with
  | some rest => if withOffset then isOffset rest else rest.isEmpty
  | none => false

/-- Whether the word is a date, a time of day, or both. -/
def isDatetime (cs : List Char) : Bool :=
  isTime false cs || match afterDate? cs with
    | some [] => true
    | some (c :: rest) => (c == 'T' || c == 't' || c == ' ') && isTime true rest
    | none => false

/-! ## Words -/

/-- The scalar that a word spells which starts with a digit or an underscore, but for a sign. What
    follows the digits in front tells dates and times from numbers, and a point or the mark of an
    exponent tells the two kinds of numbers apart. -/
def numberOrDatetime? (word : List Char) : Option Scalar :=
  let rest := (splitSign word).2.dropWhile Char.isDigit
  match rest with
  | '-' :: _ => if isDatetime word then some .datetime else none
  | ':' :: _ => if isDatetime word then some .datetime else none
  | _ =>
    if rest.any fun c => c == '.' || c == 'e' || c == 'E' then (float? word).map .float
    else if rest.isEmpty || rest.head? == some '_' then (integer? word).map .integer
    else none

/-- The scalar that a word spells. -/
def scalar? (word : List Char) : Option Scalar :=
  match word with
  | ['t', 'r', 'u', 'e'] => some (.boolean true)
  | ['f', 'a', 'l', 's', 'e'] => some (.boolean false)
  | '0' :: 'x' :: ds => (basedInteger? 16 isHexDigit ds).map .integer
  | '0' :: 'o' :: ds => (basedInteger? 8 isOctalDigit ds).map .integer
  | '0' :: 'b' :: ds => (basedInteger? 2 isBinaryDigit ds).map .integer
  | word =>
    let (negative, body) := splitSign word
    match body with
    | ['i', 'n', 'f'] => some (.float (some (if negative then -1.0 / 0.0 else 1.0 / 0.0)))
    | ['n', 'a', 'n'] => some (.float (some (0.0 / 0.0)))
    | c :: _ => if c.isDigit || c == '_' then numberOrDatetime? word else none
    | [] => none

/-- Whether a word ends before the character. -/
def endsWord (c : Char) : Bool :=
  [' ', '\t', '\n', '\r', '#', ',', '=', '[', ']', '\x7b', '\x7d'].contains c

/-- The word at the start of a text, and what follows it. A date takes the time after a blank
    along. -/
def splitWord (cs : List Char) : List Char × List Char :=
  let word := cs.takeWhile fun c => !endsWord c
  let rest := cs.drop word.length
  match afterDate? word, rest with
  | some [], ' ' :: c :: _ =>
    if c.isDigit then
      let time := (rest.drop 1).takeWhile fun c => !endsWord c
      (word ++ ' ' :: time, rest.drop (time.length + 1))
    else (word, rest)
  | _, _ => (word, rest)

end DocQuery.Toml
