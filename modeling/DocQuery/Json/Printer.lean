-- SUMMARY: JSON trees as text, on one line or indented.
import DocQuery.Json.Basic
import DocQuery.Decimal.Format
import DocQuery.Text.Quoted

/-!
# Printing JSON

Members and items come in the order of the tree. A floating-point number is written with the
fewest digits that read back and is recognisable as one by its fraction or exponent. JSON has no
spelling for a number that is not finite, so such a number is written as `null`.
-/

namespace DocQuery.Json

/-! ## Scalars -/

/-- Numbers from `0.00001` up to sixteen whole digits are written out in full. -/
def numberFormat : NumberFormat where
  tie := .toEven
  positional e := -5 ≤ e && e < 16
  keepsFraction := true

def writeFloat (x : Float) : String :=
  if x.isFinite then numberFormat.write x else "null"

def Number.write : Number → String
  | .int n => toString n
  | .float x => writeFloat x

/-- One character of a string literal. -/
def escapeChar (c : Char) : String :=
  match c with
  | '"' => "\\\""
  | '\\' => "\\\\"
  | '\n' => "\\n"
  | '\r' => "\\r"
  | '\t' => "\\t"
  | '\x08' => "\\b"
  | '\x0c' => "\\f"
  | c =>
    if c.toNat < 16 then "\\u000" ++ Text.hex c.toNat
    else if c.toNat < 32 then "\\u00" ++ Text.hex c.toNat
    else c.toString

def quote (s : String) : String :=
  "\"" ++ String.join (s.toList.map escapeChar) ++ "\""

/-! ## Trees -/

/-- How the parts of a container are set apart. -/
inductive Layout where
  | compact
  | indented
deriving DecidableEq, Repr

/-- What stands before a part of a container `level` deep. -/
def Layout.gap : Layout → Nat → String
  | .compact, _ => ""
  | .indented, level => "\n" ++ String.ofList (List.replicate (2 * level) ' ')

/-- What stands between a key and its value. -/
def Layout.colon : Layout → String
  | .compact => ":"
  | .indented => ": "

mutual

/-- The text of a value that stands `level` containers deep. -/
def writeAt (layout : Layout) (level : Nat) : Json → String
  | .null => "null"
  | .bool b => if b then "true" else "false"
  | .number n => n.write
  | .string s => quote s
  | .array [] => "[]"
  | .array (j :: rest) =>
    "[" ++ layout.gap (level + 1) ++ writeAt layout (level + 1) j
      ++ writeItems layout (level + 1) rest ++ layout.gap level ++ "]"
  | .object [] => "\x7b\x7d"
  | .object ((k, j) :: rest) =>
    "\x7b" ++ layout.gap (level + 1) ++ quote k ++ layout.colon ++ writeAt layout (level + 1) j
      ++ writeMembers layout (level + 1) rest ++ layout.gap level ++ "\x7d"

/-- The items after the first. -/
def writeItems (layout : Layout) (level : Nat) : List Json → String
  | [] => ""
  | j :: rest => "," ++ layout.gap level ++ writeAt layout level j ++ writeItems layout level rest

/-- The members after the first. -/
def writeMembers (layout : Layout) (level : Nat) : List (String × Json) → String
  | [] => ""
  | (k, j) :: rest =>
    "," ++ layout.gap level ++ quote k ++ layout.colon ++ writeAt layout level j
      ++ writeMembers layout level rest

end

/-- The text of a value. -/
def write (layout : Layout) (j : Json) : String :=
  j.writeAt layout 0

/-- The text of a value on one line. -/
def compact (j : Json) : String :=
  j.write .compact

end DocQuery.Json
