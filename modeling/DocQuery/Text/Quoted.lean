-- SUMMARY: Text between double quotes in which every character can be seen.
import DocQuery.Text.Printable
import DocQuery.Text.Combining

/-!
# Quoted text

Quotes and backslashes are escaped, the common controls have short names, and whatever could not
be seen on its own (unprintable or combining characters) is written by its code point in hex.
-/

namespace DocQuery.Text

/-- The digits of a code point in lower-case hex. -/
def hex (n : Nat) : String :=
  String.ofList (Nat.toDigits 16 n)

/-- One character as it stands between the quotes. -/
def quoteChar (c : Char) : String :=
  match c with
  | '\x00' => "\\0"
  | '\t' => "\\t"
  | '\r' => "\\r"
  | '\n' => "\\n"
  | '"' => "\\\""
  | '\\' => "\\\\"
  | c => if isPrintable c && !isCombining c then c.toString
    else "\\u\x7b" ++ hex c.toNat ++ "\x7d"

/-- A text between double quotes. -/
def quote (s : String) : String :=
  "\"" ++ String.join (s.toList.map quoteChar) ++ "\""

end DocQuery.Text
