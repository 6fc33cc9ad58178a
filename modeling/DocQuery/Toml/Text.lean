-- SUMMARY: TOML strings, on one line or on several.

/-!
# Strings

A string stands between double quotes, where a backslash begins an escape, or between single
quotes, where every character stands for itself. Three quotes begin a string that may run over
several lines; a line break right after them does not count.
-/

namespace DocQuery.Toml

/-- Characters that may stand in strings and comments: all but controls other than the tab. -/
def isPlain (c : Char) : Bool :=
  c == '\t' || (32 ≤ c.toNat && c.toNat != 127)

/-- What follows a line break. -/
def afterNewline? : List Char → Option (List Char)
  | '\n' :: cs => some cs
  | '\r' :: '\n' :: cs => some cs
  | _ => none

/-! ## Escapes -/

def hexValue? (c : Char) : Option Nat :=
  if c.isDigit then some (c.toNat - '0'.toNat)
  else if 'a' ≤ c && c ≤ 'f' then some (c.toNat - 'a'.toNat + 10)
  else if 'A' ≤ c && c ≤ 'F' then some (c.toNat - 'A'.toNat + 10)
  else none

/-- The character whose code point the first `n` characters spell, and what follows them. -/
def codePoint? (n : Nat) (cs : List Char) : Option (Char × List Char) := do
  let ds ← (cs.take n).mapM hexValue?
  let code := ds.foldl (fun m d => 16 * m + d) 0
  if ds.length = n && code.isValidChar then some (Char.ofNat code, cs.drop n) else none

/-- The character of an escape after its backslash, and what follows it. -/
def escape? (cs : List Char) : Option (Char × List Char) :=
  match cs with
  | 'b' :: cs => some ('\x08', cs)
  | 't' :: cs => some ('\t', cs)
  | 'n' :: cs => some ('\n', cs)
  | 'f' :: cs => some ('\x0c', cs)
  | 'r' :: cs => some ('\r', cs)
  | 'e' :: cs => some ('\x1b', cs)
  | '"' :: cs => some ('"', cs)
  | '\\' :: cs => some ('\\', cs)
  | 'x' :: cs => codePoint? 2 cs
  | 'u' :: cs => codePoint? 4 cs
  | 'U' :: cs => codePoint? 8 cs
  | _ => none

/-! ## One line -/

/-- The rest of a string between double quotes, and what follows it. -/
def basic? : Nat → List Char → Option (List Char × List Char)
  | 0, _ => none
  | fuel + 1, cs =>
    match cs with
    | [] => none
    | '"' :: rest => some ([], rest)
    | '\\' :: rest => do
      let (c, rest) ← escape? rest
      let (s, rest) ← basic? fuel rest
      return (c :: s, rest)
    | c :: rest =>
      if isPlain c then do
        let (s, rest) ← basic? fuel rest
        return (c :: s, rest)
      else none

/-- The rest of a string between single quotes, and what follows it. -/
def literal? : List Char → Option (List Char × List Char)
  | [] => none
  | '\'' :: rest => some ([], rest)
  | c :: rest =>
    if isPlain c then do
      let (s, rest) ← literal? rest
      return (c :: s, rest)
    else none

/-! ## Several lines -/

/-- Splits off the quotes in front of a text, five at most. -/
def quotes (quote : Char) (cs : List Char) : Nat × List Char :=
  let n := ((cs.take 5).takeWhile (· == quote)).length
  (n, cs.drop n)

/-- A text without blanks in front. -/
def skipSpaces (cs : List Char) : List Char :=
  cs.dropWhile fun c => c == ' ' || c == '\t'

/-- A text without blanks and line breaks in front. -/
def skipBreaks : Nat → List Char → List Char
  | 0, cs => cs
  | fuel + 1, cs =>
    match afterNewline? (skipSpaces cs) with
    | some rest => skipBreaks fuel rest
    | none => skipSpaces cs

/-- What follows a backslash that joins lines: blanks up to the end of the line, then all blanks
    and line breaks. -/
def afterJoin? (cs : List Char) : Option (List Char) :=
  (afterNewline? (skipSpaces cs)).map fun rest => skipBreaks rest.length rest

/-- The rest of a string of several lines, and what follows it. Two quotes may stand before the
    closing three. -/
def multiline? (quote : Char) (escapes : Bool) : Nat → List Char → Option (List Char × List Char)
  | 0, _ => none
  | fuel + 1, cs =>
    match cs with
    | [] => none
    | c :: rest =>
      if c == quote then
        let (n, rest) := quotes quote cs
        if 3 ≤ n then some (List.replicate (n - 3) quote, rest)
        else do
          let (s, rest) ← multiline? quote escapes fuel rest
          return (List.replicate n quote ++ s, rest)
      else if escapes && c == '\\' then
        match afterJoin? rest with
        | some rest => multiline? quote escapes fuel rest
        | none => do
          let (c, rest) ← escape? rest
          let (s, rest) ← multiline? quote escapes fuel rest
          return (c :: s, rest)
      else
        match afterNewline? cs with
        | some rest => do
          let (s, after) ← multiline? quote escapes fuel rest
          return (cs.take (cs.length - rest.length) ++ s, after)
        | none =>
          if isPlain c then do
            let (s, rest) ← multiline? quote escapes fuel rest
            return (c :: s, rest)
          else none

/-- A text without a line break in front. -/
def skipNewline (cs : List Char) : List Char :=
  (afterNewline? cs).getD cs

/-! ## Strings -/

/-- The string of one line at the start of a text, and what follows it. -/
def lineString? (cs : List Char) : Option (String × List Char) := do
  let (s, rest) ← match cs with
    | '"' :: rest => basic? cs.length rest
    | '\'' :: rest => literal? rest
    | _ => none
  return (String.ofList s, rest)

/-- The string at the start of a text, and what follows it. -/
def string? (cs : List Char) : Option (String × List Char) :=
  match cs with
  | '"' :: '"' :: '"' :: rest => do
    let (s, rest) ← multiline? '"' true cs.length (skipNewline rest)
    return (String.ofList s, rest)
  | '\'' :: '\'' :: '\'' :: rest => do
    let (s, rest) ← multiline? '\'' false cs.length (skipNewline rest)
    return (String.ofList s, rest)
  | cs => lineString? cs

end DocQuery.Toml
