-- SUMMARY: JSON string literals and the text they spell.
import DocQuery.Json.Lexeme

/-!
# String literals

A literal is first cut into units: a character that stands for itself, or the number of a
`\u` escape. Two units may spell one character, as a pair of surrogates. A surrogate without its
partner spells nothing, but a reader who only steps over the literal does not mind.
-/

namespace DocQuery.Json

/-- A unit of a string literal. -/
inductive StringUnit where
  | char (c : Char)
  | code (n : Nat)
deriving DecidableEq, Repr

namespace StringLiteral

/-! ## Units -/

/-- The value of a hexadecimal digit. -/
def hexDigit? (c : Char) : Option Nat :=
  if c.isDigit then some (c.toNat - '0'.toNat)
  else if 'a' ≤ c && c ≤ 'f' then some (c.toNat - 'a'.toNat + 10)
  else if 'A' ≤ c && c ≤ 'F' then some (c.toNat - 'A'.toNat + 10)
  else none

/-- The value of hexadecimal digits. -/
def hexDigits? (digits : List Char) : Option Nat :=
  digits.foldl (fun n c => do return 16 * (← n) + (← hexDigit? c)) (some 0)

/-- The character that a one-letter escape stands for. -/
def escaped? (c : Char) : Option Char :=
  match c with
  | '"' => some '"'
  | '\\' => some '\\'
  | '/' => some '/'
  | 'b' => some '\x08'
  | 'f' => some '\x0c'
  | 'n' => some '\n'
  | 'r' => some '\r'
  | 't' => some '\t'
  | _ => none

/-- The size of a text in UTF-8. -/
def byteSize (cs : List Char) : Nat :=
  cs.foldl (fun n c => n + c.utf8Size) 0

/-- The units of a literal after its opening quote, up to the closing quote and with what follows
    it, or up to where the literal goes wrong. A `\u` escape needs four more bytes of text. -/
def units : List Char → List StringUnit × Except Fault (List Char)
  | [] => ([], .error .truncated)
  | '"' :: rest => ([], .ok rest)
  | ['\\'] => ([], .error .truncated)
  | '\\' :: 'u' :: a :: b :: c :: d :: rest =>
    match hexDigits? [a, b, c, d] with
    | some n =>
      let (us, stop) := units rest
      (.code n :: us, stop)
    | none => ([], .error .malformed)
  | '\\' :: 'u' :: rest =>
    ([], .error (if byteSize rest < 4 then .truncated else .malformed))
  | '\\' :: c :: rest =>
    match escaped? c with
    | some e =>
      let (us, stop) := units rest
      (.char e :: us, stop)
    | none => ([], .error .malformed)
  | c :: rest =>
    if c.toNat < 32 then ([], .error .malformed)
    else
      let (us, stop) := units rest
      (.char c :: us, stop)

/-! ## The text -/

/-- A unit that must be followed by a trailing surrogate. -/
def isLeading (n : Nat) : Bool :=
  0xd800 ≤ n && n ≤ 0xdbff

/-- A unit that must follow a leading surrogate. -/
def isTrailing (n : Nat) : Bool :=
  0xdc00 ≤ n && n ≤ 0xdfff

/-- The character that a pair of surrogates spells. -/
def joinSurrogates (leading trailing : Nat) : Char :=
  Char.ofNat (0x10000 + 0x400 * (leading - 0xd800) + (trailing - 0xdc00))

/-- The characters that the units spell. `stop` is how the literal ends: where it breaks off
    after a leading surrogate, the break is what goes wrong. -/
def spell (stop : Except Fault Unit) : List StringUnit → Except Fault (List Char)
  | [] => stop.map fun _ => []
  | .char c :: rest => (spell stop rest).map (c :: ·)
  | [.code n] =>
    if isTrailing n then .error .malformed
    else if isLeading n then do stop; .error .malformed
    else (stop.map fun _ => [Char.ofNat n])
  | .code n :: .code m :: rest =>
    if isTrailing n then .error .malformed
    else if isLeading n then
      if isTrailing m then (spell stop rest).map (joinSurrogates n m :: ·)
      else .error .malformed
    else (spell stop (.code m :: rest)).map (Char.ofNat n :: ·)
  | .code n :: .char c :: rest =>
    if isTrailing n || isLeading n then .error .malformed
    else (spell stop (.char c :: rest)).map (Char.ofNat n :: ·)

end StringLiteral

/-- The literal whose opening quote has just been read, and what follows it. -/
def scanString (cs : List Char) : Lexeme String × List Char :=
  let (us, stop) := StringLiteral.units cs
  let skip := stop.map fun _ => ()
  (⟨(StringLiteral.spell skip us).map String.ofList, skip⟩,
    match stop with
    | .ok rest => rest
    | .error _ => [])

end DocQuery.Json
