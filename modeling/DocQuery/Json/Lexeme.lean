-- SUMMARY: The smallest parts of a JSON text, each as it appears to a reader who wants its value and to one who only steps over it.

/-!
# Lexemes

A text can fail to be JSON in two ways: something stands where it cannot, or the text ends too
early. A reader who needs the value of a lexeme is stricter than one who steps over it. Numbers
out of range and lone surrogates matter to the first only, so a lexeme records both views.
-/

namespace DocQuery.Json

/-- How a text fails to be JSON. -/
inductive Fault where
  /-- Something stands where it cannot. -/
  | malformed
  /-- The text ends too early. -/
  | truncated
deriving DecidableEq, Repr

/-- A lexeme: its value for a reader who needs it, and whether one can step over it. -/
structure Lexeme (α : Type) where
  read : Except Fault α
  skip : Except Fault Unit

namespace Lexeme

variable {α β : Type}

/-- A lexeme with a value. -/
def value (a : α) : Lexeme α :=
  ⟨.ok a, .ok ()⟩

/-- A lexeme that nobody gets past. -/
def broken (fault : Fault) : Lexeme α :=
  ⟨.error fault, .error fault⟩

end Lexeme

/-- Blanks between lexemes. -/
def isBlank (c : Char) : Bool :=
  c == ' ' || c == '\n' || c == '\t' || c == '\r'

/-- The text from its first character that is no blank. -/
def skipBlanks (cs : List Char) : List Char :=
  cs.dropWhile isBlank

/-- The text after the expected letters. -/
def expectWord : List Char → List Char → Except Fault (List Char)
  | [], cs => .ok cs
  | _ :: _, [] => .error .truncated
  | w :: ws, c :: cs => if w == c then expectWord ws cs else .error .malformed

end DocQuery.Json
