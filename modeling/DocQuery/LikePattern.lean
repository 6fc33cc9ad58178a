-- SUMMARY: LIKE patterns as anchored regular expressions.
import DocQuery.Json.Basic

/-!
# LIKE patterns

In a LIKE pattern `%` stands for any run of characters and `_` for any one character; all other
characters stand for themselves. The engine gets an equivalent regular expression, anchored at
both ends, with flags that let the dot match line breaks.
-/

namespace DocQuery

/-- A LIKE pattern in the form that the engine takes. -/
structure LikePattern where
  source : String
  caseInsensitive : Bool
deriving DecidableEq, Repr

namespace LikePattern

/-- The characters with a meaning in regular expressions. -/
def metacharacters : List Char :=
  ['\\', '.', '+', '*', '?', '(', ')', '|', '[', ']', '\x7b', '\x7d', '^', '$']

/-- The piece of a regular expression for one character of a pattern. -/
def piece (c : Char) : List Char :=
  if c == '%' then ['.', '*']
  else if c == '_' then ['.']
  else if metacharacters.contains c then ['\\', c]
  else [c]

/-- The regular expression for a pattern. -/
def regex (pattern : List Char) : List Char :=
  '^' :: (pattern.flatMap piece ++ ['$'])

def ofPattern (pattern : String) (caseInsensitive : Bool) : LikePattern :=
  { source := String.ofList (regex pattern.toList), caseInsensitive }

def flags (p : LikePattern) : String :=
  if p.caseInsensitive then "is" else "s"

def toJson (p : LikePattern) : Json :=
  .array [.string p.source, .string p.flags]

end LikePattern

end DocQuery
