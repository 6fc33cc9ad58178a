-- SUMMARY: From a JSON text to its draft.
import DocQuery.Json.Draft
import DocQuery.Json.Numeral
import DocQuery.Json.StringLiteral

/-!
# Reading a text

`Document.ofText` turns a text into the draft of its first value and notes whether anything but
blanks follows. Reading itself never fails: faults become part of the draft.

Each function returns what is left of the text. After a fault nothing is left, since no reader
looks past it.
-/

namespace DocQuery.Json

/-- A word that spells a value, after its first letter. -/
def scanWord (value : Draft) (word cs : List Char) : Draft × List Char :=
  match expectWord word cs with
  | .ok rest => (value, rest)
  | .error fault => (.broken fault, [])

mutual

/-- The value at the start of a text. `fuel` bounds the number of steps. -/
def scanValue (fuel : Nat) (cs : List Char) : Draft × List Char :=
  match fuel with
  | 0 => (.broken .malformed, [])
  | fuel + 1 =>
    match skipBlanks cs with
    | [] => (.absent, [])
    | 'n' :: rest => scanWord .null ['u', 'l', 'l'] rest
    | 't' :: rest => scanWord (.bool true) ['r', 'u', 'e'] rest
    | 'f' :: rest => scanWord (.bool false) ['a', 'l', 's', 'e'] rest
    | '"' :: rest =>
      let (s, rest) := scanString rest
      (.string s, rest)
    | '[' :: rest =>
      let (items, rest) := scanFirstItem fuel rest
      (.array items, rest)
    | '\x7b' :: rest =>
      let (members, rest) := scanFirstMember fuel rest
      (.object members, rest)
    | c :: rest =>
      if c == '-' || c.isDigit then
        let (n, rest) := scanNumber (c :: rest)
        (.number n, rest)
      else (.broken .malformed, [])

/-- The items after an opening bracket. -/
def scanFirstItem (fuel : Nat) (cs : List Char) : Items × List Char :=
  match fuel with
  | 0 => (.cut .malformed, [])
  | fuel + 1 =>
    match skipBlanks cs with
    | [] => (.cut .truncated, [])
    | ']' :: rest => (.close, rest)
    | cs => scanItem fuel cs

/-- An item and those after it. -/
def scanItem (fuel : Nat) (cs : List Char) : Items × List Char :=
  match fuel with
  | 0 => (.cut .malformed, [])
  | fuel + 1 =>
    let (head, cs) := scanValue fuel cs
    match skipBlanks cs with
    | [] => (.item head (.cut .truncated), [])
    | ']' :: rest => (.item head .close, rest)
    | ',' :: rest =>
      let (items, rest) := scanItem fuel rest
      (.item head items, rest)
    | _ :: _ => (.item head (.cut .malformed), [])

/-- The members after an opening brace. -/
def scanFirstMember (fuel : Nat) (cs : List Char) : Members × List Char :=
  match fuel with
  | 0 => (.cut .malformed, [])
  | fuel + 1 =>
    match skipBlanks cs with
    | [] => (.cut .truncated, [])
    | '\x7d' :: rest => (.close, rest)
    | cs => scanMember fuel cs

/-- A member and those after it. -/
def scanMember (fuel : Nat) (cs : List Char) : Members × List Char :=
  match fuel with
  | 0 => (.cut .malformed, [])
  | fuel + 1 =>
    match skipBlanks cs with
    | '"' :: rest =>
      let (key, rest) := scanString rest
      let (value, rest) := match skipBlanks rest with
        | ':' :: rest => scanValue fuel rest
        | [] => (.absent, [])
        | _ :: _ => (.broken .malformed, [])
      match skipBlanks rest with
      | [] => (.member key value (.cut .truncated), [])
      | '\x7d' :: rest => (.member key value .close, rest)
      | ',' :: rest =>
        let (members, rest) := scanMember fuel rest
        (.member key value members, rest)
      | _ :: _ => (.member key value (.cut .malformed), [])
    | cs =>
      let (found, _) := scanValue fuel cs
      (.noKey found, [])

end

/-- A text as a draft of its value, and whether more than blanks follows. -/
structure Document where
  root : Draft
  trailing : Bool

/-- No more than three steps in a row leave the text as it is, so three steps for each of its
    characters and three for its end are enough. -/
def Document.ofText (text : String) : Document :=
  let cs := text.toList
  let (root, rest) := scanValue (3 * cs.length + 3) cs
  { root, trailing := !(skipBlanks rest).isEmpty }

end DocQuery.Json
