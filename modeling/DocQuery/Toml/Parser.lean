-- SUMMARY: From a TOML text to its table.
import DocQuery.Toml.Scalar
import DocQuery.Toml.Text

/-!
# Parsing TOML

The text is read line by line. Every function returns what is left of the text, or nothing if the
text is no TOML document.
-/

namespace DocQuery.Toml

/-! ## Blanks and comments -/

/-- What follows a comment, if there is one. -/
def afterComment? (cs : List Char) : Option (List Char) :=
  match cs with
  | '#' :: rest =>
    let rest := rest.dropWhile isPlain
    match rest with
    | [] => some []
    | rest => (afterNewline? rest).map fun _ => rest
  | cs => some cs

/-- What follows blanks, comments and line breaks. -/
def skipLines : Nat → List Char → Option (List Char)
  | 0, cs => some cs
  | fuel + 1, cs => do
    let rest ← afterComment? (skipSpaces cs)
    match afterNewline? rest with
    | some rest => skipLines fuel rest
    | none => some rest

/-- How many arrays and inline tables may stand one inside the other, and how many parts a dotted
    key may have. -/
def maxNesting : Nat :=
  80

/-! ## Keys -/

def isBareKeyChar (c : Char) : Bool :=
  c.isAlphanum || c == '_' || c == '-'

/-- A key without dots. -/
def simpleKey? (cs : List Char) : Option (String × List Char) :=
  match cs with
  | '"' :: _ => lineString? cs
  | '\'' :: _ => lineString? cs
  | cs =>
    let key := cs.takeWhile isBareKeyChar
    if key.isEmpty then none else some (String.ofList key, cs.drop key.length)

/-- A key of at most `parts` parts, split into a path and a last part. -/
def dottedKey? : Nat → List Char → Option (List String × String × List Char)
  | 0, _ => none
  | parts + 1, cs => do
    let (first, rest) ← simpleKey? cs
    match skipSpaces rest with
    | '.' :: rest =>
      let (path, last, rest) ← dottedKey? parts (skipSpaces rest)
      return (first :: path, last, rest)
    | rest => return ([], first, rest)

/-- The key at the start of a text, split into a path and a last part. -/
def key? (cs : List Char) : Option (List String × String × List Char) :=
  dottedKey? maxNesting cs

/-! ## Values -/

mutual

/-- The value at the start of a text. `fuel` bounds the steps, `room` the nesting. -/
def value? (fuel room : Nat) (cs : List Char) : Option (Value × List Char) :=
  match fuel with
  | 0 => none
  | fuel + 1 =>
    match cs with
    | [] => none
    | '[' :: rest =>
      match room with
      | 0 => none
      | room + 1 => do
        let (items, rest) ← items? fuel room (← skipLines rest.length rest)
        return (.array items, rest)
    | '\x7b' :: rest =>
      match room with
      | 0 => none
      | room + 1 => do
        let (t, rest) ← inline? fuel room (.empty .inline) (← skipLines rest.length rest)
        return (.table t, rest)
    | c :: rest =>
      if c == '"' || c == '\'' then do
        let (s, rest) ← string? (c :: rest)
        return (.scalar (.string s), rest)
      else do
        let (word, rest) := splitWord (c :: rest)
        return (.scalar (← scalar? word), rest)

/-- The items of an array up to its closing bracket. -/
def items? (fuel room : Nat) (cs : List Char) : Option (List Value × List Char) :=
  match fuel with
  | 0 => none
  | fuel + 1 =>
    match cs with
    | ']' :: rest => some ([], rest)
    | cs => do
      let (v, rest) ← value? fuel room cs
      match ← skipLines rest.length rest with
      | ']' :: rest => return ([v], rest)
      | ',' :: rest =>
        let (items, rest) ← items? fuel room (← skipLines rest.length rest)
        return (v :: items, rest)
      | _ => none

/-- The entries of an inline table up to its closing brace. Lines may end anywhere but inside a
    key. -/
def inline? (fuel room : Nat) (t : Table) (cs : List Char) : Option (Table × List Char) :=
  match fuel with
  | 0 => none
  | fuel + 1 =>
    match cs with
    | '\x7d' :: rest => some (t, rest)
    | cs => do
      let (path, key, rest) ← key? cs
      let rest ← after? '=' (← skipLines rest.length rest)
      let (v, rest) ← value? fuel room (← skipLines rest.length rest)
      let t ← t.assign path key v
      match ← skipLines rest.length rest with
      | '\x7d' :: rest => return (t, rest)
      | ',' :: rest => inline? fuel room t (← skipLines rest.length rest)
      | _ => none

end

/-! ## Lines -/

/-- What follows the end of a line, with a comment before it or none. -/
def afterLine? (cs : List Char) : Option (List Char) := do
  match ← afterComment? (skipSpaces cs) with
  | [] => some []
  | rest => afterNewline? rest

/-- A statement of a document. -/
inductive Statement where
  | assign (path : List String) (key : String) (v : Value)
  | openTable (path : List String) (key : String)
  | openItem (path : List String) (key : String)

/-- The statement at the start of a text. -/
def statement? (cs : List Char) : Option (Statement × List Char) :=
  match cs with
  | '[' :: '[' :: rest => do
    let (path, key, rest) ← key? (skipSpaces rest)
    return (.openItem path key, ← after? ']' (← after? ']' rest))
  | '[' :: rest => do
    let (path, key, rest) ← key? (skipSpaces rest)
    return (.openTable path key, ← after? ']' rest)
  | cs => do
    let (path, key, rest) ← key? cs
    let (v, rest) ← value? (2 * cs.length + 2) maxNesting (skipSpaces (← after? '=' rest))
    return (.assign path key v, rest)

/-- The statements of a document. -/
def statements? : Nat → List Char → Option (List Statement)
  | 0, _ => none
  | fuel + 1, cs => do
    match ← skipLines cs.length cs with
    | [] => return []
    | cs =>
      let (s, rest) ← statement? cs
      return s :: (← statements? fuel (← afterLine? rest))

/-! ## Documents -/

/-- Carries out statements; `current` is the path of the last header. -/
def build? (root : Table) (current : List String) : List Statement → Option Table
  | [] => some root
  | .assign path key v :: rest => do
    build? (← root.update false current (Table.assign path key v)) current rest
  | .openTable path key :: rest => do
    build? (← root.openTable path key) (path ++ [key]) rest
  | .openItem path key :: rest => do
    build? (← root.openItem path key) (path ++ [key]) rest

/-- A text without a byte order mark in front. -/
def skipMark (cs : List Char) : List Char :=
  match cs with
  | '\ufeff' :: rest => rest
  | cs => cs

/-- The table of a document. -/
def parse? (text : String) : Option Table := do
  let cs := skipMark text.toList
  build? (.empty .header) [] (← statements? (cs.length + 1) cs)

end DocQuery.Toml
