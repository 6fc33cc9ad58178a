-- SUMMARY: What a JSON text holds up to the first place where it stops being JSON.
import DocQuery.Json.Basic
import DocQuery.Json.Lexeme

/-!
# Drafts

A draft is a JSON value that may break off. It keeps every part of the text in its order, and
where the text goes wrong it keeps the fault at that place. Readers walk a draft from left to
right, so the first thing they object to is the first problem of the text, whether the text is no
JSON there or the value is not the one they need.

A draft without faults is a JSON tree (`ofJson`). `toJson` is the strict reading of a whole value,
`skip` steps over a value that nobody needs.
-/

namespace DocQuery.Json

mutual

/-- A JSON value that may break off. -/
inductive Draft where
  /-- The text ends before a value begins. -/
  | absent
  /-- No value begins here, or a word is misspelt. -/
  | broken (fault : Fault)
  | null
  | bool (b : Bool)
  | number (n : Lexeme Number)
  | string (s : Lexeme String)
  | array (items : Items)
  | object (members : Members)

/-- The items of an array, from some position on. -/
inductive Items where
  | close
  /-- Neither a comma nor the closing bracket follows. -/
  | cut (fault : Fault)
  | item (head : Draft) (rest : Items)

/-- The members of an object, from some position on. -/
inductive Members where
  | close
  /-- Neither a comma nor the closing brace follows. -/
  | cut (fault : Fault)
  /-- Something else stands where a key should. -/
  | noKey (found : Draft)
  /-- A key with its value. Where the colon is missing, so is the value. -/
  | member (key : Lexeme String) (value : Draft) (rest : Members)

end

/-! ## Drafts of trees -/

mutual

/-- A tree as a draft without faults. -/
def Draft.ofJson : Json → Draft
  | .null => .null
  | .bool b => .bool b
  | .number n => .number (.value n)
  | .string s => .string (.value s)
  | .array items => .array (Items.ofList items)
  | .object members => .object (Members.ofList members)

def Items.ofList : List Json → Items
  | [] => .close
  | j :: rest => .item (Draft.ofJson j) (Items.ofList rest)

def Members.ofList : List (String × Json) → Members
  | [] => .close
  | (k, j) :: rest => .member (.value k) (Draft.ofJson j) (Members.ofList rest)

end

/-! ## Stepping over a value -/

/-- The fault of a missing key: the text ends there, or holds something else. -/
def Draft.keyFault : Draft → Fault
  | .absent => .truncated
  | _ => .malformed

mutual

/-- Steps over a value, at any depth and whatever its numbers and strings mean. -/
def Draft.skip : Draft → Except Fault Unit
  | .absent => .error .truncated
  | .broken fault => .error fault
  | .null => .ok ()
  | .bool _ => .ok ()
  | .number n => n.skip
  | .string s => s.skip
  | .array items => items.skip
  | .object members => members.skip

def Items.skip : Items → Except Fault Unit
  | .close => .ok ()
  | .cut fault => .error fault
  | .item head rest => do head.skip; rest.skip

def Members.skip : Members → Except Fault Unit
  | .close => .ok ()
  | .cut fault => .error fault
  | .noKey found => .error found.keyFault
  | .member key value rest => do key.skip; value.skip; rest.skip

end

/-! ## Reading a whole value -/

mutual

/-- The value of a draft. Containers may nest at most `room` deep. -/
def Draft.toJson (room : Nat) : Draft → Except Fault Json
  | .absent => .error .truncated
  | .broken fault => .error fault
  | .null => .ok .null
  | .bool b => .ok (.bool b)
  | .number n => n.read.map .number
  | .string s => s.read.map .string
  | .array items =>
    match room with
    | 0 => .error .malformed
    | room + 1 => (items.toList room).map .array
  | .object members =>
    match room with
    | 0 => .error .malformed
    | room + 1 => (members.toList room).map .object

def Items.toList (room : Nat) : Items → Except Fault (List Json)
  | .close => .ok []
  | .cut fault => .error fault
  | .item head rest => do
    let j ← head.toJson room
    return j :: (← rest.toList room)

def Members.toList (room : Nat) : Members → Except Fault (List (String × Json))
  | .close => .ok []
  | .cut fault => .error fault
  | .noKey found => .error found.keyFault
  | .member key value rest => do
    let k ← key.read
    let j ← value.toJson room
    return (k, j) :: (← rest.toList room)

end

end DocQuery.Json
