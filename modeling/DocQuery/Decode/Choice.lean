-- SUMMARY: Named choices, written as a bare name or as an object with one member.
import DocQuery.Decode.Basic

/-!
# Choices

A choice is written as its name, or as an object whose only member has that name and holds what
belongs to the choice. Nothing else is a choice, not even to be reported as something else: it is
a fault of the text.
-/

namespace DocQuery

open Json (Draft Members)

variable {α β : Type}

/-- The choice of a given name. -/
def choiceOfName (choices : List (String × α)) (name : String) : Except ReadError α :=
  match choices.find? fun c => c.1 == name with
  | some c => .ok c.2
  | none => refuse (.unknownVariant name (choices.map Prod.fst))

/-- The name of a choice, where nothing but a name may stand. -/
def readChoiceName (choices : List (String × α)) : Draft → Except ReadError α
  | .string s => do choiceOfName choices (← ofText s.read)
  | d => wrongType "variant identifier" d

/-- The end of an object after its only member. -/
def expectEnd : Members → Except ReadError Unit
  | .close => .ok ()
  | .cut fault => .error (.text fault)
  | _ => .error (.text .malformed)

/-- Reads a choice. `bare` takes a choice without content, `content` reads what belongs to it and
    is absent if there is no room to open an object. -/
def readChoice (choices : List (String × α)) (bare : α → Except ReadError β)
    (content : Option (α → Draft → Except ReadError β)) : Draft → Except ReadError β
  | .absent => .error (.text .truncated)
  | .string s => do bare (← choiceOfName choices (← ofText s.read))
  | .object members =>
    match content with
    | none => .error (.text .malformed)
    | some content =>
      match members with
      | .close => .error (.text .malformed)
      | .cut fault => .error (.text fault)
      | .noKey found => wrongType "variant identifier" found
      | .member key value rest => do
        let choice ← choiceOfName choices (← ofText key.read)
        let b ← content choice value
        expectEnd rest
        return b
  | _ => .error (.text .malformed)

/-- The content of a choice that is only a name. -/
def readUnit (a : α) : Draft → Except ReadError α
  | .null => .ok a
  | d => wrongType "unit" d

/-- Reads a choice that is only a name. -/
def readName (room : Nat) (choices : List (String × α)) : Draft → Except ReadError α :=
  readChoice choices .ok (inside room fun _ => readUnit)

end DocQuery
