-- SUMMARY: Reading settings from a TOML text.
import DocQuery.Decode.Basic
import DocQuery.Settings
import DocQuery.Toml.Parser

/-!
# Reading settings

The text is parsed as a whole before its keys are looked at, and then they are looked at in
increasing order, wherever they stand in the text.
-/

namespace DocQuery

/-- Why a text holds no settings. -/
inductive SettingsError where
  /-- The text is no TOML document. -/
  | malformed
  /-- A number is out of range, or no number at all. -/
  | numberRange
  | mismatch (cause : Mismatch)

namespace SettingsError

/-- Numbers in messages are written out in full and keep their fraction. -/
def numberFormat : NumberFormat where
  tie := .upward
  positional _ := true
  keepsFraction := true

def spellFloat (x : Float) : String :=
  if x.isNaN then "NaN"
  else if x.isInf then (if signBit x then "-inf" else "inf")
  else numberFormat.write x

def message : SettingsError → String
  | malformed => "the text is no TOML document"
  | numberRange => "a number is out of range"
  | mismatch cause => cause.message spellFloat

end SettingsError

/-! ## Values -/

/-- A whole number as it is reported: beyond 64 bits together with a type that holds it. -/
def Found.ofInteger (n : Int) : Except SettingsError Found :=
  if -Int.ofNat (Nat.pow 2 63) ≤ n && n < Int.ofNat (Nat.pow 2 64) then .ok (.int n)
  else if -Int.ofNat (Nat.pow 2 127) ≤ n && n < Int.ofNat (Nat.pow 2 127) then
    .ok (.wideInt n "i128")
  else if 0 ≤ n && n < Int.ofNat (Nat.pow 2 128) then .ok (.wideInt n "u128")
  else .error .numberRange

/-- What a value looks like to a reader who expected another. -/
def Found.ofToml : Toml.Value → Except SettingsError Found
  | .scalar (.string s) => .ok (.string s)
  | .scalar (.integer (some n)) => Found.ofInteger n
  | .scalar (.integer none) => .error .numberRange
  | .scalar (.float (some x)) => .ok (.float x)
  | .scalar (.float none) => .error .numberRange
  | .scalar (.boolean b) => .ok (.bool b)
  | .scalar .datetime => .ok .map
  | .array _ => .ok .sequence
  | .tables .. => .ok .sequence
  | .table _ => .ok .map

def wrongToml {α : Type} (expected : String) (v : Toml.Value) : Except SettingsError α := do
  let found ← Found.ofToml v
  .error (.mismatch (.wrongType found expected))

def tomlString : Toml.Value → Except SettingsError String
  | .scalar (.string s) => .ok s
  | v => wrongToml "a string" v

def tomlBool : Toml.Value → Except SettingsError Bool
  | .scalar (.boolean b) => .ok b
  | v => wrongToml "a boolean" v

/-! ## Settings -/

namespace Settings

def keys : List String :=
  ["identity_column", "always_true_column", "case_insensitive_like"]

/-- Takes over one entry. -/
def setEntry (settings : Settings) (key : String) (v : Toml.Value) :
    Except SettingsError Settings := do
  match key with
  | "identity_column" => return { settings with identityColumn := ← tomlString v }
  | "always_true_column" => return { settings with alwaysTrueColumn := ← tomlString v }
  | "case_insensitive_like" => return { settings with caseInsensitiveLike := ← tomlBool v }
  | key => .error (.mismatch (.unknownField key keys))

/-- The settings in a TOML text; what it leaves out keeps its default. -/
def ofToml (text : String) : Except SettingsError Settings := do
  match Toml.parse? text with
  | none => .error .malformed
  | some root =>
    let entries := root.entries.mergeSort fun a b => a.1 ≤ b.1
    entries.foldlM (fun settings entry => settings.setEntry entry.1 entry.2) {}

end Settings

end DocQuery
