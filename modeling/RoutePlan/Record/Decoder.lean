import RoutePlan.Json.Source
import RoutePlan.Time.Text

/-!
# Decoding structured values

A decoder reads a typed value from a structured one or says why it cannot (`DecodeError`). It goes
through its source in the order written, so that of two faults it reports the one that comes first.
Values of a closed list of names (`Names`) are written as text; an object with the name as its only
key and null as its value is accepted too.
-/

namespace RoutePlan

/-- Why a structured value does not have the expected shape. -/
inductive DecodeError
  | missingField (name : String)
  | duplicateField (name : String)
  | unknownVariant (text : String) (expected : List String)
  | badValue
  deriving DecidableEq

namespace DecodeError

def inBackticks (s : String) : String := "`" ++ s ++ "`"

/-- The choice between two names, or the list of three and more. -/
def choices (names : List String) : String :=
  match names with
  | [a, b] => "expected " ++ inBackticks a ++ " or " ++ inBackticks b
  | _ => "expected one of " ++ ", ".intercalate (names.map inBackticks)

/-- The text of the error. -/
def message : DecodeError → String
  | missingField name => "missing field " ++ inBackticks name
  | duplicateField name => "duplicate field " ++ inBackticks name
  | unknownVariant text expected =>
    "unknown variant " ++ inBackticks text ++ ", " ++ choices expected
  | badValue => "bad value"

end DecodeError

/-- Reads a typed value from a structured one. -/
abbrev Decoder (α : Type) := Source → Except DecodeError α

namespace Decoder

variable {α : Type}

def text : Decoder String
  | .str s => .ok s
  | _ => .error .badValue

def bool : Decoder Bool
  | .bool b => .ok b
  | _ => .error .badValue

/-- An integer of 32 bits; a double is none, whatever its value. -/
def int32 : Decoder Int32
  | .num (.int n) => if (Int32.ofInt n).toInt = n then .ok (Int32.ofInt n) else .error .badValue
  | _ => .error .badValue

/-- A natural number of 32 bits. -/
def count32 : Decoder Nat
  | .num (.int n) => if 0 ≤ n ∧ n < 0x100000000 then .ok n.toNat else .error .badValue
  | _ => .error .badValue

/-- A natural number. -/
def count : Decoder Nat
  | .num (.int n) => if 0 ≤ n then .ok n.toNat else .error .badValue
  | _ => .error .badValue

/-- An instant, written as text. -/
def instant : Decoder Instant
  | .str s => (Instant.read? s).elim (.error .badValue) .ok
  | _ => .error .badValue

/-- Any value. -/
def document : Decoder Document := fun s =>
  match s.json? with
  | some j => .ok (.ofJson j)
  | none => .error .badValue

/-- A list, whose first item that does not decode gives the error. -/
def list (item : Decoder α) : Decoder (List α)
  | .arr items ending => do
    let values ← items.mapM item
    if ending = .broken then .error .badValue else .ok values
  | _ => .error .badValue

/-- Null for an unset value. -/
def optional (value : Decoder α) : Decoder (Option α)
  | .null => .ok none
  | s => (value s).map some

end Decoder

/-- A closed list of named values. -/
structure Names (α : Type) where
  values : List α
  name : α → String

namespace Names

variable {α : Type} (names : Names α)

/-- The value with the given name. -/
def find? (s : String) : Option α := names.values.find? fun a => names.name a == s

/-- The value with the given name, which must exist. -/
def require (s : String) : Except DecodeError α :=
  match names.find? s with
  | some a => .ok a
  | none => .error (.unknownVariant s (names.values.map names.name))

/-- Whether nothing but a null is left of an object after its first key. -/
def isBareKey (value : Source) (others : List (Option String × Source)) (ending : Ending) : Bool :=
  (match value with
    | .null => true
    | _ => false) && others.isEmpty && ending != .broken

/-- Reads a value from its name. An object that was never text is known to have too many members
before its name is looked at. -/
def decode : Decoder α
  | .str s => names.require s
  | .obj ((some s, value) :: others) ending =>
    if ending = .whole ∧ others.isEmpty = false then .error .badValue
    else do
      let a ← names.require s
      if isBareKey value others ending then .ok a else .error .badValue
  | _ => .error .badValue

end Names
end RoutePlan
