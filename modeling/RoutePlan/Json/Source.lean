import RoutePlan.Json.Value

/-!
# What a decoder reads from

A `Source` is a structured value as far as its text can be read. A text that goes wrong still says
something up to that place, so that a decoder can tell what it met first. Some parts are well
written but stand for no value (`Source.unreadable`): a decoder may pass over them, but must not use
them. A value that was never text is a source too (`Source.ofJson`), in which nothing is missing.
-/

namespace RoutePlan

/-- How a list of items or members ends: the text goes wrong after them, or there is the closing
bracket, or they come from a value that was never text. -/
inductive Ending
  | broken
  | closed
  | whole
  deriving DecidableEq

/-- A structured value as far as its text can be read. -/
inductive Source
  | null
  | bool (value : Bool)
  | num (value : Number)
  | str (value : String)
  | arr (items : List Source) (ending : Ending)
  /-- A member whose key is none has a key that stands for no text. -/
  | obj (members : List (Option String × Source)) (ending : Ending)
  /-- Well written, but without a value. -/
  | unreadable
  /-- The text goes wrong here. -/
  | broken
  deriving Inhabited

namespace Source

/-- Whether the text goes wrong before the end of the value. -/
def isBroken : Source → Bool
  | arr _ ending | obj _ ending => ending = .broken
  | broken => true
  | _ => false

/-! ## Values as sources -/

mutual

/-- A value as a source. -/
def ofJson : Json → Source
  | .null => null
  | .bool value => bool value
  | .num value => num value
  | .str value => str value
  | .arr items => arr (ofItems items) .whole
  | .obj members => obj (ofMembers members) .whole

/-- `ofJson` item by item. -/
def ofItems : List Json → List Source
  | [] => []
  | item :: rest => ofJson item :: ofItems rest

/-- `ofJson` member by member. -/
def ofMembers : List (String × Json) → List (Option String × Source)
  | [] => []
  | (key, value) :: rest => (some key, ofJson value) :: ofMembers rest

end

instance : Coe Json Source := ⟨ofJson⟩

/-! ## Sources as values -/

mutual

/-- The value of a source, if every part of it has one. -/
def json? : Source → Option Json
  | null => some .null
  | bool value => some (.bool value)
  | num value => some (.num value)
  | str value => some (.str value)
  | arr items ending => if ending = .broken then none else (items? items).map .arr
  | obj members ending => if ending = .broken then none else (members? members).map .obj
  | unreadable | broken => none

/-- `json?` of every item. -/
def items? : List Source → Option (List Json)
  | [] => some []
  | item :: rest =>
    match json? item, items? rest with
    | some item, some rest => some (item :: rest)
    | _, _ => none

/-- `json?` of every member; the keys must be texts. -/
def members? : List (Option String × Source) → Option (List (String × Json))
  | [] => some []
  | (key, value) :: rest =>
    match key, json? value, members? rest with
    | some key, some value, some rest => some ((key, value) :: rest)
    | _, _, _ => none

end

mutual

/-- A value is read back from its source. -/
@[simp] theorem json?_ofJson : ∀ j : Json, (ofJson j).json? = some j
  | .null | .bool _ | .num _ | .str _ => rfl
  | .arr items => by simp [ofJson, json?, items?_ofItems items]
  | .obj members => by simp [ofJson, json?, members?_ofMembers members]

/-- Values that are all readable are read as written. -/
theorem items?_ofItems : ∀ items : List Json, items? (ofItems items) = some items
  | [] => rfl
  | item :: rest => by simp [ofItems, items?, json?_ofJson item, items?_ofItems rest]

/-- Members whose values are all readable are read as written. -/
theorem members?_ofMembers : ∀ members : List (String × Json),
    members? (ofMembers members) = some members
  | [] => rfl
  | (key, value) :: rest => by
    simp [ofMembers, members?, json?_ofJson value, members?_ofMembers rest]

end

end Source
end RoutePlan
