import RoutePlan.Record.Decoder

/-!
# Records

A record is read from an object, or from an array that holds its fields in the order in which they
are declared (`RecordReader.decode`). Of an object the members are checked in the order written: a
known key must not be repeated and its value must decode, a key that names no field is passed over
together with its value, which need not stand for anything; then the first declared field that is
absent and has no default is missing. Readers are put together field by field
(`RecordReader.required` and its kin) with `<$>` and `<*>`.
-/

namespace RoutePlan

/-- How a request treats a field: it leaves the value alone, clears it, or sets it. -/
inductive Change (α : Type)
  | keep
  | clear
  | set (value : α)
  deriving DecidableEq, Inhabited

namespace Change

variable {α β : Type}

/-- The value after the change. -/
def apply : Change α → Option α → Option α
  | keep, old => old
  | clear, _ => none
  | set value, _ => some value

/-- Changes in turn: the later one counts where it changes something. -/
def andThen : Change α → Change α → Change α
  | first, keep => first
  | _, later => later

def isKeep : Change α → Bool
  | keep => true
  | _ => false

def map (f : α → β) : Change α → Change β
  | keep => .keep
  | clear => .clear
  | set value => .set (f value)

/-- Two changes in turn are made one after the other. -/
theorem apply_andThen (p q : Change α) (old : Option α) :
    (p.andThen q).apply old = q.apply (p.apply old) := by
  cases q <;> rfl

end Change

/-- A field of a record: its name and the check of a value given for it. -/
structure Field where
  name : String
  check : Source → Except DecodeError Unit

/-- How a record is read: its fields in the order declared, the record from the values found under
the field names, and the record from the front of a list of values. -/
structure RecordReader (α : Type) where
  fields : List Field
  build : (String → Option Source) → Except DecodeError α
  take : List Source → Except DecodeError (α × List Source)

namespace RecordReader

variable {α β : Type}

instance : Functor RecordReader where
  map f r :=
    { fields := r.fields
      build := fun look => (r.build look).map f
      take := fun items => (r.take items).map fun (a, rest) => (f a, rest) }

instance : Seq RecordReader where
  seq rf ra :=
    { fields := rf.fields ++ (ra ()).fields
      build := fun look => do
        let f ← rf.build look
        let a ← (ra ()).build look
        .ok (f a)
      take := fun items => do
        let (f, rest) ← rf.take items
        let (a, rest) ← (ra ()).take rest
        .ok (f a, rest) }

/-- One field; `absent` is its value, or the error, when an object has no such key, and `short` when
an array ends before it. -/
def field (name : String) (value : Decoder α) (absent short : Except DecodeError α) :
    RecordReader α where
  fields := [⟨name, fun s => (value s).map fun _ => ()⟩]
  build := fun look => (look name).elim absent value
  take
    | [] => short.map (·, [])
    | s :: rest => (value s).map (·, rest)

/-- A field that must be given. -/
def required (name : String) (value : Decoder α) : RecordReader α :=
  field name value (.error (.missingField name)) (.error .badValue)

/-- A field that may be absent or null. -/
def optional (name : String) (value : Decoder α) : RecordReader (Option α) :=
  field name (.optional value) (.ok none) (.error .badValue)

/-- Null clears, a value sets. -/
def changed (value : Decoder α) : Decoder (Change α)
  | .null => .ok .clear
  | s => (value s).map .set

/-- A field that is left alone when absent, cleared by null and set by a value. -/
def change (name : String) (value : Decoder α) : RecordReader (Change α) :=
  field name (changed value) (.ok .keep) (.ok .keep)

/-- A field with a value for when it is absent. -/
def withDefault (name : String) (value : Decoder α) (default : α) : RecordReader α :=
  field name value (.ok default) (.error .badValue)

/-- A list that is empty when absent. -/
def listOrEmpty (name : String) (item : Decoder α) : RecordReader (List α) :=
  field name (.list item) (.ok []) (.ok [])

/-- Checks the members of an object in the order written; `seen` are the fields met so far. -/
def checkMembers (fields : List Field) (ending : Ending) (seen : List String) :
    List (Option String × Source) → Except DecodeError Unit
  | [] => if ending = .broken then .error .badValue else .ok ()
  | (none, _) :: _ => .error .badValue
  | (some key, value) :: rest =>
    match fields.find? fun f => f.name == key with
    | none =>
      if value.isBroken then .error .badValue else checkMembers fields ending seen rest
    | some f =>
      if key ∈ seen then .error (.duplicateField key)
      else do
        f.check value
        checkMembers fields ending (key :: seen) rest

/-- The members of an object whose keys are texts. -/
def namedMembers (members : List (Option String × Source)) : List (String × Source) :=
  members.filterMap fun (key, value) => key.map (·, value)

/-- Reads the record from an object or an array. -/
def decode (r : RecordReader α) : Decoder α
  | .obj members ending => do
    checkMembers r.fields ending [] members
    r.build fun name => lookupMember name (namedMembers members)
  | .arr items ending => do
    let (a, rest) ← r.take items
    if rest.isEmpty && ending != .broken then .ok a else .error .badValue
  | _ => .error .badValue

end RecordReader
end RoutePlan
