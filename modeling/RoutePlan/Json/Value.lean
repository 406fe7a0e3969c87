import RoutePlan.Number.Basic
import RoutePlan.KeyOrder

/-!
# Structured values

`Json` is a structured value as it was written: an object keeps its members in the order given,
repeated keys included. `Json.normal` is the value an object stands for: at every level each key
once, the last one written, in key order; applying it twice changes nothing (`Json.normal_normal`).
Equality of values is decidable (`Json.same_iff`); `Json.agrees` is the coarser comparison in which
the two zeros of the doubles are equal.
-/

namespace RoutePlan

/-- A structured value, with the members of an object as written. -/
inductive Json
  | null
  | bool (value : Bool)
  | num (value : Number)
  | str (value : String)
  | arr (items : List Json)
  | obj (members : List (String × Json))
  deriving Inhabited

namespace Json

def isNull : Json → Bool
  | .null => true
  | _ => false

def isObject : Json → Bool
  | .obj _ => true
  | _ => false

/-- An integer as a value. -/
def int (value : Int) : Json := .num (.int value)

/-- A text, or null when it is unset. -/
def ofText? (text : Option String) : Json := text.elim .null .str

/-- A list of texts. -/
def ofTexts (texts : List String) : Json := .arr (texts.map .str)

/-- The value at a key of an object; any other value has no keys. -/
def field? (key : String) : Json → Option Json
  | .obj members => lookupMember key members
  | _ => none

/-! ## Texts -/

mutual

/-- The texts in a value, keys included. -/
def texts : Json → List String
  | .null | .bool _ | .num _ => []
  | .str value => [value]
  | .arr items => textsOfItems items
  | .obj members => textsOfMembers members

/-- `texts` of every item. -/
def textsOfItems : List Json → List String
  | [] => []
  | item :: rest => texts item ++ textsOfItems rest

/-- `texts` of every member, after its key. -/
def textsOfMembers : List (String × Json) → List String
  | [] => []
  | (key, value) :: rest => key :: (texts value ++ textsOfMembers rest)

end

/-! ## Equality -/

mutual

/-- Whether two values are equal. -/
def same : Json → Json → Bool
  | .null, .null => true
  | .bool a, .bool b => a == b
  | .num a, .num b => a == b
  | .str a, .str b => a == b
  | .arr a, .arr b => sameItems a b
  | .obj a, .obj b => sameMembers a b
  | _, _ => false

/-- `same` item by item. -/
def sameItems : List Json → List Json → Bool
  | [], [] => true
  | a :: as, b :: bs => same a b && sameItems as bs
  | _, _ => false

/-- `same` member by member, in the order written. -/
def sameMembers : List (String × Json) → List (String × Json) → Bool
  | [], [] => true
  | (k, a) :: as, (l, b) :: bs => k == l && same a b && sameMembers as bs
  | _, _ => false

end

mutual

/-- The structural test decides equality of values. -/
theorem same_iff : ∀ {a b : Json}, same a b = true ↔ a = b
  | .null, b => by cases b <;> simp [same]
  | .bool _, b => by cases b <;> simp [same]
  | .num _, b => by cases b <;> simp [same]
  | .str _, b => by cases b <;> simp [same]
  | .arr items, b => by
    cases b <;> simp [same]
    exact sameItems_iff
  | .obj members, b => by
    cases b <;> simp [same]
    exact sameMembers_iff

/-- The structural test decides equality of items. -/
theorem sameItems_iff : ∀ {as bs : List Json}, sameItems as bs = true ↔ as = bs
  | [], bs => by cases bs <;> simp [sameItems]
  | a :: as, bs => by
    cases bs with
    | nil => simp [sameItems]
    | cons b bs =>
      rw [sameItems, Bool.and_eq_true, same_iff, sameItems_iff, List.cons.injEq]

/-- The structural test decides equality of members. -/
theorem sameMembers_iff : ∀ {as bs : List (String × Json)}, sameMembers as bs = true ↔ as = bs
  | [], bs => by cases bs <;> simp [sameMembers]
  | (k, a) :: as, bs => by
    cases bs with
    | nil => simp [sameMembers]
    | cons m bs =>
      obtain ⟨l, b⟩ := m
      rw [sameMembers, Bool.and_eq_true, Bool.and_eq_true, same_iff, sameMembers_iff,
        List.cons.injEq, Prod.mk.injEq, beq_iff_eq]

end

instance : DecidableEq Json := fun a b =>
  if h : same a b = true then isTrue (same_iff.1 h) else isFalse fun e => h (same_iff.2 e)

/-! ## Numeric agreement -/

mutual

/-- Equality of values in which `0.0` and `-0.0` are equal. -/
def agrees : Json → Json → Bool
  | .null, .null => true
  | .bool a, .bool b => a == b
  | .num a, .num b => a.agrees b
  | .str a, .str b => a == b
  | .arr a, .arr b => agreesItems a b
  | .obj a, .obj b => agreesMembers a b
  | _, _ => false

/-- `agrees` item by item. -/
def agreesItems : List Json → List Json → Bool
  | [], [] => true
  | a :: as, b :: bs => agrees a b && agreesItems as bs
  | _, _ => false

/-- `agrees` member by member. -/
def agreesMembers : List (String × Json) → List (String × Json) → Bool
  | [], [] => true
  | (k, a) :: as, (l, b) :: bs => k == l && agrees a b && agreesMembers as bs
  | _, _ => false

end

/-! ## The value an object stands for -/

mutual

/-- At every level each key once, the last one written, in key order. -/
def normal : Json → Json
  | .arr items => .arr (normalItems items)
  | .obj members => .obj (normalMembers members)
  | .null => .null
  | .bool value => .bool value
  | .num value => .num value
  | .str value => .str value

/-- `normal` of every item. -/
def normalItems : List Json → List Json
  | [] => []
  | item :: rest => item.normal :: normalItems rest

/-- The members in key order; of equal keys the last one stays. -/
def normalMembers : List (String × Json) → List (String × Json)
  | [] => []
  | (key, value) :: rest => addMissing key value.normal (normalMembers rest)

end

/-- Normal members have strictly increasing keys. -/
theorem strictKeys_normalMembers : ∀ members, StrictKeys (normalMembers members)
  | [] => List.Pairwise.nil
  | (_, _) :: rest => (strictKeys_normalMembers rest).addMissing

/-- Members in key order with normal values are normal. -/
theorem normalMembers_eq_self : ∀ {members : List (String × Json)},
    StrictKeys members → (∀ m ∈ members, m.2.normal = m.2) → normalMembers members = members
  | [], _, _ => rfl
  | (k, v) :: rest, hkeys, hvalues => by
    obtain ⟨hhead, htail⟩ := List.pairwise_cons.1 hkeys
    rw [normalMembers, hvalues (k, v) (List.mem_cons_self ..),
      normalMembers_eq_self htail fun m hm => hvalues m (List.mem_cons_of_mem _ hm)]
    exact addMissing_of_lt hhead

mutual

/-- A normal value is its own normal form. -/
theorem normal_normal : ∀ j : Json, j.normal.normal = j.normal
  | .null | .bool _ | .num _ | .str _ => rfl
  | .arr items => by rw [normal, normal, normalItems_normalItems]
  | .obj members => by
    rw [normal, normal, normalMembers_eq_self (strictKeys_normalMembers members)
      (normal_of_mem_normalMembers members)]

/-- Items in normal form are their own normal form. -/
theorem normalItems_normalItems : ∀ items : List Json,
    normalItems (normalItems items) = normalItems items
  | [] => rfl
  | item :: rest => by
    rw [normalItems, normalItems, normal_normal item, normalItems_normalItems rest]

/-- The value of a member in normal form is its own normal form. -/
theorem normal_of_mem_normalMembers : ∀ (members : List (String × Json)),
    ∀ m ∈ normalMembers members, m.2.normal = m.2
  | [], m, h => by simp [normalMembers] at h
  | (key, value) :: rest, m, h => by
    rw [normalMembers] at h
    rcases mem_addMissing h with rfl | h
    · exact normal_normal value
    · exact normal_of_mem_normalMembers rest m h

end

end Json

/-- A value in normal form: equality of documents disregards the order in which the members of an
object were written. -/
structure Document where
  json : Json
  isNormal : json.normal = json
  deriving DecidableEq

namespace Document

/-- A document is determined by its value. -/
theorem ext {a b : Document} (h : a.json = b.json) : a = b := by
  cases a; cases b; cases h; rfl

/-- The document a value stands for. -/
def ofJson (j : Json) : Document := ⟨j.normal, j.normal_normal⟩

@[simp] theorem json_ofJson (j : Json) : (ofJson j).json = j.normal := rfl

@[simp] theorem ofJson_json (d : Document) : ofJson d.json = d := ext d.isNormal

def null : Document := ⟨.null, rfl⟩

instance : Inhabited Document := ⟨null⟩

end Document
end RoutePlan
