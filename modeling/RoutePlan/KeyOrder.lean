/-!
# Lists in key order

Keys are compared by code point, which for text is also the order of its UTF-8 bytes. A list of
members with strictly increasing keys (`StrictKeys`) holds each key once. `addMissing` and
`putMember` insert one member and keep the order; `sortDistinct` orders a list of texts and drops
repetitions.
-/

namespace RoutePlan

variable {α : Type}

/-- The keys of the members are strictly increasing. -/
def StrictKeys (members : List (String × α)) : Prop :=
  members.Pairwise fun a b => a.1 < b.1

/-- Adds a member at its place unless the key is already there. -/
def addMissing (key : String) (value : α) : List (String × α) → List (String × α)
  | [] => [(key, value)]
  | (k, v) :: rest =>
    if key < k then (key, value) :: (k, v) :: rest
    else if key = k then (k, v) :: rest
    else (k, v) :: addMissing key value rest

/-- Changes the value at a key, `none` standing for a key that is absent, and keeps the order. -/
def alterMember (key : String) (f : Option α → α) : List (String × α) → List (String × α)
  | [] => [(key, f none)]
  | (k, v) :: rest =>
    if key < k then (key, f none) :: (k, v) :: rest
    else if key = k then (k, f (some v)) :: rest
    else (k, v) :: alterMember key f rest

/-- Adds a text at its place unless it is already there. -/
def insertDistinct (s : String) : List String → List String
  | [] => [s]
  | t :: rest =>
    if s < t then s :: t :: rest
    else if s = t then t :: rest
    else t :: insertDistinct s rest

/-- The distinct texts of a list, in increasing order. -/
def sortDistinct (texts : List String) : List String := texts.foldr insertDistinct []

/-- The value at a key: the first member that has it. -/
def lookupMember (key : String) : List (String × α) → Option α
  | [] => none
  | (k, v) :: rest => if k = key then some v else lookupMember key rest

/-- A text is among those after an insertion if it is the new one or was there before. -/
theorem mem_insertDistinct {s t : String} {texts : List String} :
    t ∈ insertDistinct s texts ↔ t = s ∨ t ∈ texts := by
  induction texts with
  | nil => simp [insertDistinct]
  | cons u rest ih =>
    unfold insertDistinct
    split
    · exact List.mem_cons
    · split
      · next heq => simp [heq]
      · rw [List.mem_cons, ih, List.mem_cons, or_left_comm]

/-- Ordering texts and dropping repetitions leaves the same texts. -/
theorem mem_sortDistinct {t : String} {texts : List String} :
    t ∈ sortDistinct texts ↔ t ∈ texts := by
  unfold sortDistinct
  induction texts with
  | nil => rfl
  | cons s rest ih => rw [List.foldr_cons, mem_insertDistinct, ih, List.mem_cons]

/-- Of two texts that differ one is the smaller one. -/
theorem lt_of_not_lt_of_ne {s t : String} (h : ¬s < t) (hne : s ≠ t) : t < s := by
  by_cases h' : t < s
  · exact h'
  · exact absurd (String.le_antisymm (String.not_lt.1 h') (String.not_lt.1 h)) hne

/-- Every member after `addMissing` is the new one or was there before. -/
theorem mem_addMissing {key : String} {value : α} {members : List (String × α)}
    {m : String × α} (h : m ∈ addMissing key value members) : m = (key, value) ∨ m ∈ members := by
  induction members with
  | nil => exact Or.inl (List.mem_singleton.1 h)
  | cons m' rest ih =>
    obtain ⟨k', v⟩ := m'
    unfold addMissing at h
    split at h
    · exact (List.mem_cons.1 h).imp_right id
    · split at h
      · exact Or.inr h
      · rcases List.mem_cons.1 h with rfl | h
        · exact Or.inr (List.mem_cons_self ..)
        · exact (ih h).imp_right (List.mem_cons_of_mem _)

/-- `addMissing` keeps the keys strictly increasing. -/
theorem StrictKeys.addMissing {key : String} {value : α} {members : List (String × α)}
    (h : StrictKeys members) : StrictKeys (addMissing key value members) := by
  induction members with
  | nil => simp [RoutePlan.addMissing, StrictKeys]
  | cons m rest ih =>
    obtain ⟨k, v⟩ := m
    obtain ⟨hhead, htail⟩ := List.pairwise_cons.1 h
    unfold RoutePlan.addMissing
    split
    next hlt =>
      refine List.pairwise_cons.2 ⟨fun m hm => ?_, h⟩
      rcases List.mem_cons.1 hm with rfl | hm
      · exact hlt
      · exact String.lt_trans hlt (hhead m hm)
    next hlt =>
      split
      · exact h
      next heq =>
        refine List.pairwise_cons.2 ⟨fun m hm => ?_, ih htail⟩
        rcases mem_addMissing hm with rfl | hm
        · exact lt_of_not_lt_of_ne hlt heq
        · exact hhead m hm

/-- A member whose key is below all others goes to the front. -/
theorem addMissing_of_lt {key : String} {value : α} {members : List (String × α)}
    (h : ∀ m ∈ members, key < m.1) : addMissing key value members = (key, value) :: members := by
  cases members with
  | nil => rfl
  | cons m rest => exact if_pos (h m (List.mem_cons_self ..))

end RoutePlan
