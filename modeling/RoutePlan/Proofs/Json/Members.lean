import RoutePlan.Json.Canonical

/-!
# The members of an object

Of several members with one key the last one counts (`Json.member?`), and it is the one that the
normal form keeps (`Json.field?_normal`). Members with strictly increasing keys are determined by
what is found at each key (`StrictKeys.ext`), so two objects have the same normal form as soon as
the same is found in both.
-/

namespace RoutePlan

section
variable {α : Type} {members more : List (String × α)} {key : String}

/-- Nothing is found exactly at a key that no member has. -/
theorem lookupMember_eq_none : lookupMember key members = none ↔ key ∉ members.map Prod.fst := by
  induction members with
  | nil => simp [lookupMember]
  | cons m rest ih =>
    obtain ⟨k, v⟩ := m
    by_cases h : k = key
    · simp [lookupMember, h]
    · have hne : key ≠ k := fun heq => h heq.symm
      simp [lookupMember, h, hne, ih]

/-- What is found among two lists of members is found in the first one, or else in the second
one. -/
theorem lookupMember_append :
    lookupMember key (members ++ more) = (lookupMember key members).or (lookupMember key more) := by
  induction members with
  | nil => rfl
  | cons m rest ih =>
    obtain ⟨k, v⟩ := m
    by_cases h : k = key <;> simp [lookupMember, h, ih]

/-- What is found at a key is a member. -/
theorem mem_of_lookupMember {value : α} (h : lookupMember key members = some value) :
    (key, value) ∈ members := by
  induction members with
  | nil => cases h
  | cons m rest ih =>
    obtain ⟨k, v⟩ := m
    rw [lookupMember] at h
    split at h
    · next hk =>
      cases h
      rw [hk]
      exact List.mem_cons_self ..
    · exact List.mem_cons_of_mem _ (ih h)

/-- If no key is repeated, every member is found at its key. -/
theorem lookupMember_of_mem {value : α} (hkeys : (members.map Prod.fst).Nodup)
    (h : (key, value) ∈ members) : lookupMember key members = some value := by
  induction members with
  | nil => cases h
  | cons m rest ih =>
    rw [List.map_cons, List.nodup_cons] at hkeys
    rcases List.mem_cons.1 h with rfl | h
    · exact if_pos rfl
    · have hne : m.1 ≠ key := fun heq => hkeys.1 (heq ▸ List.mem_map_of_mem h)
      exact (if_neg hne).trans (ih hkeys.2 h)

/-- A key below all others is not found. -/
theorem lookupMember_eq_none_of_lt (h : ∀ m ∈ members, key < m.1) :
    lookupMember key members = none := by
  rw [lookupMember_eq_none]
  intro hmem
  obtain ⟨m, hm, rfl⟩ := List.mem_map.1 hmem
  exact String.lt_irrefl _ (h m hm)

/-- A key below the first one is not found among members in key order. -/
theorem StrictKeys.lookupMember_eq_none {k : String} {v : α} (h : StrictKeys ((k, v) :: members))
    (hlt : key < k) : lookupMember key ((k, v) :: members) = none := by
  refine lookupMember_eq_none_of_lt fun m hm => ?_
  rcases List.mem_cons.1 hm with rfl | hm
  · exact hlt
  · exact String.lt_trans hlt ((List.pairwise_cons.1 h).1 m hm)

/-- Members in key order repeat no key. -/
theorem StrictKeys.nodup_keys (h : StrictKeys members) : (members.map Prod.fst).Nodup := by
  refine List.pairwise_map.2 (List.Pairwise.imp (fun {m n} hlt heq => ?_) h)
  rw [heq] at hlt
  exact String.lt_irrefl _ hlt

/-- If no key is repeated, it does not matter from which end one looks. -/
theorem lookupMember_reverse (h : (members.map Prod.fst).Nodup) :
    lookupMember key members.reverse = lookupMember key members := by
  induction members with
  | nil => rfl
  | cons m rest ih =>
    obtain ⟨k, v⟩ := m
    rw [List.map_cons, List.nodup_cons] at h
    rw [List.reverse_cons, lookupMember_append, ih h.2]
    by_cases hk : k = key
    · have hnone : lookupMember key rest = none := lookupMember_eq_none.2 (hk ▸ h.1)
      simp [lookupMember, hk, hnone]
    · simp [lookupMember, hk]

/-- A member that is added is found unless its key was there before. -/
theorem lookupMember_addMissing {value : α} (h : StrictKeys members) (k : String) :
    lookupMember k (addMissing key value members) =
      (lookupMember k members).or (if key = k then some value else none) := by
  induction members with
  | nil => simp [addMissing, lookupMember]
  | cons m rest ih =>
    obtain ⟨l, v⟩ := m
    rw [addMissing]
    split
    · next hlt =>
      by_cases hk : key = k
      · rw [h.lookupMember_eq_none (hk ▸ hlt), lookupMember, if_pos hk, Option.none_or, if_pos hk]
      · rw [lookupMember, if_neg hk, if_neg hk, Option.or_none]
    · split
      · next heq =>
        by_cases hk : key = k
        · simp [lookupMember, ← heq, hk]
        · rw [if_neg hk, Option.or_none]
      · rw [lookupMember, lookupMember, ih (List.pairwise_cons.1 h).2]
        split <;> simp

/-- Whatever is found among members in key order, the first key is not above it. -/
theorem StrictKeys.le_of_lookupMember {k : String} {v value : α}
    (h : StrictKeys ((k, v) :: members))
    (hkey : lookupMember key ((k, v) :: members) = some value) : k ≤ key := by
  rw [← String.not_lt]
  intro hlt
  rw [h.lookupMember_eq_none hlt] at hkey
  cases hkey

/-- Members in key order are known from what is found at each key. -/
theorem StrictKeys.ext (hm : StrictKeys members) (hn : StrictKeys more)
    (h : ∀ key, lookupMember key members = lookupMember key more) : members = more := by
  induction members generalizing more with
  | nil =>
    cases more with
    | nil => rfl
    | cons n rest =>
      have hn := h n.1
      simp [lookupMember] at hn
  | cons m rest ih =>
    obtain ⟨k, v⟩ := m
    obtain ⟨hk, hrest⟩ := List.pairwise_cons.1 hm
    cases more with
    | nil =>
      have hm := h k
      simp [lookupMember] at hm
    | cons n others =>
      obtain ⟨l, w⟩ := n
      obtain ⟨hl, hothers⟩ := List.pairwise_cons.1 hn
      have hfound := h k
      have hfound' := h l
      simp only [lookupMember, if_pos] at hfound hfound'
      have hkl : k = l := String.le_antisymm (hm.le_of_lookupMember hfound')
        (hn.le_of_lookupMember hfound.symm)
      subst hkl
      rw [if_pos rfl, Option.some.injEq] at hfound
      rw [hfound, ih hrest hothers fun key => ?_]
      have hkey := h key
      by_cases heq : k = key
      · subst heq
        rw [lookupMember_eq_none_of_lt hk, lookupMember_eq_none_of_lt hl]
      · simpa [lookupMember, heq] using hkey

end

namespace Json

/-- What an object has at a key: of several members with the key the last one counts. -/
def member? (key : String) : Json → Option Json
  | .obj members => lookupMember key members.reverse
  | _ => none

/-- An object has nothing exactly at a key that none of its members has. -/
theorem member?_eq_none {key : String} {members : List (String × Json)} :
    (obj members).member? key = none ↔ key ∉ members.map Prod.fst := by
  simp [member?, lookupMember_eq_none]

/-- The keys of an object, as they are written. -/
def keys : Json → List String
  | .obj members => members.map Prod.fst
  | _ => []

/-- If no key is repeated, it does not matter which member counts. -/
theorem member?_of_nodup {j : Json} (h : j.keys.Nodup) (key : String) :
    j.member? key = j.field? key := by
  cases j with
  | obj members => exact lookupMember_reverse h
  | _ => rfl

/-- The members of an object in normal form are the normal forms of what it has at its keys. -/
theorem lookupMember_normalMembers (key : String) (members : List (String × Json)) :
    lookupMember key (normalMembers members) = ((obj members).member? key).map normal := by
  induction members with
  | nil => rfl
  | cons m rest ih =>
    obtain ⟨k, v⟩ := m
    rw [normalMembers, lookupMember_addMissing (strictKeys_normalMembers rest), ih, member?,
      member?, List.reverse_cons, lookupMember_append]
    cases lookupMember key rest.reverse with
    | none =>
      by_cases h : k = key <;> simp [lookupMember, h]
    | some w => rfl

/-- The normal form has the keys that were written. -/
theorem mem_keys_normalMembers {key : String} {members : List (String × Json)} :
    key ∈ (normalMembers members).map Prod.fst ↔ key ∈ members.map Prod.fst := by
  rw [← Decidable.not_iff_not, ← lookupMember_eq_none, lookupMember_normalMembers,
    Option.map_eq_none_iff, member?_eq_none]

/-- A value has at a key, in normal form, what its normal form has there. -/
theorem field?_normal (key : String) (j : Json) :
    j.normal.field? key = (j.member? key).map normal := by
  cases j with
  | obj members => exact lookupMember_normalMembers key members
  | _ => rfl

/-- If no key is repeated, whatever is found at a key is there in normal form. -/
theorem field?_normal_of_nodup {j v : Json} {key : String} (hkeys : j.keys.Nodup)
    (h : j.field? key = some v) : j.normal.field? key = some v.normal := by
  rw [field?_normal, member?_of_nodup hkeys, h, Option.map_some]

/-- Each item is put into normal form on its own. -/
theorem normalItems_eq_map (items : List Json) : normalItems items = items.map normal := by
  induction items with
  | nil => rfl
  | cons item rest ih => rw [normalItems, ih, List.map_cons]

/-- A list of texts is in normal form. -/
theorem normal_ofTexts (texts : List String) : (ofTexts texts).normal = .ofTexts texts := by
  rw [ofTexts, normal, normalItems_eq_map, List.map_map]
  rfl

/-- The canonical text is that of the normal form. -/
theorem canonical_eq_of_normal_eq {i j : Json} (h : i.normal = j.normal) :
    i.canonical = j.canonical := by
  rw [canonical, canonical, canonicalWith, canonicalWith, h]

end Json
end RoutePlan
