import RoutePlan.Proofs.Json.Members
import RoutePlan.Proofs.Json.Reading

/-!
# Values up to the order of their members

`Json.SameData` compares two values without regard to the order in which the members of objects
were written, at every level, and with regard to everything else: the items of arrays in their
order, integers and doubles apart, the two zeros of the doubles apart. Values are the same in this
sense exactly if they have the same normal form (`Json.sameData_iff_normal_eq`), so the canonical
text tells them apart (`Json.canonicalWith_eq_iff`).
-/

namespace RoutePlan.Json

/-- The same value up to the order of members; of several members with one key the last counts. -/
inductive SameData : Json → Json → Prop
  | null : SameData .null .null
  | bool (b : Bool) : SameData (.bool b) (.bool b)
  | num (n : Number) : SameData (.num n) (.num n)
  | str (s : String) : SameData (.str s) (.str s)
  | arr {as bs : List Json} : as.length = bs.length →
    (∀ i (h : i < as.length) (h' : i < bs.length), SameData as[i] bs[i]) →
    SameData (.arr as) (.arr bs)
  | obj {ms ns : List (String × Json)} :
    (∀ key, key ∈ ms.map Prod.fst ↔ key ∈ ns.map Prod.fst) →
    (∀ key v w, (Json.obj ms).member? key = some v → (Json.obj ns).member? key = some w →
      SameData v w) →
    SameData (.obj ms) (.obj ns)

/-- Induction on a value: the items of an array and the values in an object come before it. -/
@[elab_as_elim]
theorem induction_on_parts {P : Json → Prop} (j : Json) (null : P .null) (bool : ∀ b, P (.bool b))
    (num : ∀ n, P (.num n)) (str : ∀ s, P (.str s))
    (arr : ∀ items, (∀ item ∈ items, P item) → P (.arr items))
    (obj : ∀ members, (∀ m ∈ members, P m.2) → P (.obj members)) : P j := by
  refine @Json.rec P (fun items => ∀ item ∈ items, P item) (fun members => ∀ m ∈ members, P m.2)
    (fun m => P m.2) null bool num str arr obj ?_ ?_ ?_ ?_ ?_ j
  · exact fun _ h => nomatch h
  · exact fun _ _ hhead htail => List.forall_mem_cons.2 ⟨hhead, htail⟩
  · exact fun _ h => nomatch h
  · exact fun _ _ hhead htail => List.forall_mem_cons.2 ⟨hhead, htail⟩
  · exact fun _ _ h => h

/-! ## The normal form -/

/-- The same data have the same normal form. -/
theorem SameData.normal_eq {a b : Json} (h : SameData a b) : a.normal = b.normal := by
  induction h with
  | null | bool | num | str => rfl
  | @arr as bs hlength _ ih =>
    rw [normal, normal, normalItems_eq_map, normalItems_eq_map]
    congr 1
    refine List.ext_getElem (by simpa using hlength) fun i h h' => ?_
    rw [List.getElem_map, List.getElem_map]
    exact ih i _ _
  | @obj ms ns hkeys _ ih =>
    rw [normal, normal]
    congr 1
    refine (strictKeys_normalMembers ms).ext (strictKeys_normalMembers ns) fun key => ?_
    rw [lookupMember_normalMembers, lookupMember_normalMembers]
    cases hv : (Json.obj ms).member? key with
    | none =>
      rw [member?_eq_none, hkeys, ← member?_eq_none] at hv
      rw [hv]
    | some v =>
      cases hw : (Json.obj ns).member? key with
      | none =>
        rw [member?_eq_none, ← hkeys, ← member?_eq_none, hv] at hw
        cases hw
      | some w => exact congrArg some (ih key v w hv hw)

/-- Values with the same normal form are the same data. -/
theorem sameData_of_normal_eq {a b : Json} (h : a.normal = b.normal) : SameData a b := by
  induction a using induction_on_parts generalizing b with
  | null => cases b <;> simp only [normal, reduceCtorEq] at h; exact .null
  | bool x =>
    cases b <;> simp only [normal, reduceCtorEq, bool.injEq] at h
    exact h ▸ .bool x
  | num n =>
    cases b <;> simp only [normal, reduceCtorEq, num.injEq] at h
    exact h ▸ .num n
  | str s =>
    cases b <;> simp only [normal, reduceCtorEq, str.injEq] at h
    exact h ▸ .str s
  | arr as ih =>
    cases b <;> simp only [normal, reduceCtorEq, arr.injEq, normalItems_eq_map] at h
    next bs =>
      have hlength : as.length = bs.length := by simpa using congrArg List.length h
      refine .arr hlength fun i hi hi' => ih _ (List.getElem_mem hi) ?_
      have hitem := congrArg (·[i]?) h
      simpa [hi, hi'] using hitem
  | obj ms ih =>
    cases b <;> simp only [normal, reduceCtorEq, obj.injEq] at h
    next ns =>
      have hfound : ∀ key, ((Json.obj ms).member? key).map normal =
          ((Json.obj ns).member? key).map normal := by
        intro key
        rw [← lookupMember_normalMembers, ← lookupMember_normalMembers, h]
      refine .obj (fun key => ?_) fun key v w hv hw => ?_
      · have hnone : ((Json.obj ms).member? key).map normal = none ↔
            ((Json.obj ns).member? key).map normal = none := by rw [hfound key]
        rw [Option.map_eq_none_iff, Option.map_eq_none_iff, member?_eq_none, member?_eq_none]
          at hnone
        exact Decidable.not_iff_not.1 hnone
      · have hvw := hfound key
        rw [hv, hw, Option.map_some, Option.map_some, Option.some.injEq] at hvw
        exact ih (key, v) (List.mem_reverse.1 (mem_of_lookupMember hv)) hvw

/-- Two values are the same data exactly if they have the same normal form. -/
theorem sameData_iff_normal_eq {a b : Json} : SameData a b ↔ a.normal = b.normal :=
  ⟨SameData.normal_eq, sameData_of_normal_eq⟩

instance (a b : Json) : Decidable (SameData a b) :=
  decidable_of_iff (a.normal = b.normal) sameData_iff_normal_eq.symm

/-- Members may be written in another order, if no key is repeated. -/
theorem SameData.of_perm {ms ns : List (String × Json)} (h : ms.Perm ns)
    (hkeys : (Json.obj ms).keys.Nodup) : SameData (.obj ms) (.obj ns) := by
  refine .obj (fun key => (h.map Prod.fst).mem_iff) fun key v w hv hw => ?_
  have hw : (key, w) ∈ ms := h.mem_iff.2 (List.mem_reverse.1 (mem_of_lookupMember hw))
  rw [member?_of_nodup hkeys, field?, lookupMember_of_mem hkeys hw, Option.some.injEq] at hv
  exact sameData_of_normal_eq (by rw [hv])

/-! ## The numbers of the normal form -/

/-- The numbers of some items are those in any of them. -/
theorem mem_numbersOfItems {n : Number} {items : List Json} :
    n ∈ numbersOfItems items ↔ ∃ item ∈ items, n ∈ item.numbers := by
  induction items with
  | nil => simp [numbersOfItems]
  | cons item rest ih => simp [numbersOfItems, ih]

/-- The numbers of some members are those in the value of any of them. -/
theorem mem_numbersOfMembers {n : Number} {members : List (String × Json)} :
    n ∈ numbersOfMembers members ↔ ∃ m ∈ members, n ∈ m.2.numbers := by
  induction members with
  | nil => simp [numbersOfMembers]
  | cons m rest ih => simp [numbersOfMembers, ih]

/-- Every member of a normal object was written, with some value of that normal form. -/
theorem mem_normalMembers {m : String × Json} {members : List (String × Json)}
    (h : m ∈ normalMembers members) : ∃ v, (m.1, v) ∈ members ∧ m.2 = v.normal := by
  induction members with
  | nil => cases h
  | cons m' rest ih =>
    obtain ⟨k, v⟩ := m'
    rw [normalMembers] at h
    rcases mem_addMissing h with rfl | h
    · exact ⟨v, List.mem_cons_self .., rfl⟩
    · obtain ⟨w, hw, hnormal⟩ := ih h
      exact ⟨w, List.mem_cons_of_mem _ hw, hnormal⟩

/-- The normal form has no numbers of its own. -/
theorem mem_numbers_of_normal {n : Number} {j : Json} (h : n ∈ j.normal.numbers) :
    n ∈ j.numbers := by
  induction j using induction_on_parts with
  | null | bool | num | str => exact h
  | arr items ih =>
    rw [normal, numbers, normalItems_eq_map, mem_numbersOfItems] at h
    obtain ⟨_, hmem, hn⟩ := h
    obtain ⟨item, hitem, rfl⟩ := List.mem_map.1 hmem
    exact mem_numbersOfItems.2 ⟨item, hitem, ih item hitem hn⟩
  | obj members ih =>
    rw [normal, numbers, mem_numbersOfMembers] at h
    obtain ⟨m, hm, hn⟩ := h
    obtain ⟨v, hv, hnormal⟩ := mem_normalMembers hm
    rw [hnormal] at hn
    exact mem_numbersOfMembers.2 ⟨(m.1, v), hv, ih _ hv hn⟩

/-! ## The canonical text -/

/-- **The canonical text is faithful.** However numbers are written, as long as they are written as
numerals and the numbers in the two values are told apart, two values have the same canonical text
exactly if they are the same up to the order in which the members of their objects are written. -/
theorem canonicalWith_eq_iff {number : Number → List Char} (hnumerals : WritesNumerals number)
    {a b : Json} (hnumbers : Distinguishes number a.numbers b.numbers) :
    a.canonicalWith number = b.canonicalWith number ↔ SameData a b := by
  rw [sameData_iff_normal_eq]
  constructor
  · intro h
    refine normal_eq_of_canonicalWith_eq hnumerals (fun m hm n hn => ?_) h
    exact hnumbers m (mem_numbers_of_normal hm) n (mem_numbers_of_normal hn)
  · intro h
    rw [canonicalWith, canonicalWith, h]

/-- A nested value with a quote in a key and a zero of either sign. -/
def withZero (negative : Bool) : Json :=
  .obj [("b", .arr [.int 0, .num (.double (.zero negative))]),
    ("a\"", .obj [("x", .null), ("y", .bool true)])]

/-- The same value as `withZero false`, with its members in another order at both levels. -/
def reordered : Json :=
  .obj [("a\"", .obj [("y", .bool true), ("x", .null)]),
    ("b", .arr [.int 0, .num (.double (.zero false))])]

/-- The text does not show the order of the members, and it does show the sign of the zero. -/
theorem canonicalWith_eq_iff_reordered : reordered.canonical = (withZero false).canonical ∧
    reordered.canonical ≠ (withZero true).canonical := by
  have hnumbers : ∀ negative,
      Distinguishes Number.text reordered.numbers (withZero negative).numbers := by
    unfold Distinguishes
    decide +kernel
  constructor
  · exact (canonicalWith_eq_iff Number.writesNumerals_text (hnumbers false)).2 (by decide +kernel)
  · intro h
    have hsame := (canonicalWith_eq_iff Number.writesNumerals_text (hnumbers true)).1 h
    revert hsame
    decide +kernel

end RoutePlan.Json
