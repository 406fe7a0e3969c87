import RoutePlan.Store.Memory
import Mathlib.Data.List.Induction

/-!
# The tables of a store in memory only grow

Whatever is called, a version stays where it is and a new one has a number of its own
(`MemoryStore.Grows`), so a version that was the latest of its route still is as long as the number
of the latest one is the same (`MemoryStore.Grows.latestVersion_eq`). This is what a
compare-and-insert on the number rests on: it compares the row, not only its number.
-/

namespace RoutePlan

/-! ## The last of the greatest numbers -/

namespace RouteVersion

/-- One more version is the latest unless its number is smaller. -/
theorem latest?_concat (vs : List RouteVersion) (w : RouteVersion) :
    latest? (vs ++ [w]) =
      some ((latest? vs).elim w fun best => if w.versionNo < best.versionNo then best else w) := by
  cases vs with
  | nil => rfl
  | cons v rest => simp [latest?]

/-- The latest of some versions is one of them, and none of them has a greater number. -/
theorem latest?_eq_some {vs : List RouteVersion} {v : RouteVersion} (h : latest? vs = some v) :
    v ∈ vs ∧ ∀ w ∈ vs, w.versionNo ≤ v.versionNo := by
  induction vs using List.reverseRecOn generalizing v with
  | nil => cases h
  | append_singleton vs w ih =>
    rw [latest?_concat, Option.some.injEq] at h
    cases hl : latest? vs with
    | none =>
      have hvs : vs = [] := by
        cases vs with
        | nil => rfl
        | cons => cases hl
      subst hvs
      simp_all
    | some best =>
      have ⟨hmem, hle⟩ := ih hl
      rw [hl, Option.elim_some] at h
      split at h
      · next hlt =>
        subst h
        refine ⟨List.mem_append_left _ hmem, fun u hu => ?_⟩
        rcases List.mem_append.1 hu with hu | hu
        · exact hle u hu
        · rw [List.mem_singleton.1 hu]
          exact Int32.le_of_lt hlt
      · next hlt =>
        subst h
        refine ⟨List.mem_append_right _ (List.mem_singleton_self _), fun u hu => ?_⟩
        rcases List.mem_append.1 hu with hu | hu
        · exact Int32.le_trans (hle u hu) (Int32.not_lt.1 hlt)
        · rw [List.mem_singleton.1 hu]
          exact Int32.le_rfl

/-- Only among no versions there is no latest one. -/
theorem latest?_eq_none {vs : List RouteVersion} : latest? vs = none ↔ vs = [] := by
  cases vs <;> simp [latest?]

/-- A version with a number above all others is the latest. -/
theorem latest?_concat_of_lt {vs : List RouteVersion} {w : RouteVersion}
    (h : ∀ v ∈ vs, v.versionNo < w.versionNo) : latest? (vs ++ [w]) = some w := by
  rw [latest?_concat]
  cases hl : latest? vs with
  | none => rfl
  | some best =>
    have := h best (latest?_eq_some hl).1
    rw [Option.elim_some, if_neg (Int32.lt_asymm this)]

/-- Further versions with other numbers than the latest one leave the latest one in place as long as
they leave its number in place. -/
theorem latest?_append_eq {vs more : List RouteVersion}
    (hne : ∀ v ∈ more, ∀ w ∈ vs, v.versionNo ≠ w.versionNo)
    (h : (latest? (vs ++ more)).map (·.versionNo) = (latest? vs).map (·.versionNo)) :
    latest? (vs ++ more) = latest? vs := by
  cases hl : latest? vs with
  | none =>
    rw [hl, Option.map_none, Option.map_eq_none_iff] at h
    exact h
  | some p =>
    have hp := (latest?_eq_some hl).1
    rw [hl, Option.map_some] at h
    induction more using List.reverseRecOn with
    | nil => rw [List.append_nil, hl]
    | append_singleton more w ih =>
      have hw : w.versionNo ≠ p.versionNo := hne w (by simp) p hp
      rw [← List.append_assoc, latest?_concat] at h ⊢
      cases hm : latest? (vs ++ more) with
      | none =>
        have := List.append_eq_nil_iff.1 (latest?_eq_none.1 hm)
        rw [this.1] at hp
        cases hp
      | some best =>
        rw [hm, Option.elim_some, Option.map_some, Option.some.injEq] at h
        rw [Option.elim_some]
        split at h
        · next hlt =>
          rw [if_pos hlt]
          rw [← hm]
          exact ih (fun v hv => hne v (List.mem_append_left _ hv)) (by rw [hm, Option.map_some, h])
        · exact absurd h hw

end RouteVersion

namespace MemoryStore

/-! ## Growth -/

/-- `t` may come after `s`: versions stay and new ones have numbers of their own, and a routing that
is found by its code stays the first one with it. -/
structure Grows (s t : MemoryStore) : Prop where
  versions : ∃ more, t.versions = s.versions ++ more ∧
    ∀ v ∈ more, ∀ w ∈ s.versions, v.routingId = w.routingId → v.versionNo ≠ w.versionNo
  routings : s.routings <+: t.routings

variable {s t u : MemoryStore}

/-- A store that stays as it is grows. -/
theorem Grows.refl (s : MemoryStore) : Grows s s :=
  ⟨⟨[], (List.append_nil _).symm, nofun⟩, List.prefix_rfl⟩

/-- A store that has grown twice has grown. -/
theorem Grows.trans (h : Grows s t) (h' : Grows t u) : Grows s u := by
  obtain ⟨more, ht, hmore⟩ := h.versions
  obtain ⟨more', hu, hmore'⟩ := h'.versions
  refine ⟨⟨more ++ more', by rw [hu, ht, List.append_assoc], fun v hv w hw hid => ?_⟩,
    h.routings.trans h'.routings⟩
  rcases List.mem_append.1 hv with hv | hv
  · exact hmore v hv w hw hid
  · exact hmore' v hv w (by rw [ht]; exact List.mem_append_left _ hw) hid

/-- A store with the same versions and the same routings. -/
theorem Grows.of_eq (hv : t.versions = s.versions) (hr : t.routings = s.routings) : Grows s t :=
  ⟨⟨[], by rw [hv, List.append_nil], nofun⟩, hr ▸ List.prefix_rfl⟩

/-- A version that is stored stays. -/
theorem Grows.mem_versions (h : Grows s t) {v : RouteVersion} (hv : v ∈ s.versions) :
    v ∈ t.versions := by
  obtain ⟨more, ht, -⟩ := h.versions
  rw [ht]
  exact List.mem_append_left _ hv

/-- A routing that was found is found again. -/
theorem Grows.findRouting (h : Grows s t) {code : String} {r : Routing}
    (hr : s.findRouting code = some r) : t.findRouting code = some r := by
  obtain ⟨more, hmore⟩ := h.routings
  unfold MemoryStore.findRouting at hr ⊢
  rw [← hmore, List.find?_append, hr, Option.some_or]

/-! ## The latest version -/

/-- The versions of a routing are those that are stored for it. -/
theorem mem_versionsOf {routingId : String} {v : RouteVersion} :
    v ∈ s.versionsOf routingId ↔ v ∈ s.versions ∧ v.routingId = routingId := by
  simp [versionsOf]

/-- The latest version belongs to the route, and no version of the route has a greater number. -/
theorem latestVersion_eq_some {routingId : String} {v : RouteVersion}
    (h : s.latestVersion routingId = some v) :
    (v ∈ s.versions ∧ v.routingId = routingId) ∧
      ∀ w ∈ s.versions, w.routingId = routingId → w.versionNo ≤ v.versionNo := by
  rw [latestVersion] at h
  have ⟨hmem, hle⟩ := RouteVersion.latest?_eq_some h
  exact ⟨mem_versionsOf.1 hmem, fun w hw hid => hle w (mem_versionsOf.2 ⟨hw, hid⟩)⟩

/-- The latest version of a route is known by its number, whatever else was written. -/
theorem Grows.latestVersion_eq (h : Grows s t) {routingId : String}
    (hno : (t.latestVersion routingId).map (·.versionNo) =
      (s.latestVersion routingId).map (·.versionNo)) :
    t.latestVersion routingId = s.latestVersion routingId := by
  obtain ⟨more, ht, hmore⟩ := h.versions
  have happ : t.versionsOf routingId =
      s.versionsOf routingId ++ more.filter fun v => v.routingId == routingId := by
    rw [versionsOf, ht, List.filter_append, versionsOf]
  rw [MemoryStore.latestVersion, MemoryStore.latestVersion, happ] at hno ⊢
  refine RouteVersion.latest?_append_eq (fun v hv w hw => ?_) hno
  have ⟨hw, hwid⟩ := mem_versionsOf.1 hw
  have ⟨hv, hvid⟩ := List.mem_filter.1 hv
  exact hmore v hv w hw ((beq_iff_eq.1 hvid).trans hwid.symm)

/-! ## Insertion -/

/-- The store with one more version. -/
def addVersion (v : RouteVersion) (s : MemoryStore) : MemoryStore :=
  { s with versions := s.versions ++ [v] }

/-- A new version is the last one of its own routing, and none of any other. -/
theorem versionsOf_addVersion (v : RouteVersion) (routingId : String) :
    (s.addVersion v).versionsOf routingId =
      s.versionsOf routingId ++ if v.routingId = routingId then [v] else [] := by
  by_cases h : v.routingId = routingId <;> simp [versionsOf, addVersion, h]

/-- No version is found exactly if none of the routing has the number. -/
theorem findVersion_eq_none {routingId : String} {versionNo : Int32} :
    s.findVersion routingId versionNo = none ↔
      ∀ v ∈ s.versions, v.routingId = routingId → v.versionNo ≠ versionNo := by
  simp [findVersion]

/-- An insertion succeeds exactly if the latest number is the expected one and the new number is
free; then it adds one version at the end. -/
theorem insertVersion_eq_ok {draft : VersionDraft} {expected : Option Int32} {id : String}
    {v : RouteVersion} :
    s.insertVersion draft expected id = .ok (v, t) ↔
      (s.latestVersion draft.routingId).map (·.versionNo) = expected ∧
        s.findVersion draft.routingId draft.versionNo = none ∧
        v = draft.row id ∧ t = s.addVersion v := by
  simp only [insertVersion]
  split
  · next h =>
    refine ⟨nofun, fun ⟨hno, hfree, _⟩ => ?_⟩
    rcases h with h | h
    · exact absurd hno h
    · rw [hfree] at h
      cases h
  · next h =>
    rw [not_or, not_not, Option.not_isSome_iff_eq_none] at h
    simp only [Except.ok.injEq, Prod.mk.injEq]
    refine ⟨fun ⟨hv, ht⟩ => ⟨h.1, h.2, hv.symm, ?_⟩, fun ⟨_, _, hv, ht⟩ => ⟨hv.symm, ?_⟩⟩
    · rw [← ht, ← hv, addVersion]
    · rw [ht, hv, addVersion]

/-- The only failure of an insertion is a version conflict. -/
theorem insertVersion_eq_error {draft : VersionDraft} {expected : Option Int32} {id : String}
    {e : StoreError} :
    s.insertVersion draft expected id = .error e ↔
      e = .versionConflict draft.routingId draft.versionNo ∧
        ((s.latestVersion draft.routingId).map (·.versionNo) ≠ expected ∨
          s.findVersion draft.routingId draft.versionNo ≠ none) := by
  simp only [insertVersion]
  split
  · next h =>
    rw [Option.isSome_iff_ne_none] at h
    simp only [Except.error.injEq]
    exact ⟨fun he => ⟨he.symm, h⟩, fun he => he.1.symm⟩
  · next h =>
    rw [Option.isSome_iff_ne_none] at h
    exact ⟨nofun, fun he => absurd he.2 h⟩

/-- Insertion makes the store grow. -/
theorem grows_addVersion {v : RouteVersion} (h : s.findVersion v.routingId v.versionNo = none) :
    Grows s (s.addVersion v) := by
  refine ⟨⟨[v], rfl, fun w hw u hu hid heq => ?_⟩, List.prefix_rfl⟩
  rw [List.mem_singleton.1 hw] at hid heq
  exact findVersion_eq_none.1 h u hu hid.symm heq.symm

/-! ## Calls -/

/-- Writing an override leaves the versions alone. -/
theorem versions_writeOverride (id : String) (patch : OverridePatch) (stamp : Instant)
    (s : MemoryStore) : (s.writeOverride id patch stamp).2.versions = s.versions := by
  unfold writeOverride
  split <;> rfl

/-- Writing an override leaves the versions and the routings alone. -/
theorem grows_writeOverride (id : String) (patch : OverridePatch) (stamp : Instant)
    (s : MemoryStore) : s.Grows (s.writeOverride id patch stamp).2 := by
  unfold writeOverride
  split <;> exact .of_eq rfl rfl

end MemoryStore

namespace MemoryState

/-- Only an insertion changes the versions. -/
theorem versions_answer (supply : Supply) {c : Call} (s : MemoryState)
    (h : ∀ draft expected, c ≠ .insertVersion draft expected) :
    (answer supply c s).2.store.versions = s.store.versions := by
  cases c with
  | insertVersion draft expected => exact absurd rfl (h draft expected)
  | updateOverride id patch => exact MemoryStore.versions_writeOverride id patch _ _
  | _ => rfl

/-- Whatever is called, the store only grows. -/
theorem grows_answer (supply : Supply) (c : Call) (s : MemoryState) :
    s.store.Grows (answer supply c s).2.store := by
  cases c with
  | insertOverride draft => exact .of_eq rfl rfl
  | updateOverride id patch =>
    have hdraw : s.store.Grows (s.store.drawStamp (supply.reading s.readings)).2 := .of_eq rfl rfl
    exact hdraw.trans (MemoryStore.grows_writeOverride id patch _ _)
  | insertVersion draft expected =>
    simp only [answer]
    split
    · exact .refl _
    · next v t h =>
      have ⟨_, hfree, hv, ht⟩ := MemoryStore.insertVersion_eq_ok.1 h
      rw [ht]
      exact MemoryStore.grows_addVersion (hv ▸ hfree)
  | _ => exact .refl _

end MemoryState
end RoutePlan
