import RoutePlan.Proofs.Concurrency.Interleaving
import RoutePlan.Proofs.Store.Stamps
import RoutePlan.Service.Overrides

/-!
# What of a stored override never changes

A change of an override leaves its id, its target, its operation and its time of creation alone
(`Override.identity`). Rows are never removed and stay in their place, so whatever is called, the
identities in the table only grow at the end, and the design data stays as it is
(`MemoryStore.Later`, `MemoryState.later_answer`). An override that was found by its id is
therefore found again, with the same identity (`MemoryStore.Later.findOverride`).
-/

namespace RoutePlan

/-- What of a stored override never changes. -/
structure OverrideIdentity where
  id : String
  target : OverrideTarget
  operationId : Option String
  createdAt : Instant

namespace Override

/-- What a stored override applies to. -/
def target (o : Override) : OverrideTarget :=
  ⟨o.scope, o.routingId, o.routingStepId, o.sourceStepKey⟩

/-- The id of a row, its target, its operation and its time of creation. -/
def identity (o : Override) : OverrideIdentity := ⟨o.id, o.target, o.operationId, o.createdAt⟩

variable {a b : Override}

/-- Rows with the same identity have the same id. -/
theorem id_eq_of_identity (h : a.identity = b.identity) : a.id = b.id :=
  congrArg OverrideIdentity.id h

/-- Rows with the same identity have the same target. -/
theorem target_eq_of_identity (h : a.identity = b.identity) : a.target = b.target :=
  congrArg OverrideIdentity.target h

/-- Rows with the same identity have the same operation. -/
theorem operationId_eq_of_identity (h : a.identity = b.identity) : a.operationId = b.operationId :=
  congrArg OverrideIdentity.operationId h

end Override

/-- Ownership rests on the identity of a row. -/
theorem Routing.owns_congr {a b : Override} (h : a.identity = b.identity) (r : Routing)
    (steps : List RoutingStep) : r.owns steps a = r.owns steps b := by
  have htarget := Override.target_eq_of_identity h
  simp only [Override.target, OverrideTarget.mk.injEq] at htarget
  simp only [owns, Override.operationId_eq_of_identity h, htarget]

/-! ## Tables that only grow -/

namespace MemoryStore

/-- The identities of the stored overrides, in the order of the table. -/
def identities (s : MemoryStore) : List OverrideIdentity := s.overrides.map Override.identity

variable {s t u : MemoryStore}

/-- The identity of the row that an id stands for is the first one with that id. -/
theorem map_findOverride (s : MemoryStore) (id : String) :
    (s.findOverride id).map Override.identity = s.identities.find? fun k => k.id == id := by
  rw [identities, List.find?_map]
  rfl

/-- A row is listed exactly if it is stored and the filter selects it. -/
theorem mem_listOverrides {f : OverrideFilter} {o : Override} :
    o ∈ s.listOverrides f ↔ o ∈ s.overrides ∧ f.selects o = true := by
  rw [listOverrides, Override.mostRecentFirst, List.mem_mergeSort, List.mem_filter]

/-- If no two overrides have the same id, each is found by its id. -/
theorem findOverride_of_mem (hids : (s.overrides.map (·.id)).Nodup) {o : Override}
    (ho : o ∈ s.overrides) : s.findOverride o.id = some o := by
  obtain ⟨found, hfound⟩ : ∃ found, s.findOverride o.id = some found :=
    Option.isSome_iff_exists.1 (List.find?_isSome.2 ⟨o, ho, beq_self_eq_true o.id⟩)
  have hid : found.id = o.id := by simpa using List.find?_some hfound
  rw [hfound, List.inj_on_of_nodup_map hids (List.mem_of_find?_eq_some hfound) ho hid]

/-- `t` may come after `s` when no one changes the design: the store has grown, the design data is
the same, and every override is still in its place with its identity. -/
structure Later (s t : MemoryStore) : Prop where
  grows : s.Grows t
  routings : t.routings = s.routings
  steps : t.steps = s.steps
  stationGroups : t.stationGroups = s.stationGroups
  dataSpecs : t.dataSpecs = s.dataSpecs
  identities : s.identities <+: t.identities

namespace Later

/-- A store is a later one than itself. -/
theorem refl (s : MemoryStore) : s.Later s := ⟨.refl s, rfl, rfl, rfl, rfl, List.prefix_rfl⟩

/-- A store later than a later one is later. -/
theorem trans (h : s.Later t) (h' : t.Later u) : s.Later u where
  grows := h.grows.trans h'.grows
  routings := h'.routings.trans h.routings
  steps := h'.steps.trans h.steps
  stationGroups := h'.stationGroups.trans h.stationGroups
  dataSpecs := h'.dataSpecs.trans h.dataSpecs
  identities := h.identities.trans h'.identities

/-- In a later store the same routings are found. -/
theorem findRouting (h : s.Later t) : t.findRouting = s.findRouting := by
  unfold MemoryStore.findRouting
  rw [h.routings]

/-- In a later store the same steps are listed. -/
theorem listSteps (h : s.Later t) : t.listSteps = s.listSteps := by
  unfold MemoryStore.listSteps
  rw [h.steps]

/-- In a later store the same station groups are found. -/
theorem findStationGroup (h : s.Later t) : t.findStationGroup = s.findStationGroup := by
  unfold MemoryStore.findStationGroup
  rw [h.stationGroups]

/-- In a later store the same specs are found. -/
theorem findDataSpecs (h : s.Later t) : t.findDataSpecs = s.findDataSpecs := by
  unfold MemoryStore.findDataSpecs
  rw [h.dataSpecs]

/-- An override that was found is found again, with the same identity. -/
theorem findOverride (h : s.Later t) {id : String} {o : Override}
    (ho : s.findOverride id = some o) :
    ∃ o', t.findOverride id = some o' ∧ o'.identity = o.identity := by
  obtain ⟨more, hmore⟩ := h.identities
  have hfirst := s.map_findOverride id
  rw [ho, Option.map_some] at hfirst
  have hfound : (t.findOverride id).map Override.identity = some o.identity := by
    rw [t.map_findOverride, ← hmore, List.find?_append, ← hfirst, Option.some_or]
  exact Option.map_eq_some_iff.1 hfound

end Later

/-- Drawing a stamp leads to a later store. -/
theorem later_drawStamp (reading : Instant) (s : MemoryStore) : s.Later (s.drawStamp reading).2 :=
  ⟨.of_eq rfl rfl, rfl, rfl, rfl, rfl, List.prefix_rfl⟩

/-- Changing an override leads to a later store. -/
theorem later_writeOverride (id : String) (patch : OverridePatch) (stamp : Instant)
    (s : MemoryStore) : s.Later (s.writeOverride id patch stamp).2 := by
  unfold writeOverride
  split
  · exact .refl s
  · next o overrides h =>
    refine ⟨.of_eq rfl rfl, rfl, rfl, rfl, rfl, ?_⟩
    obtain ⟨before, old, after, hs, ht, rfl, -⟩ := updateFirst_eq_some h
    rw [identities, identities, hs, ht, List.map_append, List.map_append, List.map_cons,
      List.map_cons]
    exact List.prefix_rfl

/-- Adding an override leads to a later store. -/
theorem later_addOverride (o : Override) (s : MemoryStore) : s.Later (s.addOverride o) := by
  refine ⟨.of_eq rfl rfl, rfl, rfl, rfl, rfl, ?_⟩
  exact (List.prefix_append ..).map Override.identity

/-- Adding a version under a free number leads to a later store. -/
theorem later_addVersion {v : RouteVersion} (h : s.findVersion v.routingId v.versionNo = none) :
    s.Later (s.addVersion v) :=
  ⟨grows_addVersion h, rfl, rfl, rfl, rfl, List.prefix_rfl⟩

end MemoryStore

/-- Whatever is called, the store is a later one. -/
theorem MemoryState.later_answer (supply : Supply) (c : Call) (s : MemoryState) :
    s.store.Later (answer supply c s).2.store := by
  cases c with
  | insertOverride draft =>
    exact (MemoryStore.later_drawStamp ..).trans (MemoryStore.later_addOverride ..)
  | updateOverride id patch =>
    exact (MemoryStore.later_drawStamp ..).trans (MemoryStore.later_writeOverride ..)
  | insertVersion draft expected =>
    simp only [answer]
    split
    · exact .refl _
    · next v t h =>
      obtain ⟨-, hfree, rfl, rfl⟩ := MemoryStore.insertVersion_eq_ok.1 h
      exact MemoryStore.later_addVersion hfree
  | _ => exact .refl _

end RoutePlan
