import RoutePlan.Proofs.Compile.RowOrder
import RoutePlan.Proofs.Store.Versions
import RoutePlan.Proofs.Version.UnsignedEdit
import RoutePlan.Service.Error

/-!
# Renaming what a store generates

A store generates the ids of overrides and versions and the times that it stamps them with. A
renaming (`Renaming`) replaces both wherever a row holds them: the time of a version is also in the
stamp of its snapshot (`Document.restamp`). A store whose rows are renamed answers a query with the
renamed rows, if the renaming of ids is injective and that of times keeps the order of the
overrides (`Renaming.KeepsOrder`); and a route compiles to the same.
-/

namespace RoutePlan

/-- What becomes of the ids and the times that a store generates. -/
structure Renaming where
  id : String → String
  time : Instant → Instant

/-! ## Rows -/

namespace Json

/-- Changes the value at a key of an object. -/
def alter (key : String) (f : Json → Json) : Json → Json
  | .obj members => .obj (members.map fun m => (m.1, if m.1 = key then f m.2 else m.2))
  | j => j

/-- What is found at another key does not change. -/
theorem lookupMember_alter {key k : String} (f : Json → Json) (h : k ≠ key)
    (members : List (String × Json)) :
    lookupMember k (members.map fun m => (m.1, if m.1 = key then f m.2 else m.2)) =
      lookupMember k members := by
  induction members with
  | nil => rfl
  | cons m rest ih =>
    rw [List.map_cons, lookupMember, lookupMember, ih]
    split
    · next hk => rw [if_neg (hk ▸ h)]
    · rfl

/-- What a value has at another key does not change. -/
theorem member?_alter {key k : String} (f : Json → Json) (h : k ≠ key) (j : Json) :
    (j.alter key f).member? k = j.member? k := by
  cases j with
  | obj members => rw [alter, member?, member?, ← List.map_reverse, lookupMember_alter f h]
  | _ => rfl

end Json

namespace Document

/-- The snapshot with another time of compilation in its stamp. -/
def restamp (d : Document) (t : Instant) : Document :=
  .ofJson (d.json.alter "routeVersion" (Json.alter "compiledAt" fun _ => .str t.text))

/-- What is at the other keys stays. -/
theorem field?_restamp (d : Document) (t : Instant) {key : String} (h : key ≠ "routeVersion") :
    (d.restamp t).json.field? key = d.json.field? key := by
  have hmember := Json.member?_alter (Json.alter "compiledAt" fun _ => .str t.text) h d.json
  rw [restamp, json_ofJson, Json.field?_normal, hmember, ← Json.field?_normal, d.isNormal]

/-- The normal form of a snapshot has its members in key order. -/
theorem normal_stamp (c : SnapshotCore) (versionNo : Int32) (t : Instant) :
    (c.stamp ⟨versionNo, t⟩).toJson.normal =
      .obj [("route", c.route.toJson.normal),
        ("routeVersion", .obj [("compiledAt", .str t.text), ("versionNo", .ofInt32 versionNo)]),
        ("steps", (stepsJson c.steps).normal)] := by
  simp only [Snapshot.toJson, SnapshotCore.stamp, VersionStamp.toJson]
  rfl

/-- A stamped core gets the new time. -/
theorem restamp_stamp (c : SnapshotCore) (versionNo : Int32) (t u : Instant) :
    (ofJson (c.stamp ⟨versionNo, t⟩).toJson).restamp u =
      ofJson (c.stamp ⟨versionNo, u⟩).toJson := by
  have halter : ((c.stamp ⟨versionNo, t⟩).toJson.normal).alter "routeVersion"
      (Json.alter "compiledAt" fun _ => .str u.text) = (c.stamp ⟨versionNo, u⟩).toJson.normal := by
    rw [normal_stamp, normal_stamp]
    rfl
  exact ext (by rw [restamp, json_ofJson, json_ofJson, json_ofJson, halter, Json.normal_normal])

end Document

namespace Override

def rename (ρ : Renaming) (o : Override) : Override :=
  { o with id := ρ.id o.id, createdAt := ρ.time o.createdAt, updatedAt := ρ.time o.updatedAt }

/-- The times in a row. -/
def times (o : Override) : List Instant := [o.createdAt, o.updatedAt]

end Override

namespace RouteVersion

def rename (ρ : Renaming) (v : RouteVersion) : RouteVersion :=
  { v with
    id := ρ.id v.id
    snapshot := v.snapshot.restamp (ρ.time v.compiledAt)
    compiledAt := ρ.time v.compiledAt }

/-- The times in a row. -/
def times (v : RouteVersion) : List Instant := [v.compiledAt]

/-- A renamed version has the same content. -/
theorem sameContent_rename (ρ : Renaming) (v : RouteVersion) : (v.rename ρ).SameContent v :=
  ⟨v.snapshot.field?_restamp _ (by decide), v.snapshot.field?_restamp _ (by decide), rfl, rfl⟩

end RouteVersion

/-- Whether a version is used again does not depend on its id or its time. -/
theorem Compilation.reusesPrior_rename (c : Compilation) (ρ : Renaming)
    (prior : Option RouteVersion) : (c.decision (prior.map (·.rename ρ))).reusesPrior =
      (c.decision prior).reusesPrior := by
  cases prior with
  | none => rfl
  | some v => exact reusesPrior_congr (v.sameContent_rename ρ)

/-- A version that is drafted at another time. -/
theorem Compilation.rename_draft (c : Compilation) (ρ : Renaming) (routingId : String)
    (prior : Option Int32) (t : Instant) (id : String) :
    ((c.draft routingId prior t).row id).rename ρ =
      (c.draft routingId prior (ρ.time t)).row (ρ.id id) := by
  simp only [RouteVersion.rename, VersionDraft.row, draft, Document.restamp_stamp]

/-! ## Times in order -/

namespace Renaming

/-- The times are increasing, and so are the renamed ones. -/
structure OrdersTimes (ρ : Renaming) (times : List Instant) : Prop where
  before : times.Pairwise (· < ·)
  after : (times.map ρ.time).Pairwise (· < ·)

/-- Of two rows the same one is later after the renaming. -/
def KeepsOrder (ρ : Renaming) (rows : List Override) : Prop :=
  ∀ a ∈ rows, ∀ b ∈ rows, (a.rename ρ).lt (b.rename ρ) ↔ a.lt b

variable {ρ : Renaming} {times : List Instant} {rows : List Override}

/-- A renaming that orders times keeps each two of them in order. -/
theorem OrdersTimes.lt_iff (h : ρ.OrdersTimes times) {t u : Instant} (ht : t ∈ times)
    (hu : u ∈ times) : ρ.time t < ρ.time u ↔ t < u := by
  have hboth : times.Pairwise fun t u => t < u ∧ ρ.time t < ρ.time u :=
    h.before.and (List.pairwise_map.1 h.after)
  -- of two different times one is first, before and after the renaming
  have heither : times.Pairwise fun t u =>
      (t < u ∧ ρ.time t < ρ.time u) ∨ (u < t ∧ ρ.time u < ρ.time t) :=
    hboth.imp .inl
  have : Std.Symm fun t u => (t < u ∧ ρ.time t < ρ.time u) ∨ (u < t ∧ ρ.time u < ρ.time t) :=
    ⟨fun _ _ => Or.symm⟩
  by_cases heq : t = u
  · rw [heq]
    exact iff_of_false (Instant.lt_irrefl _) (Instant.lt_irrefl _)
  · rcases List.Pairwise.forall heither ht hu heq with ⟨hlt, hlt'⟩ | ⟨hgt, hgt'⟩
    · exact iff_of_true hlt' hlt
    · exact iff_of_false (Instant.lt_asymm hgt') (Instant.lt_asymm hgt)

/-- One more time, later than all others. -/
theorem OrdersTimes.concat (h : ρ.OrdersTimes times) {t : Instant}
    (hlast : ∀ u ∈ times, u < t ∧ ρ.time u < ρ.time t) : ρ.OrdersTimes (times ++ [t]) where
  before := List.pairwise_append.2 ⟨h.before, List.pairwise_singleton .., fun u hu v hv => by
    rw [List.mem_singleton.1 hv]
    exact (hlast u hu).1⟩
  after := by
    rw [List.map_append, List.map_singleton, List.pairwise_append]
    refine ⟨h.after, List.pairwise_singleton .., fun u' hu' v hv => ?_⟩
    obtain ⟨u, hu, rfl⟩ := List.mem_map.1 hu'
    rw [List.mem_singleton.1 hv]
    exact (hlast u hu).2

/-- Overrides with different times of update keep their order. -/
theorem OrdersTimes.keepsOrder (h : ρ.OrdersTimes times)
    (htimes : ∀ o ∈ rows, o.updatedAt ∈ times)
    (hdistinct : rows.Pairwise fun a b => a.updatedAt ≠ b.updatedAt) : ρ.KeepsOrder rows := by
  intro a ha b hb
  by_cases heq : a = b
  · rw [heq]
    exact iff_of_false (Override.lt_irrefl _) (Override.lt_irrefl _)
  · have : Std.Symm fun a b : Override => a.updatedAt ≠ b.updatedAt := ⟨fun _ _ => Ne.symm⟩
    have hne : a.updatedAt ≠ b.updatedAt := List.Pairwise.forall hdistinct ha hb heq
    have hlt := h.lt_iff (htimes a ha) (htimes b hb)
    have hgt := h.lt_iff (htimes b hb) (htimes a ha)
    have hne' : ρ.time a.updatedAt ≠ ρ.time b.updatedAt := by
      intro heq'
      rw [heq'] at hlt hgt
      rcases Instant.lt_or_eq_or_gt a.updatedAt b.updatedAt with h | h | h
      · exact Instant.lt_irrefl _ (hlt.2 h)
      · exact hne h
      · exact Instant.lt_irrefl _ (hgt.2 h)
    exact (or_iff_left fun h => hne' h.1).trans (hlt.trans (or_iff_left fun h => hne h.1).symm)

/-- Some of the rows are kept in order if all of them are. -/
theorem KeepsOrder.mono {rows' : List Override} (h : ρ.KeepsOrder rows) (hrows : rows' ⊆ rows) :
    ρ.KeepsOrder rows' :=
  fun a ha b hb => h a (hrows ha) b (hrows hb)

/-- The listing of the renamed rows is that of the rows, renamed. -/
theorem KeepsOrder.mostRecentFirst (h : ρ.KeepsOrder rows) :
    Override.mostRecentFirst (rows.map (·.rename ρ)) =
      (Override.mostRecentFirst rows).map (·.rename ρ) :=
  (List.map_mergeSort fun a ha b hb => by simp only [h a ha b hb]).symm

/-- The latest of the renamed rows is that of the rows, renamed. -/
theorem KeepsOrder.latest? (h : ρ.KeepsOrder rows) :
    Override.latest? (rows.map (·.rename ρ)) = (Override.latest? rows).map (·.rename ρ) := by
  induction rows with
  | nil => rfl
  | cons o rows ih =>
    rw [List.map_cons, Override.latest?_cons, Override.latest?_cons,
      ih (h.mono (List.subset_cons_self ..))]
    cases hl : Override.latest? rows with
    | none => rfl
    | some best =>
      have hlt := h o (List.mem_cons_self ..) best
        (List.mem_cons_of_mem _ (Override.latest?_eq_some hl).1)
      simp only [Option.map_some, Option.elim_some, Override.later, hlt]
      split <;> rfl

/-- What counts for a step is the same. -/
theorem KeepsOrder.resolve (h : ρ.KeepsOrder rows) (r : Routing) (steps : List RoutingStep) :
    r.resolve steps (rows.map (·.rename ρ)) = r.resolve steps rows := by
  have hlatest : ∀ p : Override → Bool, (∀ o, p (o.rename ρ) = p o) →
      Override.latest? ((rows.map (·.rename ρ)).filter p) =
        (Override.latest? (rows.filter p)).map (·.rename ρ) := by
    intro p hp
    have hcomp : p ∘ (·.rename ρ) = p := funext hp
    rw [List.filter_map, hcomp, (h.mono (List.filter_subset_self _)).latest?]
  have hwith : ∀ (step : RoutingStep) (ofStep ofRoute : Option Override),
      step.resolveWith (ofStep.map (·.rename ρ)) (ofRoute.map (·.rename ρ)) =
        step.resolveWith ofStep ofRoute := by
    intro step ofStep ofRoute
    cases ofStep <;> cases ofRoute <;> rfl
  refine List.map_congr_left fun step _ => ?_
  rw [RoutingStep.resolve, RoutingStep.resolve, RoutingStep.overrides, Routing.overrides,
    hlatest _ fun _ => rfl, hlatest _ fun _ => rfl, hwith]
  rfl

end Renaming

/-! ## Stores -/

namespace MemoryStore

/-- The store with all its rows renamed. -/
def rename (ρ : Renaming) (s : MemoryStore) : MemoryStore :=
  { s with
    overrides := s.overrides.map (·.rename ρ)
    versions := s.versions.map (·.rename ρ)
    lastStamp := s.lastStamp.map ρ.time }

variable {ρ : Renaming}

/-- The override with a renamed id is found, renamed. -/
theorem findOverride_rename (hid : ρ.id.Injective) (s : MemoryStore) (id : String) :
    (s.rename ρ).findOverride (ρ.id id) = (s.findOverride id).map (·.rename ρ) := by
  have hsame : ((fun o => o.id == ρ.id id) ∘ fun o : Override => o.rename ρ) =
      fun o => o.id == id := by
    funext o
    rw [Bool.eq_iff_iff, Function.comp_apply, beq_iff_eq, beq_iff_eq]
    exact hid.eq_iff
  rw [findOverride, rename, List.find?_map, hsame]
  rfl

/-- The overrides that are listed are the same, renamed. -/
theorem listOverrides_rename {s : MemoryStore} (h : ρ.KeepsOrder s.overrides)
    (f : OverrideFilter) :
    (s.rename ρ).listOverrides f = (s.listOverrides f).map (·.rename ρ) := by
  rw [listOverrides, rename, List.filter_map]
  exact (h.mono (List.filter_subset_self _)).mostRecentFirst

/-- The versions that are listed are the same, renamed. -/
theorem listVersions_rename (ρ : Renaming) (s : MemoryStore) (routingId : String) :
    (s.rename ρ).listVersions routingId = (s.listVersions routingId).map (·.rename ρ) := by
  have hmap := List.map_mergeSort (f := fun v : RouteVersion => v.rename ρ)
    (r := fun a b => decide (b.versionNo ≤ a.versionNo))
    (s := fun a b => decide (b.versionNo ≤ a.versionNo)) (l := s.versionsOf routingId)
    fun _ _ _ _ => rfl
  rw [listVersions, versionsOf, rename, List.filter_map]
  exact hmap.symm

/-- The version with a number is found, renamed. -/
theorem findVersion_rename (ρ : Renaming) (s : MemoryStore) (routingId : String)
    (versionNo : Int32) : (s.rename ρ).findVersion routingId versionNo =
      (s.findVersion routingId versionNo).map (·.rename ρ) := by
  rw [findVersion, rename, List.find?_map]
  rfl

/-- A renamed store holds the same version numbers. -/
theorem holdsNo_rename {s : MemoryStore} {routingId : String} {n : Int32} :
    (s.rename ρ).HoldsNo routingId n ↔ s.HoldsNo routingId n := by
  constructor
  · rintro ⟨v', hv', hkey⟩
    obtain ⟨v, hv, rfl⟩ := List.mem_map.1 hv'
    exact ⟨v, hv, hkey⟩
  · rintro ⟨v, hv, hkey⟩
    exact ⟨v.rename ρ, List.mem_map_of_mem hv, hkey⟩

end MemoryStore

/-- The state with all rows of its store renamed. -/
def MemoryState.rename (ρ : Renaming) (s : MemoryState) : MemoryState :=
  { s with store := s.store.rename ρ }

end RoutePlan
