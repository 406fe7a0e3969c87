import RoutePlan.Proofs.Relational.Services
import RoutePlan.Proofs.Service.Confinement

/-!
# Requests to a store and to a server

The same requests are served by a store in memory and by a database server whose storage is ideal,
both of which begin with the same design data. The answers are the same, and so are the refusals,
but for the ids and the times that each of the two generates (`Server.outcomes_alike`): one renaming
turns those of the store into those of the server, and keeps the times in order. An id that a
request names is renamed with it. One request that is served side by side keeps the server a mirror
of the store (`Request.alike`); from there it is an induction on the requests.
-/

namespace RoutePlan

/-! ## Requests and outcomes, renamed -/

namespace Request

/-- Only an update names an id that a store has generated. -/
def rename (id : String → String) : Request → Request
  | write (.update code overrideId edit) => write (.update code (id overrideId) edit)
  | q => q

/-- A reply with all its rows renamed. -/
def renameReply (ρ : Renaming) : (q : Request) → q.Reply → (q.rename ρ.id).Reply
  | write (.create _ _) => Override.rename ρ
  | write (.update _ _ _) => Override.rename ρ
  | listOverrides _ => List.map (Override.rename ρ)
  | compile _ _ => RouteVersion.rename ρ
  | listVersions _ => List.map (RouteVersion.rename ρ)
  | getVersion _ _ => RouteVersion.rename ρ

/-- The times in the rows of a reply. -/
def replyTimes : (q : Request) → q.Reply → List Instant
  | write _ => Override.times
  | listOverrides _ => List.flatMap Override.times
  | compile _ _ => RouteVersion.times
  | listVersions _ => List.flatMap RouteVersion.times
  | getVersion _ _ => RouteVersion.times

namespace Outcome

/-- The outcome of the renamed request: the renamed reply, or the renamed refusal. -/
def rename (ρ : Renaming) : Outcome → Outcome
  | ⟨q, .ok reply⟩ => ⟨q.rename ρ.id, .ok (q.renameReply ρ reply)⟩
  | ⟨q, .error e⟩ => ⟨q.rename ρ.id, .error (e.rename ρ.id)⟩

/-- The times in the rows that a request is answered with. -/
def times : Outcome → List Instant
  | ⟨q, .ok reply⟩ => q.replyTimes reply
  | ⟨_, .error _⟩ => []

end Outcome
end Request

/-- The outcomes of requests that are served one after another. -/
def Backend.outcomes {σ : Type} (b : Backend σ) : σ → List Request → List Request.Outcome
  | _, [] => []
  | s, q :: rest => ⟨q, (q.serve.run.run b s).1⟩ :: b.outcomes (q.serve.run.run b s).2 rest

/-! ## Side by side -/

/-- No version is removed, whatever is requested. -/
theorem MemoryState.grows_serveAll (supply : Supply) (s : MemoryState) (requests : List Request) :
    s.store.Grows (s.serveAll supply requests).store := by
  induction requests generalizing s with
  | nil => exact .refl _
  | cons q rest ih =>
    have hcall (c : Call) (t : MemoryState) (ht : s.store.Grows t.store) :
        s.store.Grows ((backend supply).answer c t).2.store :=
      ht.trans (grows_answer supply c t)
    have hserve : s.store.Grows (q.serve.run.run (backend supply) s).2.store :=
      Program.run_preserves hcall (fun _ ht => ht) q.serve.run (.refl _)
    exact hserve.trans (ih _)

section
variable [storage : Storage] (ideal : storage.Ideal) {σ π : Supply} {ρ : Renaming}
  (hσ : σ.Corresponds π ρ) {times : List Instant} {s : MemoryState} {t : Server}

include ideal hσ

/-- One request. -/
theorem Request.alike (h : Mirrored σ π ρ times s t) (hrange : s.store.InRange) (q : Request) :
    Service.Alike (MemoryState.backend σ) (Server.backend π)
      (Service.SameResult σ π ρ times (q.renameReply ρ) q.replyTimes)
      (Service.SameRefusal σ π ρ times) q.serve (q.rename ρ.id).serve s t := by
  cases q with
  | write w =>
    cases w with
    | create code request => exact Service.alike_createOverride ideal hσ h code request
    | update code id edit => exact Service.alike_updateOverride ideal hσ h code id edit
  | listOverrides code => exact Service.alike_listOverrides ideal h code
  | compile code attempts => exact Service.alike_compile ideal hσ h hrange code attempts
  | listVersions code => exact Service.alike_listVersions ideal h code
  | getVersion code versionNo => exact Service.alike_getVersion ideal h code versionNo

/-- The outcome of one request. -/
theorem Request.serve_alike (h : Mirrored σ π ρ times s t) (hrange : s.store.InRange)
    (q : Request) : ∃ result result' s' t' times',
      q.serve.run.run (MemoryState.backend σ) s = (result, s') ∧
      (q.rename ρ.id).serve.run.run (Server.backend π) t = (result', t') ∧
      (⟨_, result'⟩ : Outcome) = Outcome.rename ρ ⟨q, result⟩ ∧
      times ⊆ times' ∧ Outcome.times ⟨q, result⟩ ⊆ times' ∧ Mirrored σ π ρ times' s' t' := by
  rcases Request.alike ideal hσ h hrange q with
    ⟨reply, _, s', t', hs, ht, rfl, times', hsub, hreply, hmirrored⟩ |
    ⟨e, _, s', t', hs, ht, rfl, hmirrored⟩
  · exact ⟨_, _, s', t', times', hs, ht, rfl, hsub, hreply, hmirrored⟩
  · exact ⟨_, _, s', t', times, hs, ht, rfl, List.Subset.refl _, List.nil_subset _, hmirrored⟩

/-- The outcomes of all requests. -/
theorem Mirrored.outcomes (requests : List Request) (h : Mirrored σ π ρ times s t)
    (hrange : (s.serveAll σ requests).store.InRange) : ∃ times',
      times ⊆ times' ∧ ρ.OrdersTimes times' ∧
      ((MemoryState.backend σ).outcomes s requests).flatMap Request.Outcome.times ⊆ times' ∧
      (Server.backend π).outcomes t (requests.map (·.rename ρ.id)) =
        ((MemoryState.backend σ).outcomes s requests).map (·.rename ρ) := by
  induction requests generalizing times s t with
  | nil => exact ⟨times, List.Subset.refl _, h.regular.ordered, List.nil_subset _, rfl⟩
  | cons q rest ih =>
    obtain ⟨result, result', s', t', times₁, hs, ht, houtcome, hsub₁, hgiven, hmirrored⟩ :=
      Request.serve_alike ideal hσ h (hrange.of_grows (s.grows_serveAll σ (q :: rest))) q
    rw [MemoryState.serveAll, List.foldl_cons, hs] at hrange
    obtain ⟨times₂, hsub₂, hordered, hrest, heq⟩ := ih hmirrored hrange
    refine ⟨times₂, List.Subset.trans hsub₁ hsub₂, hordered, ?_, ?_⟩
    · rw [Backend.outcomes, hs, List.flatMap_cons]
      exact List.append_subset.2 ⟨List.Subset.trans hgiven hsub₂, hrest⟩
    · rw [List.map_cons, Backend.outcomes, Backend.outcomes, hs, ht, heq, List.map_cons, houtcome]

end

/-! ## From the design data on -/

/-- A store with no more than design data, in which the steps of a routing have numbers of their
own. -/
structure MemoryStore.IsDesign (design : MemoryStore) : Prop where
  stepNos : ∀ routingId, ((design.listSteps routingId).map (·.stepNo)).Nodup
  overrides : design.overrides = []
  versions : design.versions = []
  lastStamp : design.lastStamp = none

/-- A store that begins with design data is in order. -/
theorem MemoryStore.IsDesign.regular {design : MemoryStore} (h : design.IsDesign) (σ π : Supply)
    (ρ : Renaming) : (MemoryState.start design).Regular σ π ρ [] where
  stepNos := h.stepNos
  ordered := ⟨.nil, .nil⟩
  past _ hu := absurd hu List.not_mem_nil
  lastStamp last hlast := absurd (h.lastStamp.symm.trans hlast) nofun
  stamped := MemoryStore.wellStamped_of_eq_nil h.overrides
  overrideTimes o ho := absurd (h.overrides ▸ ho) List.not_mem_nil
  versionTimes v hv := absurd (h.versions ▸ hv) List.not_mem_nil
  overrideIds := congrArg (List.map (·.id)) h.overrides
  versionIds := congrArg (List.map (·.id)) h.versions
  numbered := by
    rw [Numbered, MemoryState.start, h.versions]
    exact .nil
  positive v hv := absurd (h.versions ▸ hv) List.not_mem_nil

/-- A server that has not served anything mirrors a store with the same design data. -/
theorem MemoryStore.IsDesign.mirrored [storage : Storage] {design : MemoryStore}
    (h : design.IsDesign) {db : Database} (hdb : db.Represents design) (σ π : Supply)
    (ρ : Renaming) : Mirrored σ π ρ [] (.start design) (Server.start db) where
  regular := h.regular σ π ρ
  represents := by
    have hrename : design.rename ρ = design := by
      rw [rename, h.overrides, h.versions, h.lastStamp]
      exact congr (congr (congrArg _ h.overrides.symm) h.versions.symm) h.lastStamp.symm
    have hstart : (MemoryState.start design).rename ρ = .start design :=
      congrArg MemoryState.start hrename
    rw [hstart]
    exact ⟨hdb, rfl, rfl, rfl, rfl, rfl, rfl⟩

/-- Of two times the same one is later after the renaming. -/
def Renaming.PreservesOrder (ρ : Renaming) (times : List Instant) : Prop :=
  ∀ t ∈ times, ∀ u ∈ times, ρ.time t < ρ.time u ↔ t < u

/-- **A server serves as a store in memory does.** Take design data in which the steps of a routing
have numbers of their own, a store that holds nothing else, and a database with the same rows on an
ideal storage. Each of the two has a clock that goes on by a microsecond at least from one write to
the next, and generates ids that are all different; `id` turns those of the store into those of the
server. Then any requests, one after another, have the same outcomes, replies and refusals alike, up
to `id` and a renaming of times that keeps the order of all times in the replies.

Version numbers must stay below the greatest one of 32 bits: the number after that is negative,
which only the server refuses. -/
theorem Server.outcomes_alike [storage : Storage] (ideal : storage.Ideal) {σ π : Supply}
    {id : String → String} (hids : σ.RenamesIds π id) (hσ : σ.Advances) (hπ : π.Advances)
    {design : MemoryStore} (hdesign : design.IsDesign) {db : Database}
    (hdb : db.Represents design) (requests : List Request)
    (hrange : ((MemoryState.start design).serveAll σ requests).store.InRange) :
    ∃ time : Instant → Instant,
      Renaming.PreservesOrder ⟨id, time⟩
        (((MemoryState.backend σ).outcomes (.start design) requests).flatMap
          Request.Outcome.times) ∧
      (Server.backend π).outcomes (.start db) (requests.map (·.rename id)) =
        ((MemoryState.backend σ).outcomes (.start design) requests).map (·.rename ⟨id, time⟩) := by
  obtain ⟨times, -, hordered, hgiven, houtcomes⟩ :=
    (hdesign.mirrored hdb σ π _).outcomes ideal (hids.corresponds hσ hπ) requests hrange
  exact ⟨_, fun t ht u hu => hordered.lt_iff (hgiven ht) (hgiven hu), houtcomes⟩

/-! ## A route with a single step on both -/

/-- The tables that hold the rows of a store. -/
def Database.holding [Storage] (m : MemoryStore) : Database where
  routings := m.routings.map .ofRouting
  stationGroups := m.stationGroups.map .ofGroup
  steps := m.steps.map fun s => .ofRow (.ofStep s)
  dataSpecs := m.dataSpecs.map .ofSpec
  overrides := m.overrides.map fun o => .ofRow (.ofOverride o)
  versions := m.versions.map fun v => .ofRow (.ofVersion v)
  migrations := []
  tables := Table.ofStore

/-- A database that is filled with the rows of a store holds them. -/
theorem Database.represents_holding [Storage] (m : MemoryStore) : (holding m).Represents m :=
  ⟨fun _ => id, rfl, rfl, rfl, rfl, rfl, rfl⟩

namespace TwoClocks

/-- A clock with nanoseconds. Ids are of different lengths. -/
def ofStore : Supply where
  reading n := ⟨n, 7⟩
  overrideId n := String.ofList (List.replicate n 'o')
  versionId n := String.ofList (List.replicate n 'v')

def renamed (id : String) : String := String.ofList ('x' :: id.toList)

/-- Another clock, and renamed ids. -/
def ofServer : Supply where
  reading n := ⟨n, 1500⟩
  overrideId n := renamed (ofStore.overrideId n)
  versionId n := renamed (ofStore.versionId n)

/-- Texts of one repeated character are known from their lengths. -/
theorem replicate_injective (c : Char) :
    Function.Injective fun n => String.ofList (List.replicate n c) := fun m n h => by
  rw [← List.length_replicate (n := m) (a := c), String.ofList_injective h, List.length_replicate]

/-- The ids of the store correspond to those of the server. -/
theorem renamesIds : ofStore.RenamesIds ofServer renamed where
  id_injective _ _ h := String.toList_injective (List.cons.inj (String.ofList_injective h)).2
  overrideId_injective := replicate_injective 'o'
  versionId_injective := replicate_injective 'v'
  overrideId _ := rfl
  versionId _ := rfl

/-- A second is more than a microsecond. -/
theorem advances_of_seconds {supply : Supply} {nanos : Nat} (hnanos : nanos + 1000 < 1000000000)
    (hreading : ∀ n, supply.reading n = ⟨n, nanos⟩) : supply.Advances := by
  intro n
  have hlength : Instant.secondLength ⟨n, nanos⟩ = 1000000000 := if_neg (by dsimp only; omega)
  rw [hreading, hreading, Instant.addMicrosecond, if_pos (by rw [hlength]; exact hnanos)]
  simp only [Instant.le_def, Instant.lt_def]
  omega

/-- The route is compiled, and its override is changed; one more change is refused. -/
def requests : List Request :=
  [.write (.create "R1" ⟨"ROUTE", none, some .manual, .keep, none, none, none, none, none, none⟩),
    .compile "R1" 1,
    .write (.update "R1" "" ⟨.keep, .keep, .keep, .set true, .keep, .keep, .keep, .keep⟩),
    .write (.update "R1" "o" ⟨.keep, .keep, .keep, .set true, .keep, .keep, .keep, .keep⟩),
    .listOverrides "R1", .listVersions "R1"]

/-- The store with the single step holds design data only. -/
theorem isDesign : (SingleStep.store none).IsDesign where
  stepNos routingId := (List.filter_sublist.map _).nodup (by decide)
  overrides := rfl
  versions := rfl
  lastStamp := rfl

end TwoClocks

/-- A store that counts nanoseconds and a server that counts microseconds serve alike; the row that
is created first shows the difference. -/
theorem Server.outcomes_alike_twoClocks :
    let given := (MemoryState.backend TwoClocks.ofStore).outcomes (.start (SingleStep.store none))
      TwoClocks.requests
    let mirrored := (@Server.backend Storage.exact TwoClocks.ofServer).outcomes
      (.start (@Database.holding Storage.exact (SingleStep.store none)))
      (TwoClocks.requests.map (·.rename TwoClocks.renamed))
    (∃ time : Instant → Instant,
      Renaming.PreservesOrder ⟨TwoClocks.renamed, time⟩ (given.flatMap Request.Outcome.times) ∧
      mirrored = given.map (·.rename ⟨TwoClocks.renamed, time⟩)) ∧
    given.head?.map (·.times) = some [⟨0, 7⟩, ⟨0, 7⟩] ∧
    mirrored.head?.map (·.times) = some [⟨0, 1000⟩, ⟨0, 1000⟩] :=
  ⟨@outcomes_alike Storage.exact Storage.ideal_exact _ _ _ TwoClocks.renamesIds
    (TwoClocks.advances_of_seconds (by decide) fun _ => rfl)
    (TwoClocks.advances_of_seconds (by decide) fun _ => rfl) _ TwoClocks.isDesign _
    (@Database.represents_holding Storage.exact _) _ (by decide +kernel), rfl, rfl⟩

end RoutePlan
