import RoutePlan.Store.Call

/-!
# A store in memory

The tables are lists in the order of insertion. New overrides and updates are stamped by a clock
that never repeats itself: a reading that is not after the last stamp is replaced by the next
microsecond (`MemoryStore.nextStamp`). The ids of new rows and the readings of the clock come from a
supply (`Supply`), so that a run is determined by what it starts from.
-/

namespace RoutePlan

/-- The tables of a store and the last stamp it has given. -/
structure MemoryStore where
  routings : List Routing
  steps : List RoutingStep
  stationGroups : List StationGroup
  dataSpecs : List DataSpec
  overrides : List Override
  versions : List RouteVersion
  lastStamp : Option Instant
  deriving DecidableEq

namespace MemoryStore

def empty : MemoryStore := ⟨[], [], [], [], [], [], none⟩

/-- Reads a store with design data and overrides but without versions. -/
def reader : RecordReader MemoryStore :=
  (⟨·, ·, ·, ·, ·, [], none⟩) <$> .listOrEmpty "routings" Routing.decode
    <*> .listOrEmpty "steps" RoutingStep.decode
    <*> .listOrEmpty "stationGroups" StationGroup.decode
    <*> .listOrEmpty "dataSpecs" DataSpec.decode <*> .listOrEmpty "configs" Override.decode

def decode : Decoder MemoryStore := reader.decode

/-! ## Design data -/

def addRouting (r : Routing) (s : MemoryStore) : MemoryStore :=
  { s with routings := s.routings ++ [r] }

def addStep (step : RoutingStep) (s : MemoryStore) : MemoryStore :=
  { s with steps := s.steps ++ [step] }

/-- Drops the steps of a routing and adds the given ones. -/
def replaceSteps (routingId : String) (steps : List RoutingStep) (s : MemoryStore) : MemoryStore :=
  { s with steps := s.steps.filter (fun step => step.routingId != routingId) ++ steps }

def addStationGroup (g : StationGroup) (s : MemoryStore) : MemoryStore :=
  { s with stationGroups := s.stationGroups ++ [g] }

def addDataSpec (spec : DataSpec) (s : MemoryStore) : MemoryStore :=
  { s with dataSpecs := s.dataSpecs ++ [spec] }

/-- Adds an override as it is. -/
def addOverride (o : Override) (s : MemoryStore) : MemoryStore :=
  { s with overrides := s.overrides ++ [o] }

/-! ## Reads -/

def findRouting (s : MemoryStore) (code : String) : Option Routing :=
  s.routings.find? fun r => r.code == code

def listSteps (s : MemoryStore) (routingId : String) : List RoutingStep :=
  s.steps.filter fun step => step.routingId == routingId

def findStationGroup (s : MemoryStore) (code : String) : Option StationGroup :=
  s.stationGroups.find? fun g => g.code == code

def findDataSpecs (s : MemoryStore) (ids : List String) : List DataSpec :=
  s.dataSpecs.filter fun spec => ids.contains spec.id

def listOverrides (s : MemoryStore) (f : OverrideFilter) : List Override :=
  Override.mostRecentFirst (s.overrides.filter f.selects)

def findOverride (s : MemoryStore) (id : String) : Option Override :=
  s.overrides.find? fun o => o.id == id

/-- The versions of a routing in the order of insertion. -/
def versionsOf (s : MemoryStore) (routingId : String) : List RouteVersion :=
  s.versions.filter fun v => v.routingId == routingId

/-- The latest version of a routing. -/
def latestVersion (s : MemoryStore) (routingId : String) : Option RouteVersion :=
  RouteVersion.latest? (s.versionsOf routingId)

def listVersions (s : MemoryStore) (routingId : String) : List RouteVersion :=
  (s.versionsOf routingId).mergeSort fun a b => decide (b.versionNo ≤ a.versionNo)

def findVersion (s : MemoryStore) (routingId : String) (versionNo : Int32) : Option RouteVersion :=
  s.versions.find? fun v => v.routingId == routingId && v.versionNo == versionNo

/-! ## Overrides -/

/-- The stamp for a reading of the clock: the reading, if it is after the last stamp. -/
def nextStamp (last : Option Instant) (reading : Instant) : Instant :=
  match last with
  | none => reading
  | some last => if reading ≤ last then last.addMicrosecond else reading

/-- Draws a stamp. -/
def drawStamp (reading : Instant) (s : MemoryStore) : Instant × MemoryStore :=
  (nextStamp s.lastStamp reading, { s with lastStamp := some (nextStamp s.lastStamp reading) })

/-- Applies a change to the first element that satisfies a test; `none` if there is none. -/
def updateFirst {α : Type} (p : α → Bool) (f : α → α) : List α → Option (α × List α)
  | [] => none
  | a :: rest =>
    if p a then some (f a, f a :: rest)
    else (updateFirst p f rest).map fun (b, rest) => (b, a :: rest)

/-- Writes a change of the override with an id under a stamp drawn before. -/
def writeOverride (id : String) (patch : OverridePatch) (stamp : Instant) (s : MemoryStore) :
    Option Override × MemoryStore :=
  match updateFirst (fun o => o.id == id) (fun o => { patch.apply o with updatedAt := stamp })
    s.overrides with
  | none => (none, s)
  | some (o, overrides) => (some o, { s with overrides })

/-- Adds an override under a new stamp. -/
def insertOverride (draft : OverrideDraft) (id : String) (reading : Instant) (s : MemoryStore) :
    Override × MemoryStore :=
  let (stamp, s) := s.drawStamp reading
  (draft.row id stamp, s.addOverride (draft.row id stamp))

/-- Changes an override under a new stamp, which is drawn even if there is no such override. -/
def updateOverride (id : String) (patch : OverridePatch) (reading : Instant) (s : MemoryStore) :
    Option Override × MemoryStore :=
  let (stamp, s) := s.drawStamp reading
  s.writeOverride id patch stamp

/-! ## Versions -/

/-- Adds a version, if the greatest number is the expected one and its own number is free. -/
def insertVersion (draft : VersionDraft) (expectedPrior : Option Int32) (id : String)
    (s : MemoryStore) : Except StoreError (RouteVersion × MemoryStore) :=
  let latest := (s.latestVersion draft.routingId).map (·.versionNo)
  if latest ≠ expectedPrior ∨ (s.findVersion draft.routingId draft.versionNo).isSome then
    .error (.versionConflict draft.routingId draft.versionNo)
  else .ok (draft.row id, { s with versions := s.versions ++ [draft.row id] })

end MemoryStore

/-- Where a run takes its clock readings and its new ids from: the n-th of each. -/
structure Supply where
  reading : Nat → Instant
  overrideId : Nat → String
  versionId : Nat → String

/-- A store in memory and how much of the supply is used up. -/
structure MemoryState where
  store : MemoryStore
  readings : Nat
  overrideIds : Nat
  versionIds : Nat
  deriving DecidableEq

namespace MemoryState

/-- A state in which nothing of the supply is used up. -/
def start (store : MemoryStore) : MemoryState := ⟨store, 0, 0, 0⟩

/-- The answer to a call; a version id is taken only for a version that is inserted. -/
def answer (supply : Supply) : (c : Call) → MemoryState → c.Answer × MemoryState
  | .findRouting code, s => (.ok (s.store.findRouting code), s)
  | .listSteps routingId, s => (.ok (s.store.listSteps routingId), s)
  | .findStationGroup code, s => (.ok (s.store.findStationGroup code), s)
  | .findDataSpecs ids, s => (.ok (s.store.findDataSpecs ids), s)
  | .listOverrides f, s => (.ok (s.store.listOverrides f), s)
  | .findOverride id, s => (.ok (s.store.findOverride id), s)
  | .insertOverride draft, s =>
    let (row, store) :=
      s.store.insertOverride draft (supply.overrideId s.overrideIds) (supply.reading s.readings)
    (.ok row, { s with store, readings := s.readings + 1, overrideIds := s.overrideIds + 1 })
  | .updateOverride id patch, s =>
    let (row, store) := s.store.updateOverride id patch (supply.reading s.readings)
    (.ok row, { s with store, readings := s.readings + 1 })
  | .latestVersion routingId, s => (.ok (s.store.latestVersion routingId), s)
  | .listVersions routingId, s => (.ok (s.store.listVersions routingId), s)
  | .findVersion routingId versionNo, s => (.ok (s.store.findVersion routingId versionNo), s)
  | .insertVersion draft expectedPrior, s =>
    match s.store.insertVersion draft expectedPrior (supply.versionId s.versionIds) with
    | .error e => (.error e, s)
    | .ok (row, store) => (.ok row, { s with store, versionIds := s.versionIds + 1 })

/-- The backend over a supply. -/
def backend (supply : Supply) : Backend MemoryState where
  answer := answer supply
  readClock s := (supply.reading s.readings, { s with readings := s.readings + 1 })

end MemoryState
end RoutePlan
