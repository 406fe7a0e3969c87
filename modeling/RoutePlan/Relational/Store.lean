import RoutePlan.Relational.Server

/-!
# The relational store

The calls to a store, answered by a database server. Reads and writes are units of work with
retries. An update reads the row, changes it as an override and replaces it as a whole, in one
transaction; its stamp is after that of the row. The insertion of a version compares the greatest
number and inserts in one transaction that is not tried again: a key that is taken, a serialization
conflict and a stale expectation all mean that another writer was faster.
-/

namespace RoutePlan.Server

variable [Storage]

/-- The stamp for a reading of the clock that is to be after the last stamp of a row; there may be
none. -/
def stampAfter (last reading : Instant) : Option Instant :=
  if reading ≤ last then (some last.addMicrosecond).filter Instant.isRepresentable
  else some reading

/-- Draws a stamp that is after the last one of a row. -/
def drawStamp (supply : Supply) (last : Instant) : Work Instant := do
  let reading ← readClock supply
  match stampAfter last reading with
  | some stamp => return stamp
  | none =>
    modify fun s => { s with clockStopped := true }
    throw (.unknown "no instant is left")

/-! ## Design data -/

def findRouting (code : String) : Work (Option Routing) :=
  unit do
    let found ← read (.select .routings) fun db => do
      requireTexts [code]
      return db.routings.find? fun r => r.code == some code
    loading (found.mapM RoutingColumns.load)

/-- The steps of a routing in ascending order. -/
def listSteps (routingId : String) : Work (List RoutingStep) :=
  unit do
    let found ← read (.select .routingSteps) fun db => do
      requireTexts [routingId]
      return db.steps.filter fun r => r.routingId == some routingId
    let rows ← loading (found.mapM StepColumns.load)
    return (rows.mergeSort fun a b => decide (a.stepNo ≤ b.stepNo)).map RoutingStepRow.toStep

def findStationGroup (code : String) : Work (Option StationGroup) :=
  unit do
    let found ← read (.select .stationGroups) fun db => do
      requireTexts [code]
      return db.stationGroups.find? fun g => g.code == some code
    loading (found.mapM StationGroupColumns.load)

/-- The specs with the given ids; without ids the server is not asked. -/
def findDataSpecs (ids : List String) : Work (List DataSpec) :=
  if ids.isEmpty then pure []
  else
    unit do
      let found ← read (.select .dataSpecs) fun db => do
        requireTexts ids
        return db.dataSpecs.filter fun s => s.id.any (ids.contains ·)
      loading (found.mapM DataSpecColumns.load)

def upsertRouting (r : Routing) : Work Unit :=
  unit (change (.insert .routings) (Database.upsertRouting r))

def upsertStationGroup (g : StationGroup) : Work Unit :=
  unit (change (.insert .stationGroups) (Database.upsertStationGroup g))

def upsertDataSpec (s : DataSpec) : Work Unit :=
  unit (change (.insert .dataSpecs) (Database.upsertDataSpec s))

/-- Replaces the steps of a routing. -/
def replaceSteps (routingId : String) (steps : List RoutingStep) : Work Unit :=
  unit <| transaction do
    change (.delete .routingSteps) (Database.deleteSteps routingId)
    if !steps.isEmpty then
      change (.insert .routingSteps) (Database.insertSteps (steps.map RoutingStepRow.ofStep))

/-! ## Overrides -/

/-- The overrides that a filter selects, the most recently updated first. -/
def listOverrides (f : OverrideFilter) : Work (List Override) := do
  let rows ← unit do
    let found ← read (.select .overrides) fun db => do
      requireTexts (f.routingId :: (f.stepIds ++ f.sourceStepKeys))
      return db.overrides.filter (OverrideColumns.isSelected f)
    let rows ← loading (found.mapM OverrideColumns.load)
    return rows.mergeSort fun a b => !decide (a.lt b)
  return Override.mostRecentFirst (← ofExcept (rows.mapM OverrideRow.toOverride))

/-- The row with an id. -/
def loadOverride (id : String) : Work (Option OverrideRow) := do
  let found ← read (.select .overrides) fun db => do
    requireTexts [id]
    return db.overrides.find? fun r => r.id == some id
  loading (found.mapM OverrideColumns.load)

def findOverride (id : String) : Work (Option Override) := do
  let row ← unit (loadOverride id)
  ofExcept (row.mapM OverrideRow.toOverride)

/-- Adds an override; its id and stamp are drawn once, before the first try. What is returned is
loaded from the stored row. -/
def insertOverride (supply : Supply) (draft : OverrideDraft) : Work Override := do
  let stamp ← readClock supply
  let id ← newOverrideId supply
  let row := OverrideRow.ofOverride (draft.row id stamp)
  let saved ← unit do
    change (.insert .overrides) (Database.insertOverride row)
    loading (OverrideColumns.ofRow row).load
  ofExcept saved.toOverride

/-- The row after a change under a new stamp. -/
def patchedRow (patch : OverridePatch) (o : Override) (stamp : Instant) : OverrideRow :=
  .ofOverride { patch.apply o with updatedAt := stamp }

/-- Changes an override within a transaction. -/
def amendOverride (supply : Supply) (id : String) (patch : OverridePatch) :
    Work (Option OverrideRow) := do
  match ← loadOverride id with
  | none => return none
  | some found =>
    let o ← ofExcept found.toOverride
    let row := patchedRow patch o (← drawStamp supply o.updatedAt)
    change (.update .overrides) (Database.replaceOverride row)
    return some (← loading (OverrideColumns.ofRow row).load)

/-- Changes an override; nothing if there is none. -/
def updateOverride (supply : Supply) (id : String) (patch : OverridePatch) :
    Work (Option Override) := do
  let row ← unit (transaction (amendOverride supply id patch))
  ofExcept (row.mapM OverrideRow.toOverride)

/-! ## Versions -/

def latestVersion (routingId : String) : Work (Option RouteVersion) := do
  let row ← unit do
    let found ← read (.select .versions) fun db => do
      requireTexts [routingId]
      return (db.versionsOf routingId).head?
    loading (found.mapM VersionColumns.load)
  ofExcept (row.mapM VersionRow.toVersion)

/-- The versions of a routing, the greatest number first. -/
def listVersions (routingId : String) : Work (List RouteVersion) := do
  let rows ← unit do
    let found ← read (.select .versions) fun db => do
      requireTexts [routingId]
      return db.versionsOf routingId
    loading (found.mapM VersionColumns.load)
  ofExcept (rows.mapM VersionRow.toVersion)

def findVersion (routingId : String) (versionNo : Int32) : Work (Option RouteVersion) := do
  let row ← unit do
    let found ← read (.select .versions) fun db => do
      requireTexts [routingId]
      return db.versions.find? fun v =>
        v.routingId == some routingId && v.versionNo == some versionNo
    loading (found.mapM VersionColumns.load)
  ofExcept (row.mapM VersionRow.toVersion)

/-- Compares the greatest number of a routing and adds a version, within a transaction; nothing if
the number is not the expected one. What is returned is loaded from the stored row. -/
def compareAndInsert (row : VersionRow) (expectedPrior : Option Int32) :
    Work (Option VersionRow) := do
  let greatest ← read (.greatest .versions) fun db => do
    requireTexts [row.routingId]
    return ((db.versionsOf row.routingId).head?.bind (·.versionNo))
  if greatest ≠ expectedPrior then return none
  change (.insert .versions) (Database.insertVersion row)
  return some (← loading (VersionColumns.ofRow row).load)

/-- Adds a version on a connection, which alone is tried again; a failure of the transaction is a
result. -/
def attemptInsert (supply : Supply) (draft : VersionDraft) (expectedPrior : Option Int32) :
    Work (Except DatabaseError (Option VersionRow)) := do
  let id ← newVersionId supply
  retrying connect retries
  let row := VersionRow.ofDraft id draft
  attempt (transaction (compareAndInsert row expectedPrior))

/-- What the outcome of the transaction means to the caller. -/
def insertOutcome (draft : VersionDraft) :
    Except DatabaseError (Option VersionRow) → Except StoreError RouteVersion
  | .ok (some row) => row.toVersion.mapError DatabaseError.toStoreError
  | .ok none | .error (.uniqueViolation _) | .error .serializationConflict =>
    .error (.versionConflict draft.routingId draft.versionNo)
  | .error e => .error e.toStoreError

/-- Adds a version. -/
def insertVersion (supply : Supply) (draft : VersionDraft) (expectedPrior : Option Int32)
    (s : Server) : Except StoreError RouteVersion × Server :=
  let (result, s) := (attemptInsert supply draft expectedPrior).run s
  match result with
  | .error e => (.error e.toStoreError, s)
  | .ok outcome => (insertOutcome draft outcome, s)

/-! ## Calls -/

/-- Work whose failures are those of a store. -/
def asStore {α : Type} (work : Work α) (s : Server) : Except StoreError α × Server :=
  let (result, s) := work.run s
  (result.mapError DatabaseError.toStoreError, s)

/-- The answer to a call. -/
def answer (supply : Supply) : (c : Call) → Server → c.Answer × Server
  | .findRouting code => asStore (findRouting code)
  | .listSteps routingId => asStore (listSteps routingId)
  | .findStationGroup code => asStore (findStationGroup code)
  | .findDataSpecs ids => asStore (findDataSpecs ids)
  | .listOverrides f => asStore (listOverrides f)
  | .findOverride id => asStore (findOverride id)
  | .insertOverride draft => asStore (insertOverride supply draft)
  | .updateOverride id patch => asStore (updateOverride supply id patch)
  | .latestVersion routingId => asStore (latestVersion routingId)
  | .listVersions routingId => asStore (listVersions routingId)
  | .findVersion routingId versionNo => asStore (findVersion routingId versionNo)
  | .insertVersion draft expectedPrior => insertVersion supply draft expectedPrior

/-- The backend over a supply. -/
def backend (supply : Supply) : Backend Server where
  answer := answer supply
  readClock s := (supply.reading s.readings, { s with readings := s.readings + 1 })

end RoutePlan.Server
