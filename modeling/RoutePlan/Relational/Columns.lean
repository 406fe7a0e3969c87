import RoutePlan.Json.Canonical
import RoutePlan.Json.Read
import RoutePlan.Relational.Row

/-!
# Stored columns

A row of a table as it is stored: any of its columns may be unset, whoever wrote it, and a column of
free form holds the text of a value. To use a row is to load its columns in the order in which the
table declares them (`load`). How a column keeps what is given to it is a parameter (`Storage`). As
the server does it (`Storage.ofServer`), no text holds the character U+0000, the text of a value is
read anew each time, with the precision and the depth that reading has, and an instant may lie
beyond those that can be represented. Whatever the storage, a column that must be set may turn out
not to be.
-/

namespace RoutePlan

namespace Instant

/-- Seconds from the epoch of instants to that of the database, 2000-01-01T00:00:00Z. -/
def databaseEpoch : Int := 946684800

/-- The instant as the database keeps it: whole microseconds from its epoch, cut off towards it. -/
def stored (t : Instant) : Instant :=
  let micros := ((t.seconds - databaseEpoch) * 1000000000 + t.nanos).tdiv 1000
  ⟨micros.fdiv 1000000 + databaseEpoch, (micros.fmod 1000000).toNat * 1000⟩

end Instant

/-! ## Storage -/

/-- How columns keep what is given to them. -/
class Storage where
  /-- Whether a text can be stored. -/
  accepts : String → Bool
  /-- The text that is stored for a value of free form. -/
  write : Document → String
  /-- The value that is read from a stored text. -/
  read : String → Option Document
  /-- The instant that is stored for an instant. -/
  keep : Instant → Instant
  /-- Whether a stored instant can be read. -/
  loads : Instant → Bool

/-- Whether a text can be stored: it does not hold the character U+0000. -/
def isStorable (text : String) : Bool := !text.toList.contains '\x00'

/-- The storage of the server. -/
instance Storage.ofServer : Storage where
  accepts := isStorable
  write d := d.json.write
  read text := (Json.read? text).map .ofJson
  keep := Instant.stored
  loads := Instant.isRepresentable

variable [Storage]

/-! ## Single columns -/

/-- Why a column cannot be loaded. -/
inductive ColumnError
  | unset
  | unreadable (column : String)
  deriving DecidableEq

def ColumnError.message : ColumnError → String
  | unset => "Unexpected null for non-null column"
  | unreadable column => "Error deserializing field '" ++ column ++ "'"

namespace Column

variable {α : Type}

/-- A column that must be set. -/
def required (column : Option α) : Except ColumnError α :=
  match column with
  | some a => .ok a
  | none => .error .unset

/-- A value as a column of free form keeps it. -/
def ofDocument (d : Document) : String := Storage.write d

/-- The value in a column of free form. -/
def document (name text : String) : Except ColumnError Document :=
  match Storage.read text with
  | some d => .ok d
  | none => .error (.unreadable name)

/-- The instant in a column. -/
def instant (name : String) (column : Option Instant) : Except ColumnError Instant := do
  let t ← required column
  if Storage.loads t then .ok t else .error (.unreadable name)

end Column

/-! ## Design data -/

/-- A stored routing. -/
structure RoutingColumns where
  id : Option String
  code : Option String
  name : Option String
  sourceSystem : Option String
  sourceKey : Option String
  deriving DecidableEq

namespace RoutingColumns

def ofRouting (r : Routing) : RoutingColumns := ⟨r.id, r.code, r.name, r.sourceSystem, r.sourceKey⟩

def load (c : RoutingColumns) : Except ColumnError Routing := do
  let id ← Column.required c.id
  let code ← Column.required c.code
  let name ← Column.required c.name
  let sourceSystem ← Column.required c.sourceSystem
  return ⟨id, code, name, sourceSystem, c.sourceKey⟩

end RoutingColumns

/-- A stored station group. -/
structure StationGroupColumns where
  id : Option String
  code : Option String
  name : Option String
  deriving DecidableEq

namespace StationGroupColumns

def ofGroup (g : StationGroup) : StationGroupColumns := ⟨g.id, g.code, g.name⟩

def load (c : StationGroupColumns) : Except ColumnError StationGroup := do
  let id ← Column.required c.id
  let code ← Column.required c.code
  let name ← Column.required c.name
  return ⟨id, code, name⟩

end StationGroupColumns

/-- A stored step. -/
structure StepColumns where
  id : Option String
  routingId : Option String
  stepNo : Option Int32
  operationId : Option String
  sourceStepKey : Option String
  stationType : Option String
  stationGroupId : Option String
  requiresFAI : Option Bool
  deriving DecidableEq

namespace StepColumns

def ofRow (r : RoutingStepRow) : StepColumns :=
  ⟨r.id, r.routingId, r.stepNo, r.operationId, r.sourceStepKey, r.stationType, r.stationGroupId,
    r.requiresFAI⟩

def load (c : StepColumns) : Except ColumnError RoutingStepRow := do
  let id ← Column.required c.id
  let routingId ← Column.required c.routingId
  let stepNo ← Column.required c.stepNo
  let operationId ← Column.required c.operationId
  let requiresFAI ← Column.required c.requiresFAI
  return ⟨id, routingId, stepNo, operationId, c.sourceStepKey, c.stationType, c.stationGroupId,
    requiresFAI⟩

end StepColumns

/-- A stored spec. -/
structure DataSpecColumns where
  id : Option String
  operationId : Option String
  name : Option String
  deriving DecidableEq

namespace DataSpecColumns

def ofSpec (s : DataSpec) : DataSpecColumns := ⟨s.id, s.operationId, s.name⟩

def load (c : DataSpecColumns) : Except ColumnError DataSpec := do
  let id ← Column.required c.id
  let operationId ← Column.required c.operationId
  let name ← Column.required c.name
  return ⟨id, operationId, name⟩

end DataSpecColumns

/-! ## Overrides -/

/-- A stored override. -/
structure OverrideColumns where
  id : Option String
  scope : Option String
  routingId : Option String
  routingStepId : Option String
  sourceStepKey : Option String
  operationId : Option String
  stationType : Option String
  stationGroupId : Option String
  allowedStationIds : Option (List String)
  requiresFAI : Option Bool
  requiresAuthorization : Option Bool
  dataSpecIds : Option (List String)
  ingestMapping : Option String
  info : Option String
  createdAt : Option Instant
  updatedAt : Option Instant
  deriving DecidableEq

namespace OverrideColumns

def ofRow (r : OverrideRow) : OverrideColumns where
  id := r.id
  scope := r.scope
  routingId := r.routingId
  routingStepId := r.routingStepId
  sourceStepKey := r.sourceStepKey
  operationId := r.operationId
  stationType := r.stationType
  stationGroupId := r.stationGroupId
  allowedStationIds := r.allowedStationIds
  requiresFAI := r.requiresFAI
  requiresAuthorization := r.requiresAuthorization
  dataSpecIds := r.dataSpecIds
  ingestMapping := r.ingestMapping.map Column.ofDocument
  info := r.info.map Column.ofDocument
  createdAt := Storage.keep r.createdAt
  updatedAt := Storage.keep r.updatedAt

def load (c : OverrideColumns) : Except ColumnError OverrideRow := do
  let id ← Column.required c.id
  let scope ← Column.required c.scope
  let ingestMapping ← c.ingestMapping.mapM (Column.document "ingest_mapping")
  let info ← c.info.mapM (Column.document "meta")
  let createdAt ← Column.instant "created_at" c.createdAt
  let updatedAt ← Column.instant "updated_at" c.updatedAt
  return {
    id
    scope
    routingId := c.routingId
    routingStepId := c.routingStepId
    sourceStepKey := c.sourceStepKey
    operationId := c.operationId
    stationType := c.stationType
    stationGroupId := c.stationGroupId
    allowedStationIds := c.allowedStationIds
    requiresFAI := c.requiresFAI
    requiresAuthorization := c.requiresAuthorization
    dataSpecIds := c.dataSpecIds
    ingestMapping
    info
    createdAt
    updatedAt }

/-- Whether a filter selects the row. -/
def isSelected (f : OverrideFilter) (c : OverrideColumns) : Bool :=
  c.routingId == some f.routingId || c.routingStepId.any (f.stepIds.contains ·) ||
    c.sourceStepKey.any (f.sourceStepKeys.contains ·)

end OverrideColumns

/-! ## Versions -/

/-- A stored version. -/
structure VersionColumns where
  id : Option String
  routingId : Option String
  versionNo : Option Int32
  status : Option String
  snapshot : Option String
  report : Option String
  compiledAt : Option Instant
  deriving DecidableEq

namespace VersionColumns

def ofRow (r : VersionRow) : VersionColumns :=
  ⟨r.id, r.routingId, r.versionNo, r.status, some (Column.ofDocument r.snapshot),
    r.report.map Column.ofDocument, some (Storage.keep r.compiledAt)⟩

def load (c : VersionColumns) : Except ColumnError VersionRow := do
  let id ← Column.required c.id
  let routingId ← Column.required c.routingId
  let versionNo ← Column.required c.versionNo
  let status ← Column.required c.status
  let snapshot ← Column.document "snapshot_json" (← Column.required c.snapshot)
  let report ← c.report.mapM (Column.document "errors_json")
  let compiledAt ← Column.instant "compiled_at" c.compiledAt
  return ⟨id, routingId, versionNo, status, snapshot, report, compiledAt⟩

/-- The order by number; a row without one comes first. -/
def numberLE (a b : VersionColumns) : Bool :=
  match a.versionNo, b.versionNo with
  | none, _ => true
  | some _, none => false
  | some m, some n => decide (m ≤ n)

end VersionColumns
end RoutePlan
