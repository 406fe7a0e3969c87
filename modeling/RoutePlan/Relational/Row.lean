import RoutePlan.Model.Override
import RoutePlan.Model.Version
import RoutePlan.Relational.Error

/-!
# Rows of the relational store

A loaded row: columns with a closed list of names hold text, and columns of free form hold any
document. Turning a row into what it stands for is lenient where the compiler can report what is
missing: an unknown station type and a mapping that is no object count as unset. An unknown scope or
status makes the row corrupt.
-/

namespace RoutePlan

/-- The station type in a column; an unknown text counts as unset. -/
def readStationType (column : Option String) : Option StationType :=
  column.bind StationType.ofName?

/-- A row of the steps. -/
structure RoutingStepRow where
  id : String
  routingId : String
  stepNo : Int32
  operationId : String
  sourceStepKey : Option String
  stationType : Option String
  stationGroupId : Option String
  requiresFAI : Bool
  deriving DecidableEq

namespace RoutingStepRow

def ofStep (s : RoutingStep) : RoutingStepRow :=
  ⟨s.id, s.routingId, s.stepNo, s.operationId, s.sourceStepKey,
    s.stationType.map StationType.name, s.stationGroupId, s.requiresFAI⟩

def toStep (r : RoutingStepRow) : RoutingStep :=
  ⟨r.id, r.routingId, r.stepNo, r.operationId, r.sourceStepKey, readStationType r.stationType,
    r.stationGroupId, r.requiresFAI⟩

end RoutingStepRow

/-- A row of the overrides. -/
structure OverrideRow where
  id : String
  scope : String
  routingId : Option String
  routingStepId : Option String
  sourceStepKey : Option String
  operationId : Option String
  stationType : Option String
  stationGroupId : Option String
  allowedStationIds : Option (List String)
  requiresFAI : Option Bool
  requiresAuthorization : Option Bool
  dataSpecIds : Option (List String)
  ingestMapping : Option Document
  info : Option Document
  createdAt : Instant
  updatedAt : Instant
  deriving DecidableEq

namespace OverrideRow

/-- The override in a row. -/
def toOverride (r : OverrideRow) : Except DatabaseError Override :=
  match Scope.ofName? r.scope with
  | none => .error (.corruptRow ("config " ++ r.id ++ ": unknown scope type: " ++ r.scope))
  | some scope =>
    .ok {
      id := r.id
      scope
      routingId := r.routingId
      routingStepId := r.routingStepId
      sourceStepKey := r.sourceStepKey
      operationId := r.operationId
      stationType := readStationType r.stationType
      stationGroupId := r.stationGroupId
      allowedStationIds := r.allowedStationIds
      requiresFAI := r.requiresFAI
      requiresAuthorization := r.requiresAuthorization
      dataSpecIds := r.dataSpecIds
      ingestMapping := r.ingestMapping.bind IngestMapping.ofDocument?
      info := r.info
      createdAt := r.createdAt
      updatedAt := r.updatedAt }

/-- The row of an override. -/
def ofOverride (o : Override) : OverrideRow where
  id := o.id
  scope := o.scope.name
  routingId := o.routingId
  routingStepId := o.routingStepId
  sourceStepKey := o.sourceStepKey
  operationId := o.operationId
  stationType := o.stationType.map StationType.name
  stationGroupId := o.stationGroupId
  allowedStationIds := o.allowedStationIds
  requiresFAI := o.requiresFAI
  requiresAuthorization := o.requiresAuthorization
  dataSpecIds := o.dataSpecIds
  ingestMapping := o.ingestMapping.map (·.document)
  info := o.info
  createdAt := o.createdAt
  updatedAt := o.updatedAt

/-- The order of precedence of the rows. -/
def lt (a b : OverrideRow) : Prop :=
  a.updatedAt < b.updatedAt ∨ (a.updatedAt = b.updatedAt ∧ a.id < b.id)

instance (a b : OverrideRow) : Decidable (a.lt b) :=
  inferInstanceAs (Decidable (_ ∨ (_ ∧ _)))

end OverrideRow

/-- A row of the versions. -/
structure VersionRow where
  id : String
  routingId : String
  versionNo : Int32
  status : String
  snapshot : Document
  report : Option Document
  compiledAt : Instant
  deriving DecidableEq

namespace VersionRow

/-- The version in a row. -/
def toVersion (r : VersionRow) : Except DatabaseError RouteVersion :=
  match VersionStatus.ofName? r.status with
  | none => .error (.corruptRow ("version " ++ r.id ++ ": unknown version status: " ++ r.status))
  | some status =>
    .ok ⟨r.id, r.routingId, r.versionNo, status, r.snapshot, r.report, r.compiledAt⟩

/-- The row of a new version. -/
def ofDraft (id : String) (d : VersionDraft) : VersionRow :=
  ⟨id, d.routingId, d.versionNo, d.status.name, d.snapshot, d.report, d.compiledAt⟩

end VersionRow
end RoutePlan
