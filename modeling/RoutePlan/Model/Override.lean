import RoutePlan.Model.Design

/-!
# Overrides

An override sets execution attributes of a whole route or of one of its steps; an attribute it
leaves unset falls through to the next level. Overrides are a history: rows are added and changed in
part, never removed, and of the rows for one target the most recently updated one counts
(`Override.lt`). An `OverrideEdit` is a request to change a row, an `OverridePatch` the change
itself after the station group was looked up; both say of each of eight attributes whether it is
kept, cleared or set.
-/

namespace RoutePlan

/-- What an override applies to. Only routes and steps are created and compiled; the other two
scopes are legacy rows. -/
inductive Scope
  | route
  | operation
  | step
  | sourceStep
  deriving DecidableEq

namespace Scope

def name : Scope → String
  | route => "ROUTE"
  | operation => "OPERATION"
  | step => "STEP"
  | sourceStep => "SOURCE_STEP"

def names : Names Scope := ⟨[route, operation, step, sourceStep], name⟩

/-- The scope with the given name. -/
def ofName? (s : String) : Option Scope := names.find? s

/-- A scope is found by its name. -/
@[simp] theorem ofName?_name (s : Scope) : ofName? s.name = some s := by cases s <;> decide

def toJson (s : Scope) : Json := .str s.name

def decode : Decoder Scope := names.decode

end Scope

/-- A stored override. -/
structure Override where
  id : String
  scope : Scope
  routingId : Option String
  routingStepId : Option String
  sourceStepKey : Option String
  operationId : Option String
  stationType : Option StationType
  stationGroupId : Option String
  allowedStationIds : Option (List String)
  requiresFAI : Option Bool
  requiresAuthorization : Option Bool
  dataSpecIds : Option (List String)
  ingestMapping : Option IngestMapping
  info : Option Document
  createdAt : Instant
  updatedAt : Instant
  deriving DecidableEq

namespace Override

def toJson (o : Override) : Json :=
  .obj [("id", .str o.id), ("scopeType", o.scope.toJson), ("routingId", .ofText? o.routingId),
    ("routingStepId", .ofText? o.routingStepId), ("sourceStepKey", .ofText? o.sourceStepKey),
    ("operationId", .ofText? o.operationId),
    ("stationType", .ofOption StationType.toJson o.stationType),
    ("stationGroupId", .ofText? o.stationGroupId),
    ("allowedStationIds", .ofOption .ofTexts o.allowedStationIds),
    ("requiresFAI", .ofOption .bool o.requiresFAI),
    ("requiresAuthorization", .ofOption .bool o.requiresAuthorization),
    ("dataSpecIds", .ofOption .ofTexts o.dataSpecIds),
    ("ingestMapping", .ofOption IngestMapping.toJson o.ingestMapping),
    ("meta", .ofOption Document.json o.info), ("createdAt", .str o.createdAt.text),
    ("updatedAt", .str o.updatedAt.text)]

def reader : RecordReader Override :=
  Override.mk <$> .required "id" .text <*> .required "scopeType" Scope.decode
    <*> .optional "routingId" .text <*> .optional "routingStepId" .text
    <*> .optional "sourceStepKey" .text <*> .optional "operationId" .text
    <*> .optional "stationType" StationType.decode <*> .optional "stationGroupId" .text
    <*> .optional "allowedStationIds" (.list .text) <*> .optional "requiresFAI" .bool
    <*> .optional "requiresAuthorization" .bool <*> .optional "dataSpecIds" (.list .text)
    <*> .optional "ingestMapping" IngestMapping.decode <*> .optional "meta" .document
    <*> .required "createdAt" .instant <*> .required "updatedAt" .instant

def decode : Decoder Override := reader.decode

/-- The order of precedence: by time of update, then by id. -/
def lt (a b : Override) : Prop :=
  a.updatedAt < b.updatedAt ∨ (a.updatedAt = b.updatedAt ∧ a.id < b.id)

instance (a b : Override) : Decidable (a.lt b) :=
  inferInstanceAs (Decidable (_ ∨ (_ ∧ _)))

/-- The overrides, the most recently updated first; equal ones keep their order. -/
def mostRecentFirst (overrides : List Override) : List Override :=
  overrides.mergeSort fun a b => !decide (a.lt b)

end Override

/-- A new override; the store gives it an id and its times. -/
structure OverrideDraft where
  scope : Scope
  routingId : Option String
  routingStepId : Option String
  sourceStepKey : Option String
  stationType : Option StationType
  stationGroupId : Option String
  allowedStationIds : Option (List String)
  requiresFAI : Option Bool
  requiresAuthorization : Option Bool
  dataSpecIds : Option (List String)
  ingestMapping : Option IngestMapping
  info : Option Document
  deriving DecidableEq

/-- The row of a draft. It belongs to no operation, and it was updated when it was created. -/
def OverrideDraft.row (d : OverrideDraft) (id : String) (stamp : Instant) : Override where
  id
  scope := d.scope
  routingId := d.routingId
  routingStepId := d.routingStepId
  sourceStepKey := d.sourceStepKey
  operationId := none
  stationType := d.stationType
  stationGroupId := d.stationGroupId
  allowedStationIds := d.allowedStationIds
  requiresFAI := d.requiresFAI
  requiresAuthorization := d.requiresAuthorization
  dataSpecIds := d.dataSpecIds
  ingestMapping := d.ingestMapping
  info := d.info
  createdAt := stamp
  updatedAt := stamp

/-- A change of the eight attributes of a row. -/
structure OverridePatch where
  stationType : Change StationType
  stationGroupId : Change String
  allowedStationIds : Change (List String)
  requiresFAI : Change Bool
  requiresAuthorization : Change Bool
  dataSpecIds : Change (List String)
  ingestMapping : Change IngestMapping
  info : Change Document
  deriving DecidableEq

namespace OverridePatch

/-- The row after the change; its times are left alone. -/
def apply (p : OverridePatch) (o : Override) : Override :=
  { o with
    stationType := p.stationType.apply o.stationType
    stationGroupId := p.stationGroupId.apply o.stationGroupId
    allowedStationIds := p.allowedStationIds.apply o.allowedStationIds
    requiresFAI := p.requiresFAI.apply o.requiresFAI
    requiresAuthorization := p.requiresAuthorization.apply o.requiresAuthorization
    dataSpecIds := p.dataSpecIds.apply o.dataSpecIds
    ingestMapping := p.ingestMapping.apply o.ingestMapping
    info := p.info.apply o.info }

def reader : RecordReader OverridePatch :=
  OverridePatch.mk <$> .change "stationType" StationType.decode <*> .change "stationGroupId" .text
    <*> .change "allowedStationIds" (.list .text) <*> .change "requiresFAI" .bool
    <*> .change "requiresAuthorization" .bool <*> .change "dataSpecIds" (.list .text)
    <*> .change "ingestMapping" IngestMapping.decode <*> .change "meta" .document

def decode : Decoder OverridePatch := reader.decode

end OverridePatch

/-- A request to create an override. The scope is free text until the request is served. -/
structure OverrideRequest where
  scope : String
  stepNo : Option Int32
  stationType : Option StationType
  stationGroupCode : Change String
  allowedStationIds : Option (List String)
  requiresFAI : Option Bool
  requiresAuthorization : Option Bool
  dataSpecIds : Option (List String)
  ingestMapping : Option IngestMapping
  info : Option Document
  deriving DecidableEq

namespace Json

/-- A member for a change that is not to keep the value. -/
def ofChange {α : Type} (name : String) (toJson : α → Json) : Change α → List (String × Json)
  | .keep => []
  | .clear => [(name, .null)]
  | .set a => [(name, toJson a)]

end Json

namespace OverrideRequest

def toJson (r : OverrideRequest) : Json :=
  .obj ([("scopeType", .str r.scope), ("stepNo", .ofOption .ofInt32 r.stepNo),
    ("stationType", .ofOption StationType.toJson r.stationType)] ++
    Json.ofChange "stationGroupCode" .str r.stationGroupCode ++
    [("allowedStationIds", .ofOption .ofTexts r.allowedStationIds),
    ("requiresFAI", .ofOption .bool r.requiresFAI),
    ("requiresAuthorization", .ofOption .bool r.requiresAuthorization),
    ("dataSpecIds", .ofOption .ofTexts r.dataSpecIds),
    ("ingestMapping", .ofOption IngestMapping.toJson r.ingestMapping),
    ("meta", .ofOption Document.json r.info)])

def reader : RecordReader OverrideRequest :=
  OverrideRequest.mk <$> .required "scopeType" .text <*> .optional "stepNo" .int32
    <*> .optional "stationType" StationType.decode <*> .change "stationGroupCode" .text
    <*> .optional "allowedStationIds" (.list .text) <*> .optional "requiresFAI" .bool
    <*> .optional "requiresAuthorization" .bool <*> .optional "dataSpecIds" (.list .text)
    <*> .optional "ingestMapping" IngestMapping.decode <*> .optional "meta" .document

def decode : Decoder OverrideRequest := reader.decode

end OverrideRequest

/-- A request to change an override; the station group is named by its code. -/
structure OverrideEdit where
  stationType : Change StationType
  stationGroupCode : Change String
  allowedStationIds : Change (List String)
  requiresFAI : Change Bool
  requiresAuthorization : Change Bool
  dataSpecIds : Change (List String)
  ingestMapping : Change IngestMapping
  info : Change Document
  deriving DecidableEq

namespace OverrideEdit

def toJson (e : OverrideEdit) : Json :=
  .obj (Json.ofChange "stationType" StationType.toJson e.stationType ++
    Json.ofChange "stationGroupCode" .str e.stationGroupCode ++
    Json.ofChange "allowedStationIds" .ofTexts e.allowedStationIds ++
    Json.ofChange "requiresFAI" .bool e.requiresFAI ++
    Json.ofChange "requiresAuthorization" .bool e.requiresAuthorization ++
    Json.ofChange "dataSpecIds" .ofTexts e.dataSpecIds ++
    Json.ofChange "ingestMapping" IngestMapping.toJson e.ingestMapping ++
    Json.ofChange "meta" Document.json e.info)

def reader : RecordReader OverrideEdit :=
  OverrideEdit.mk <$> .change "stationType" StationType.decode <*> .change "stationGroupCode" .text
    <*> .change "allowedStationIds" (.list .text) <*> .change "requiresFAI" .bool
    <*> .change "requiresAuthorization" .bool <*> .change "dataSpecIds" (.list .text)
    <*> .change "ingestMapping" IngestMapping.decode <*> .change "meta" .document

def decode : Decoder OverrideEdit := reader.decode

/-- The change of the row, given the id of the station group. -/
def patch (e : OverrideEdit) (stationGroupId : Change String) : OverridePatch where
  stationType := e.stationType
  stationGroupId
  allowedStationIds := e.allowedStationIds
  requiresFAI := e.requiresFAI
  requiresAuthorization := e.requiresAuthorization
  dataSpecIds := e.dataSpecIds
  ingestMapping := e.ingestMapping
  info := e.info

end OverrideEdit

/-- The overrides that may concern a route: by the id of the route, of one of its steps, or by the
source key of one of its steps. -/
structure OverrideFilter where
  routingId : String
  stepIds : List String
  sourceStepKeys : List String
  deriving DecidableEq

namespace OverrideFilter

def forRouting (routing : Routing) (steps : List RoutingStep) : OverrideFilter where
  routingId := routing.id
  stepIds := steps.map (·.id)
  sourceStepKeys := steps.filterMap (·.sourceStepKey)

def selects (f : OverrideFilter) (o : Override) : Bool :=
  o.routingId == some f.routingId || o.routingStepId.any (f.stepIds.contains ·) ||
    o.sourceStepKey.any (f.sourceStepKeys.contains ·)

def toJson (f : OverrideFilter) : Json :=
  .obj [("routingId", .str f.routingId), ("stepIds", .ofTexts f.stepIds),
    ("sourceStepKeys", .ofTexts f.sourceStepKeys)]

end OverrideFilter
end RoutePlan
