import RoutePlan.Hash.Blake3
import RoutePlan.Json.Canonical
import RoutePlan.Model.Design

/-!
# Snapshots

A snapshot is the document that the plant executes: the identity of the route, its compiled steps in
ascending order of step number, and a stamp with the number and the time of the version. The
signature covers the route and the steps only (`SnapshotCore.signature`), so compiling unchanged
input again gives the same signature; it can be recomputed from a stored document
(`Document.storedSignature?`).
-/

namespace RoutePlan

/-- What identifies a route in a snapshot. -/
structure RouteIdentity where
  code : String
  sourceSystem : String
  sourceKey : Option String
  deriving DecidableEq

namespace RouteIdentity

def ofRouting (r : Routing) : RouteIdentity := ⟨r.code, r.sourceSystem, r.sourceKey⟩

def toJson (r : RouteIdentity) : Json :=
  .obj [("code", .str r.code), ("sourceSystem", .str r.sourceSystem),
    ("sourceKey", .ofText? r.sourceKey)]

def reader : RecordReader RouteIdentity :=
  RouteIdentity.mk <$> .required "code" .text <*> .required "sourceSystem" .text
    <*> .optional "sourceKey" .text

def decode : Decoder RouteIdentity := reader.decode

end RouteIdentity

/-- A step as it is executed. -/
structure CompiledStep where
  stepNo : Int32
  operationId : String
  stationType : StationType
  stationGroupId : Option String
  allowedStationIds : List String
  requiresFAI : Bool
  requiresAuthorization : Bool
  dataSpecIds : List String
  ingestMapping : Option IngestMapping
  deriving DecidableEq

namespace CompiledStep

def toJson (s : CompiledStep) : Json :=
  .obj [("stepNo", .ofInt32 s.stepNo), ("operationId", .str s.operationId),
    ("stationType", s.stationType.toJson), ("stationGroupId", .ofText? s.stationGroupId),
    ("allowedStationIds", .ofTexts s.allowedStationIds), ("requiresFAI", .bool s.requiresFAI),
    ("requiresAuthorization", .bool s.requiresAuthorization),
    ("dataSpecIds", .ofTexts s.dataSpecIds),
    ("ingestMapping", .ofOption IngestMapping.toJson s.ingestMapping)]

def reader : RecordReader CompiledStep :=
  CompiledStep.mk <$> .required "stepNo" .int32 <*> .required "operationId" .text
    <*> .required "stationType" StationType.decode <*> .optional "stationGroupId" .text
    <*> .required "allowedStationIds" (.list .text) <*> .required "requiresFAI" .bool
    <*> .required "requiresAuthorization" .bool <*> .required "dataSpecIds" (.list .text)
    <*> .optional "ingestMapping" IngestMapping.decode

def decode : Decoder CompiledStep := reader.decode

end CompiledStep

/-- A list of compiled steps as a value. -/
def stepsJson (steps : List CompiledStep) : Json := .arr (steps.map CompiledStep.toJson)

/-- Sorting by a number puts the numbers in ascending order. -/
theorem pairwise_mergeSort_key {α : Type} (key : α → Int32) (items : List α) :
    (items.mergeSort fun a b => decide (key a ≤ key b)).Pairwise fun a b => key a ≤ key b := by
  refine (List.pairwise_mergeSort (fun a b c hab hbc => ?_) (fun a b => ?_) items).imp ?_
  · exact decide_eq_true (Int32.le_trans (of_decide_eq_true hab) (of_decide_eq_true hbc))
  · simpa using Int32.le_total (key a) (key b)
  · exact fun h => of_decide_eq_true h

/-- The signed part of a snapshot. -/
structure SnapshotCore where
  route : RouteIdentity
  steps : List CompiledStep
  deriving DecidableEq

namespace SnapshotCore

/-- A core with its steps in ascending order; steps of equal number keep their order. -/
def ofSteps (route : RouteIdentity) (steps : List CompiledStep) : SnapshotCore :=
  ⟨route, steps.mergeSort fun a b => decide (a.stepNo ≤ b.stepNo)⟩

/-- The steps of a snapshot are in ascending order. -/
theorem pairwise_ofSteps (route : RouteIdentity) (steps : List CompiledStep) :
    (ofSteps route steps).steps.Pairwise fun a b => a.stepNo ≤ b.stepNo :=
  pairwise_mergeSort_key CompiledStep.stepNo steps

def toJson (c : SnapshotCore) : Json :=
  .obj [("route", c.route.toJson), ("steps", stepsJson c.steps)]

def reader : RecordReader SnapshotCore :=
  SnapshotCore.mk <$> .required "route" RouteIdentity.decode
    <*> .required "steps" (.list CompiledStep.decode)

def decode : Decoder SnapshotCore := reader.decode

/-- The digest of the canonical text. -/
def signature (c : SnapshotCore) : String := hashText c.toJson.canonical

end SnapshotCore

/-- The number of a version and the time of its compilation. -/
structure VersionStamp where
  versionNo : Int32
  compiledAt : Instant
  deriving DecidableEq

namespace VersionStamp

def toJson (s : VersionStamp) : Json :=
  .obj [("versionNo", .ofInt32 s.versionNo), ("compiledAt", .str s.compiledAt.text)]

def reader : RecordReader VersionStamp :=
  VersionStamp.mk <$> .required "versionNo" .int32 <*> .required "compiledAt" .instant

def decode : Decoder VersionStamp := reader.decode

end VersionStamp

/-- The executed document. -/
structure Snapshot where
  route : RouteIdentity
  steps : List CompiledStep
  routeVersion : VersionStamp
  deriving DecidableEq

namespace Snapshot

def toJson (s : Snapshot) : Json :=
  .obj [("route", s.route.toJson), ("steps", stepsJson s.steps),
    ("routeVersion", s.routeVersion.toJson)]

def reader : RecordReader Snapshot :=
  Snapshot.mk <$> .required "route" RouteIdentity.decode
    <*> .required "steps" (.list CompiledStep.decode)
    <*> .required "routeVersion" VersionStamp.decode

def decode : Decoder Snapshot := reader.decode

end Snapshot

/-- The core stamped as a version. -/
def SnapshotCore.stamp (c : SnapshotCore) (stamp : VersionStamp) : Snapshot :=
  ⟨c.route, c.steps, stamp⟩

/-- A member of an object that is there and not null. -/
def Document.present? (d : Document) (key : String) : Option Json :=
  (d.json.field? key).filter fun j => !j.isNull

/-- The signature of a stored snapshot, from its route and its steps; `none` if one of them is
missing or null. -/
def Document.storedSignature? (d : Document) : Option String := do
  let route ← d.present? "route"
  let steps ← d.present? "steps"
  some (hashText (Json.canonical (.obj [("route", route), ("steps", steps)])))

end RoutePlan
