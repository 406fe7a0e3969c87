import RoutePlan.Model.Design

/-!
# Versions

A version of a route is the outcome of a compilation: the document that the plant executes, or, if
some step breaks a rule, that document together with the report of the violations. A version is
never changed once it is stored.
-/

namespace RoutePlan

/-- Whether a version can be executed. -/
inductive VersionStatus
  | ready
  | invalid
  deriving DecidableEq

namespace VersionStatus

def name : VersionStatus → String
  | ready => "READY"
  | invalid => "INVALID"

def names : Names VersionStatus := ⟨[ready, invalid], name⟩

/-- The status with the given name. -/
def ofName? (s : String) : Option VersionStatus := names.find? s

/-- A status is found by its name. -/
@[simp] theorem ofName?_name (s : VersionStatus) : ofName? s.name = some s := by
  cases s <;> decide

def toJson (s : VersionStatus) : Json := .str s.name

def decode : Decoder VersionStatus := names.decode

end VersionStatus

/-- The rules that a step can break, in the order in which they are checked. -/
inductive Rule
  | stationTypeMissing
  | stationConstraintMissing
  | ingestMappingMissing
  | dataSpecNotFound
  | dataSpecOperationMismatch
  deriving DecidableEq

namespace Rule

def name : Rule → String
  | stationTypeMissing => "STATION_TYPE_MISSING"
  | stationConstraintMissing => "STATION_CONSTRAINT_MISSING"
  | ingestMappingMissing => "INGEST_MAPPING_MISSING"
  | dataSpecNotFound => "DATA_SPEC_NOT_FOUND"
  | dataSpecOperationMismatch => "DATA_SPEC_OPERATION_MISMATCH"

def names : Names Rule :=
  ⟨[stationTypeMissing, stationConstraintMissing, ingestMappingMissing, dataSpecNotFound,
    dataSpecOperationMismatch], name⟩

def toJson (r : Rule) : Json := .str r.name

def decode : Decoder Rule := names.decode

end Rule

/-- A rule that a step breaks. Violations are data of a version, not a failure of its
compilation. -/
structure Violation where
  stepNo : Int32
  rule : Rule
  message : String
  deriving DecidableEq

namespace Violation

def toJson (v : Violation) : Json :=
  .obj [("stepNo", .ofInt32 v.stepNo), ("code", v.rule.toJson), ("message", .str v.message)]

def reader : RecordReader Violation :=
  Violation.mk <$> .required "stepNo" .int32 <*> .required "code" Rule.decode
    <*> .required "message" .text

def decode : Decoder Violation := reader.decode

/-- A report of violations as a document. -/
def report (violations : List Violation) : Document :=
  .ofJson (.arr (violations.map toJson))

end Violation

/-- A stored version. -/
structure RouteVersion where
  id : String
  routingId : String
  versionNo : Int32
  status : VersionStatus
  snapshot : Document
  report : Option Document
  compiledAt : Instant
  deriving DecidableEq

namespace RouteVersion

def toJson (v : RouteVersion) : Json :=
  .obj [("id", .str v.id), ("routingId", .str v.routingId), ("versionNo", .ofInt32 v.versionNo),
    ("status", v.status.toJson), ("snapshotJson", v.snapshot.json),
    ("errorsJson", .ofOption Document.json v.report), ("compiledAt", .str v.compiledAt.text)]

def reader : RecordReader RouteVersion :=
  RouteVersion.mk <$> .required "id" .text <*> .required "routingId" .text
    <*> .required "versionNo" .int32 <*> .required "status" VersionStatus.decode
    <*> .required "snapshotJson" .document <*> .optional "errorsJson" .document
    <*> .required "compiledAt" .instant

def decode : Decoder RouteVersion := reader.decode

/-- The version that counts among the given ones: the one with the greatest number, the last of
equal ones. -/
def latest? : List RouteVersion → Option RouteVersion
  | [] => none
  | v :: rest =>
    some (rest.foldl (fun best w => if w.versionNo < best.versionNo then best else w) v)

/-- The violations of the report; a report that does not decode entirely counts as empty. -/
def violations (v : RouteVersion) : List Violation :=
  match v.report with
  | none => []
  | some report => (Decoder.list Violation.decode report.json).toOption.getD []

end RouteVersion

/-- A new version; the store gives it an id. -/
structure VersionDraft where
  routingId : String
  versionNo : Int32
  status : VersionStatus
  snapshot : Document
  report : Option Document
  compiledAt : Instant
  deriving DecidableEq

namespace VersionDraft

def reader : RecordReader VersionDraft :=
  VersionDraft.mk <$> .required "routingId" .text <*> .required "versionNo" .int32
    <*> .required "status" VersionStatus.decode <*> .withDefault "snapshotJson" .document .null
    <*> .optional "errorsJson" .document <*> .required "compiledAt" .instant

def decode : Decoder VersionDraft := reader.decode

end VersionDraft

/-- The row of a draft. -/
def VersionDraft.row (d : VersionDraft) (id : String) : RouteVersion where
  id
  routingId := d.routingId
  versionNo := d.versionNo
  status := d.status
  snapshot := d.snapshot
  report := d.report
  compiledAt := d.compiledAt

end RoutePlan
