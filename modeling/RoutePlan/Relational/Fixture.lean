import RoutePlan.Record.Reader
import RoutePlan.Relational.Server

/-!
# Fixtures

To try the store out, a database is filled with rows and its server with faults that are written as
structured values. A row is written by the names of its columns (`RawRow.decode`), a fault by the
statement that it strikes (`StatementFault.decode`). A column that is absent, or whose value is not
of its type, is unset; in a column of free form null is a value.
-/

namespace RoutePlan

/-! ## Loaded rows -/

namespace RecordReader

/-- A field of free form, in which null is a value. -/
def freeForm (name : String) : RecordReader (Option Document) :=
  field name (fun s => (Decoder.document s).map some) (.ok none) (.error .badValue)

end RecordReader

def OverrideRow.reader : RecordReader OverrideRow :=
  OverrideRow.mk <$> .required "id" .text <*> .required "scopeType" .text
    <*> .optional "routingId" .text <*> .optional "routingStepId" .text
    <*> .optional "sourceStepKey" .text <*> .optional "operationId" .text
    <*> .optional "stationType" .text <*> .optional "stationGroupId" .text
    <*> .optional "allowedStationIds" (.list .text) <*> .optional "requiresFAI" .bool
    <*> .optional "requiresAuthorization" .bool <*> .optional "dataSpecIds" (.list .text)
    <*> .freeForm "ingestMapping" <*> .freeForm "meta"
    <*> .required "createdAt" .instant <*> .required "updatedAt" .instant

def VersionRow.reader : RecordReader VersionRow :=
  VersionRow.mk <$> .required "id" .text <*> .required "routingId" .text
    <*> .required "versionNo" .int32 <*> .required "status" .text
    <*> .withDefault "snapshotJson" .document .null <*> .freeForm "errorsJson"
    <*> .required "compiledAt" .instant

/-- The columns of an override as they are stored. -/
def OverrideRow.toJson (r : OverrideRow) : Json :=
  .obj [("id", .str r.id), ("scopeType", .str r.scope), ("routingId", .ofText? r.routingId),
    ("routingStepId", .ofText? r.routingStepId), ("sourceStepKey", .ofText? r.sourceStepKey),
    ("operationId", .ofText? r.operationId), ("stationType", .ofText? r.stationType),
    ("stationGroupId", .ofText? r.stationGroupId),
    ("allowedStationIds", .ofOption .ofTexts r.allowedStationIds),
    ("requiresFAI", .ofOption .bool r.requiresFAI),
    ("requiresAuthorization", .ofOption .bool r.requiresAuthorization),
    ("dataSpecIds", .ofOption .ofTexts r.dataSpecIds),
    ("ingestMapping", .ofOption Document.json r.ingestMapping),
    ("meta", .ofOption Document.json r.info), ("createdAt", .str r.createdAt.text),
    ("updatedAt", .str r.updatedAt.text)]

/-! ## Stored rows -/

namespace RawRow

/-- The value of a column, if it is set and of the right type. -/
def column {α : Type} (row : Json) (decoder : Decoder α) (name : String) : Option α :=
  (row.field? name).bind fun value => (decoder value).toOption

/-- The text of the value in a column of free form. -/
def freeColumn (row : Json) (name : String) : Option String := (row.field? name).map Json.write

/-- An instant in a column. -/
def timeColumn (row : Json) (name : String) : Option Instant :=
  (column row .instant name).map Instant.stored

/-- The override in an object. -/
def overrideOf (row : Json) : OverrideColumns :=
  let text := column row .text
  { id := text "id"
    scope := text "scope_type"
    routingId := text "routing_id"
    routingStepId := text "routing_step_id"
    sourceStepKey := text "source_step_key"
    operationId := text "operation_id"
    stationType := text "station_type"
    stationGroupId := text "station_group_id"
    allowedStationIds := column row (.list .text) "allowed_station_ids"
    requiresFAI := column row .bool "requires_fai"
    requiresAuthorization := column row .bool "requires_authorization"
    dataSpecIds := column row (.list .text) "data_spec_ids"
    ingestMapping := freeColumn row "ingest_mapping"
    info := freeColumn row "meta"
    createdAt := timeColumn row "created_at"
    updatedAt := timeColumn row "updated_at" }

/-- The row of a table in an object. -/
def ofTable (row : Json) : Table → RawRow :=
  let text := column row .text
  fun
  | .routings =>
    routing ⟨text "id", text "code", text "name", text "source_system", text "source_key"⟩
  | .stationGroups => stationGroup ⟨text "id", text "code", text "name"⟩
  | .routingSteps =>
    step ⟨text "id", text "routing_id", column row .int32 "step_no", text "operation_id",
      text "source_step_key", text "station_type", text "station_group_id",
      column row .bool "requires_fai"⟩
  | .dataSpecs => dataSpec ⟨text "id", text "operation_id", text "name"⟩
  | .overrides => override (overrideOf row)
  | .versions =>
    version ⟨text "id", text "routing_id", column row .int32 "version_no", text "status",
      freeColumn row "snapshot_json", freeColumn row "errors_json", timeColumn row "compiled_at"⟩
  | .migrations => migration (text "version")

/-- The names of the tables. -/
def tables : Names Table := ⟨Table.ofStore ++ [.migrations], Table.name⟩

def reader : RecordReader RawRow :=
  (fun table row => ofTable row.json table) <$> .required "table" tables.decode
    <*> .withDefault "row" .document .null

/-- Reads a row together with the table that it belongs to. -/
def decode : Decoder RawRow := reader.decode

end RawRow

/-! ## Faults -/

namespace FaultEffect

/-- The effect for a state code: none at all for an empty one, the loss of the connection, or a
refusal, whose message ends before the first character U+0000. -/
def ofCode (code message : String) : FaultEffect :=
  if code = "" then .none
  else if code = "DROP" then .drop
  else .refuse ⟨.ofStateCode code, String.ofList (message.toList.takeWhile (· ≠ '\x00'))⟩

end FaultEffect

namespace StatementFault

def reader : RecordReader StatementFault :=
  (fun statement code message times skip rows =>
    ⟨statement, .ofCode code (message.getD ""), times.getD 1, skip.getD 0, rows.getD []⟩)
    <$> .required "on" .text <*> .required "code" .text <*> .optional "message" .text
    <*> .optional "times" .count <*> .optional "skip" .count
    <*> .optional "rows" (.list RawRow.decode)

def decode : Decoder StatementFault := reader.decode

end StatementFault
end RoutePlan
