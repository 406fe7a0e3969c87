import RoutePlan.Relational.Columns

/-!
# The relational database

The tables of the store with their keys and constraints. A change is refused, and then changes
nothing, by the first of these that fails: every text can be stored, and so can every text and key
in a column of free form; the checks; the primary key and then the other unique keys, row by row;
the foreign keys. Rows may also be brought in without any check (`Database.insertRaw`), as by an
older writer; columns of theirs may be unset, and keys taken. So a row that is changed, the first
one with its id, is held against all other rows as a new one is.
-/

namespace RoutePlan

/-- The tables. -/
inductive Table
  | routings
  | stationGroups
  | routingSteps
  | dataSpecs
  | overrides
  | versions
  | migrations
  deriving DecidableEq

namespace Table

def name : Table → String
  | routings => "routings"
  | stationGroups => "station_groups"
  | routingSteps => "routing_steps"
  | dataSpecs => "data_collection_specs"
  | overrides => "route_execution_configs"
  | versions => "executable_route_versions"
  | migrations => "__diesel_schema_migrations"

/-- The tables that hold data of the store. -/
def ofStore : List Table :=
  [routings, stationGroups, routingSteps, dataSpecs, overrides, versions]

end Table

/-- The contents of the tables in the order of insertion, the migrations done, and the tables that
exist. -/
structure Database where
  routings : List RoutingColumns
  stationGroups : List StationGroupColumns
  steps : List StepColumns
  dataSpecs : List DataSpecColumns
  overrides : List OverrideColumns
  versions : List VersionColumns
  migrations : List (Option String)
  tables : List Table
  deriving DecidableEq

/-- A row brought in without any check. -/
inductive RawRow
  | routing (row : RoutingColumns)
  | stationGroup (row : StationGroupColumns)
  | step (row : StepColumns)
  | dataSpec (row : DataSpecColumns)
  | override (row : OverrideColumns)
  | version (row : VersionColumns)
  | migration (version : Option String)

variable [Storage]

/-! ## Refusals -/

namespace Refusal

/-- A text holds the character U+0000. -/
def invalidText : Refusal := ⟨.other "Unknown", "invalid byte sequence for encoding \"UTF8\": 0x00"⟩

/-- A text or a key in a column of free form holds the character U+0000. -/
def invalidEscape : Refusal := ⟨.other "Unknown", "unsupported Unicode escape sequence"⟩

/-- There is no such table. -/
def missingTable (table : Table) : Refusal :=
  ⟨.other "Unknown", "relation \"" ++ table.name ++ "\" does not exist"⟩

def checkFailed (table : Table) (constraint : String) : Refusal :=
  ⟨.checkViolation, "new row for relation \"" ++ table.name ++ "\" violates check constraint \"" ++
    constraint ++ "\""⟩

def duplicateKey (constraint : String) : Refusal :=
  ⟨.uniqueViolation, "duplicate key value violates unique constraint \"" ++ constraint ++ "\""⟩

def missingReference (table : Table) (constraint : String) : Refusal :=
  ⟨.foreignKeyViolation, "insert or update on table \"" ++ table.name ++
    "\" violates foreign key constraint \"" ++ constraint ++ "\""⟩

end Refusal

/-- Refuses unless a condition holds. -/
def requireThat (condition : Bool) (refusal : Refusal) : Except Refusal Unit :=
  if condition then .ok () else .error refusal

/-- Refuses texts that cannot be stored. -/
def requireTexts (texts : List String) : Except Refusal Unit :=
  requireThat (texts.all Storage.accepts) .invalidText

/-- Refuses values with a text or a key that cannot be stored. -/
def requireDocuments (documents : List Document) : Except Refusal Unit :=
  requireThat (documents.all fun d => d.json.texts.all Storage.accepts) .invalidEscape

def primaryKey (table : Table) : String := table.name ++ "_pkey"

namespace Routing

def texts (r : Routing) : List String :=
  [r.id, r.code, r.name, r.sourceSystem] ++ r.sourceKey.toList

end Routing

namespace StationGroup

def texts (g : StationGroup) : List String := [g.id, g.code, g.name]

end StationGroup

namespace DataSpec

def texts (s : DataSpec) : List String := [s.id, s.operationId, s.name]

end DataSpec

namespace RoutingStepRow

def texts (r : RoutingStepRow) : List String :=
  [r.id, r.routingId, r.operationId] ++ r.sourceStepKey.toList ++ r.stationType.toList ++
    r.stationGroupId.toList

end RoutingStepRow

namespace OverrideRow

def texts (r : OverrideRow) : List String :=
  [r.id, r.scope] ++ r.routingId.toList ++ r.routingStepId.toList ++ r.sourceStepKey.toList ++
    r.operationId.toList ++ r.stationType.toList ++ r.stationGroupId.toList ++
    r.allowedStationIds.getD [] ++ r.dataSpecIds.getD []

/-- The columns of free form that are set. -/
def documents (r : OverrideRow) : List Document := r.ingestMapping.toList ++ r.info.toList

/-- The checks of the table of overrides. -/
def check (r : OverrideRow) : Except Refusal Unit := do
  requireThat (Scope.ofName? r.scope).isSome
    (.checkFailed .overrides "ck_route_execution_configs_scope")
  requireThat (r.stationType.all fun t => (StationType.ofName? t).isSome)
    (.checkFailed .overrides "ck_route_execution_configs_station_type")

end OverrideRow

namespace VersionRow

def texts (r : VersionRow) : List String := [r.id, r.routingId, r.status]

/-- The columns of free form that are set. -/
def documents (r : VersionRow) : List Document := r.snapshot :: r.report.toList

/-- The checks of the table of versions. -/
def check (r : VersionRow) : Except Refusal Unit := do
  requireThat (VersionStatus.ofName? r.status).isSome
    (.checkFailed .versions "executable_route_versions_status_check")
  requireThat (decide (1 ≤ r.versionNo))
    (.checkFailed .versions "executable_route_versions_version_no_check")

end VersionRow

namespace Database

/-- No tables. -/
def empty : Database := ⟨[], [], [], [], [], [], [], []⟩

/-- Makes a table exist. -/
def createTable (table : Table) (db : Database) : Database :=
  if table ∈ db.tables then db else { db with tables := db.tables ++ [table] }

/-- Refuses to work on a table that does not exist. -/
def requireTable (db : Database) (table : Table) : Except Refusal Unit :=
  requireThat (db.tables.contains table) (.missingTable table)

/-- How many rows a table has. -/
def rowCount (db : Database) : Table → Nat
  | .routings => db.routings.length
  | .stationGroups => db.stationGroups.length
  | .routingSteps => db.steps.length
  | .dataSpecs => db.dataSpecs.length
  | .overrides => db.overrides.length
  | .versions => db.versions.length
  | .migrations => db.migrations.length

/-- Adds a row as it is; its table exists from then on. -/
def insertRaw (row : RawRow) (db : Database) : Database :=
  match row with
  | .routing r => { db.createTable .routings with routings := db.routings ++ [r] }
  | .stationGroup g =>
    { db.createTable .stationGroups with stationGroups := db.stationGroups ++ [g] }
  | .step r => { db.createTable .routingSteps with steps := db.steps ++ [r] }
  | .dataSpec s => { db.createTable .dataSpecs with dataSpecs := db.dataSpecs ++ [s] }
  | .override r => { db.createTable .overrides with overrides := db.overrides ++ [r] }
  | .version r => { db.createTable .versions with versions := db.versions ++ [r] }
  | .migration v => { db.createTable .migrations with migrations := db.migrations ++ [v] }

def insertRawRows (rows : List RawRow) (db : Database) : Database :=
  rows.foldl (fun db row => db.insertRaw row) db

/-! ## Design data -/

/-- Puts a row in the place of the first one that satisfies a test. -/
def replaceFirst {α : Type} (p : α → Bool) (row : α) : List α → List α
  | [] => []
  | r :: rest => if p r then row :: rest else r :: replaceFirst p row rest

/-- Puts a row in the place of the first one that satisfies a test, or adds it if there is none. -/
def upsert {α : Type} (p : α → Bool) (row : α) : List α → List α
  | [] => [row]
  | r :: rest => if p r then row :: rest else r :: upsert p row rest

/-- Adds a routing or overwrites the one with its id. -/
def upsertRouting (r : Routing) (db : Database) : Except Refusal Database := do
  requireTexts r.texts
  let isSame (s : RoutingColumns) : Bool := s.id == some r.id
  let others := db.routings.eraseP isSame
  requireThat (!others.any isSame) (.duplicateKey (primaryKey .routings))
  requireThat (!others.any fun s => s.code == some r.code) (.duplicateKey "routings_code_key")
  return { db with routings := upsert isSame (.ofRouting r) db.routings }

/-- Adds a station group or overwrites the one with its id. -/
def upsertStationGroup (g : StationGroup) (db : Database) : Except Refusal Database := do
  requireTexts g.texts
  let isSame (h : StationGroupColumns) : Bool := h.id == some g.id
  let others := db.stationGroups.eraseP isSame
  requireThat (!others.any isSame) (.duplicateKey (primaryKey .stationGroups))
  requireThat (!others.any fun h => h.code == some g.code)
    (.duplicateKey "station_groups_code_key")
  return { db with stationGroups := upsert isSame (.ofGroup g) db.stationGroups }

/-- Adds a spec or overwrites the one with its id. -/
def upsertDataSpec (s : DataSpec) (db : Database) : Except Refusal Database := do
  requireTexts s.texts
  let isSame (t : DataSpecColumns) : Bool := t.id == some s.id
  requireThat (!(db.dataSpecs.eraseP isSame).any isSame) (.duplicateKey (primaryKey .dataSpecs))
  return { db with dataSpecs := upsert isSame (.ofSpec s) db.dataSpecs }

/-- Drops the steps of a routing. -/
def deleteSteps (routingId : String) (db : Database) : Except Refusal Database := do
  requireTexts [routingId]
  return { db with steps := db.steps.filter fun r => r.routingId != some routingId }

/-- Adds a step to steps that have other keys. -/
def addStep (row : RoutingStepRow) (rows : List StepColumns) :
    Except Refusal (List StepColumns) := do
  requireThat (!rows.any fun r => r.id == some row.id) (.duplicateKey (primaryKey .routingSteps))
  requireThat
    (!rows.any fun r => r.routingId == some row.routingId && r.stepNo == some row.stepNo)
    (.duplicateKey "uq_routing_steps_step_no")
  return rows ++ [.ofRow row]

/-- Adds steps. -/
def insertSteps (rows : List RoutingStepRow) (db : Database) : Except Refusal Database := do
  requireTexts (rows.flatMap RoutingStepRow.texts)
  let steps ← rows.foldlM (fun steps row => addStep row steps) db.steps
  requireThat (rows.all fun row => db.routings.any fun r => r.id == some row.routingId)
    (.missingReference .routingSteps "routing_steps_routing_id_fkey")
  return { db with steps }

/-! ## Overrides -/

/-- Adds an override. -/
def insertOverride (row : OverrideRow) (db : Database) : Except Refusal Database := do
  requireTexts row.texts
  requireDocuments row.documents
  row.check
  requireThat (!db.overrides.any fun r => r.id == some row.id)
    (.duplicateKey (primaryKey .overrides))
  return { db with overrides := db.overrides ++ [.ofRow row] }

/-- Replaces the override that has the id of the row. -/
def replaceOverride (row : OverrideRow) (db : Database) : Except Refusal Database := do
  requireTexts row.texts
  requireDocuments row.documents
  row.check
  let isSame (r : OverrideColumns) : Bool := r.id == some row.id
  requireThat (!(db.overrides.eraseP isSame).any isSame) (.duplicateKey (primaryKey .overrides))
  return { db with overrides := replaceFirst isSame (.ofRow row) db.overrides }

/-! ## Versions -/

/-- The versions of a routing, the greatest number first. -/
def versionsOf (db : Database) (routingId : String) : List VersionColumns :=
  (db.versions.filter fun v => v.routingId == some routingId).mergeSort fun a b =>
    b.numberLE a

/-- Adds a version. -/
def insertVersion (row : VersionRow) (db : Database) : Except Refusal Database := do
  requireTexts row.texts
  requireDocuments row.documents
  row.check
  requireThat (!db.versions.any fun v => v.id == some row.id)
    (.duplicateKey (primaryKey .versions))
  requireThat
    (!db.versions.any fun v =>
      v.routingId == some row.routingId && v.versionNo == some row.versionNo)
    (.duplicateKey "uq_executable_route_versions_no")
  requireThat (db.routings.any fun r => r.id == some row.routingId)
    (.missingReference .versions "executable_route_versions_routing_id_fkey")
  return { db with versions := db.versions ++ [.ofRow row] }

/-! ## Migrations -/

/-- Records a migration. -/
def insertMigration (version : String) (db : Database) : Except Refusal Database := do
  requireThat (!db.migrations.contains (some version)) (.duplicateKey (primaryKey .migrations))
  return { db with migrations := db.migrations ++ [some version] }

end Database
end RoutePlan
