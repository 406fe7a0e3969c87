import RoutePlan.Relational.Server

/-!
# Connecting to a database

A pool keeps between a least and a greatest number of connections. When it is built, the tables are
brought up to date by the one migration there is, which takes effect as a whole and is recorded, so
that it is done once.
-/

namespace RoutePlan

/-- How many connections a pool keeps. -/
structure PoolSize where
  minIdle : Nat
  maxSize : Nat
  deriving DecidableEq

/-- Sizes of at least one, the least number capped by the greatest. -/
def PoolSize.ofLimits (least greatest : Nat) : PoolSize :=
  ⟨min (max least 1) (max greatest 1), max greatest 1⟩

namespace Server

/-- The version under which the migration is recorded. -/
def migrationVersion : String := "20250115000000"

/-- The name of the migration. -/
def migrationName : String := "2025-01-15-000000_route_execution"

/-- What a failure while the tables are brought up to date means. -/
def migrationFailure (message : String) : DatabaseError := .unknown ("migration error: " ++ message)

/-- A statement that brings the tables up to date; `context` says what it is part of. -/
def migrationStep {α : Type} (context : String) (statement : Statement)
    (run : Database → Except Refusal (α × Database)) : Work α :=
  ExceptT.mk fun s =>
    let (result, s) := s.query statement run
    (result.mapError fun r => migrationFailure (context ++ r.message), s)

/-- Creates the tables of the store and records the migration. -/
def migrate : Work Unit :=
  transactionWith (fun r => migrationFailure r.message) do
    migrationStep ("Failed to run " ++ migrationName ++ " with: ") .createExtension fun db =>
      .ok ((), Table.ofStore.foldl (fun db table => db.createTable table) db)
    migrationStep "" (.insert .migrations) fun db =>
      (db.insertMigration migrationVersion).map ((), ·)

/-- The migrations done. -/
def migrationsDone : Work (List String) := do
  let found ← migrationStep "" (.select .migrations) fun db => .ok (db.migrations, db)
  ofExcept ((found.mapM Column.required).mapError fun e => migrationFailure e.message)

/-- Brings the tables up to date. The extension asked for first is asked for again by the migration,
so it does not matter if that fails. -/
def bringUpToDate : Work Unit := do
  let _ ← attempt (change .createExtension .ok)
  migrationStep "" .createTable fun db => .ok ((), db.createTable .migrations)
  if !(← migrationsDone).contains migrationVersion then migrate

/-- Builds a pool: sizes and tables are in order afterwards. -/
def buildPool (least greatest : Nat) : Work PoolSize := do
  connect
  bringUpToDate
  return .ofLimits least greatest

end Server
end RoutePlan
