import RoutePlan.Relational.Database
import RoutePlan.Store.Memory

/-!
# Statements on a database server

Work on the database is done in statements (`Server.query`), alone or in transactions that take
effect as a whole (`Server.transaction`). Every statement has a name, by which a fault can strike
it: the statement then fails, or the connection is lost, and other writers may have committed rows
in the meantime. A unit of work that fails for a transient reason is tried again, connection
included, up to three times (`Server.retrying`).
-/

namespace RoutePlan

/-- A statement, as far as a fault can tell it from others. -/
inductive Statement
  | select (table : Table)
  | insert (table : Table)
  | update (table : Table)
  | delete (table : Table)
  | greatest (table : Table)
  | commit
  | createExtension
  | createTable

namespace Statement

def name : Statement → String
  | select table => "SELECT " ++ table.name
  | insert table => "INSERT " ++ table.name
  | update table => "UPDATE " ++ table.name
  | delete table => "DELETE " ++ table.name
  | greatest table => "MAX " ++ table.name
  | commit => "COMMIT"
  | createExtension => "CREATE EXTENSION"
  | createTable => "CREATE TABLE"

/-- The table that must exist for the statement. -/
def table? : Statement → Option Table
  | select table | insert table | update table | delete table | greatest table => some table
  | commit | createExtension | createTable => none

end Statement

/-- What a fault does to the statement that it strikes. -/
inductive FaultEffect
  /-- The statement runs all the same. -/
  | none
  /-- The server refuses the statement. -/
  | refuse (refusal : Refusal)
  /-- The connection is lost before the statement takes effect. -/
  | drop
  /-- The connection is lost after the statement has taken effect. -/
  | dropAfter

/-- A fault that waits for statements of one name: it lets some pass, then strikes a number of them.
Other writers commit its rows when it strikes for the first time. -/
structure StatementFault where
  statement : String
  effect : FaultEffect
  times : Nat
  skip : Nat
  rows : List RawRow

/-- Whether connections to the server can be had. -/
inductive Access
  | available
  /-- Every attempt fails, with the given failures in turn and the last one over and over. -/
  | failing (failures : List DatabaseError)

/-- A server: the committed data, the data as the open transaction sees it, the faults to come, and
how it is accessed. The clock and the ids of new rows are those of the program that uses it, which
stops when its clock cannot go on. -/
structure Server where
  committed : Database
  open? : Option Database
  faults : List StatementFault
  access : Access
  connections : Nat
  broken : Bool
  readings : Nat
  overrideIds : Nat
  versionIds : Nat
  clockStopped : Bool

/-- Work that ends in a value or a failure and leaves the server in some state. -/
abbrev Work (α : Type) := ExceptT DatabaseError (StateM Server) α

namespace Server

variable {α : Type}

/-- A server with the given data, and nothing going on. -/
def start (db : Database) : Server := ⟨db, none, [], .available, 0, false, 0, 0, 0, false⟩

/-- The data that a statement sees. -/
def view (s : Server) : Database := s.open?.getD s.committed

/-- The data that a statement leaves behind. -/
def write (db : Database) (s : Server) : Server :=
  if s.open?.isSome then { s with open? := some db } else { s with committed := db }

/-- Rows committed by other writers; an open transaction sees them too. -/
def commitRows (rows : List RawRow) (s : Server) : Server :=
  { s with
    committed := s.committed.insertRawRows rows
    open? := s.open?.map (·.insertRawRows rows) }

/-- The first fault that waits for a statement, together with the faults after its strike. -/
def strike (statement : String) : List StatementFault →
    Option (FaultEffect × List RawRow) × List StatementFault
  | [] => (none, [])
  | f :: rest =>
    if f.statement = statement ∧ 0 < f.times then
      if 0 < f.skip then (none, { f with skip := f.skip - 1 } :: rest)
      else (some (f.effect, f.rows), { f with times := f.times - 1, rows := [] } :: rest)
    else
      let (hit, rest) := strike statement rest
      (hit, f :: rest)

/-- The text for a connection that was lost. -/
def lostConnection : Refusal :=
  ⟨.closedConnection, "server closed the connection unexpectedly\n" ++
    "\tThis probably means the server terminated abnormally\n" ++
    "\tbefore or while processing the request.\n"⟩

/-- The text for a statement on a connection that was lost before. -/
def noConnection : Refusal := ⟨.other "UnableToSendCommand", "no connection to the server\n"⟩

/-- The effect of a statement on the data it sees, which must have the table. -/
def effect (statement : Statement) (run : Database → Except Refusal (α × Database))
    (db : Database) : Except Refusal (α × Database) := do
  statement.table?.forM db.requireTable
  run db

/-- Runs a statement that reads or changes the data it sees. -/
def query (statement : Statement) (run : Database → Except Refusal (α × Database))
    (s : Server) : Except Refusal α × Server :=
  if s.broken then (.error noConnection, s)
  else
    let (hit, faults) := strike statement.name s.faults
    let s := { s with faults }
    match hit with
    | none => settle (effect statement run s.view) s
    | some (fault, rows) =>
      let s := s.commitRows rows
      match fault with
      | .none => settle (effect statement run s.view) s
      | .refuse refusal => (.error refusal, s)
      | .drop => (.error lostConnection, { s with broken := true })
      | .dropAfter =>
        (.error lostConnection, { (settle (effect statement run s.view) s).2 with broken := true })
where
  /-- A statement that fails changes nothing. -/
  settle (result : Except Refusal (α × Database)) (s : Server) : Except Refusal α × Server :=
    match result with
    | .error e => (.error e, s)
    | .ok (a, db) => (.ok a, s.write db)

/-- A statement as work. -/
def perform (statement : Statement) (run : Database → Except Refusal (α × Database)) : Work α :=
  ExceptT.mk fun s =>
    let (result, s) := s.query statement run
    (result.mapError Refusal.meaning, s)

/-- A statement that reads. -/
def read (statement : Statement) (run : Database → Except Refusal α) : Work α :=
  perform statement fun db => (run db).map (·, db)

/-- A statement that changes the data. -/
def change (statement : Statement) (run : Database → Except Refusal Database) : Work Unit :=
  perform statement fun db => (run db).map ((), ·)

/-- The value that is loaded from an answer. -/
def loading (result : Except ColumnError α) : Work α :=
  ExceptT.mk fun s => (result.mapError fun e => (QueryError.unreadable e.message).meaning, s)

/-- Work whose failure is a result. -/
def attempt (work : Work α) : Work (Except DatabaseError α) :=
  ExceptT.mk fun s =>
    let (result, s) := work.run s
    (.ok result, s)

/-- A result that needs no statement. -/
def ofExcept (result : Except DatabaseError α) : Work α := ExceptT.mk fun s => (result, s)

/-- Makes the data of the open transaction the committed data. -/
def commit (s : Server) : Except Refusal Unit × Server :=
  if s.broken then (.error noConnection, { s with open? := none })
  else
    let (hit, faults) := strike Statement.commit.name s.faults
    let s := { s with faults }
    match hit with
    | none => (.ok (), { s with committed := s.view, open? := none })
    | some (effect, rows) =>
      let s := s.commitRows rows
      match effect with
      | .none => (.ok (), { s with committed := s.view, open? := none })
      | .refuse refusal => (.error refusal, { s with open? := none })
      | .drop => (.error lostConnection, { s with open? := none, broken := true })
      | .dropAfter =>
        (.error lostConnection, { s with committed := s.view, open? := none, broken := true })

/-- Work whose changes take effect together, or not at all when it fails; `meaning` says what a
failure to commit means. -/
def transactionWith {ε : Type} (meaning : Refusal → ε) (work : ExceptT ε (StateM Server) α) :
    ExceptT ε (StateM Server) α :=
  ExceptT.mk fun s =>
    let (result, s) := work.run { s with open? := some s.committed }
    match result with
    | .error e => (.error e, { s with open? := none })
    | .ok a =>
      let (done, s) := s.commit
      ((done.mapError meaning).map fun _ => a, s)

/-- A transaction of a unit of work. -/
def transaction (work : Work α) : Work α := transactionWith Refusal.meaning work

/-- Asks for a connection, which is a new one. -/
def connect : Work Unit :=
  ExceptT.mk fun s =>
    let s := { s with connections := s.connections + 1, broken := false }
    match s.access with
    | .available => (.ok (), s)
    | .failing [] => (.error .notFound, s)
    | .failing [e] => (.error e, s)
    | .failing (e :: rest) => (.error e, { s with access := .failing rest })

/-- Runs work once more after each transient failure, up to a number of times. -/
def retrying (work : Work α) : Nat → Work α
  | 0 => work
  | tries + 1 =>
    ExceptT.mk fun s =>
      let (result, s) := work.run s
      match result with
      | .error e => if e.isRetryable then (retrying work tries).run s else (.error e, s)
      | .ok a => (.ok a, s)

/-- How often work is run once more. -/
def retries : Nat := 3

/-- A unit of work: a connection and what is done on it, with retries. -/
def unit (work : Work α) : Work α := retrying (do connect; work) retries

/-- A reading of the clock of the program, in microseconds. -/
def readClock (supply : Supply) : Work Instant :=
  ExceptT.mk fun s =>
    (.ok (supply.reading s.readings).truncateToMicros, { s with readings := s.readings + 1 })

/-- The id of a new override. -/
def newOverrideId (supply : Supply) : Work String :=
  ExceptT.mk fun s =>
    (.ok (supply.overrideId s.overrideIds), { s with overrideIds := s.overrideIds + 1 })

/-- The id of a new version. -/
def newVersionId (supply : Supply) : Work String :=
  ExceptT.mk fun s =>
    (.ok (supply.versionId s.versionIds), { s with versionIds := s.versionIds + 1 })

end Server
end RoutePlan
