import RoutePlan.Relational.Error
import RoutePlan.Service.Compile
import RoutePlan.Text.Decimal
import RoutePlan.Text.Visible

/-!
# Settings

The settings come from variables of the environment (`Environment`). The database must be named; the
sizes of its pool have defaults, which also stand in for texts that are no number; the number of
compilation attempts, if it is given, must be a positive number.
-/

namespace RoutePlan

/-- The value of a variable, if it is set. -/
abbrev Environment := String → Option String

/-- How the database is reached. -/
structure DatabaseSettings where
  url : String
  minConnections : Nat
  maxConnections : Nat
  deriving DecidableEq

namespace DatabaseSettings

def defaultMin : Nat := 2

def defaultMax : Nat := 16

/-- A pool size; a text that is no number counts as not given. -/
def size (env : Environment) (key : String) (default : Nat) : Nat :=
  ((env key).bind readCount).getD default

def read (env : Environment) : Except DatabaseError DatabaseSettings :=
  match env "DATABASE_URL" with
  | none => .error (.configuration "DATABASE_URL not set")
  | some url =>
    .ok ⟨url, size env "DATABASE_MIN_CONNECTIONS" defaultMin,
      size env "DATABASE_MAX_CONNECTIONS" defaultMax⟩

end DatabaseSettings

/-- Why the settings cannot be used. -/
inductive SettingsError
  | database (error : DatabaseError)
  | invalid (key value : String)
  deriving DecidableEq

def SettingsError.message : SettingsError → String
  | database error => error.message
  | invalid key value => "invalid value for " ++ key ++ ": " ++ shown value

/-- The settings of the program. -/
structure Settings where
  database : DatabaseSettings
  logFilter : String
  compileAttempts : Nat
  deriving DecidableEq

namespace Settings

/-- The variables that the settings come from. -/
def keys : List String :=
  ["DATABASE_URL", "DATABASE_MIN_CONNECTIONS", "DATABASE_MAX_CONNECTIONS", "ROUTEFLOW_LOG",
    "ROUTEFLOW_COMPILE_ATTEMPTS"]

def defaultLogFilter : String := "info"

/-- The number of attempts at a compilation, which is at least one. -/
def readAttempts (env : Environment) : Except SettingsError Nat :=
  let key := "ROUTEFLOW_COMPILE_ATTEMPTS"
  match env key with
  | none => .ok Service.defaultAttempts
  | some text =>
    match readCount text with
    | some (n + 1) => .ok (n + 1)
    | _ => .error (.invalid key text)

def read (env : Environment) : Except SettingsError Settings := do
  let database ← (DatabaseSettings.read env).mapError .database
  let compileAttempts ← readAttempts env
  return ⟨database, (env "ROUTEFLOW_LOG").getD defaultLogFilter, compileAttempts⟩

end Settings
end RoutePlan
