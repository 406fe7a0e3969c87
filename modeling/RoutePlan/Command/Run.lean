import RoutePlan.Command.Error
import RoutePlan.Command.Line
import RoutePlan.Design.Import
import RoutePlan.Json.Pretty
import RoutePlan.Relational.Pool
import RoutePlan.Service.Compile
import RoutePlan.Service.Overrides
import RoutePlan.Settings.EnvFile

/-!
# Running a command

A command is carried out on a database server and ends in a structured value (`Command.perform`). A
run of the program reads the command line, the settings and, where it needs them, files; it connects
to the database and carries out the command (`Run.start`). The result is printed on several lines,
a failure as one line with its code, and the exit code tells what kind of failure it is (`Outcome`).
-/

namespace RoutePlan

/-- The work of a command. -/
abbrev CommandWork (α : Type) := ExceptT CommandError (StateM Server) α

namespace Command

variable {α : Type}

/-- The result of a step that reads input. -/
def accept (result : Except InputError α) : CommandWork α :=
  ExceptT.mk fun s => (result.mapError .input, s)

/-- Work on the database as work of a command. -/
def store (work : Work α) : CommandWork α :=
  ExceptT.mk fun s =>
    let (result, s) := work.run s
    (result.mapError .database, s)

/-- Serves a request on the database. -/
def serve (supply : Supply) (request : Service α) : CommandWork α :=
  ExceptT.mk fun s =>
    let (result, s) := request.run.run (Server.backend supply) s
    (result.mapError .request, s)

/-- The text of a body. -/
def bodyText (files : Files) : BodySource → Except InputError String
  | .inline text => .ok text
  | .file path => files.read path

/-- Adds an override that a text asks for. -/
def createFrom (supply : Supply) (routing body : String) : CommandWork Json := do
  let request ← accept (Decoder.ofText OverrideRequest.decode body)
  return (← serve supply (Service.createOverride routing request)).toJson

/-- Changes an override as a text asks for. -/
def updateFrom (supply : Supply) (routing id body : String) : CommandWork Json := do
  let edit ← accept (Decoder.ofText OverrideEdit.decode body)
  return (← serve supply (Service.updateOverride routing id edit)).toJson

/-- Imports the design data of a text. -/
def importFrom (text : String) : CommandWork Json := do
  let data ← accept (DesignData.read text)
  let groups ← accept (DesignData.groupSteps data.steps)
  store (data.write groups)
  return data.counts

/-- Carries out a command; `attempts` limits the attempts at a compilation. -/
def perform (supply : Supply) (files : Files) (attempts : Nat) : Command → CommandWork Json
  | compile routing => do
    return (← serve supply (Service.compile routing attempts)).toJson
  | listVersions routing => do
    return .arr ((← serve supply (Service.listVersions routing)).map RouteVersion.toJson)
  | showVersion routing versionNo => do
    return (← serve supply (Service.getVersion routing versionNo)).toJson
  | listOverrides routing => do
    return .arr ((← serve supply (Service.listOverrides routing)).map Override.toJson)
  | createOverride routing body => do
    createFrom supply routing (← accept (bodyText files body))
  | updateOverride routing id body => do
    updateFrom supply routing id (← accept (bodyText files body))
  | importDesign path => do importFrom (← accept (files.read path))

end Command

/-- How a run of the program ends: its exit code, what it prints, and what it reports as wrong. -/
structure Outcome where
  exitCode : Nat
  output : String
  report : String
  deriving DecidableEq

namespace Outcome

/-- A line that reports something wrong. -/
def reportLine (text : String) : String := "[" ++ CommandLine.program ++ "] " ++ text ++ "\n"

def ofHalt : Halt → Outcome
  | .help about usage =>
    ⟨0, about ++ "\n\nUsage: " ++ CommandLine.program ++ " " ++ usage ++ "\n", ""⟩
  | .version => ⟨0, CommandLine.version ++ "\n", ""⟩
  | .misuse => ⟨2, "", "error: invalid arguments; for help, try '--help'\n"⟩

def ofSettingsError (e : SettingsError) : Outcome :=
  ⟨5, "", reportLine ("configuration error: " ++ e.message)⟩

/-- The program gives up without a report of its own. -/
def abort : Outcome := ⟨101, "", ""⟩

def ofResult : Except CommandError Json → Outcome
  | .ok value => ⟨0, value.pretty ++ "\n", ""⟩
  | .error e => ⟨e.exitCode, "", reportLine (e.code ++ ": " ++ e.message)⟩

end Outcome

/-- What a run of the program is given: arguments, environment and files. -/
structure Run where
  args : List String
  env : Environment
  files : Files

namespace Run

/-- The file with variables that complete the environment. -/
def envPath : String := ".env"

/-- The environment together with the file of variables, if it can be read; none if the file cannot
be used. -/
def environment (r : Run) : Option Environment :=
  match r.files envPath with
  | .ok text => r.env.load text
  | .error _ => some r.env

/-- Connects to the database and carries out a command. -/
def carryOut (supply : Supply) (files : Files) (settings : Settings) (c : Command) :
    CommandWork Json := do
  let _ ← Command.store
    (Server.buildPool settings.database.minConnections settings.database.maxConnections)
  c.perform supply files settings.compileAttempts

/-- Runs the program. It gives up when its environment cannot be set up, and when its clock cannot
go on. -/
def start (supply : Supply) (r : Run) (s : Server) : Outcome × Server :=
  match CommandLine.read r.args with
  | .error halt => (.ofHalt halt, s)
  | .ok c =>
    match r.environment.map Settings.read with
    | none => (.abort, s)
    | some (.error e) => (.ofSettingsError e, s)
    | some (.ok settings) =>
      let (result, s) := (carryOut supply r.files settings c).run { s with clockStopped := false }
      (if s.clockStopped then .abort else .ofResult result, s)

end Run
end RoutePlan
