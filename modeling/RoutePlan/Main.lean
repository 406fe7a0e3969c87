import RoutePlan.Command.Run
import Std.Time.DateTime.Timestamp

/-!
# The program

The outer layer of the program: it reads the arguments, the environment, the files that the command
names, the clock and random bytes, lets `Run.start` do the work on a database server that lives as
long as the program, and prints the outcome.
-/

namespace RoutePlan.Terminal

/-- Why the system could not read a file. -/
def fileError : IO.Error → FileError
  | .noFileOrDirectory .. => .notFound
  | .permissionDenied .. => .permissionDenied
  | .inappropriateType _ code reason =>
    if code = 20 then .notADirectory else if code = 21 then .isADirectory else .other reason
  | .invalidArgument _ code reason => if code = 36 then .nameTooLong else .other reason
  | .userError _ => .notText
  | e => .other (toString e)

/-- Reads a file. -/
def readFile (path : String) : IO (Except FileError String) := do
  try return .ok (← IO.FS.readFile path)
  catch e => return .error (fileError e)

/-- Reads files in advance. -/
def readFiles (paths : List String) : IO Files := do
  let contents ← paths.mapM fun path => return (path, ← readFile path)
  return fun path => (contents.lookup path).getD (.error .notFound)

/-- Looks up variables in advance. -/
def readEnvironment (names : List String) : IO Environment := do
  let values ← names.mapM fun name => return (name, ← IO.getEnv name)
  return fun name => (values.lookup name).join

/-- The variables that a run can ask for. -/
def variablesOf (files : Files) : List String :=
  match files Run.envPath with
  | .ok text => Settings.keys ++ EnvFile.targets text ++ EnvFile.references text.toList
  | .error _ => Settings.keys

/-- Two digits for a byte. -/
def hexByte (byte : Nat) : List Char :=
  [Nat.digitChar (byte / 16), Nat.digitChar (byte % 16)]

/-- The id for a number, given random bytes. -/
def idOf (random : List Nat) (n : Nat) : String :=
  let group (first count : Nat) := ((random.drop first).take count).flatMap hexByte
  let last := (Nat.toDigits 16 n).reverse.take 12
  String.ofList (group 0 4 ++ '-' :: group 4 2 ++ '-' :: '4' :: (group 6 2).drop 1 ++
    '-' :: '8' :: (group 8 2).drop 1 ++ '-' :: List.replicate (12 - last.length) '0' ++
    last.reverse)

/-- Ids from random bytes and readings of the clock from now on. -/
def readSupply : IO Supply := do
  let now ← Std.Time.Timestamp.now
  let overrides ← IO.getRandomBytes 16
  let versions ← IO.getRandomBytes 16
  return {
    reading n := .ofNanos (now.toNanosecondsSinceUnixEpoch.val + 1000 * n)
    overrideId := idOf (overrides.toList.map UInt8.toNat)
    versionId := idOf (versions.toList.map UInt8.toNat) }

end RoutePlan.Terminal

open RoutePlan RoutePlan.Terminal in
def main (args : List String) : IO UInt32 := do
  let named := match CommandLine.read args with
    | .ok command => command.files
    | .error _ => []
  let files ← readFiles (Run.envPath :: named)
  let env ← readEnvironment (variablesOf files)
  let (outcome, _) := Run.start (← readSupply) ⟨args, env, files⟩ (.start .empty)
  IO.print outcome.output
  IO.eprint outcome.report
  return UInt32.ofNat outcome.exitCode
