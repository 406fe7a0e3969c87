import RoutePlan.Compile.Decide
import RoutePlan.Compile.Validate
import RoutePlan.Service.Basic

/-!
# Compiling a route

A compilation resolves and validates the steps of a route and makes the signed core of a snapshot
(`Compilation`). The latest version is used again when nothing changed; otherwise a version with the
next number is inserted, provided that the latest version is still the one that was compared. If
another writer was faster, the whole compilation starts over, up to a number of attempts
(`Service.compile`).
-/

namespace RoutePlan

/-- The outcome of resolving and validating a route. -/
structure Compilation where
  core : SnapshotCore
  violations : List Violation
  deriving DecidableEq

namespace Compilation

/-- Compiles resolved steps against the specs they collect. -/
def ofSteps (routing : Routing) (steps : List ResolvedStep) (specs : List DataSpec) :
    Compilation where
  core := .ofSteps (.ofRouting routing) (steps.map ResolvedStep.compile)
  violations := ResolvedStep.validate steps specs

/-- The report to be stored: none when there are no violations. -/
def report? (c : Compilation) : Option Document :=
  if c.violations.isEmpty then none else some (Violation.report c.violations)

def status (c : Compilation) : VersionStatus := if c.violations.isEmpty then .ready else .invalid

/-- How the compilation relates to the latest version. -/
def decision (c : Compilation) (prior : Option RouteVersion) : VersionDecision :=
  .decide prior c.core.signature c.report?

end Compilation

/-- The number of the first version of a route. -/
def firstVersionNo : Int32 := 1

/-- The number after that of the latest version. -/
def nextVersionNo (prior : Option Int32) : Int32 := prior.elim firstVersionNo (· + 1)

/-- The version that a compilation makes after the given number; row and snapshot hold the same
instant. -/
def Compilation.draft (c : Compilation) (routingId : String) (prior : Option Int32)
    (compiledAt : Instant) : VersionDraft where
  routingId
  versionNo := nextVersionNo prior
  status := c.status
  snapshot := .ofJson (c.core.stamp ⟨nextVersionNo prior, compiledAt⟩).toJson
  report := c.report?
  compiledAt

namespace Service

/-- How often a compilation is attempted unless said otherwise. -/
def defaultAttempts : Nat := 5

/-- The specs with the given ids; without ids the store is not asked. -/
def specsOf (ids : List String) : Service (List DataSpec) :=
  if ids.isEmpty then pure [] else call (.findDataSpecs ids)

/-- Reads the inputs of a route and compiles them. -/
def readCompilation (routing : Routing) : Service Compilation := do
  let steps ← call (.listSteps routing.id)
  if steps.isEmpty then throw (.routingEmpty routing.code)
  let overrides ← call (.listOverrides (.forRouting routing steps))
  let resolved := routing.resolve steps overrides
  let specs ← specsOf (ResolvedStep.specIds resolved)
  return .ofSteps routing resolved specs

/-- Uses the latest version of a route again or inserts the next one. -/
def settleVersion (routing : Routing) (c : Compilation) : Service RouteVersion := do
  let prior ← call (.latestVersion routing.id)
  match (c.decision prior).reusesPrior, prior with
  | true, some prior => return prior
  | _, prior =>
    let compiledAt := (← now).truncateToMicros
    let priorNo := prior.map (·.versionNo)
    call (.insertVersion (c.draft routing.id priorNo compiledAt) priorNo)

/-- One attempt at compiling a route. -/
def compileOnce (code : String) : Service RouteVersion := do
  let routing ← loadRouting code
  settleVersion routing (← readCompilation routing)

/-- Attempts a compilation while others take the version number first; `attempts` in all, of which
some are left. -/
def compileWithin (code : String) (attempts : Nat) : Nat → Service RouteVersion
  | 0 => throw (.contention code attempts)
  | left + 1 =>
    tryCatch (compileOnce code) fun error =>
      if error.isVersionConflict then compileWithin code attempts left else throw error

/-- Compiles a route to its current version. The number of attempts is at least one. -/
def compile (code : String) (attempts : Nat) : Service RouteVersion :=
  compileWithin code (max 1 attempts) (max 1 attempts)

/-- The versions of a route, the newest first. -/
def listVersions (code : String) : Service (List RouteVersion) := do
  call (.listVersions (← loadRouting code).id)

/-- The version of a route with a number. -/
def getVersion (code : String) (versionNo : Int32) : Service RouteVersion := do
  let routing ← loadRouting code
  orRefuse (.versionNotFound routing.code versionNo) (← call (.findVersion routing.id versionNo))

end Service
end RoutePlan
