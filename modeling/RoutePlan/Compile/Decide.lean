import RoutePlan.Model.Snapshot
import RoutePlan.Model.Version

/-!
# Whether a compilation makes a new version

The latest version is used again when it has the same signature and the same outcome: it is ready
and there are no violations, or it is invalid with the same report. Anything else is a change.
-/

namespace RoutePlan

/-- How the latest version of a route relates to a compilation. -/
inductive VersionDecision
  | noPriorVersion
  | sameReady
  | sameInvalid
  | changed
  deriving DecidableEq

namespace VersionDecision

/-- Whether the latest version is used again. -/
def reusesPrior : VersionDecision → Bool
  | sameReady | sameInvalid => true
  | noPriorVersion | changed => false

/-- Compares the latest version with the signature and the report of a compilation; no report means
no violations. -/
def decide (prior : Option RouteVersion) (signature : String) (report : Option Document) :
    VersionDecision :=
  match prior with
  | none => noPriorVersion
  | some prior =>
    if prior.snapshot.storedSignature? = some signature then
      match prior.status, report, prior.report with
      | .ready, none, _ => sameReady
      | .invalid, some report, some before =>
        if before.json.agrees report.json then sameInvalid else changed
      | _, _, _ => changed
    else changed

end VersionDecision
end RoutePlan
