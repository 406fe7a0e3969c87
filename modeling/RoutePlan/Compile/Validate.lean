import RoutePlan.Compile.Resolve
import RoutePlan.Model.Version

/-!
# The validation report

Every rule is checked on every step, so one report names all violations. They come in the order of
the steps, within a step in the order of the rules, within a rule in the order of the spec ids.
-/

namespace RoutePlan

/-- The spec with the given id; of specs with one id the last one counts. -/
def DataSpec.find? (specs : List DataSpec) (id : String) : Option DataSpec :=
  specs.reverse.find? fun s => s.id == id

namespace ResolvedStep

def violation (s : ResolvedStep) (rule : Rule) (message : String) : Violation :=
  ⟨s.stepNo, rule, message⟩

/-- A step needs a station type. -/
def missingType (s : ResolvedStep) : List Violation :=
  if s.stationType.isNone then [s.violation .stationTypeMissing "Station type is required"] else []

/-- A step needs a station group or at least one allowed station. -/
def missingConstraint (s : ResolvedStep) : List Violation :=
  if s.stationGroupId.isNone && s.allowedStationIds.isEmpty then
    [s.violation .stationConstraintMissing "Station group or allowed stations required"]
  else []

/-- A step at stations that deliver data by machine needs an ingest mapping. -/
def missingMapping (s : ResolvedStep) : List Violation :=
  match s.stationType with
  | none => []
  | some t =>
    match StationBinding.bind t s.ingestMapping with
    | .ok _ => []
    | .error unbound =>
      [s.violation .ingestMappingMissing
        ("Ingest mapping is required for " ++ unbound.name ++ " stations")]

/-- A spec that a step collects must exist. -/
def unknownSpec (s : ResolvedStep) (specs : List DataSpec) (id : String) : Option Violation :=
  match DataSpec.find? specs id with
  | none => some (s.violation .dataSpecNotFound ("Data collection spec " ++ id ++ " not found"))
  | some _ => none

/-- A spec that a step collects must belong to the operation of the step. -/
def foreignSpec (s : ResolvedStep) (specs : List DataSpec) (id : String) : Option Violation :=
  match DataSpec.find? specs id with
  | none => none
  | some spec =>
    if spec.operationId = s.operationId then none
    else
      some (s.violation .dataSpecOperationMismatch
        ("Data collection spec " ++ spec.id ++ " belongs to operation " ++ spec.operationId ++
          ", step uses " ++ s.operationId))

/-- The violations of a step, rule by rule. -/
def violations (s : ResolvedStep) (specs : List DataSpec) : List Violation :=
  s.missingType ++ s.missingConstraint ++ s.missingMapping ++
    s.dataSpecIds.filterMap (s.unknownSpec specs) ++ s.dataSpecIds.filterMap (s.foreignSpec specs)

/-- The violations of all steps. -/
def validate (steps : List ResolvedStep) (specs : List DataSpec) : List Violation :=
  steps.flatMap fun s => s.violations specs

/-- The ids of the specs that the steps collect, each once, in order. -/
def specIds (steps : List ResolvedStep) : List String :=
  sortDistinct (steps.flatMap (·.dataSpecIds))

end ResolvedStep
end RoutePlan
