import RoutePlan.Model.Override
import RoutePlan.Model.Snapshot

/-!
# Resolving the attributes of steps

Each attribute of a step is resolved on its own: the most recent override of the step, the most
recent override of the route, the default of the step, and at last nothing. Only the one most recent
row of each level counts (`Override.latest?`), in the order of `Override.lt` and not in the order in
which the rows were read; an attribute that it leaves unset falls through to the next level.
-/

namespace RoutePlan

/-- The override that counts among the given ones: the greatest in the order of precedence, the
first of equal ones. -/
def Override.latest? : List Override → Option Override
  | [] => none
  | o :: rest => some (rest.foldl (fun best c => if best.lt c then c else best) o)

/-- The overrides of a route as a whole. -/
def Routing.overrides (r : Routing) (overrides : List Override) : List Override :=
  overrides.filter fun o => o.scope == .route && o.routingId == some r.id

/-- Whether an override targets a step: by its id, or by the source key that both have. -/
def RoutingStep.isTargetOf (s : RoutingStep) (o : Override) : Bool :=
  o.routingStepId == some s.id || (o.sourceStepKey.isSome && o.sourceStepKey == s.sourceStepKey)

/-- The overrides of a step. -/
def RoutingStep.overrides (s : RoutingStep) (overrides : List Override) : List Override :=
  overrides.filter fun o => o.scope == .step && s.isTargetOf o

/-- A step with every attribute resolved. -/
structure ResolvedStep where
  stepNo : Int32
  operationId : String
  stationType : Option StationType
  stationGroupId : Option String
  allowedStationIds : List String
  requiresFAI : Bool
  requiresAuthorization : Bool
  dataSpecIds : List String
  ingestMapping : Option IngestMapping
  deriving DecidableEq

namespace ResolvedStep

/-- The step as it is executed. A missing station type is recorded as manual; such a version is
invalid anyway. -/
def compile (s : ResolvedStep) : CompiledStep where
  stepNo := s.stepNo
  operationId := s.operationId
  stationType := s.stationType.getD .manual
  stationGroupId := s.stationGroupId
  allowedStationIds := s.allowedStationIds
  requiresFAI := s.requiresFAI
  requiresAuthorization := s.requiresAuthorization
  dataSpecIds := s.dataSpecIds
  ingestMapping := s.ingestMapping

def toJson (s : ResolvedStep) : Json :=
  .obj [("stepNo", .ofInt32 s.stepNo), ("operationId", .str s.operationId),
    ("stationType", .ofOption StationType.toJson s.stationType),
    ("stationGroupId", .ofText? s.stationGroupId),
    ("allowedStationIds", .ofTexts s.allowedStationIds), ("requiresFAI", .bool s.requiresFAI),
    ("requiresAuthorization", .bool s.requiresAuthorization),
    ("dataSpecIds", .ofTexts s.dataSpecIds),
    ("ingestMapping", .ofOption IngestMapping.toJson s.ingestMapping)]

/-- Only the step number must be given. -/
def reader : RecordReader ResolvedStep :=
  ResolvedStep.mk <$> .required "stepNo" .int32 <*> .withDefault "operationId" .text ""
    <*> .optional "stationType" StationType.decode <*> .optional "stationGroupId" .text
    <*> .withDefault "allowedStationIds" (.list .text) []
    <*> .withDefault "requiresFAI" .bool false
    <*> .withDefault "requiresAuthorization" .bool false
    <*> .withDefault "dataSpecIds" (.list .text) []
    <*> .optional "ingestMapping" IngestMapping.decode

def decode : Decoder ResolvedStep := reader.decode

end ResolvedStep

/-- The first value set by the override of the step or else by the override of the route. -/
def firstSet {α : Type} (ofStep ofRoute : Option Override) (field : Override → Option α) :
    Option α :=
  (ofStep.bind field).or (ofRoute.bind field)

/-- A step resolved against the override of the step and the override of the route that count. -/
def RoutingStep.resolveWith (s : RoutingStep) (ofStep ofRoute : Option Override) :
    ResolvedStep where
  stepNo := s.stepNo
  operationId := s.operationId
  stationType := (firstSet ofStep ofRoute (·.stationType)).or s.stationType
  stationGroupId := (firstSet ofStep ofRoute (·.stationGroupId)).or s.stationGroupId
  allowedStationIds := (firstSet ofStep ofRoute (·.allowedStationIds)).getD []
  requiresFAI := (firstSet ofStep ofRoute (·.requiresFAI)).getD s.requiresFAI
  requiresAuthorization := (firstSet ofStep ofRoute (·.requiresAuthorization)).getD false
  dataSpecIds := (firstSet ofStep ofRoute (·.dataSpecIds)).getD []
  ingestMapping := firstSet ofStep ofRoute (·.ingestMapping)

/-- A step of a route resolved against all overrides. -/
def RoutingStep.resolve (s : RoutingStep) (routing : Routing) (overrides : List Override) :
    ResolvedStep :=
  s.resolveWith (Override.latest? (s.overrides overrides))
    (Override.latest? (routing.overrides overrides))

/-- The steps in ascending order of step number; steps of equal number keep their order. -/
def RoutingStep.ascending (steps : List RoutingStep) : List RoutingStep :=
  steps.mergeSort fun a b => decide (a.stepNo ≤ b.stepNo)

/-- All steps of a route, resolved and in ascending order. -/
def Routing.resolve (r : Routing) (steps : List RoutingStep) (overrides : List Override) :
    List ResolvedStep :=
  (RoutingStep.ascending steps).map fun s => s.resolve r overrides

end RoutePlan
