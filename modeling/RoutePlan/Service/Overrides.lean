import RoutePlan.Service.Basic

/-!
# Overrides of a route

Creating an override always adds a row. A row may be changed through a route only if it belongs to
it (`Routing.owns`), which is decided against the present steps of the route on every request.
-/

namespace RoutePlan

/-- Whether an override belongs to a route: by the id of the route, or by the id, the operation or
the source key of one of its steps. -/
def Routing.owns (r : Routing) (steps : List RoutingStep) (o : Override) : Bool :=
  o.routingId == some r.id ||
    o.routingStepId.any (fun id => steps.any fun s => s.id == id) ||
    o.operationId.any (fun op => steps.any fun s => s.operationId == op) ||
    o.sourceStepKey.any (fun key => steps.any fun s => s.sourceStepKey == some key)

/-- What a new override targets. -/
structure OverrideTarget where
  scope : Scope
  routingId : Option String
  routingStepId : Option String
  sourceStepKey : Option String

/-- A route as a whole. -/
def Routing.asTarget (r : Routing) : OverrideTarget := ⟨.route, some r.id, none, none⟩

/-- A step, by its id and by its source key. -/
def RoutingStep.asTarget (s : RoutingStep) : OverrideTarget :=
  ⟨.step, none, some s.id, s.sourceStepKey⟩

/-- The row that a request asks for. -/
def OverrideRequest.draft (r : OverrideRequest) (target : OverrideTarget)
    (stationGroupId : Option String) : OverrideDraft where
  scope := target.scope
  routingId := target.routingId
  routingStepId := target.routingStepId
  sourceStepKey := target.sourceStepKey
  stationType := r.stationType
  stationGroupId
  allowedStationIds := r.allowedStationIds
  requiresFAI := r.requiresFAI
  requiresAuthorization := r.requiresAuthorization
  dataSpecIds := r.dataSpecIds
  ingestMapping := r.ingestMapping
  info := r.info

/-- The step that a request is for, none meaning the whole route. -/
def OverrideRequest.stepNo? (r : OverrideRequest) : Except RequestError (Option Int32) :=
  match Scope.ofName? r.scope with
  | some .route => .ok none
  | some .step => r.stepNo.elim (.error .stepNoRequired) (.ok ∘ some)
  | _ => .error (.scopeInvalid r.scope)

namespace Service

/-- The overrides that may concern a route, the most recently updated first. -/
def listOverrides (code : String) : Service (List Override) := do
  let routing ← loadRouting code
  let steps ← call (.listSteps routing.id)
  return Override.mostRecentFirst (← call (.listOverrides (.forRouting routing steps)))

/-- The id of a station group named by its code. -/
def resolveGroup : Change String → Service (Change String)
  | .keep => pure .keep
  | .clear => pure .clear
  | .set code => do
    let group ← orRefuse (.stationGroupNotFound code) (← call (.findStationGroup code))
    return .set group.id

/-- What a request targets in a route. -/
def resolveTarget (routing : Routing) : Option Int32 → Service OverrideTarget
  | none => pure routing.asTarget
  | some stepNo => do
    let steps ← call (.listSteps routing.id)
    let found := steps.find? fun s => s.stepNo == stepNo
    let step ← orRefuse (.stepNotFound routing.code stepNo) found
    return step.asTarget

/-- Adds an override of a route or of one of its steps. -/
def createOverride (code : String) (request : OverrideRequest) : Service Override := do
  let stepNo ← request.stepNo?
  let routing ← loadRouting code
  let target ← resolveTarget routing stepNo
  let group ← resolveGroup request.stationGroupCode
  call (.insertOverride (request.draft target (group.apply none)))

/-- Changes an override that belongs to a route; what the request leaves out is kept. -/
def updateOverride (code id : String) (edit : OverrideEdit) : Service Override := do
  let routing ← loadRouting code
  let steps ← call (.listSteps routing.id)
  let found ← orRefuse (.overrideNotFound id) (← call (.findOverride id))
  if !routing.owns steps found then throw (.overrideMismatch routing.code id)
  let group ← resolveGroup edit.stationGroupCode
  orRefuse (.overrideNotFound id) (← call (.updateOverride id (edit.patch group)))

end Service
end RoutePlan
