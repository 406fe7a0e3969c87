import RoutePlan.Store.Error

/-!
# Refused requests

A request that is refused carries a stable code and a status in the manner of HTTP. A refused
request has written nothing. Violations found by a compilation are no refusal: they are data of a
version.
-/

namespace RoutePlan

/-- Why a request was refused. -/
inductive RequestError
  | routeNotFound (code : String)
  | routingEmpty (code : String)
  | scopeInvalid (scope : String)
  | stepNoRequired
  | stepNotFound (code : String) (stepNo : Int32)
  | stationGroupNotFound (code : String)
  | overrideNotFound (id : String)
  | overrideMismatch (code : String) (id : String)
  | versionNotFound (code : String) (versionNo : Int32)
  | contention (code : String) (attempts : Nat)
  | serialization (reason : String)
  | storage (error : StoreError)
  deriving DecidableEq

namespace RequestError

/-- The stable code. -/
def code : RequestError → String
  | routeNotFound _ => "ROUTE_NOT_FOUND"
  | routingEmpty _ => "ROUTING_EMPTY"
  | scopeInvalid _ => "SCOPE_TYPE_INVALID"
  | stepNoRequired => "STEP_NO_REQUIRED"
  | stepNotFound _ _ => "ROUTE_STEP_NOT_FOUND"
  | stationGroupNotFound _ => "STATION_GROUP_NOT_FOUND"
  | overrideNotFound _ => "EXECUTION_CONFIG_NOT_FOUND"
  | overrideMismatch _ _ => "EXECUTION_CONFIG_SCOPE_MISMATCH"
  | versionNotFound _ _ => "ROUTE_VERSION_NOT_FOUND"
  | contention _ _ => "COMPILE_CONTENTION"
  | serialization _ | storage _ => "STORAGE_ERROR"

/-- The status: the request is at fault below 500, the service from there on. -/
def status : RequestError → Nat
  | routingEmpty _ | scopeInvalid _ | stepNoRequired | overrideMismatch _ _ => 400
  | routeNotFound _ | stepNotFound _ _ | stationGroupNotFound _ | overrideNotFound _
  | versionNotFound _ _ => 404
  | contention _ _ => 409
  | serialization _ | storage _ => 500

/-- The text for the caller. -/
def message : RequestError → String
  | routeNotFound code => "routing not found: " ++ code
  | routingEmpty code => "routing " ++ code ++ " has no steps"
  | scopeInvalid scope => "invalid execution config scope: " ++ scope
  | stepNoRequired => "stepNo is required for STEP scope"
  | stepNotFound code stepNo =>
    "routing step " ++ toString stepNo.toInt ++ " not found in " ++ code
  | stationGroupNotFound code => "station group not found: " ++ code
  | overrideNotFound id => "execution config not found: " ++ id
  | overrideMismatch code id =>
    "execution config " ++ id ++ " does not belong to routing " ++ code
  | versionNotFound code versionNo =>
    "route version " ++ toString versionNo.toInt ++ " not found for " ++ code
  | contention code attempts =>
    "compile of " ++ code ++ " gave up after " ++ toString attempts ++ " conflicting attempts"
  | serialization reason => "snapshot serialization: " ++ reason
  | storage error => error.message

/-- Whether another writer took the version number first. -/
def isVersionConflict : RequestError → Bool
  | storage (.versionConflict _ _) => true
  | _ => false

end RequestError
end RoutePlan
