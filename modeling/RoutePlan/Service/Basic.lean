import RoutePlan.Service.Error
import RoutePlan.Store.Program

/-!
# Serving requests

A request is served by a program over the store that either has a result or is refused (`Service`).
A failure of the store refuses the request.
-/

namespace RoutePlan

/-- A program over the store whose result may be a refusal. -/
abbrev Service (α : Type) := ExceptT RequestError Program α

namespace Service

variable {α : Type}

/-- A call to the store. -/
def call (c : Call) : Service c.Reply :=
  ExceptT.mk (.call c fun r => .done (r.mapError .storage))

/-- A reading of the clock. -/
def now : Service Instant := ExceptT.mk (.readClock fun t => .done (.ok t))

/-- The value that must be there. -/
def orRefuse (error : RequestError) : Option α → Service α
  | some a => pure a
  | none => throw error

/-- The routing with a code. -/
def loadRouting (code : String) : Service Routing := do
  orRefuse (.routeNotFound code) (← call (.findRouting code))

end Service
end RoutePlan
