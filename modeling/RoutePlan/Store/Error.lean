/-!
# Failures of a store

A store fails in three ways, whatever holds the data: another writer took the version number first,
a stored row cannot be read, or the backend as such failed.
-/

namespace RoutePlan

/-- Why a store did not answer. -/
inductive StoreError
  | versionConflict (routingId : String) (versionNo : Int32)
  | corrupt (reason : String)
  | backend (reason : String)
  deriving DecidableEq

namespace StoreError

/-- The text of the failure. -/
def message : StoreError → String
  | versionConflict routingId versionNo =>
    "version " ++ toString versionNo.toInt ++ " of routing " ++ routingId ++
      " was written concurrently"
  | corrupt reason => "corrupt row: " ++ reason
  | backend reason => "backend error: " ++ reason

end StoreError
end RoutePlan
