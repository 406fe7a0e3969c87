import RoutePlan.Command.Input
import RoutePlan.Relational.Error
import RoutePlan.Service.Error

/-!
# Failed commands

A command fails because of its input, because the request is refused, or because the database fails.
The exit code tells these apart: 3 for the input, 4 for a request at fault, 5 for everything else.
-/

namespace RoutePlan

/-- Why a command failed. -/
inductive CommandError
  | input (error : InputError)
  | request (error : RequestError)
  | database (error : DatabaseError)
  deriving DecidableEq

namespace CommandError

/-- The stable code. -/
def code : CommandError → String
  | input _ => "INVALID_INPUT"
  | request error => error.code
  | database _ => "STORAGE_ERROR"

def exitCode : CommandError → Nat
  | input _ => 3
  | request error => if error.status < 500 then 4 else 5
  | database _ => 5

def message : CommandError → String
  | input error => error.message
  | request error => error.message
  | database error => error.message

end CommandError
end RoutePlan
