import RoutePlan.Store.Error

/-!
# Failures of a database

A query fails because the server refuses it, because the connection is lost, or because the answer
cannot be read (`QueryError`). To a unit of work the failure has a meaning (`DatabaseError`): a
constraint is violated, a transient condition makes a retry worth while, a row is corrupt. The store
tells its callers only whether a row is corrupt.
-/

namespace RoutePlan

/-- What a failure of the database means to a unit of work. -/
inductive DatabaseError
  | uniqueViolation (message : String)
  | checkViolation (message : String)
  | foreignKeyViolation (message : String)
  | notFound
  | serializationConflict
  | transient (message : String)
  | corruptRow (message : String)
  | configuration (message : String)
  | unknown (message : String)
  deriving DecidableEq

namespace DatabaseError

/-- The text of the failure. -/
def message : DatabaseError → String
  | uniqueViolation m => "unique violation: " ++ m
  | checkViolation m => "check violation: " ++ m
  | foreignKeyViolation m => "foreign key violation: " ++ m
  | notFound => "not found"
  | serializationConflict => "serialization conflict (retryable)"
  | transient m => "transient IO / connection pool error: " ++ m
  | corruptRow m => "corrupt row: " ++ m
  | configuration m => "configuration error: " ++ m
  | unknown m => "unknown database error: " ++ m

/-- The failure as the callers of the store see it. -/
def toStoreError : DatabaseError → StoreError
  | corruptRow m => .corrupt m
  | e => .backend e.message

/-- Phrases of failures of unknown kind that are transient, in lower case. -/
def transientPhrases : List String :=
  ["deadlock detected", "terminating connection due to administrator command",
    "connection closed", "connection refused", "timeout"]

/-- Whether a list contains another one as a contiguous part. -/
def containsChars (part : List Char) : List Char → Bool
  | [] => part.isEmpty
  | c :: rest => part.isPrefixOf (c :: rest) || containsChars part rest

/-- A character in lower case, as far as ASCII goes. -/
def lowerCase (c : Char) : Char :=
  if 'A' ≤ c ∧ c ≤ 'Z' then Char.ofNat (c.toNat + 32)
  else if c = '\u212a' then 'k'
  else c

/-- Whether the unit of work is worth another try. -/
def isRetryable : DatabaseError → Bool
  | serializationConflict => true
  | transient _ => true
  | unknown m =>
    let text := m.toList.map lowerCase
    transientPhrases.any fun phrase => containsChars phrase.toList text
  | _ => false

end DatabaseError

/-- The kinds of refusals that a server announces. -/
inductive ReplyKind
  | uniqueViolation
  | checkViolation
  | foreignKeyViolation
  | serializationFailure
  | closedConnection
  | other (name : String)
  deriving DecidableEq

namespace ReplyKind

/-- The kind for a five-letter state code of the server. -/
def ofStateCode : String → ReplyKind
  | "23505" => uniqueViolation
  | "23514" => checkViolation
  | "23503" => foreignKeyViolation
  | "40001" => serializationFailure
  | "08000" | "08001" | "08004" | "08006" => closedConnection
  | "23502" => other "NotNullViolation"
  | "23001" => other "RestrictViolation"
  | "23P01" => other "ExclusionViolation"
  | "25006" => other "ReadOnlyTransaction"
  | _ => other "Unknown"

end ReplyKind

/-- A refusal of the server, a lost connection being one. -/
structure Refusal where
  kind : ReplyKind
  message : String
  deriving DecidableEq

/-- What a refusal means. -/
def Refusal.meaning (r : Refusal) : DatabaseError :=
  match r.kind with
  | .uniqueViolation => .uniqueViolation r.message
  | .checkViolation => .checkViolation r.message
  | .foreignKeyViolation => .foreignKeyViolation r.message
  | .serializationFailure => .serializationConflict
  | .closedConnection => .transient r.message
  | .other name => .unknown ("db error kind " ++ name ++ ": " ++ r.message)

/-- Why a query failed. -/
inductive QueryError
  | notFound
  | refused (refusal : Refusal)
  | unreadable (message : String)
  | unwritable (message : String)
  | brokenTransaction
  | failedRollback (rollback commit : String)
  | unhandled (name : String)
  deriving DecidableEq

/-- What the failure of a query means. -/
def QueryError.meaning : QueryError → DatabaseError
  | notFound => .notFound
  | refused refusal => refusal.meaning
  | unreadable m => .corruptRow ("deser: " ++ m)
  | unwritable m => .unknown ("ser: " ++ m)
  | brokenTransaction => .transient "broken transaction manager"
  | failedRollback rollback commit =>
    .unknown ("rollback=" ++ rollback ++ "; commit=" ++ commit)
  | unhandled name => .unknown ("unhandled diesel error: " ++ name)

end RoutePlan
