import RoutePlan.Store.Memory

/-!
# A store in memory that is disturbed

How the service behaves when its store fails or others write in between shows on a store in memory
that is disturbed on purpose (`DisturbedStore`): the first call of one kind fails or finds nothing,
competitors insert versions just before the service does, and unordered reads come back in reverse.
-/

namespace RoutePlan

/-- The kinds of calls. -/
inductive CallKind
  | findRouting
  | listSteps
  | findStationGroup
  | findDataSpecs
  | listOverrides
  | findOverride
  | insertOverride
  | updateOverride
  | latestVersion
  | listVersions
  | findVersion
  | insertVersion
  deriving DecidableEq

namespace Call

def kind : Call → CallKind
  | findRouting _ => .findRouting
  | listSteps _ => .listSteps
  | findStationGroup _ => .findStationGroup
  | findDataSpecs _ => .findDataSpecs
  | listOverrides _ => .listOverrides
  | findOverride _ => .findOverride
  | insertOverride _ => .insertOverride
  | updateOverride _ _ => .updateOverride
  | latestVersion _ => .latestVersion
  | listVersions _ => .listVersions
  | findVersion _ _ => .findVersion
  | insertVersion _ _ => .insertVersion

/-- The reply of a store that finds nothing; an insertion has no such reply. -/
def nothingFound : (c : Call) → Option c.Reply
  | findRouting _ => some none
  | listSteps _ => some []
  | findStationGroup _ => some none
  | findDataSpecs _ => some []
  | listOverrides _ => some []
  | findOverride _ => some none
  | insertOverride _ => none
  | updateOverride _ _ => some none
  | latestVersion _ => some none
  | listVersions _ => some []
  | findVersion _ _ => some none
  | insertVersion _ _ => none

/-- A list read without order, in reverse; any other reply as it is. -/
def reverseReply : (c : Call) → c.Reply → c.Reply
  | listSteps _, steps => steps.reverse
  | findDataSpecs _, specs => specs.reverse
  | listOverrides _, overrides => overrides.reverse
  | _, reply => reply

/-- The stamp that a call has given to a row. -/
def stamp? : (c : Call) → c.Answer → Option Instant
  | insertOverride _, .ok row => some row.updatedAt
  | updateOverride _ _, .ok (some row) => some row.updatedAt
  | _, _ => none

end Call

/-- What happens to the disturbed call. -/
inductive Fault
  | failure (error : StoreError)
  | nothingFound

/-- What a competitor does just before the service inserts a version. -/
inductive Competitor
  /-- It takes the number but its version is never seen. -/
  | lose
  /-- It inserts the very version of the service. -/
  | same
  /-- It inserts a version of its own after the latest one. -/
  | insert (versionNo : Int32) (status : VersionStatus) (snapshot : Document)
    (report : Option Document) (compiledAt : Instant)

/-- A competitor, and an override that is added along with it. -/
structure Race where
  override : Option Override
  competitor : Competitor

namespace Race

/-- Reads a race whose competitor has a version of its own. -/
def rivalReader : RecordReader Race :=
  (fun override versionNo status snapshot report compiledAt =>
    ⟨override, .insert versionNo status snapshot report compiledAt⟩)
    <$> .optional "config" Override.decode <*> .required "versionNo" .int32
    <*> .required "status" VersionStatus.decode <*> .withDefault "snapshotJson" .document .null
    <*> .optional "errorsJson" .document <*> .required "compiledAt" .instant

/-- Reads a race with a competitor that needs nothing else. -/
def plainReader (competitor : Competitor) : RecordReader Race :=
  (⟨·, competitor⟩) <$> .optional "config" Override.decode

/-- Reads a race by the kind of its competitor. -/
def decode (j : Json) : Except DecodeError Race :=
  if j.field? "kind" = some (.str "lose") then (plainReader .lose).decode j
  else if j.field? "kind" = some (.str "same") then (plainReader .same).decode j
  else rivalReader.decode j

end Race

/-- A store in memory, the disturbances still to come, and the stamps given to overrides so far, the
last one first. -/
structure DisturbedStore where
  state : MemoryState
  reverseReads : Bool
  fault : Option (CallKind × Fault)
  races : List Race
  stamps : List Instant

namespace DisturbedStore

/-- A store without disturbances so far. -/
def start (store : MemoryStore) (reverseReads : Bool) : DisturbedStore :=
  ⟨.start store, reverseReads, none, [], []⟩

/-- Changes the tables directly. -/
def alter (f : MemoryStore → MemoryStore) (s : DisturbedStore) : DisturbedStore :=
  { s with state := { s.state with store := f s.state.store } }

/-- The answer of the store in memory, with its stamp noted. -/
def calmAnswer (supply : Supply) (c : Call) (s : DisturbedStore) : c.Answer × DisturbedStore :=
  let (answer, state) := MemoryState.answer supply c s.state
  let stamps := (c.stamp? answer).toList ++ s.stamps
  (if s.reverseReads then answer.map c.reverseReply else answer, { s with state, stamps })

/-- What a competitor leaves behind when the service is about to insert a version. -/
def compete (supply : Supply) (draft : VersionDraft) (expectedPrior : Option Int32) (race : Race)
    (s : DisturbedStore) : DisturbedStore :=
  let s := race.override.elim s fun o => s.alter (·.addOverride o)
  match race.competitor with
  | .lose => s
  | .same => (s.calmAnswer supply (.insertVersion draft expectedPrior)).2
  | .insert versionNo status snapshot report compiledAt =>
    let rival : VersionDraft := ⟨draft.routingId, versionNo, status, snapshot, report, compiledAt⟩
    let latest := (s.state.store.latestVersion draft.routingId).map (·.versionNo)
    (s.calmAnswer supply (.insertVersion rival latest)).2

/-- Whether the version of the service is lost to the competitor without a trace. -/
def Competitor.isLoss : Competitor → Bool
  | .lose => true
  | _ => false

/-- The answer to a call after the competitor of the moment, if any. -/
def contestedAnswer (supply : Supply) : (c : Call) → DisturbedStore → c.Answer × DisturbedStore
  | .insertVersion draft expectedPrior, s =>
    match s.races with
    | [] => s.calmAnswer supply (.insertVersion draft expectedPrior)
    | race :: races =>
      let s := compete supply draft expectedPrior race { s with races }
      if Competitor.isLoss race.competitor then
        (.error (.versionConflict draft.routingId draft.versionNo), s)
      else s.calmAnswer supply (.insertVersion draft expectedPrior)
  | c, s => s.calmAnswer supply c

/-- The answer to a call; a fault strikes the first call of its kind. -/
def answer (supply : Supply) (c : Call) (s : DisturbedStore) : c.Answer × DisturbedStore :=
  match s.fault with
  | some (kind, fault) =>
    if kind = c.kind then
      let s := { s with fault := none }
      match fault, c.nothingFound with
      | .failure error, _ => (.error error, s)
      | .nothingFound, some reply => (.ok reply, s)
      | .nothingFound, none => s.contestedAnswer supply c
    else s.contestedAnswer supply c
  | none => s.contestedAnswer supply c

/-- The backend over a supply. -/
def backend (supply : Supply) : Backend DisturbedStore where
  answer := answer supply
  readClock s :=
    let (t, state) := (MemoryState.backend supply).readClock s.state
    (t, { s with state })

/-- Whether every stamp given to an override is after the one before. -/
def stampsIncrease (s : DisturbedStore) : Bool :=
  (s.stamps.zip s.stamps.tail).all fun (later, earlier) => decide (earlier < later)

end DisturbedStore
end RoutePlan
