import RoutePlan.Model.Override
import RoutePlan.Model.Version
import RoutePlan.Store.Error

/-!
# Calls to a store

A store is known by its answers to twelve calls (`Call`). Each call is atomic: it is answered in one
state of the store and leaves one state behind (`Backend`). Reads of rows promise no order but the
one stated here.
-/

namespace RoutePlan

/-- A call to a store. -/
inductive Call
  /-- The routing with a code. -/
  | findRouting (code : String)
  /-- The steps of a routing, in any order. -/
  | listSteps (routingId : String)
  /-- The station group with a code. -/
  | findStationGroup (code : String)
  /-- The specs with the given ids, in any order; an id that is unknown is left out. -/
  | findDataSpecs (ids : List String)
  /-- The overrides that the filter selects, the most recently updated first. -/
  | listOverrides (filter : OverrideFilter)
  /-- The override with an id. -/
  | findOverride (id : String)
  /-- Adds an override, with an id and a time of its own. -/
  | insertOverride (draft : OverrideDraft)
  /-- Changes the override with an id and its time of update; nothing if there is none. -/
  | updateOverride (id : String) (patch : OverridePatch)
  /-- The version of a routing with the greatest number. -/
  | latestVersion (routingId : String)
  /-- The versions of a routing, the greatest number first. -/
  | listVersions (routingId : String)
  /-- The version of a routing with a number. -/
  | findVersion (routingId : String) (versionNo : Int32)
  /-- Adds a version, if the greatest number is still the expected one and its own number is free;
  otherwise the call is a version conflict. -/
  | insertVersion (draft : VersionDraft) (expectedPrior : Option Int32)

namespace Call

/-- What a call is answered with. -/
abbrev Reply : Call → Type
  | findRouting _ => Option Routing
  | listSteps _ => List RoutingStep
  | findStationGroup _ => Option StationGroup
  | findDataSpecs _ => List DataSpec
  | listOverrides _ => List Override
  | findOverride _ => Option Override
  | insertOverride _ => Override
  | updateOverride _ _ => Option Override
  | latestVersion _ => Option RouteVersion
  | listVersions _ => List RouteVersion
  | findVersion _ _ => Option RouteVersion
  | insertVersion _ _ => RouteVersion

/-- What a call is answered with, or the failure of the store. -/
abbrev Answer (c : Call) : Type := Except StoreError c.Reply

end Call

/-- A store with states `σ`: how it answers a call, and how the clock beside it is read. -/
structure Backend (σ : Type) where
  answer : (c : Call) → σ → c.Answer × σ
  readClock : σ → Instant × σ

end RoutePlan
