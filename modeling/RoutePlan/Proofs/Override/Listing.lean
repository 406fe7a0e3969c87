import RoutePlan.Proofs.Compile.Prefetch
import RoutePlan.Service.Overrides
import Mathlib.Data.List.Forall2

/-!
# The listing explains what is compiled

The overrides of a route are listed with the most recent row first. What a step compiles to can be
told from two rows of the listing, the first one for the step and the first one for the route: each
field has the value that the row of the step sets, or else the row of the route, or else the value
it has by default (`RoutingStep.ExplainedBy`). This leaves no room for other rows, since two rows
explain one compiled step only (`RoutingStep.explainedBy_iff`).
-/

namespace RoutePlan

section
variable {ofStep ofRoute : Option Override}

/-- Where the value of a field comes from: the override of the step, or the override of the route if
the former leaves the field unset, or the default if both do. -/
inductive SuppliedBy {α : Type} (ofStep ofRoute : Option Override) (field : Override → Option α)
    (default : Option α) : Option α → Prop
  | step {o : Override} {a : α} (ho : ofStep = some o) (hset : field o = some a) :
    SuppliedBy ofStep ofRoute field default (some a)
  | route {o : Override} {a : α} (hstep : ∀ o, ofStep = some o → field o = none)
    (ho : ofRoute = some o) (hset : field o = some a) :
    SuppliedBy ofStep ofRoute field default (some a)
  | default (hstep : ∀ o, ofStep = some o → field o = none)
    (hroute : ∀ o, ofRoute = some o → field o = none) :
    SuppliedBy ofStep ofRoute field default default

/-- There is one such value, and it is found by falling through. -/
theorem suppliedBy_iff {α : Type} {field : Override → Option α} {default value : Option α} :
    SuppliedBy ofStep ofRoute field default value ↔
      value = (firstSet ofStep ofRoute field).or default := by
  have hunset {x : Option Override} : (∀ o, x = some o → field o = none) ↔ x.bind field = none := by
    simp [Option.bind_eq_none_iff]
  constructor
  · intro h
    cases h with
    | step ho hset => rw [firstSet, ho, Option.bind_some, hset, Option.some_or, Option.some_or]
    | route hstep ho hset =>
      rw [firstSet, hunset.1 hstep, ho, Option.bind_some, hset, Option.none_or, Option.some_or]
    | default hstep hroute =>
      rw [firstSet, hunset.1 hstep, hunset.1 hroute, Option.none_or, Option.none_or]
  · rintro rfl
    cases hstep : ofStep.bind field with
    | some a =>
      obtain ⟨o, ho, hset⟩ := Option.bind_eq_some_iff.1 hstep
      rw [firstSet, hstep, Option.some_or, Option.some_or]
      exact .step ho hset
    | none =>
      cases hroute : ofRoute.bind field with
      | some a =>
        obtain ⟨o, ho, hset⟩ := Option.bind_eq_some_iff.1 hroute
        rw [firstSet, hstep, hroute, Option.none_or, Option.some_or]
        exact .route (hunset.2 hstep) ho hset
      | none =>
        rw [firstSet, hstep, hroute, Option.none_or, Option.none_or]
        exact .default (hunset.2 hstep) (hunset.2 hroute)

/-- The compiled step is that of the step under these two overrides. A station type that nobody
gives is recorded as manual. -/
structure RoutingStep.ExplainedBy (step : RoutingStep) (ofStep ofRoute : Option Override)
    (c : CompiledStep) : Prop where
  stepNo : c.stepNo = step.stepNo
  operationId : c.operationId = step.operationId
  stationType : ∃ t?, SuppliedBy ofStep ofRoute (·.stationType) step.stationType t? ∧
    c.stationType = t?.getD .manual
  stationGroupId : SuppliedBy ofStep ofRoute (·.stationGroupId) step.stationGroupId c.stationGroupId
  allowedStationIds :
    SuppliedBy ofStep ofRoute (·.allowedStationIds) (some []) (some c.allowedStationIds)
  requiresFAI :
    SuppliedBy ofStep ofRoute (·.requiresFAI) (some step.requiresFAI) (some c.requiresFAI)
  requiresAuthorization :
    SuppliedBy ofStep ofRoute (·.requiresAuthorization) (some false) (some c.requiresAuthorization)
  dataSpecIds : SuppliedBy ofStep ofRoute (·.dataSpecIds) (some []) (some c.dataSpecIds)
  ingestMapping : SuppliedBy ofStep ofRoute (·.ingestMapping) none c.ingestMapping

/-- Two overrides explain what the step compiles to under them, and nothing else. -/
theorem RoutingStep.explainedBy_iff {step : RoutingStep} {c : CompiledStep} :
    step.ExplainedBy ofStep ofRoute c ↔ c = (step.resolveWith ofStep ofRoute).compile := by
  constructor
  · rintro ⟨hno, hoperation, ⟨t?, ht, htype⟩, hgroup, hstations, hfai, hauthorization, hspecs,
      hmapping⟩
    simp only [suppliedBy_iff, Option.or_some, Option.or_none, Option.some.injEq] at *
    rw [ht] at htype
    obtain ⟨⟩ := c
    congr
  · rintro rfl
    constructor
    case stepNo | operationId => rfl
    case stationType => exact ⟨_, suppliedBy_iff.2 rfl, rfl⟩
    all_goals simp [suppliedBy_iff, resolveWith, ResolvedStep.compile]

end

/-! ## The rows that count -/

namespace MemoryStore

/-- The first listed row for the step and the first listed row for the route decide. -/
theorem resolve_eq_listing (s : MemoryStore) (r : Routing) {steps : List RoutingStep}
    {step : RoutingStep} (h : step ∈ steps) :
    step.resolve r s.overrides = step.resolveWith
      ((s.listOverrides (.forRouting r steps)).find? fun o => o.Targets step)
      ((s.listOverrides (.forRouting r steps)).find? fun o => o.IsOfRoute r) := by
  rw [s.find?_listOverrides fun o ho =>
      OverrideFilter.selects_of_targets (of_decide_eq_true ho) h,
    s.find?_listOverrides fun o ho => OverrideFilter.selects_of_isOfRoute (of_decide_eq_true ho),
    RoutingStep.resolve, RoutingStep.overrides_eq_filter, Routing.overrides_eq_filter]

/-- What a step of a route compiles to, resolved against the whole table. -/
def compiledStep (s : MemoryStore) (r : Routing) (step : RoutingStep) : CompiledStep :=
  (step.resolve r s.overrides).compile

/-- Each step of a route is compiled under the whole table of overrides. -/
theorem steps_compilation_tables (s : MemoryStore) (r : Routing) : (s.compilation r).core.steps =
    (RoutingStep.ascending (s.listSteps r.id)).map (s.compiledStep r) := by
  rw [steps_compilation, resolvedSteps_eq_tables, Routing.resolve, List.map_map]
  rfl

end MemoryStore

namespace Service

variable {supply : Supply} {s : MemoryState} {code : String} {r : Routing}

/-- A store in memory has sorted the rows that are listed. -/
theorem listOverrides_run (hr : s.store.findRouting code = some r) :
    (listOverrides code).run.run (MemoryState.backend supply) s =
      (.ok (s.store.listOverrides (.forRouting r (s.store.listSteps r.id))), s) := by
  unfold listOverrides
  rw [run_bind_of_ok (loadRouting_run hr), run_bind_of_ok (t := s) rfl,
    run_bind_of_ok (t := s) rfl, MemoryStore.listOverrides,
    Override.mostRecentFirst_mostRecentFirst]
  rfl

/-- **The listing explains what is compiled.** The steps of a route are compiled in ascending order,
and each field of a compiled step has the value that the first listed row for the step sets; if it
sets none, the value that the first listed row for the route sets; if there is none either, the
default. If the route has steps, the version that a compile call returns is stored with the
signature of these compiled steps, and with the status and the report of their violations. -/
theorem listOverrides_explains (supply : Supply) (hr : s.store.findRouting code = some r) :
    ∃ listing, (listOverrides code).run.run (MemoryState.backend supply) s = (.ok listing, s) ∧
      List.Forall₂ (fun step c => step.ExplainedBy (listing.find? fun o => o.Targets step)
          (listing.find? fun o => o.IsOfRoute r) c)
        (RoutingStep.ascending (s.store.listSteps r.id)) (s.store.compilation r).core.steps ∧
      (s.store.listSteps r.id ≠ [] → s.store.InRange → ∀ attempts, ∃ v t,
        (compile code attempts).run.run (MemoryState.backend supply) s = (.ok v, t) ∧
          (s.store.compilation r).EndsWith supply s r.id v) := by
  refine ⟨_, listOverrides_run hr, ?_, compile_run_endsWith supply hr⟩
  rw [MemoryStore.steps_compilation_tables, List.forall₂_map_right_iff, List.forall₂_same]
  intro step hstep
  rw [RoutingStep.explainedBy_iff, MemoryStore.compiledStep,
    MemoryStore.resolve_eq_listing s.store r (RoutingStep.mem_ascending.1 hstep)]

/-- The second step is explained by its override with the greater id, which is listed first. The
other one requires a first article inspection, but it has no say. -/
theorem listOverrides_explains_keyedSteps : ∃ first second,
    (KeyedSteps.store.compilation SingleStep.routing).core.steps = [first, second] ∧
      second.stationType = .manual ∧ second.requiresFAI = false ∧
      second.dataSpecIds = ["d1", "d2"] := by
  have hr : (MemoryState.start KeyedSteps.store).store.findRouting "R1" =
    some SingleStep.routing := rfl
  obtain ⟨listing, hrun, hsteps, -⟩ := listOverrides_explains SingleStep.supply hr
  rw [listOverrides_run hr, Prod.mk.injEq, Except.ok.injEq] at hrun
  rw [← hrun.1, MemoryState.start, KeyedSteps.ascending_listSteps] at hsteps
  -- only the second step is of interest: its overrides have the same time of update
  obtain ⟨first, _, -, hrest, hcompiled⟩ := List.forall₂_cons_left_iff.1 hsteps
  obtain ⟨second, _, hsecond, hnil, rfl⟩ := List.forall₂_cons_left_iff.1 hrest
  obtain rfl := List.forall₂_nil_left_iff.1 hnil
  rw [RoutingStep.explainedBy_iff, ← MemoryStore.resolve_eq_listing _ _ (by decide)] at hsecond
  refine ⟨first, second, hcompiled, ?_⟩
  rw [hsecond]
  decide +kernel

end Service
end RoutePlan
