import RoutePlan.Proofs.Override.Listing
import RoutePlan.Proofs.Service.Requests

/-!
# A write is seen by the next compilation

An override that was just written is the latest of the rows for its steps or for its route, and for
everything else the rows are the same as before (`MemoryStore.Wrote.isLatest`,
`MemoryStore.Wrote.filter_eq`). So the next compilation takes each field that it sets from it and
compiles all other steps as before, after any requests and whatever the clock reads
(`OverrideWrite.read_by_next_compilation`).
-/

namespace RoutePlan
namespace MemoryStore

variable {s t : MemoryStore} {o : Override}

/-- A row that was just written is the latest one of all rows of its kind. -/
theorem Wrote.isLatest (h : s.Wrote t o) (hs : s.WellStamped) {p : Override → Prop}
    [DecidablePred p] (ho : p o) :
    Override.IsLatest (t.overrides.filter fun c => p c) (some o) := by
  refine ⟨List.mem_filter.2 ⟨h.mem, decide_eq_true ho⟩, fun c hc => ?_⟩
  exact (h.mem_or_eq (List.mem_of_mem_filter hc)).imp_right fun hc => .inl (h.lt hs hc)

/-- Some row is the latest one of a kind, and it is the one that was just written if that is of the
kind. -/
theorem Wrote.exists_isLatest (h : s.Wrote t o) (hs : s.WellStamped) (p : Override → Prop)
    [DecidablePred p] : ∃ x,
      Override.IsLatest (t.overrides.filter fun c => p c) x ∧ (p o → x = some o) := by
  have hlatest := ((hs.wrote h).ranked.filter fun c => decide (p c)).isLatest
  exact ⟨_, hlatest, fun ho => hlatest.unique (h.isLatest hs ho)⟩

/-- With ranked rows a step is explained by the latest row for it and the latest row for the
route. -/
theorem explainedBy_compiledStep (h : Override.Ranked s.overrides) {r : Routing}
    {step : RoutingStep} {ofStep ofRoute : Option Override}
    (hstep : Override.IsLatest (s.overrides.filter fun c => c.Targets step) ofStep)
    (hroute : Override.IsLatest (s.overrides.filter fun c => c.IsOfRoute r) ofRoute) :
    step.ExplainedBy ofStep ofRoute (s.compiledStep r step) := by
  rw [RoutingStep.explainedBy_iff, compiledStep, RoutingStep.resolve,
    RoutingStep.overrides_eq_filter, Routing.overrides_eq_filter,
    (h.filter _).isLatest.unique hstep, (h.filter _).isLatest.unique hroute]

/-- What the written row is not for compiles to the same as before. -/
theorem Wrote.compiledStep_eq (h : s.Wrote t o) {r : Routing} {step : RoutingStep}
    (hstep : ¬o.Targets step) (hroute : ¬o.IsOfRoute r) :
    t.compiledStep r step = s.compiledStep r step := by
  rw [compiledStep, compiledStep, RoutingStep.resolve, RoutingStep.resolve,
    RoutingStep.overrides_eq_filter, RoutingStep.overrides_eq_filter, Routing.overrides_eq_filter,
    Routing.overrides_eq_filter, h.filter_eq (fun _ _ hab => hab.targets_iff step) hstep,
    h.filter_eq (fun _ _ hab => hab.isOfRoute_iff r) hroute]

end MemoryStore

/-- **A write is seen by the next compilation.** Let overrides be written through the service only,
among any requests, with any readings of the clock. When a write succeeds, the row that it returns
is the latest one for its steps, or for its route, and each of these steps is compiled from it: a
field that it sets has its value, another one the value of the latest row of the route or the
default. All steps that the row is not for are compiled as before. The version that a compile call
returns next is stored with the signature of these compiled steps, and with the status and the
report of their violations. -/
theorem OverrideWrite.read_by_next_compilation {supply : Supply} {s₀ s t : MemoryState}
    {requests : List Request} {w : OverrideWrite} {o : Override}
    (hempty : s₀.store.overrides = []) (hs : s₀.serveAll supply requests = s)
    (hw : w.serve.run.run (MemoryState.backend supply) s = (.ok o, t)) (r : Routing) :
    (s.store.compilation r).core.steps =
        (RoutingStep.ascending (s.store.listSteps r.id)).map (s.store.compiledStep r) ∧
      (t.store.compilation r).core.steps =
        (RoutingStep.ascending (s.store.listSteps r.id)).map (t.store.compiledStep r) ∧
      (∃ ofRoute,
        Override.IsLatest (t.store.overrides.filter fun c => c.IsOfRoute r) ofRoute ∧
        (o.IsOfRoute r → ofRoute = some o) ∧
        ∀ step, ∃ ofStep,
          Override.IsLatest (t.store.overrides.filter fun c => c.Targets step) ofStep ∧
          (o.Targets step → ofStep = some o) ∧
          step.ExplainedBy ofStep ofRoute (t.store.compiledStep r step)) ∧
      (∀ step, ¬o.Targets step → ¬o.IsOfRoute r →
        t.store.compiledStep r step = s.store.compiledStep r step) ∧
      ∀ code, t.store.findRouting code = some r → t.store.listSteps r.id ≠ [] → t.store.InRange →
        ∀ attempts, ∃ v u,
          (Service.compile code attempts).run.run (MemoryState.backend supply) t = (.ok v, u) ∧
            (t.store.compilation r).EndsWith supply t r.id v := by
  -- the stamps are in order before the write, and so they are after it
  have hwrote := OverrideWrite.wrote hw
  have hstamped : s.store.WellStamped :=
    hs ▸ MemoryState.wellStamped_serveAll supply (MemoryStore.wellStamped_of_eq_nil hempty) requests
  have hranked := (hstamped.wrote hwrote).ranked
  have hsteps : t.store.listSteps = s.store.listSteps := by
    rw [hwrote.rest]
    rfl
  refine ⟨MemoryStore.steps_compilation_tables .., ?_, ?_, ?_, ?_⟩
  · rw [← hsteps, MemoryStore.steps_compilation_tables]
  · obtain ⟨ofRoute, hroute, hwritten⟩ := hwrote.exists_isLatest hstamped fun c => c.IsOfRoute r
    refine ⟨ofRoute, hroute, hwritten, fun step => ?_⟩
    obtain ⟨ofStep, hstep, hwritten⟩ := hwrote.exists_isLatest hstamped fun c => c.Targets step
    exact ⟨ofStep, hstep, hwritten, MemoryStore.explainedBy_compiledStep hranked hstep hroute⟩
  · exact fun step => hwrote.compiledStep_eq
  · exact fun code hr hsteps hrange => Service.compile_run_endsWith supply hr hsteps hrange

/-! ## A clock that goes back -/

namespace BackwardClock

/-- The clock reads ten seconds and then zero; the second id is before the first one. -/
def supply : Supply where
  reading n := if n = 0 then ⟨10, 0⟩ else ⟨0, 0⟩
  overrideId n := if n = 0 then "o2" else "o1"
  versionId _ := "v1"

/-- A request for an override of the single step. -/
def inspection (requiresFAI : Bool) : OverrideRequest where
  scope := "STEP"
  stepNo := some 1
  stationType := none
  stationGroupCode := .keep
  allowedStationIds := none
  requiresFAI := some requiresFAI
  requiresAuthorization := none
  dataSpecIds := none
  ingestMapping := none
  info := none

/-- The state after a first override, which requires the inspection. -/
def before : MemoryState :=
  (MemoryState.start (SingleStep.store none)).serveAll supply
    [.write (.create "R1" (inspection true))]

/-- The row of a second override, which does not require it. -/
def second : Override where
  id := "o1"
  scope := .step
  routingId := none
  routingStepId := some "s1"
  sourceStepKey := none
  operationId := none
  stationType := none
  stationGroupId := none
  allowedStationIds := none
  requiresFAI := some false
  requiresAuthorization := none
  dataSpecIds := none
  ingestMapping := none
  info := none
  createdAt := ⟨10, 1000⟩
  updatedAt := ⟨10, 1000⟩

/-- How the request for the second override is served. -/
def outcome : Except RequestError Override × MemoryState :=
  (OverrideWrite.create "R1" (inspection false)).serve.run.run (MemoryState.backend supply) before

end BackwardClock

/-- The second override counts, although the clock has gone back. -/
theorem OverrideWrite.read_by_next_compilation_backwardClock :
    BackwardClock.outcome.1 = .ok BackwardClock.second ∧
      (BackwardClock.outcome.2.store.compilation SingleStep.routing).core.steps.map
        (·.requiresFAI) = [false] := by
  have hsecond : BackwardClock.outcome.1 = .ok BackwardClock.second := by decide +kernel
  have houtcome : BackwardClock.outcome =
      (.ok BackwardClock.second, BackwardClock.outcome.2) := by rw [← hsecond]
  obtain ⟨-, hsteps, ⟨ofRoute, -, -, hexplained⟩, -⟩ :=
    read_by_next_compilation (s := BackwardClock.before)
      (w := .create "R1" (BackwardClock.inspection false)) rfl rfl houtcome SingleStep.routing
  obtain ⟨step, hascending, htargets⟩ : ∃ step, RoutingStep.ascending
      (BackwardClock.before.store.listSteps SingleStep.routing.id) = [step] ∧
        BackwardClock.second.Targets step := ⟨_, List.mergeSort_singleton _, by decide⟩
  obtain ⟨ofStep, -, hwritten, hcompiled⟩ := hexplained step
  obtain rfl := hwritten htargets
  have hinspection := suppliedBy_iff.1 hcompiled.requiresFAI
  refine ⟨hsecond, ?_⟩
  rw [hsteps, hascending, List.map_singleton, List.map_singleton, Option.some.inj hinspection]

end RoutePlan
