import RoutePlan.Proofs.Compile.Alone
import RoutePlan.Proofs.Override.Precedence

/-!
# Reading rows in advance loses nothing

A compilation does not read the tables as a whole: it asks for the overrides that may concern the
route and for the specs that some resolved step names. Two selections follow one another, the filter
of the store and the choice of the compiler, and the second one only takes rows that the first one
let through (`OverrideFilter.selects_of_targets`, `OverrideFilter.selects_of_isOfRoute`). So the
route compiles to the same as against the whole tables (`MemoryStore.compilation_eq_tables`).
-/

namespace RoutePlan

/-! ## Overrides -/

namespace OverrideFilter

variable {o : Override} {r : Routing} {steps : List RoutingStep}

/-- An override of a step of the route is read. -/
theorem selects_of_targets {step : RoutingStep} (h : o.Targets step) (hstep : step ∈ steps) :
    (forRouting r steps).selects o = true := by
  rw [selects, Bool.or_eq_true, Bool.or_eq_true]
  rcases h.2 with hid | ⟨key, hkey, hstepKey⟩
  · refine .inl (.inr ?_)
    rw [hid, Option.any_some, List.contains_iff_mem]
    exact List.mem_map_of_mem hstep
  · refine .inr ?_
    rw [hkey, Option.any_some, List.contains_iff_mem]
    exact List.mem_filterMap.2 ⟨step, hstep, hstepKey⟩

/-- An override of the route is read. -/
theorem selects_of_isOfRoute (h : o.IsOfRoute r) : (forRouting r steps).selects o = true := by
  rw [selects, Bool.or_eq_true, Bool.or_eq_true]
  exact .inl (.inl (beq_iff_eq.2 h.2))

end OverrideFilter

namespace MemoryStore

/-- The rows that pass a test are read if the filter selects them. -/
theorem filter_selects (s : MemoryStore) {f : OverrideFilter} {p : Override → Bool}
    (h : ∀ o, p o = true → f.selects o = true) :
    (s.overrides.filter f.selects).filter p = s.overrides.filter p := by
  rw [List.filter_filter]
  refine List.filter_congr fun o _ => ?_
  by_cases hp : p o = true
  · rw [hp, h o hp, Bool.and_true]
  · rw [Bool.eq_false_iff.2 hp, Bool.false_and]

/-- The first row of the listing that passes a test is the latest in the table that passes it. -/
theorem find?_listOverrides (s : MemoryStore) {f : OverrideFilter} {p : Override → Bool}
    (h : ∀ o, p o = true → f.selects o = true) :
    (s.listOverrides f).find? p = Override.latest? (s.overrides.filter p) := by
  rw [listOverrides, Override.find?_mostRecentFirst, s.filter_selects h]

/-- The latest of the rows that pass a test is read if the filter selects all of them. -/
theorem latest?_listOverrides (s : MemoryStore) {f : OverrideFilter} {p : Override → Bool}
    (h : ∀ o, p o = true → f.selects o = true) :
    Override.latest? ((s.listOverrides f).filter p) = Override.latest? (s.overrides.filter p) := by
  rw [listOverrides, Override.latest?_filter_mostRecentFirst, s.filter_selects h]

/-- Each step is resolved as against the whole table. -/
theorem resolve_listOverrides (s : MemoryStore) (r : Routing) {steps : List RoutingStep}
    {step : RoutingStep} (h : step ∈ steps) :
    step.resolve r (s.listOverrides (.forRouting r steps)) = step.resolve r s.overrides := by
  have hsteps := s.latest?_listOverrides (f := .forRouting r steps)
    (p := fun o => decide (o.Targets step))
    fun o ho => OverrideFilter.selects_of_targets (of_decide_eq_true ho) h
  have hroute := s.latest?_listOverrides (f := .forRouting r steps)
    (p := fun o => decide (o.IsOfRoute r))
    fun o ho => OverrideFilter.selects_of_isOfRoute (of_decide_eq_true ho)
  simp only [RoutingStep.resolve, RoutingStep.overrides_eq_filter, Routing.overrides_eq_filter,
    hsteps, hroute]

end MemoryStore

/-! ## Steps -/

/-- Sorting the steps neither adds nor drops one. -/
theorem RoutingStep.mem_ascending {step : RoutingStep} {steps : List RoutingStep} :
    step ∈ ascending steps ↔ step ∈ steps := List.mem_mergeSort

/-- Among steps with different numbers there is one ascending order. -/
theorem RoutingStep.ascending_perm {steps steps' : List RoutingStep} (hperm : steps.Perm steps')
    (hnos : (steps.map (·.stepNo)).Nodup) : ascending steps' = ascending steps := by
  have hsorted : ∀ steps, (ascending steps).Pairwise fun a b => a.stepNo ≤ b.stepNo :=
    pairwise_mergeSort_key RoutingStep.stepNo
  refine List.Perm.eq_of_pairwise (fun a b ha hb hab hba => ?_) (hsorted _) (hsorted _) ?_
  · have ha := hperm.mem_iff.2 (mem_ascending.1 ha)
    exact List.inj_on_of_nodup_map hnos ha (mem_ascending.1 hb) (Int32.le_antisymm hab hba)
  · exact (List.mergeSort_perm ..).trans (hperm.symm.trans (List.mergeSort_perm ..).symm)

/-! ## Specs -/

/-- A spec whose id is asked for is found among those that were read as in the whole table. -/
theorem MemoryStore.find?_findDataSpecs (s : MemoryStore) {ids : List String} {id : String}
    (h : id ∈ ids) : DataSpec.find? (s.findDataSpecs ids) id = DataSpec.find? s.dataSpecs id := by
  rw [DataSpec.find?, DataSpec.find?, findDataSpecs, ← List.filter_reverse, List.find?_filter]
  congr 1
  funext spec
  by_cases hid : spec.id = id <;> simp [hid, h]

namespace ResolvedStep

variable {specs specs' : List DataSpec}

/-- The violations of a step depend on the specs that it collects, and on no others. -/
theorem violations_congr {s : ResolvedStep}
    (h : ∀ id ∈ s.dataSpecIds, DataSpec.find? specs' id = DataSpec.find? specs id) :
    s.violations specs' = s.violations specs := by
  have hunknown : s.dataSpecIds.filterMap (s.unknownSpec specs') =
      s.dataSpecIds.filterMap (s.unknownSpec specs) :=
    List.filterMap_congr fun id hid => by rw [unknownSpec, unknownSpec, h id hid]
  have hforeign : s.dataSpecIds.filterMap (s.foreignSpec specs') =
      s.dataSpecIds.filterMap (s.foreignSpec specs) :=
    List.filterMap_congr fun id hid => by rw [foreignSpec, foreignSpec, h id hid]
  rw [violations, violations, hunknown, hforeign]

/-- The report depends on the specs that the steps collect, and on no others. -/
theorem validate_congr {steps : List ResolvedStep}
    (h : ∀ step ∈ steps, ∀ id ∈ step.dataSpecIds,
      DataSpec.find? specs' id = DataSpec.find? specs id) :
    validate steps specs' = validate steps specs :=
  List.flatMap_congr fun step hstep => violations_congr (h step hstep)

/-- The ids that are asked for are those that some step names. -/
theorem mem_specIds {steps : List ResolvedStep} {id : String} :
    id ∈ specIds steps ↔ ∃ step ∈ steps, id ∈ step.dataSpecIds :=
  mem_sortDistinct.trans List.mem_flatMap

/-- The specs that the steps name give the same report as all specs. -/
theorem validate_findDataSpecs (s : MemoryStore) (steps : List ResolvedStep) :
    validate steps (s.findDataSpecs (specIds steps)) = validate steps s.dataSpecs :=
  validate_congr fun step hstep _ hid =>
    s.find?_findDataSpecs (mem_specIds.2 ⟨step, hstep, hid⟩)

end ResolvedStep

/-! ## Compilations -/

namespace MemoryStore

/-- The steps of a route as they are resolved in the store. -/
def resolvedSteps (s : MemoryStore) (r : Routing) : List ResolvedStep :=
  r.resolve (s.listSteps r.id) (s.listOverrides (.forRouting r (s.listSteps r.id)))

/-- A compilation puts together the resolved steps and the specs that they name. -/
theorem compilation_eq (s : MemoryStore) (r : Routing) : s.compilation r =
    .ofSteps r (s.resolvedSteps r)
      (s.findDataSpecs (ResolvedStep.specIds (s.resolvedSteps r))) := rfl

/-- The resolved steps are those of the whole table of overrides. -/
theorem resolvedSteps_eq_tables (s : MemoryStore) (r : Routing) :
    s.resolvedSteps r = r.resolve (s.listSteps r.id) s.overrides :=
  List.map_congr_left fun _ hstep => s.resolve_listOverrides r (RoutingStep.mem_ascending.1 hstep)

/-- The compilation is that of the whole tables. -/
theorem compilation_eq_tables (s : MemoryStore) (r : Routing) : s.compilation r =
    .ofSteps r (r.resolve (s.listSteps r.id) s.overrides) s.dataSpecs := by
  rw [compilation_eq, Compilation.ofSteps, ResolvedStep.validate_findDataSpecs,
    resolvedSteps_eq_tables]
  rfl

/-- The resolved steps are in ascending order. -/
theorem pairwise_resolvedSteps (s : MemoryStore) (r : Routing) :
    (s.resolvedSteps r).Pairwise fun a b => a.stepNo ≤ b.stepNo := by
  refine List.pairwise_map.2 ?_
  exact pairwise_mergeSort_key RoutingStep.stepNo _

/-- Resolved steps are compiled in the order in which they are resolved. -/
theorem steps_compilation (s : MemoryStore) (r : Routing) :
    (s.compilation r).core.steps = (s.resolvedSteps r).map ResolvedStep.compile := by
  rw [compilation_eq, Compilation.ofSteps, SnapshotCore.ofSteps]
  refine List.mergeSort_of_pairwise (List.pairwise_map.2 ?_)
  exact (s.pairwise_resolvedSteps r).imp fun hle => decide_eq_true hle

end MemoryStore

/-! ## What is asked for -/

/-- The calls that a program makes when it runs alone on a backend, one after another. -/
def Program.calls {σ α : Type} (backend : Backend σ) : Program α → σ → List Call
  | done _, _ => []
  | readClock next, s => (next (backend.readClock s).1).calls backend (backend.readClock s).2
  | call c next, s => c :: (next (backend.answer c s).1).calls backend (backend.answer c s).2

/-- The second of two programs in turn makes its calls after those of the first. -/
theorem Program.calls_bind {σ α β : Type} (backend : Backend σ) (p : Program α)
    (f : α → Program β) (s : σ) : (p.bind f).calls backend s =
      p.calls backend s ++ (f (p.run backend s).1).calls backend (p.run backend s).2 := by
  induction p generalizing s with
  | done a => rfl
  | readClock next ih => exact ih _ _
  | call c next ih => exact congrArg (c :: ·) (ih _ _)

namespace Service

variable {α β σ : Type} {backend : Backend σ} {s t : σ}

/-- A service goes on with the calls of its second part. -/
theorem calls_bind_of_ok {x : Service α} {a : α} (h : x.run.run backend s = (.ok a, t))
    (f : α → Service β) : (x >>= f).run.calls backend s =
      x.run.calls backend s ++ (f a).run.calls backend t := by
  refine (Program.calls_bind backend x.run _ s).trans ?_
  rw [h]
  rfl

/-- Specs are asked for once, and only if there are ids. -/
theorem calls_specsOf (ids : List String) (s : σ) : (specsOf ids).run.calls backend s =
    if ids = [] then [] else [.findDataSpecs ids] := by
  cases ids <;> rfl

/-- **Prefetching loses nothing.** The inputs of a route with steps are read by asking for its
steps, for the overrides that its filter selects and for the specs that the resolved steps name, and
for no specs if they name none. What is resolved and reported from these reads is what is resolved
and reported from the whole tables, in their order. -/
theorem readCompilation_tables (supply : Supply) {s : MemoryState} {r : Routing}
    (hsteps : s.store.listSteps r.id ≠ []) :
    ∃ resolved c,
      resolved = r.resolve (s.store.listSteps r.id)
        (s.store.listOverrides (.forRouting r (s.store.listSteps r.id))) ∧
      (readCompilation r).run.calls (MemoryState.backend supply) s =
        .listSteps r.id :: .listOverrides (.forRouting r (s.store.listSteps r.id)) ::
          (if ResolvedStep.specIds resolved = [] then []
          else [.findDataSpecs (ResolvedStep.specIds resolved)]) ∧
      (readCompilation r).run.run (MemoryState.backend supply) s = (.ok c, s) ∧
      c.core.steps = resolved.map ResolvedStep.compile ∧
      resolved = r.resolve (s.store.listSteps r.id) s.store.overrides ∧
      c.violations = ResolvedStep.validate (r.resolve (s.store.listSteps r.id) s.store.overrides)
        s.store.dataSpecs := by
  refine ⟨s.store.resolvedSteps r, s.store.compilation r, rfl, ?_, readCompilation_run hsteps,
    s.store.steps_compilation r, s.store.resolvedSteps_eq_tables r, ?_⟩
  · unfold readCompilation
    rw [calls_bind_of_ok (t := s) rfl, if_neg (by rwa [List.isEmpty_iff]),
      calls_bind_of_ok (t := s) rfl, calls_bind_of_ok (specsOf_run _), calls_specsOf]
    exact congrArg (fun calls => _ :: _ :: calls) (List.append_nil _)
  · rw [MemoryStore.compilation_eq_tables]
    rfl

end Service

/-! ## Two steps, one with a source key -/

namespace KeyedSteps

/-- An override of the second step, by its source key. -/
def byKey : Override :=
  { SingleStep.manual with
    id := "o2"
    scope := .step
    routingId := none
    sourceStepKey := some "k"
    requiresFAI := some true }

/-- An override of the second step, by its id. It names a spec that does not exist. -/
def byId : Override :=
  { SingleStep.manual with
    id := "o3"
    scope := .step
    routingId := none
    routingStepId := some "s2"
    stationType := none
    dataSpecIds := some ["d1", "d2"] }

/-- The steps are stored in descending order. The overrides were all updated at one time, so their
ids decide; one spec id was given out twice. -/
def store : MemoryStore :=
  { MemoryStore.empty with
    routings := [SingleStep.routing]
    steps := [⟨"s2", "r1", 2, "op", some "k", none, some "g", false⟩,
      ⟨"s1", "r1", 1, "op", none, none, some "g", false⟩]
    dataSpecs := [⟨"d1", "other", "Torque"⟩, ⟨"d1", "op", "Torque"⟩]
    overrides := [SingleStep.manual, byId, byKey] }

/-- The steps are compiled in the reverse of the order in which they are stored. -/
theorem ascending_listSteps :
    RoutingStep.ascending (store.listSteps SingleStep.routing.id) = store.steps.reverse := by
  have hperm : (store.listSteps SingleStep.routing.id).Perm store.steps.reverse :=
    (List.reverse_perm _).symm
  rw [← RoutingStep.ascending_perm hperm (by decide)]
  exact List.mergeSort_of_pairwise (by decide)

end KeyedSteps

/-- Of the two specs that the second step names one is read, and the other one is reported. -/
theorem Service.readCompilation_tables_keyedSteps : ∃ c,
    (readCompilation SingleStep.routing).run.run (MemoryState.backend SingleStep.supply)
      (.start KeyedSteps.store) = (.ok c, .start KeyedSteps.store) ∧
    c.violations = [⟨2, .dataSpecNotFound, "Data collection spec d2 not found"⟩] := by
  obtain ⟨_, c, -, -, hrun, -, -, hviolations⟩ := readCompilation_tables SingleStep.supply
    (s := .start KeyedSteps.store) (r := SingleStep.routing) (by decide)
  rw [Routing.resolve, MemoryState.start, KeyedSteps.ascending_listSteps] at hviolations
  exact ⟨c, hrun, hviolations.trans (by decide +kernel)⟩

end RoutePlan
