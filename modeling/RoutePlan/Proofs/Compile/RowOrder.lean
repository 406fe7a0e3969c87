import RoutePlan.Proofs.Compile.Prefetch
import RoutePlan.Store.Disturbance

/-!
# The order in which rows are read

A store promises no order for the steps and the specs that it returns. What a route compiles to does
not depend on it: if no two steps have the same number and no two overrides or specs the same id,
the rows may come in any order (`ReadRows.compilation_reordered`). The steps are sorted by their
numbers, the latest override is the same in every order (`Override.latest?_perm`), and so is the
spec with an id.
-/

namespace RoutePlan

/-- Each step is resolved the same in every order of the overrides. -/
theorem RoutingStep.resolve_perm (step : RoutingStep) (r : Routing) {rows rows' : List Override}
    (hperm : rows.Perm rows') (h : Override.Ranked rows) :
    step.resolve r rows' = step.resolve r rows := by
  have hlatest : ∀ p : Override → Bool,
      Override.latest? (rows'.filter p) = Override.latest? (rows.filter p) :=
    fun p => Override.latest?_perm (hperm.filter p) (h.filter p)
  simp only [RoutingStep.resolve, RoutingStep.overrides, Routing.overrides, hlatest]

/-- Steps with different numbers are resolved the same in every order of the rows. -/
theorem Routing.resolve_perm (r : Routing) {steps steps' : List RoutingStep}
    {rows rows' : List Override} (hsteps : steps.Perm steps') (hrows : rows.Perm rows')
    (hnos : (steps.map (·.stepNo)).Nodup) (hranked : Override.Ranked rows) :
    r.resolve steps' rows' = r.resolve steps rows := by
  rw [resolve, resolve, RoutingStep.ascending_perm hsteps hnos]
  exact List.map_congr_left fun step _ => step.resolve_perm r hrows hranked

namespace DataSpec

/-- A spec that is found by an id is one of the specs and has the id. -/
theorem of_find?_eq_some {specs : List DataSpec} {id : String} {spec : DataSpec}
    (h : find? specs id = some spec) : spec ∈ specs ∧ spec.id = id := by
  rw [find?] at h
  exact ⟨List.mem_reverse.1 (List.mem_of_find?_eq_some h), by simpa using List.find?_some h⟩

/-- Among specs with different ids the spec with an id is the one that has it. -/
theorem find?_eq_some_of_nodup {specs : List DataSpec} (hids : (specs.map (·.id)).Nodup)
    {id : String} {spec : DataSpec} : find? specs id = some spec ↔ spec ∈ specs ∧ spec.id = id := by
  refine ⟨of_find?_eq_some, ?_⟩
  rintro ⟨hspec, rfl⟩
  obtain ⟨found, hfound⟩ : ∃ found, find? specs spec.id = some found :=
    Option.isSome_iff_exists.1 (List.find?_isSome.2
      ⟨spec, List.mem_reverse.2 hspec, beq_self_eq_true spec.id⟩)
  obtain ⟨hmem, hid⟩ := of_find?_eq_some hfound
  rw [hfound, List.inj_on_of_nodup_map hids hmem hspec hid]

/-- Among specs with different ids the same one is found in every order. -/
theorem find?_perm {specs specs' : List DataSpec} (hperm : specs.Perm specs')
    (hids : (specs.map (·.id)).Nodup) : find? specs' = find? specs := by
  funext id
  refine Option.ext fun spec => ?_
  rw [find?_eq_some_of_nodup ((hperm.map _).nodup_iff.1 hids), find?_eq_some_of_nodup hids,
    hperm.mem_iff]

end DataSpec

/-! ## The rows of a compilation -/

/-- The rows that a store returns to a compilation of a route: the steps, the overrides that the
filter selects, and the specs that were asked for. -/
structure ReadRows where
  steps : List RoutingStep
  overrides : List Override
  specs : List DataSpec

namespace ReadRows

/-- The same rows, in another order. -/
structure Reordered (rows rows' : ReadRows) : Prop where
  steps : rows.steps.Perm rows'.steps
  overrides : rows.overrides.Perm rows'.overrides
  specs : rows.specs.Perm rows'.specs

/-- Steps are told apart by their numbers, overrides and specs by their ids. -/
structure Distinct (rows : ReadRows) : Prop where
  stepNos : (rows.steps.map (·.stepNo)).Nodup
  overrideIds : (rows.overrides.map (·.id)).Nodup
  specIds : (rows.specs.map (·.id)).Nodup

/-- What the rows compile to. Without ids no specs are asked for. -/
def compilation (rows : ReadRows) (r : Routing) : Compilation :=
  .ofReads r rows.steps rows.overrides fun ids => if ids.isEmpty then [] else rows.specs

variable {rows rows' : ReadRows}

/-- Rows that can be told apart compile to the same in every order. -/
theorem compilation_perm (h : rows.Reordered rows') (hdistinct : rows.Distinct) (r : Routing) :
    rows'.compilation r = rows.compilation r := by
  have hresolved := r.resolve_perm h.steps h.overrides hdistinct.stepNos
    (.of_nodup_ids hdistinct.overrideIds)
  have hreport : ∀ steps, ResolvedStep.validate steps rows'.specs =
      ResolvedStep.validate steps rows.specs := fun steps =>
    ResolvedStep.validate_congr fun _ _ _ _ => by rw [DataSpec.find?_perm h.specs hdistinct.specIds]
  simp only [compilation, Compilation.ofReads, hresolved]
  split
  · rfl
  · rw [Compilation.ofSteps, Compilation.ofSteps, hreport]

end ReadRows

/-- In the state `s` the backend answers the reads of a compilation of the route with these rows. -/
structure Backend.Returns {σ : Type} (backend : Backend σ) (s : σ) (r : Routing) (rows : ReadRows) :
    Prop where
  steps : backend.answer (.listSteps r.id) s = (.ok rows.steps, s)
  overrides : backend.answer (.listOverrides (.forRouting r rows.steps)) s =
    (.ok rows.overrides, s)
  specs : backend.answer
    (.findDataSpecs (ResolvedStep.specIds (r.resolve rows.steps rows.overrides))) s =
      (.ok rows.specs, s)

/-- Whatever the backend, the rows that it returns are compiled. -/
theorem Service.readCompilation_run_of_returns {σ : Type} {backend : Backend σ} {s : σ}
    {r : Routing} {rows : ReadRows} (h : backend.Returns s r rows) :
    (readCompilation r).run.run backend s =
      (if rows.steps = [] then .error (.routingEmpty r.code) else .ok (rows.compilation r), s) := by
  let ids := ResolvedStep.specIds (r.resolve rows.steps rows.overrides)
  have hspecs : (specsOf ids).run.run backend s =
      (.ok (if ids.isEmpty then [] else rows.specs), s) := by
    unfold specsOf
    split
    · rfl
    · exact call_run_of_ok h.specs
  unfold readCompilation
  rw [run_bind_of_ok (call_run_of_ok h.steps)]
  by_cases hsteps : rows.steps = []
  · rw [if_pos (List.isEmpty_iff.2 hsteps), if_pos hsteps]
    rfl
  · rw [if_neg (mt List.isEmpty_iff.1 hsteps), if_neg hsteps,
      run_bind_of_ok (call_run_of_ok h.overrides)]
    exact run_bind_of_ok hspecs _

/-- **The order of rows does not matter.** If the steps, the overrides and the specs that a store
returns come in another order, the compiled steps, the report in its order, the signature and the
decision on every prior version stay the same; and so does the outcome of reading them, whether it
is a compilation or a refusal, on all backends that return these rows. -/
theorem ReadRows.compilation_reordered {rows rows' : ReadRows} (h : rows.Reordered rows')
    (hdistinct : rows.Distinct) (r : Routing) :
    (rows'.compilation r).core.steps = (rows.compilation r).core.steps ∧
      (rows'.compilation r).violations = (rows.compilation r).violations ∧
      (rows'.compilation r).core.signature = (rows.compilation r).core.signature ∧
      (∀ prior, (rows'.compilation r).decision prior = (rows.compilation r).decision prior) ∧
      ∀ {σ τ : Type} (b : Backend σ) (b' : Backend τ) (s : σ) (t : τ),
        b.Returns s r rows → b'.Returns t r rows' →
        ((Service.readCompilation r).run.run b' t).1 =
          ((Service.readCompilation r).run.run b s).1 := by
  have hcompilation := compilation_perm h hdistinct r
  rw [hcompilation]
  refine ⟨rfl, rfl, rfl, fun _ => rfl, fun b b' s t hrows hrows' => ?_⟩
  have hempty : rows'.steps = [] ↔ rows.steps = [] := by
    rw [← List.length_eq_zero_iff, ← List.length_eq_zero_iff, h.steps.length_eq]
  simp only [Service.readCompilation_run_of_returns hrows,
    Service.readCompilation_run_of_returns hrows', hcompilation, hempty]

namespace KeyedSteps

/-- The store with different ids of specs. -/
def distinct : MemoryStore :=
  { store with dataSpecs := [⟨"d1", "op", "Torque"⟩, ⟨"d2", "other", "Torque"⟩] }

/-- What the store returns to a compilation of the route. -/
def rows : ReadRows where
  steps := distinct.listSteps "r1"
  overrides := distinct.listOverrides (.forRouting SingleStep.routing (distinct.listSteps "r1"))
  specs := distinct.findDataSpecs ["d1", "d2"]

/-- The same rows in reverse. -/
def reversed : ReadRows := ⟨rows.steps.reverse, rows.overrides.reverse, rows.specs.reverse⟩

/-- The reversed rows are the same rows. -/
theorem reordered : rows.Reordered reversed :=
  ⟨(List.reverse_perm _).symm, (List.reverse_perm _).symm, (List.reverse_perm _).symm⟩

/-- The rows can be told apart. -/
theorem distinct_rows : rows.Distinct where
  stepNos := by decide
  overrideIds := ((List.mergeSort_perm ..).map _).nodup_iff.2 (by decide)
  specIds := by decide

/-- The ids of the specs that the rows name. -/
theorem specIds_rows : ResolvedStep.specIds (SingleStep.routing.resolve rows.steps rows.overrides) =
    ["d1", "d2"] := by
  have hsteps : RoutingStep.ascending (distinct.listSteps SingleStep.routing.id) =
    store.steps.reverse := ascending_listSteps
  have htables := distinct.resolvedSteps_eq_tables SingleStep.routing
  rw [Routing.resolve, hsteps] at htables
  exact (congrArg ResolvedStep.specIds htables).trans (by decide +kernel)

/-- The reversed rows name the same specs. -/
theorem specIds_reversed : ResolvedStep.specIds
    (SingleStep.routing.resolve reversed.steps reversed.overrides) = ["d1", "d2"] := by
  rw [SingleStep.routing.resolve_perm reordered.steps reordered.overrides distinct_rows.stepNos
    (.of_nodup_ids distinct_rows.overrideIds), specIds_rows]

end KeyedSteps

/-- A store that returns its rows in reverse compiles to the same. -/
theorem ReadRows.compilation_reordered_keyedSteps :
    ((Service.readCompilation SingleStep.routing).run.run (DisturbedStore.backend SingleStep.supply)
        (.start KeyedSteps.distinct true)).1 =
      ((Service.readCompilation SingleStep.routing).run.run (MemoryState.backend SingleStep.supply)
        (.start KeyedSteps.distinct)).1 := by
  have hrows : (MemoryState.backend SingleStep.supply).Returns (.start KeyedSteps.distinct)
      SingleStep.routing KeyedSteps.rows :=
    ⟨rfl, rfl, by rw [KeyedSteps.specIds_rows]; rfl⟩
  -- the filter is made from the reversed steps, but it selects the same rows
  have hselected : KeyedSteps.distinct.overrides.filter
      (OverrideFilter.forRouting SingleStep.routing KeyedSteps.reversed.steps).selects =
        KeyedSteps.distinct.overrides.filter
          (OverrideFilter.forRouting SingleStep.routing KeyedSteps.rows.steps).selects := by decide
  have hlisted := congrArg (fun rows => (Override.mostRecentFirst rows).reverse) hselected
  have hreversed : (DisturbedStore.backend SingleStep.supply).Returns
      (.start KeyedSteps.distinct true) SingleStep.routing KeyedSteps.reversed :=
    ⟨rfl, congrArg (fun rows => (Except.ok rows, DisturbedStore.start _ true)) hlisted,
      by rw [KeyedSteps.specIds_reversed]; rfl⟩
  exact (compilation_reordered KeyedSteps.reordered KeyedSteps.distinct_rows
    SingleStep.routing).2.2.2.2 _ _ _ _ hrows hreversed

end RoutePlan
