import RoutePlan.Proofs.Compile.Executable

/-!
# What a report says

A report lists the violations of all steps. What a violation is can be said of one step, one rule
and one position among the specs that the step collects (`ResolvedStep.Breaks`), without the way in
which the rules are checked. The report has one entry for each such violation and no other entries,
in ascending order of step, rule and position (`ResolvedStep.validate_exact`). The two rules on
specs are checked in one pass over the ids, but they are reported one after the other; that the
order comes out right is the order of the rules within a step (`ResolvedStep.findings`).

The steps of a route are resolved in ascending order, so if their numbers differ the order of steps
in a report is that of the numbers.
-/

namespace RoutePlan

/-- The number of a rule, which is its place in the order of a report. -/
def Rule.number : Rule → Nat
  | stationTypeMissing => 1
  | stationConstraintMissing => 2
  | ingestMappingMissing => 3
  | dataSpecNotFound => 4
  | dataSpecOperationMismatch => 5

/-- All rules in ascending order. -/
def Rule.all : List Rule :=
  [stationTypeMissing, stationConstraintMissing, ingestMappingMissing, dataSpecNotFound,
    dataSpecOperationMismatch]

/-- Every rule is listed. -/
theorem Rule.mem_all (rule : Rule) : rule ∈ all := by cases rule <;> decide

/-- The rules are listed in ascending order. -/
theorem Rule.pairwise_all : all.Pairwise fun a b => a.number < b.number := by decide

/-- No spec is found by an id exactly if none has it. -/
theorem DataSpec.find?_eq_none {specs : List DataSpec} {id : String} :
    find? specs id = none ↔ ∀ spec ∈ specs, spec.id ≠ id := by
  simp [find?]

/-- The places of a list are in ascending order. -/
theorem pairwise_zipIdx {α : Type} (items : List α) :
    items.zipIdx.Pairwise fun a b => a.2 < b.2 := by
  rw [← List.pairwise_map (f := Prod.snd), List.zipIdx_map_snd]
  exact List.pairwise_lt_range'

/-! ## Violations of one step -/

namespace ResolvedStep

variable {specs : List DataSpec} {s : ResolvedStep} {rule : Rule} {i : Nat} {v : Violation}

/-- The step breaks a rule, and this is the entry for it. A rule on specs may be broken at several
positions in the list of specs that the step collects; the other rules are broken at position 0. -/
inductive Breaks (specs : List DataSpec) (s : ResolvedStep) : Rule → Nat → Violation → Prop
  | noType (h : s.stationType = none) :
    s.Breaks specs .stationTypeMissing 0
      ⟨s.stepNo, .stationTypeMissing, "Station type is required"⟩
  | noStations (hgroup : s.stationGroupId = none) (hstations : s.allowedStationIds = []) :
    s.Breaks specs .stationConstraintMissing 0
      ⟨s.stepNo, .stationConstraintMissing, "Station group or allowed stations required"⟩
  | noMapping {t : StationType} (htype : s.stationType = some t)
    (hneeds : t ∈ [StationType.auto, .batch, .test]) (hmapping : s.ingestMapping = none) :
    s.Breaks specs .ingestMappingMissing 0
      ⟨s.stepNo, .ingestMappingMissing, "Ingest mapping is required for " ++ t.name ++ " stations"⟩
  | unknownSpec {i : Nat} {id : String} (hid : s.dataSpecIds[i]? = some id)
    (hspecs : ∀ spec ∈ specs, spec.id ≠ id) :
    s.Breaks specs .dataSpecNotFound i
      ⟨s.stepNo, .dataSpecNotFound, "Data collection spec " ++ id ++ " not found"⟩
  | foreignSpec {i : Nat} {id : String} {spec : DataSpec} (hid : s.dataSpecIds[i]? = some id)
    (hspec : DataSpec.IsLast specs id spec) (hoperation : spec.operationId ≠ s.operationId) :
    s.Breaks specs .dataSpecOperationMismatch i
      ⟨s.stepNo, .dataSpecOperationMismatch, "Data collection spec " ++ id ++
        " belongs to operation " ++ spec.operationId ++ ", step uses " ++ s.operationId⟩

/-- The entry for a broken rule names the step and the rule. -/
theorem Breaks.names (h : s.Breaks specs rule i v) : v.stepNo = s.stepNo ∧ v.rule = rule := by
  cases h <;> exact ⟨rfl, rfl⟩

/-- The rule on the station type has its one entry exactly if there is no type. -/
theorem mem_missingType : v ∈ s.missingType ↔ s.stationType = none ∧
    v = ⟨s.stepNo, .stationTypeMissing, "Station type is required"⟩ := by
  unfold missingType
  cases s.stationType <;> simp [violation]

/-- The rule on the stations has its one entry exactly if neither a group nor a station is given. -/
theorem mem_missingConstraint : v ∈ s.missingConstraint ↔
    s.stationGroupId = none ∧ s.allowedStationIds = [] ∧
      v = ⟨s.stepNo, .stationConstraintMissing, "Station group or allowed stations required"⟩ := by
  unfold missingConstraint
  cases s.stationGroupId <;> cases s.allowedStationIds <;> simp [violation]

/-- The rule on the mapping has its one entry exactly if there is none where data is delivered by
machine. -/
theorem mem_missingMapping : v ∈ s.missingMapping ↔
    ∃ t, s.stationType = some t ∧ t ∈ [StationType.auto, .batch, .test] ∧ s.ingestMapping = none ∧
      v = ⟨s.stepNo, .ingestMappingMissing,
        "Ingest mapping is required for " ++ t.name ++ " stations"⟩ := by
  unfold missingMapping
  cases s.stationType with
  | none => simp
  | some t => cases t <;> cases s.ingestMapping <;> simp [StationBinding.bind, violation]

/-- The entry for an unknown spec is made exactly if no spec has the id. -/
theorem unknownSpec_eq_some {id : String} : s.unknownSpec specs id = some v ↔
    (∀ spec ∈ specs, spec.id ≠ id) ∧
      v = ⟨s.stepNo, .dataSpecNotFound, "Data collection spec " ++ id ++ " not found"⟩ := by
  rw [← DataSpec.find?_eq_none, unknownSpec]
  cases DataSpec.find? specs id <;> simp [violation, eq_comm]

/-- The entry for a spec of another operation is made exactly if the last spec with the id is
one. -/
theorem foreignSpec_eq_some {id : String} : s.foreignSpec specs id = some v ↔
    ∃ spec, DataSpec.IsLast specs id spec ∧ spec.operationId ≠ s.operationId ∧
      v = ⟨s.stepNo, .dataSpecOperationMismatch, "Data collection spec " ++ id ++
        " belongs to operation " ++ spec.operationId ++ ", step uses " ++ s.operationId⟩ := by
  simp only [← DataSpec.find?_eq_some, foreignSpec]
  cases hfind : DataSpec.find? specs id with
  | none => simp
  | some spec =>
    obtain ⟨-, -, -, hid, -⟩ := DataSpec.find?_eq_some.1 hfind
    by_cases hoperation : spec.operationId = s.operationId
    · simp [hoperation]
    · simp [hoperation, hid, violation, @eq_comm _ v]

/-- The entries of one rule, each with its position. -/
def entries (specs : List DataSpec) (s : ResolvedStep) : Rule → List (Nat × Violation)
  | .stationTypeMissing => s.missingType.map (0, ·)
  | .stationConstraintMissing => s.missingConstraint.map (0, ·)
  | .ingestMappingMissing => s.missingMapping.map (0, ·)
  | .dataSpecNotFound => atPositions (s.unknownSpec specs) s.dataSpecIds
  | .dataSpecOperationMismatch => atPositions (s.foreignSpec specs) s.dataSpecIds
where
  /-- What is found for each id, with the position of the id. -/
  atPositions (find : String → Option Violation) (ids : List String) : List (Nat × Violation) :=
    ids.zipIdx.filterMap fun (id, i) => (find id).map (i, ·)

/-- Positions left out, the entries at positions are those of the ids in turn. -/
theorem map_snd_atPositions (find : String → Option Violation) (ids : List String) :
    (entries.atPositions find ids).map Prod.snd = ids.filterMap find := by
  rw [entries.atPositions, List.map_filterMap]
  conv_rhs => rw [← List.zipIdx_map_fst 0 ids, List.filterMap_map]
  congr 1
  funext ⟨id, i⟩
  cases h : find id <;> simp [h]

/-- An entry at a position is that of the id at the position. -/
theorem mem_atPositions {find : String → Option Violation} {ids : List String} :
    (i, v) ∈ entries.atPositions find ids ↔ ∃ id, ids[i]? = some id ∧ find id = some v := by
  simp only [entries.atPositions, List.mem_filterMap, Prod.exists, List.mem_zipIdx_iff_getElem?,
    Option.map_eq_some_iff, Prod.mk.injEq]
  constructor
  · rintro ⟨id, j, hid, w, hw, rfl, rfl⟩
    exact ⟨id, hid, hw⟩
  · rintro ⟨id, hid, hv⟩
    exact ⟨id, i, hid, v, hv, rfl, rfl⟩

/-- Positions left out, the entries of all rules are the violations. -/
theorem violations_eq_entries (specs : List DataSpec) (s : ResolvedStep) :
    s.violations specs = Rule.all.flatMap fun rule => (s.entries specs rule).map Prod.snd := by
  have hfirst (l : List Violation) : (l.map ((0 : Nat), ·)).map Prod.snd = l := by
    rw [List.map_map]
    exact List.map_id l
  simp only [Rule.all, List.flatMap_cons, List.flatMap_nil, entries, map_snd_atPositions, hfirst,
    violations, List.append_nil, List.append_assoc]

/-- The entries of a rule are those for which the rule is broken. -/
theorem mem_entries : (i, v) ∈ s.entries specs rule ↔ s.Breaks specs rule i v := by
  have hfirst {l : List Violation} : (i, v) ∈ l.map ((0 : Nat), ·) ↔ v ∈ l ∧ i = 0 := by
    simp [eq_comm]
  cases rule with
  | stationTypeMissing =>
    rw [entries, hfirst, mem_missingType]
    constructor
    · rintro ⟨⟨htype, rfl⟩, rfl⟩
      exact .noType htype
    · rintro ⟨htype⟩
      exact ⟨⟨htype, rfl⟩, rfl⟩
  | stationConstraintMissing =>
    rw [entries, hfirst, mem_missingConstraint]
    constructor
    · rintro ⟨⟨hgroup, hstations, rfl⟩, rfl⟩
      exact .noStations hgroup hstations
    · rintro ⟨⟩
      exact ⟨⟨‹_›, ‹_›, rfl⟩, rfl⟩
  | ingestMappingMissing =>
    rw [entries, hfirst, mem_missingMapping]
    constructor
    · rintro ⟨⟨t, htype, hneeds, hmapping, rfl⟩, rfl⟩
      exact .noMapping htype hneeds hmapping
    · intro h
      cases h with
      | noMapping htype hneeds hmapping => exact ⟨⟨_, htype, hneeds, hmapping, rfl⟩, rfl⟩
  | dataSpecNotFound =>
    simp only [entries, mem_atPositions, unknownSpec_eq_some]
    constructor
    · rintro ⟨id, hid, hspecs, rfl⟩
      exact .unknownSpec hid hspecs
    · intro h
      cases h with
      | unknownSpec hid hspecs => exact ⟨_, hid, hspecs, rfl⟩
  | dataSpecOperationMismatch =>
    simp only [entries, mem_atPositions, foreignSpec_eq_some]
    constructor
    · rintro ⟨id, hid, spec, hspec, hoperation, rfl⟩
      exact .foreignSpec hid hspec hoperation
    · intro h
      cases h with
      | foreignSpec hid hspec hoperation => exact ⟨_, hid, _, hspec, hoperation, rfl⟩

/-- The entries of a rule are in ascending order of position. -/
theorem pairwise_entries (specs : List DataSpec) (s : ResolvedStep) (rule : Rule) :
    (s.entries specs rule).Pairwise fun a b => a.1 < b.1 := by
  have hpositions (find : String → Option Violation) (ids : List String) :
      (entries.atPositions find ids).Pairwise fun a b => a.1 < b.1 := by
    refine List.pairwise_filterMap.2 ((pairwise_zipIdx ids).imp ?_)
    rintro ⟨id, i⟩ ⟨id', j⟩ hij x hx y hy
    obtain ⟨v, -, rfl⟩ := Option.map_eq_some_iff.1 hx
    obtain ⟨w, -, rfl⟩ := Option.map_eq_some_iff.1 hy
    exact hij
  cases rule with
  | stationTypeMissing =>
    rw [entries, missingType]
    split <;> simp
  | stationConstraintMissing =>
    rw [entries, missingConstraint]
    split <;> simp
  | ingestMappingMissing =>
    rw [entries, missingMapping]
    split
    · simp
    · split <;> simp
  | dataSpecNotFound => exact hpositions _ _
  | dataSpecOperationMismatch => exact hpositions _ _

end ResolvedStep

/-! ## Violations of all steps -/

/-- An entry of a report together with what it is about: a step, by its place among the steps, and a
position among the specs that the step collects. -/
structure Finding where
  step : Nat
  position : Nat
  violation : Violation

namespace Finding

/-- The step number that the entry names. -/
def stepNo (f : Finding) : Int32 := f.violation.stepNo

/-- A step at this place breaks the rule at this position, and this is the entry for it. -/
def IsOf (f : Finding) (steps : List ResolvedStep) (specs : List DataSpec) : Prop :=
  ∃ s, steps[f.step]? = some s ∧ s.Breaks specs f.violation.rule f.position f.violation

/-- The order of a report: by a key of the step, then by rule, then by position. -/
def Precedes {κ : Type} [LT κ] (key : Finding → κ) (a b : Finding) : Prop :=
  key a < key b ∨ (key a = key b ∧ (a.violation.rule.number < b.violation.rule.number ∨
    (a.violation.rule = b.violation.rule ∧ a.position < b.position)))

end Finding

namespace ResolvedStep

variable {specs : List DataSpec} {steps : List ResolvedStep} {f : Finding}

/-- The violations of one step as findings. -/
def findings (specs : List DataSpec) (s : ResolvedStep) (n : Nat) : List Finding :=
  Rule.all.flatMap fun rule => (s.entries specs rule).map fun (i, v) => ⟨n, i, v⟩

/-- The findings of a step have its violations. -/
theorem map_violation_findings (specs : List DataSpec) (s : ResolvedStep) (n : Nat) :
    (s.findings specs n).map (·.violation) = s.violations specs := by
  rw [violations_eq_entries, findings, List.map_flatMap]
  simp only [List.map_map]
  rfl

/-- The findings of a step are the entries for the rules that it breaks. -/
theorem mem_findings {s : ResolvedStep} {n : Nat} : f ∈ s.findings specs n ↔
    f.step = n ∧ s.Breaks specs f.violation.rule f.position f.violation := by
  simp only [findings, List.mem_flatMap, List.mem_map, Prod.exists, mem_entries]
  constructor
  · rintro ⟨rule, -, i, v, hbreaks, rfl⟩
    exact ⟨rfl, by rwa [hbreaks.names.2]⟩
  · rintro ⟨rfl, hbreaks⟩
    exact ⟨_, Rule.mem_all _, _, _, hbreaks, rfl⟩

/-- The findings of a step are in the order of a report. -/
theorem pairwise_findings (specs : List DataSpec) (s : ResolvedStep) (n : Nat) :
    (s.findings specs n).Pairwise (Finding.Precedes Finding.step) := by
  refine List.pairwise_flatMap.2 ⟨fun rule _ => ?_, Rule.pairwise_all.imp fun {a b} hab => ?_⟩
  · refine List.pairwise_map.2
      ((s.pairwise_entries specs rule).imp_of_mem fun {x y} hx hy hxy => ?_)
    have hrule := (mem_entries.1 hx).names.2.trans (mem_entries.1 hy).names.2.symm
    exact .inr ⟨rfl, .inr ⟨hrule, hxy⟩⟩
  · simp only [List.forall_mem_map]
    intro x hx y hy
    have ha := (mem_entries.1 hx).names.2
    have hb := (mem_entries.1 hy).names.2
    exact .inr ⟨rfl, .inl (by rwa [ha, hb])⟩

/-- The findings of all steps, one step after another. -/
def allFindings (specs : List DataSpec) (steps : List ResolvedStep) : List Finding :=
  steps.zipIdx.flatMap fun (s, n) => s.findings specs n

/-- The report has the violations of all findings. -/
theorem validate_eq_allFindings (specs : List DataSpec) (steps : List ResolvedStep) :
    validate steps specs = (allFindings specs steps).map (·.violation) := by
  rw [allFindings, List.map_flatMap, validate]
  simp only [map_violation_findings]
  conv_lhs => rw [← List.zipIdx_map_fst 0 steps, List.flatMap_map]

/-- The findings of all steps are the entries for the rules that some step breaks. -/
theorem mem_allFindings : f ∈ allFindings specs steps ↔ f.IsOf steps specs := by
  simp only [allFindings, List.mem_flatMap, Prod.exists, mem_findings,
    List.mem_zipIdx_iff_getElem?, Finding.IsOf]
  constructor
  · rintro ⟨s, n, hs, rfl, hbreaks⟩
    exact ⟨s, hs, hbreaks⟩
  · rintro ⟨s, hs, hbreaks⟩
    exact ⟨s, f.step, hs, rfl, hbreaks⟩

/-- The findings of all steps are in the order of a report. -/
theorem pairwise_allFindings (specs : List DataSpec) (steps : List ResolvedStep) :
    (allFindings specs steps).Pairwise (Finding.Precedes Finding.step) := by
  refine List.pairwise_flatMap.2
    ⟨fun sn _ => pairwise_findings .., (pairwise_zipIdx steps).imp ?_⟩
  rintro ⟨s, m⟩ ⟨s', n⟩ hmn x hx y hy
  obtain ⟨rfl, -⟩ := mem_findings.1 hx
  obtain ⟨rfl, -⟩ := mem_findings.1 hy
  exact .inl hmn

end ResolvedStep

/-- The resolved steps of a route are in strictly ascending order if no two have the same number. -/
theorem Routing.pairwise_resolve (r : Routing) {steps : List RoutingStep}
    (overrides : List Override) (hnos : (steps.map (·.stepNo)).Nodup) :
    (r.resolve steps overrides).Pairwise fun a b => a.stepNo < b.stepNo := by
  have hascending := pairwise_mergeSort_key RoutingStep.stepNo steps
  have hdistinct : (RoutingStep.ascending steps).Pairwise fun a b => a.stepNo ≠ b.stepNo :=
    List.pairwise_map.1 (((List.mergeSort_perm ..).map _).nodup_iff.2 hnos)
  refine List.pairwise_map.2 ((hascending.and hdistinct).imp fun {a b} h => ?_)
  exact Int32.lt_of_le_of_ne h.1 h.2

/-- If the step numbers ascend with the steps, a report is also in the order of step numbers. -/
theorem Finding.Precedes.byStepNo {steps : List ResolvedStep} {specs : List DataSpec}
    (hsteps : steps.Pairwise fun a b => a.stepNo < b.stepNo) {f g : Finding}
    (hf : f.IsOf steps specs) (hg : g.IsOf steps specs) (h : f.Precedes step g) :
    f.Precedes stepNo g := by
  obtain ⟨s, hs, hbreaks⟩ := hf
  obtain ⟨s', hs', hbreaks'⟩ := hg
  rcases h with h | ⟨hstep, h⟩
  · obtain ⟨hm, rfl⟩ := List.getElem?_eq_some_iff.1 hs
    obtain ⟨hn, rfl⟩ := List.getElem?_eq_some_iff.1 hs'
    refine .inl ?_
    rw [stepNo, stepNo, hbreaks.names.1, hbreaks'.names.1]
    exact List.pairwise_iff_getElem.1 hsteps _ _ hm hn h
  · have hsame : s = s' := by
      rw [hstep] at hs
      exact Option.some.inj (hs.symm.trans hs')
    refine .inr ⟨?_, h⟩
    rw [stepNo, stepNo, hbreaks.names.1, hbreaks'.names.1, hsame]

/-- **Reports are exact.** The report of some steps has one entry for each violation, with the
number of the step that breaks the rule, and no other entries; the entries are in strictly ascending
order of step, rule and position, so none is there twice. The steps may come in parts. If they are
the resolved steps of a route whose steps have different numbers, the order of the entries is that
of step numbers, rules and positions. -/
theorem ResolvedStep.validate_exact (specs : List DataSpec) (steps : List ResolvedStep) :
    (∃ findings : List Finding, validate steps specs = findings.map (·.violation) ∧
      (∀ f, f ∈ findings ↔ f.IsOf steps specs) ∧
      findings.Pairwise (Finding.Precedes Finding.step) ∧
      ∀ (r : Routing) (designed : List RoutingStep) (overrides : List Override),
        (designed.map (·.stepNo)).Nodup → steps = r.resolve designed overrides →
          findings.Pairwise (Finding.Precedes Finding.stepNo)) ∧
    ∀ more, validate (steps ++ more) specs = validate steps specs ++ validate more specs := by
  have hordered := pairwise_allFindings specs steps
  refine ⟨⟨allFindings specs steps, validate_eq_allFindings specs steps,
    fun f => mem_allFindings, hordered, ?_⟩, fun more => List.flatMap_append⟩
  intro r designed overrides hnos hsteps
  have hascending := r.pairwise_resolve overrides hnos
  rw [← hsteps] at hascending
  exact hordered.imp_of_mem fun hf hg h =>
    h.byStepNo hascending (mem_allFindings.1 hf) (mem_allFindings.1 hg)

namespace KeyedSteps

/-- An override of the second step that collects an unknown spec twice, and between the two a spec
of another operation. -/
def collecting : Override := { byId with dataSpecIds := some ["d2", "d3", "d2"] }

/-- The resolved steps under this override. -/
def collectingSteps : List ResolvedStep := SingleStep.routing.resolve store.steps [collecting]

def specs : List DataSpec := store.dataSpecs ++ [⟨"d3", "other", "Torque"⟩]

/-- The steps are resolved in the reverse of the order in which they are stored. -/
theorem collectingSteps_eq : collectingSteps =
    store.steps.reverse.map fun step => step.resolve SingleStep.routing [collecting] :=
  congrArg (List.map _) ascending_listSteps

end KeyedSteps

/-- A spec that is listed twice is reported twice, and the report is in order. -/
theorem ResolvedStep.validate_exact_repeatedSpec : ∃ findings : List Finding,
    validate KeyedSteps.collectingSteps KeyedSteps.specs = findings.map (·.violation) ∧
      findings.Pairwise (Finding.Precedes Finding.stepNo) ∧
      ∀ i ∈ [0, 2],
        ⟨1, i, ⟨2, .dataSpecNotFound, "Data collection spec " ++ "d2" ++ " not found"⟩⟩ ∈
          findings := by
  obtain ⟨⟨findings, hreport, hmem, -, hordered⟩, -⟩ :=
    validate_exact KeyedSteps.specs KeyedSteps.collectingSteps
  refine ⟨findings, hreport, hordered _ _ _ (by decide) rfl, fun i hi => (hmem _).2 ?_⟩
  have hid : ∀ i ∈ [0, 2], ["d2", "d3", "d2"][i]? = some "d2" := by decide
  have hspecs : ∀ spec ∈ KeyedSteps.specs, spec.id ≠ "d2" := by decide
  exact ⟨_, by rw [KeyedSteps.collectingSteps_eq]; rfl, .unknownSpec (hid i hi) hspecs⟩

end RoutePlan
