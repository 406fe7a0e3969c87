import RoutePlan.Proofs.Compile.Moves
import RoutePlan.Proofs.Compile.Prefetch
import Mathlib.Data.List.Forall2

/-!
# A version that is ready can be executed

A resolved step can be executed if it says where and how it is done and what it collects exists
(`ResolvedStep.IsExecutable`). The report of a compilation is empty exactly if all steps can be
executed, although only the specs were read that some step names (`MemoryStore.violations_eq_nil`).
What the plant reads is the stored document: in a version that is ready each of its steps satisfies
the same conditions, read from its members (`Json.IsExecutableStep`), and has the station type that
was resolved.
-/

namespace RoutePlan

/-! ## Specs -/

/-- The last spec of a list that has the id. -/
def DataSpec.IsLast (specs : List DataSpec) (id : String) (spec : DataSpec) : Prop :=
  ∃ before after, specs = before ++ spec :: after ∧ spec.id = id ∧ ∀ later ∈ after, later.id ≠ id

/-- The spec that is found by an id is the last one that has it. -/
theorem DataSpec.find?_eq_some {specs : List DataSpec} {id : String} {spec : DataSpec} :
    find? specs id = some spec ↔ IsLast specs id spec := by
  rw [find?, List.find?_eq_some_iff_append]
  constructor
  · rintro ⟨hid, after, before, hspecs, hafter⟩
    refine ⟨before.reverse, after.reverse, ?_, by simpa using hid, fun later hlater => ?_⟩
    · simpa using congrArg List.reverse hspecs
    · simpa using hafter later (List.mem_reverse.1 hlater)
  · rintro ⟨before, after, rfl, rfl, hafter⟩
    refine ⟨by simp, after.reverse, before.reverse, by simp, fun later hlater => ?_⟩
    simpa using hafter later (List.mem_reverse.1 hlater)

/-! ## Resolved steps -/

namespace ResolvedStep

/-- The step has a station type and says at which stations it is done, it has a mapping if its
stations deliver data by machine, and the specs that it collects exist and belong to its operation.
-/
structure IsExecutable (specs : List DataSpec) (s : ResolvedStep) : Prop where
  stationType : s.stationType ≠ none
  stations : s.stationGroupId ≠ none ∨ s.allowedStationIds ≠ []
  mapping : ∀ t ∈ s.stationType, t ∈ [StationType.auto, .batch, .test] → s.ingestMapping ≠ none
  specs : ∀ id ∈ s.dataSpecIds, ∃ spec, DataSpec.IsLast specs id spec ∧
    spec.operationId = s.operationId

/-- The rule on the station type is kept exactly if there is one. -/
theorem missingType_eq_nil {s : ResolvedStep} : s.missingType = [] ↔ s.stationType ≠ none := by
  unfold missingType
  cases s.stationType <;> simp

/-- The rule on the stations is kept exactly if a group or some stations are given. -/
theorem missingConstraint_eq_nil {s : ResolvedStep} :
    s.missingConstraint = [] ↔ s.stationGroupId ≠ none ∨ s.allowedStationIds ≠ [] := by
  unfold missingConstraint
  cases s.stationGroupId <;> cases s.allowedStationIds <;> simp

/-- The rule on the mapping is kept exactly if there is one wherever data is delivered by
machine. -/
theorem missingMapping_eq_nil {s : ResolvedStep} : s.missingMapping = [] ↔
    ∀ t ∈ s.stationType, t ∈ [StationType.auto, .batch, .test] → s.ingestMapping ≠ none := by
  unfold missingMapping
  cases s.stationType with
  | none => simp
  | some t => cases t <;> cases s.ingestMapping <;> simp [StationBinding.bind]

/-- The two rules on specs are kept exactly if each spec exists and belongs to the operation. -/
theorem spec_violations_eq_none {s : ResolvedStep} {specs : List DataSpec} {id : String} :
    s.unknownSpec specs id = none ∧ s.foreignSpec specs id = none ↔
      ∃ spec, DataSpec.find? specs id = some spec ∧ spec.operationId = s.operationId := by
  unfold unknownSpec foreignSpec
  cases DataSpec.find? specs id <;> simp

/-- A step breaks no rule exactly if it can be executed. -/
theorem violations_eq_nil {s : ResolvedStep} {specs : List DataSpec} :
    s.violations specs = [] ↔ s.IsExecutable specs := by
  have hspecs : s.dataSpecIds.filterMap (s.unknownSpec specs) = [] ∧
      s.dataSpecIds.filterMap (s.foreignSpec specs) = [] ↔
      ∀ id ∈ s.dataSpecIds, ∃ spec, DataSpec.IsLast specs id spec ∧
        spec.operationId = s.operationId := by
    simp only [List.filterMap_eq_nil_iff, ← DataSpec.find?_eq_some, ← spec_violations_eq_none]
    exact forall₂_and.symm
  rw [violations, List.append_eq_nil_iff, List.append_eq_nil_iff, List.append_eq_nil_iff,
    List.append_eq_nil_iff, missingType_eq_nil, missingConstraint_eq_nil, missingMapping_eq_nil,
    and_assoc, and_assoc, and_assoc, hspecs]
  constructor
  · rintro ⟨htype, hstations, hmapping, hspecs⟩
    exact ⟨htype, hstations, hmapping, hspecs⟩
  · exact fun h => ⟨h.stationType, h.stations, h.mapping, h.specs⟩

/-- No violations are found exactly if all steps can be executed. -/
theorem validate_eq_nil {steps : List ResolvedStep} {specs : List DataSpec} :
    validate steps specs = [] ↔ ∀ s ∈ steps, s.IsExecutable specs := by
  simp only [validate, List.flatMap_eq_nil_iff, violations_eq_nil]

end ResolvedStep

namespace MemoryStore

/-- There is nothing to report exactly if all resolved steps can be executed. -/
theorem violations_eq_nil {s : MemoryStore} {r : Routing} : (s.compilation r).violations = [] ↔
    ∀ step ∈ s.resolvedSteps r, step.IsExecutable s.dataSpecs := by
  rw [compilation_eq, Compilation.ofSteps, ResolvedStep.validate_findDataSpecs,
    ResolvedStep.validate_eq_nil]

end MemoryStore

/-! ## Stored steps -/

/-- The conditions of `ResolvedStep.IsExecutable`, read from the members of a stored step. -/
structure Json.IsExecutableStep (specs : List DataSpec) (j : Json) : Prop where
  stationType : ∃ t : StationType, j.field? "stationType" = some (.str t.name)
  stations : (∃ group, j.field? "stationGroupId" = some (.str group)) ∨
    ∃ station more, j.field? "allowedStationIds" = some (.ofTexts (station :: more))
  mapping : ∀ name ∈ ["AUTO", "BATCH", "TEST"], j.field? "stationType" = some (.str name) →
    ∃ members, j.field? "ingestMapping" = some (.obj members)
  specs : ∃ ids operation, j.field? "dataSpecIds" = some (.ofTexts ids) ∧
    j.field? "operationId" = some (.str operation) ∧
    ∀ id ∈ ids, ∃ spec, DataSpec.IsLast specs id spec ∧ spec.operationId = operation

/-- The types whose stations deliver data by machine, by name. -/
theorem StationType.mem_of_name_mem {t : StationType} (h : t.name ∈ ["AUTO", "BATCH", "TEST"]) :
    t ∈ [StationType.auto, .batch, .test] := by
  cases t with
  | manual => exact absurd h (by decide)
  | auto | batch | test => decide

namespace ResolvedStep

variable {s : ResolvedStep} {specs : List DataSpec}

/-- A step that can be executed is stored with the station type that was resolved. -/
theorem IsExecutable.field?_stationType (h : s.IsExecutable specs) :
    s.compile.toJson.normal.field? "stationType" = s.stationType.map fun t => .str t.name := by
  obtain ⟨t, ht⟩ := Option.ne_none_iff_exists'.1 h.stationType
  have hfield : s.compile.toJson.normal.field? "stationType" =
      some (Json.str s.compile.stationType.name).normal :=
    Json.field?_normal_of_nodup s.compile.nodup_keys rfl
  have hcompiled : s.compile.stationType = t := by rw [compile, ht, Option.getD_some]
  rw [hfield, hcompiled, ht]
  rfl

/-- A step that can be executed is stored as one. -/
theorem IsExecutable.stored (h : s.IsExecutable specs) :
    s.compile.toJson.normal.IsExecutableStep specs := by
  obtain ⟨t, ht⟩ := Option.ne_none_iff_exists'.1 h.stationType
  have htype : s.compile.toJson.normal.field? "stationType" = some (.str t.name) := by
    rw [h.field?_stationType, ht]
    rfl
  have hkeys := s.compile.nodup_keys
  constructor
  case stationType => exact ⟨t, htype⟩
  case stations =>
    rcases h.stations with hgroup | hallowed
    · obtain ⟨group, hgroup⟩ := Option.ne_none_iff_exists'.1 hgroup
      have hfield : s.compile.toJson.normal.field? "stationGroupId" =
          some (Json.ofText? s.stationGroupId).normal := Json.field?_normal_of_nodup hkeys rfl
      rw [hgroup] at hfield
      exact .inl ⟨group, hfield⟩
    · obtain ⟨station, more, hstations⟩ := List.exists_cons_of_ne_nil hallowed
      have hfield : s.compile.toJson.normal.field? "allowedStationIds" =
          some (Json.ofTexts s.allowedStationIds).normal := Json.field?_normal_of_nodup hkeys rfl
      rw [hstations, Json.normal_ofTexts] at hfield
      exact .inr ⟨station, more, hfield⟩
  case mapping =>
    intro name hname hstored
    rw [htype, Option.some.injEq, Json.str.injEq] at hstored
    have hmapping := h.mapping t ht (StationType.mem_of_name_mem (hstored ▸ hname))
    obtain ⟨m, hm⟩ := Option.ne_none_iff_exists'.1 hmapping
    obtain ⟨members, hmembers⟩ := m.exists_normal
    have hfield : s.compile.toJson.normal.field? "ingestMapping" =
        some (Json.ofOption IngestMapping.toJson s.ingestMapping).normal :=
      Json.field?_normal_of_nodup hkeys rfl
    rw [hm, Json.ofOption, hmembers] at hfield
    exact ⟨members, hfield⟩
  case specs =>
    have hids : s.compile.toJson.normal.field? "dataSpecIds" =
        some (Json.ofTexts s.dataSpecIds).normal := Json.field?_normal_of_nodup hkeys rfl
    have hoperation : s.compile.toJson.normal.field? "operationId" =
        some (Json.str s.operationId).normal := Json.field?_normal_of_nodup hkeys rfl
    rw [Json.normal_ofTexts] at hids
    exact ⟨s.dataSpecIds, s.operationId, hids, hoperation, h.specs⟩

end ResolvedStep

/-! ## Versions -/

/-- A compilation is ready exactly if it has no violations. -/
theorem Compilation.status_eq_ready {c : Compilation} : c.status = .ready ↔ c.violations = [] := by
  rw [status]
  split
  · next h => simpa using h
  · next h => simpa using h

namespace Service

variable {supply : Supply} {s t : MemoryState} {code : String} {attempts : Nat}
  {outcome : Except RequestError RouteVersion} {created : List RouteVersion} {v : RouteVersion}

/-- **Ready means executable.** A version that a compile call has created alone is ready exactly if
every step of the route, as it was resolved then, can be executed. If it is ready, its document
holds these steps one by one: each can be executed as it is stored, and has the station type that
was resolved. -/
theorem ready_iff_executable
    (hrun : (compile code attempts).run.run (MemoryState.backend supply) s = (outcome, t))
    (hcreated : t.store.versions = s.store.versions ++ created) (hv : v ∈ created) :
    ∃ r, s.store.findRouting code = some r ∧ v.routingId = r.id ∧
      (v.status = .ready ↔
        ∀ step ∈ s.store.resolvedSteps r, step.IsExecutable s.store.dataSpecs) ∧
      (v.status = .ready → ∃ stored, v.snapshot.json.field? "steps" = some (.arr stored) ∧
        List.Forall₂ (fun step j => j.IsExecutableStep s.store.dataSpecs ∧
          j.field? "stationType" = step.stationType.map fun t => .str t.name)
          (s.store.resolvedSteps r) stored) := by
  obtain ⟨-, created', hversions, hmade⟩ := compile_run_created hrun
  have hsame : created' = created := List.append_cancel_left (hversions.symm.trans hcreated)
  subst hsame
  obtain ⟨r, hr, prior, compiledAt, id, rfl⟩ := hmade v hv
  have hready : (s.store.compilation r).status = .ready ↔
      ∀ step ∈ s.store.resolvedSteps r, step.IsExecutable s.store.dataSpecs := by
    rw [Compilation.status_eq_ready, MemoryStore.violations_eq_nil]
  refine ⟨r, hr, rfl, hready, fun h => ⟨(s.store.resolvedSteps r).map fun step =>
    step.compile.toJson.normal, ?_, ?_⟩⟩
  · -- compiling and storing keep the order in which the steps were resolved
    refine (SnapshotCore.field?_steps_stamp ..).trans ?_
    rw [MemoryStore.steps_compilation, stepsJson, Json.normal, Json.normalItems_eq_map,
      List.map_map, List.map_map]
    rfl
  · rw [List.forall₂_map_right_iff, List.forall₂_same]
    exact fun step hstep => ⟨(hready.1 h step hstep).stored,
      (hready.1 h step hstep).field?_stationType⟩

end Service

/-! ## A step at a machine -/

namespace MachineStep

open SingleStep (routing supply)

/-- The step is done by machine and collects a spec whose id was given out twice; its operation is
that of the later one. -/
def store : MemoryStore :=
  { SingleStep.store (some .auto) with
    dataSpecs := [⟨"d1", "other", "Torque"⟩, ⟨"d1", "op", "Torque"⟩]
    overrides := [
      { SingleStep.manual with
        stationType := none
        dataSpecIds := some ["d1"]
        ingestMapping := some ⟨.ofJson (.obj [("value", .str "torque")]), rfl⟩ }] }

/-- The version that a compile call makes. -/
def version : RouteVersion :=
  (store.compilation routing).nextVersion supply (.start store) "r1"

/-- The compile call that runs alone adds the version and returns it. -/
theorem run_compile : (Service.compile "R1" 1).run.run (MemoryState.backend supply) (.start store) =
    (.ok version, { MemoryState.start (store.addVersion version) with
      readings := 1
      versionIds := 1 }) :=
  Service.compile_run (r := routing) rfl (by decide)
    (Service.settleVersion_run_of_changed supply (by decide) rfl) 1

end MachineStep

/-- The version is ready, and its document holds the step as it can be executed. -/
theorem Service.ready_iff_executable_machineStep : MachineStep.version.status = .ready ∧
    ∃ stored, MachineStep.version.snapshot.json.field? "steps" = some (.arr stored) ∧
      List.Forall₂ (fun step j => j.IsExecutableStep MachineStep.store.dataSpecs ∧
        j.field? "stationType" = step.stationType.map fun t => .str t.name)
        (MachineStep.store.resolvedSteps SingleStep.routing) stored := by
  have hready : MachineStep.version.status = .ready := by decide +kernel
  obtain ⟨r, hr, -, -, hstored⟩ :=
    ready_iff_executable MachineStep.run_compile rfl (List.mem_singleton_self _)
  cases hr
  exact ⟨hready, hstored hready⟩

end RoutePlan
