import RoutePlan.Proofs.Compile.Outcome
import RoutePlan.Proofs.Override.Listing
import RoutePlan.Proofs.Service.Effect

/-!
# What is compiled is listed, and what is listed is owned

Three tests relate an override to a route. The compiler takes the rows that are for the route or for
one of its steps, the listing takes those that name the route or one of its steps
(`Override.Concerns`), and a row may be changed through the route if it is one of these or belongs
to the operation of a step (`Routing.owns_iff`). Each test lets through what the one before does. A
row that may be changed but is not listed is one of an operation, and has no influence on what is
compiled (`Service.listOverrides_owned`).
-/

namespace RoutePlan

namespace Override

/-- The override names the route, or one of its steps by id or by source key. -/
def Concerns (o : Override) (r : Routing) (steps : List RoutingStep) : Prop :=
  o.routingId = some r.id ∨ ∃ step ∈ steps, o.routingStepId = some step.id ∨
    ∃ key, o.sourceStepKey = some key ∧ step.sourceStepKey = some key

/-- The override belongs to the operation of one of the steps. -/
def IsOfOperation (o : Override) (steps : List RoutingStep) : Prop :=
  ∃ step ∈ steps, o.operationId = some step.operationId

end Override

variable {r : Routing} {steps : List RoutingStep} {o : Override}

/-- A row concerns a route by its routing, by the id of a step or by the source key of a step. -/
theorem Override.concerns_iff : o.Concerns r steps ↔
    (o.routingId = some r.id ∨ ∃ step ∈ steps, o.routingStepId = some step.id) ∨
      ∃ step ∈ steps, ∃ key, o.sourceStepKey = some key ∧ step.sourceStepKey = some key := by
  simp only [Concerns, and_or_left, exists_or, or_assoc]

/-- The listing takes the overrides that concern the route. -/
theorem OverrideFilter.selects_iff :
    (forRouting r steps).selects o = true ↔ o.Concerns r steps := by
  rw [Override.concerns_iff, selects, Bool.or_eq_true, Bool.or_eq_true, beq_iff_eq]
  refine or_congr (or_congr_right ?_) ?_
  · cases o.routingStepId <;> simp [forRouting, eq_comm]
  · cases o.sourceStepKey <;> simp [forRouting]

/-- A value is found among those of the steps. -/
theorem RoutingStep.any_any_beq {α : Type} [DecidableEq α] {a? : Option α}
    {field : RoutingStep → α} :
    a?.any (fun a => steps.any fun s => field s == a) = true ↔
      ∃ step ∈ steps, a? = some (field step) := by
  cases a? with
  | none => simp
  | some a =>
    rw [Option.any_some, List.any_eq_true]
    refine exists_congr fun step => and_congr_right fun _ => ?_
    rw [beq_iff_eq, Option.some.injEq, eq_comm]

/-- Ownership goes further than the listing, by the operations of the steps. -/
theorem Routing.owns_iff :
    r.owns steps o = true ↔ o.Concerns r steps ∨ o.IsOfOperation steps := by
  have hkeys : o.sourceStepKey.any (fun key => steps.any fun s => s.sourceStepKey == some key) =
      true ↔ ∃ step ∈ steps, ∃ key, o.sourceStepKey = some key ∧ step.sourceStepKey = some key := by
    cases o.sourceStepKey <;> simp
  rw [owns, Bool.or_eq_true, Bool.or_eq_true, Bool.or_eq_true, beq_iff_eq,
    RoutingStep.any_any_beq, RoutingStep.any_any_beq, hkeys, Override.concerns_iff]
  exact or_right_comm

/-- What is compiled is listed. -/
theorem Override.Targets.concerns {step : RoutingStep} (h : o.Targets step) (hstep : step ∈ steps) :
    o.Concerns r steps :=
  .inr ⟨step, hstep, h.2⟩

/-- A row for the route concerns it. -/
theorem Override.IsOfRoute.concerns (h : o.IsOfRoute r) : o.Concerns r steps := .inl h.2

/-- The change is refused because the row with the id does not belong to the route with the
code. -/
def OverrideEdit.Mismatched (supply : Supply) (s : MemoryState) (code id : String)
    (edit : OverrideEdit) : Prop :=
  ∃ e, ((Service.updateOverride code id edit).run.run (MemoryState.backend supply) s).1 =
    .error e ∧ e.code = "EXECUTION_CONFIG_SCOPE_MISMATCH"

namespace Service

variable {supply : Supply} {s : MemoryState} {code id : String} {edit : OverrideEdit}

/-- Ownership decides, whatever is to be changed. -/
theorem mismatched_iff (supply : Supply) (edit : OverrideEdit)
    (hr : s.store.findRouting code = some r) (ho : s.store.findOverride id = some o) :
    edit.Mismatched supply s code id ↔ r.owns (s.store.listSteps r.id) o = false := by
  obtain ⟨outcome, t, hrun, hends⟩ := updateOverride_run_alone supply s code id edit
  rw [OverrideEdit.Mismatched, hrun]
  generalize t.store = store at hends
  cases hends with
  | unknown hr' =>
    rw [hr] at hr'
    cases hr'
  | missing hr' ho' =>
    rw [ho] at ho'
    cases ho'
  | foreign hr' ho' howns =>
    obtain rfl := Option.some.inj (hr.symm.trans hr')
    obtain rfl := Option.some.inj (ho.symm.trans ho')
    exact ⟨fun _ => howns, fun _ => ⟨_, rfl, rfl⟩⟩
  | noGroup hr' ho' howns name =>
    obtain rfl := Option.some.inj (hr.symm.trans hr')
    obtain rfl := Option.some.inj (ho.symm.trans ho')
    rw [howns]
    refine ⟨?_, nofun⟩
    rintro ⟨e, he, hcode⟩
    obtain rfl := Except.error.inj he
    have hcode : "STATION_GROUP_NOT_FOUND" = "EXECUTION_CONFIG_SCOPE_MISMATCH" := hcode
    exact absurd hcode (by decide)
  | updated hr' ho' howns =>
    obtain rfl := Option.some.inj (hr.symm.trans hr')
    obtain rfl := Option.some.inj (ho.symm.trans ho')
    rw [howns]
    refine ⟨?_, nofun⟩
    rintro ⟨e, he, -⟩
    cases he

/-- Without a row that does not concern the route a compile call of the route does the same. -/
theorem compile_run_erase (supply : Supply) (hr : s.store.findRouting code = some r)
    (ho : ¬o.Concerns r (s.store.listSteps r.id)) (attempts : Nat) :
    ∃ outcome t, (compile code attempts).run.run (MemoryState.backend supply) s = (outcome, t) ∧
      (compile code attempts).run.run (MemoryState.backend supply)
        (s.withOverrides (s.store.overrides.erase o)) =
          (outcome, t.withOverrides (s.store.overrides.erase o)) := by
  refine ⟨_, _, rfl, compileWithin_run_withOverrides _ _ fun r' hr' => ?_⟩
  obtain rfl := Option.some.inj (hr.symm.trans hr')
  rw [← List.erase_filter, List.erase_of_not_mem]
  exact fun hmem => ho (OverrideFilter.selects_iff.1 (List.mem_filter.1 hmem).2)

/-- **What is compiled is listed, and what is listed is owned.** If no two overrides have the same
id, the listing of a route has every override that is resolved for the route or for one of its
steps. A listed row may be changed through the route, whatever the change. A row that may be changed
but is not listed belongs to the operation of a step of the route, and compiling the route without
it has the same outcome and does the same. -/
theorem listOverrides_owned (supply : Supply) (hids : (s.store.overrides.map (·.id)).Nodup)
    (hr : s.store.findRouting code = some r) :
    ∃ listing, (listOverrides code).run.run (MemoryState.backend supply) s = (.ok listing, s) ∧
      (∀ o ∈ r.overrides s.store.overrides, o ∈ listing) ∧
      (∀ step ∈ s.store.listSteps r.id, ∀ o ∈ step.overrides s.store.overrides, o ∈ listing) ∧
      (∀ o ∈ listing, ∀ edit : OverrideEdit, ¬edit.Mismatched supply s code o.id) ∧
      ∀ o ∈ s.store.overrides, o ∉ listing →
        ∀ edit : OverrideEdit, ¬edit.Mismatched supply s code o.id →
          (∃ step ∈ s.store.listSteps r.id, o.operationId = some step.operationId) ∧
          ∀ attempts, ∃ outcome t,
            (compile code attempts).run.run (MemoryState.backend supply) s = (outcome, t) ∧
            (compile code attempts).run.run (MemoryState.backend supply)
              (s.withOverrides (s.store.overrides.erase o)) =
                (outcome, t.withOverrides (s.store.overrides.erase o)) := by
  have hlisted : ∀ o, o ∈ s.store.listOverrides (.forRouting r (s.store.listSteps r.id)) ↔
      o ∈ s.store.overrides ∧ o.Concerns r (s.store.listSteps r.id) := fun o => by
    rw [MemoryStore.mem_listOverrides, OverrideFilter.selects_iff]
  refine ⟨_, listOverrides_run hr, fun o ho => ?_, fun step hstep o ho => ?_,
    fun o ho edit hmismatch => ?_, fun o ho hnot edit hedit => ?_⟩
  · rw [Routing.overrides_eq_filter, List.mem_filter, decide_eq_true_iff] at ho
    exact (hlisted o).2 ⟨ho.1, ho.2.concerns⟩
  · rw [RoutingStep.overrides_eq_filter, List.mem_filter, decide_eq_true_iff] at ho
    exact (hlisted o).2 ⟨ho.1, ho.2.concerns hstep⟩
  · obtain ⟨hmem, hconcerns⟩ := (hlisted o).1 ho
    rw [mismatched_iff supply edit hr (MemoryStore.findOverride_of_mem hids hmem)] at hmismatch
    rw [Routing.owns_iff.2 (.inl hconcerns)] at hmismatch
    cases hmismatch
  · have hforeign : ¬o.Concerns r (s.store.listSteps r.id) := fun h => hnot ((hlisted o).2 ⟨ho, h⟩)
    rw [mismatched_iff supply edit hr (MemoryStore.findOverride_of_mem hids ho),
      Bool.not_eq_false, Routing.owns_iff] at hedit
    exact ⟨hedit.resolve_left hforeign, compile_run_erase supply hr hforeign⟩

end Service

/-! ## A legacy row -/

namespace LegacyRow

/-- An override of the operation of the step, which is owned but not listed. -/
def ofOperation : Override :=
  { SingleStep.manual with
    id := "o2"
    scope := .operation
    routingId := none
    operationId := some "op"
    requiresFAI := some true }

/-- The row of the operation stands after one of the route. -/
def store : MemoryStore :=
  { SingleStep.store none with overrides := [SingleStep.manual, ofOperation] }

end LegacyRow

/-- The row of the operation may be changed, but it is not listed, and the route compiles without
it as with it. -/
theorem Service.listOverrides_owned_legacyRow : ∃ listing,
    (listOverrides "R1").run.run (MemoryState.backend SingleStep.supply)
      (.start LegacyRow.store) = (.ok listing, .start LegacyRow.store) ∧
    SingleStep.manual ∈ listing ∧ LegacyRow.ofOperation ∉ listing ∧
    ∃ outcome t, (compile "R1" 1).run.run (MemoryState.backend SingleStep.supply)
        (.start LegacyRow.store) = (outcome, t) ∧
      (compile "R1" 1).run.run (MemoryState.backend SingleStep.supply)
        (.start { LegacyRow.store with overrides := [SingleStep.manual] }) =
          (outcome, t.withOverrides [SingleStep.manual]) := by
  have hr : (MemoryState.start LegacyRow.store).store.findRouting "R1" = some SingleStep.routing :=
    rfl
  obtain ⟨listing, hrun, hroute, -, -, hunlisted⟩ :=
    listOverrides_owned SingleStep.supply (s := .start LegacyRow.store) (by decide) hr
  have hnot : LegacyRow.ofOperation ∉ listing := by
    have hlisting := hrun
    rw [listOverrides_run hr, Prod.mk.injEq, Except.ok.injEq] at hlisting
    rw [← hlisting.1, MemoryStore.mem_listOverrides]
    decide
  have howned : ¬OverrideEdit.Mismatched SingleStep.supply (.start LegacyRow.store) "R1"
      LegacyRow.ofOperation.id ⟨.clear, .keep, .keep, .keep, .keep, .keep, .keep, .keep⟩ := by
    rw [mismatched_iff SingleStep.supply _ hr (o := LegacyRow.ofOperation) (by decide)]
    decide
  obtain ⟨-, hcompile⟩ := hunlisted LegacyRow.ofOperation (by decide) hnot _ howned
  exact ⟨listing, hrun, hroute _ (by decide), hnot, hcompile 1⟩

end RoutePlan
