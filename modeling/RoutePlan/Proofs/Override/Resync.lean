import RoutePlan.Proofs.Override.ReadYourWrites
import RoutePlan.Proofs.Service.Isolation
import RoutePlan.Proofs.Service.Refusals

/-!
# Overrides survive the replacement of the steps

When the steps of a route are replaced, new steps have new ids, and an override can only follow by
its source key. A row that a request has written for a step names both the id and the key of that
step (`RoutingStep.asTarget`). So the rows for a step with a key are those with that key
(`Override.WellTargeted.targets_iff`), and a new step with the same key inherits all of them, while
a row for a step without a key is left with no step (`World.Serves.overrides_survive_resync`). No
override may know the id of a new step beforehand: such a row would target the new step by its id.
-/

namespace RoutePlan

/-! ## Rows by source key -/

/-- A row that was written by a request is for a step with a key if and only if it has that key. -/
theorem Override.WellTargeted.targets_iff {o : Override} {steps : List RoutingStep}
    (h : o.WellTargeted steps) (hids : (steps.map (·.id)).Nodup) {step : RoutingStep}
    (hstep : step ∈ steps) {key : String} (hkey : step.sourceStepKey = some key) :
    o.Targets step ↔ o.scope = .step ∧ o.sourceStepKey = some key := by
  refine and_congr_right fun hscope => ⟨?_, fun h => .inr ⟨key, h, hkey⟩⟩
  rintro (hid | ⟨key', hkey', heq⟩)
  · -- the row was written for a step with this id, and there is only one
    rcases h.target with ⟨r, htarget⟩ | ⟨written, hwritten, htarget⟩
    · have hnone : o.routingStepId = none := congrArg OverrideTarget.routingStepId htarget
      rw [hnone] at hid
      cases hid
    · have hsome : o.routingStepId = some written.id :=
        congrArg OverrideTarget.routingStepId htarget
      have hsame : written = step :=
        List.inj_on_of_nodup_map hids hwritten hstep (Option.some.inj (hsome.symm.trans hid))
      have hwrittenKey : o.sourceStepKey = written.sourceStepKey :=
        congrArg OverrideTarget.sourceStepKey htarget
      rw [hwrittenKey, hsame, hkey]
  · rw [hkey', ← heq, hkey]

/-- A row that does not know the id of a step is for it if and only if it has its key. -/
theorem Override.targets_iff_of_id_ne {o : Override} {step : RoutingStep}
    (hid : o.routingStepId ≠ some step.id) :
    o.Targets step ↔
      o.scope = .step ∧ ∃ key, o.sourceStepKey = some key ∧ step.sourceStepKey = some key := by
  rw [Targets, or_iff_right hid]

/-- After a replacement the steps of the routing are those that were given for it. -/
theorem MemoryStore.mem_listSteps_replaceSteps {s : MemoryStore} {routingId : String}
    {steps : List RoutingStep} {step : RoutingStep} :
    step ∈ (s.replaceSteps routingId steps).listSteps routingId ↔
      step ∈ steps ∧ step.routingId = routingId := by
  simp [replaceSteps, listSteps]

/-! ## The step that a request is for -/

/-- The request is for the step: it is the first one of the route with the wanted number. -/
def OverrideRequest.IsForStep (request : OverrideRequest) (s : MemoryStore) (code : String)
    (step : RoutingStep) : Prop :=
  request.scope = "STEP" ∧ ∃ r n, s.findRouting code = some r ∧ request.stepNo = some n ∧
    (s.listSteps r.id).find? (fun y => y.stepNo == n) = some step

/-- The answered row is stored, and it is for the step that was asked for on the store `s`. -/
def Request.Outcome.CreatedOn (s t : MemoryStore) : Request.Outcome → Prop
  | ⟨.write (.create code request), .ok o⟩ => o.identity ∈ t.identities ∧
    ∀ step, request.IsForStep s code step → o.target = step.asTarget
  | _ => True

/-- The answered row is still stored in every later store. -/
theorem Request.Outcome.CreatedOn.later {s t u : MemoryStore} {outcome : Request.Outcome}
    (h : outcome.CreatedOn s t) (hlater : t.Later u) : outcome.CreatedOn s u := by
  unfold CreatedOn at h ⊢
  split at h
  · exact h.imp_left fun hmem => hlater.identities.subset hmem
  · trivial

/-- No one changes the design, and whatever is done is all right. -/
def sameDesign : Contract MemoryState where
  rely s t := s.store.Later t.store
  guarantee _ _ := True

/-- A program that promises nothing keeps the contract. -/
theorem Program.keeps_sameDesign {α : Type} (supply : Supply) {post : α → MemoryState → Prop}
    (hpost : ∀ a t, post a t) (p : Program α) (s : MemoryState) :
    p.Keeps (MemoryState.backend supply) sameDesign post s := by
  induction p generalizing s with
  | done a => exact hpost a s
  | readClock next ih => exact fun t _ => ⟨trivial, ih _ _⟩
  | call c next ih => exact fun t _ => ⟨trivial, ih _ _⟩

namespace Service

variable {supply : Supply} {code : String} {s : MemoryState}

/-- A step that is wanted is the first one with the number. -/
theorem keeps_resolveTarget_found {r : Routing} (wanted : Option Int32)
    {post : OverrideTarget → MemoryState → Prop}
    (hpost : ∀ t target, s.store.Later t.store →
      (∀ n step, wanted = some n →
        (s.store.listSteps r.id).find? (fun y => y.stepNo == n) = some step →
        target = step.asTarget) → post target t) :
    Keeps (MemoryState.backend supply) sameDesign post (fun _ _ => True)
      (resolveTarget r wanted) s := by
  cases wanted with
  | none => exact keeps_pure.2 (hpost s _ (.refl _) nofun)
  | some n =>
    refine keeps_bind.2 (keeps_reading (fun _ => trivial) (·.listSteps r.id) (fun _ => rfl)
      fun t ht => keeps_bind.2 (keeps_orRefuse.2 ?_))
    split
    · next found hfound =>
      refine keeps_pure.2 (hpost t _ ht fun n' step hn hstep => ?_)
      obtain rfl := Option.some.inj hn
      rw [MemoryStore.Later.listSteps ht, hstep] at hfound
      rw [Option.some.inj hfound]
    · trivial

/-- A request to create an override answers with a row for the step that it is for. -/
theorem keeps_createOverride_forStep (request : OverrideRequest) :
    Keeps (MemoryState.backend supply) sameDesign
      (fun o t => o.identity ∈ t.store.identities ∧
        ∀ step, request.IsForStep s.store code step → o.target = step.asTarget)
      (fun _ _ => True) (createOverride code request) s := by
  unfold createOverride
  refine keeps_bind.2 ?_
  cases hwanted : request.stepNo? with
  | error e => trivial
  | ok wanted =>
    refine keeps_bind.2 (keeps_loadRouting (fun _ => trivial) (fun t r ht hr => ?_)
      fun _ _ _ => trivial)
    refine keeps_bind.2 (keeps_resolveTarget_found wanted fun u target hu htarget => ?_)
    -- the station group has no say in what the row is for
    refine keeps_bind.2 (Program.keeps_sameDesign supply (fun group v => ?_) _ u)
    cases group with
    | error e => trivial
    | ok group =>
      refine keeps_call.2 fun v _ => ⟨trivial, ?_, fun step hfor => ?_⟩
      · exact List.mem_map_of_mem (List.mem_append_right _ (List.mem_singleton_self _))
      · obtain ⟨hscope, r', n, hr', hno, hstep⟩ := hfor
        rw [MemoryStore.Later.findRouting ht, hr', Option.some.injEq] at hr
        subst hr
        rw [← MemoryStore.Later.listSteps ht] at hstep
        have hscope' : Scope.ofName? request.scope = some .step := Scope.ofName?_eq_some.2 hscope
        have hn : request.stepNo? = .ok (some n) := by
          rw [OverrideRequest.stepNo?, hscope', hno]
          rfl
        rw [hwanted, Except.ok.injEq] at hn
        exact htarget n step hn hstep

/-- A row that belongs to the route may be changed through it, if the station group is known. -/
theorem updateOverride_run_of_owns {id : String} {r : Routing} {o : Override} {edit : OverrideEdit}
    (hr : s.store.findRouting code = some r) (ho : s.store.findOverride id = some o)
    (howns : r.owns (s.store.listSteps r.id) o = true)
    (hgroup : (Check.group edit.stationGroupCode).Passes s.store) : ∃ o' t,
      (updateOverride code id edit).run.run (MemoryState.backend supply) s = (.ok o', t) := by
  obtain ⟨outcome, t, hrun, hverdict⟩ := settles_updateOverride supply s code id edit
  obtain ⟨o', rfl⟩ := hverdict.exists_ok_iff.2 <| by
    simp only [Request.checks, List.forall_mem_cons, List.not_mem_nil, false_implies, implies_true,
      and_true]
    exact ⟨Check.passes_route hr, Check.passes_override ho, Check.passes_ownership hr ho howns,
      hgroup⟩
  exact ⟨o', t, hrun⟩

section
variable {r : Routing} {step : RoutingStep} {o : Override}

/-- A row for a step of a route is stored and concerns the route. -/
theorem concerns_of_mem_overrides (hstep : step ∈ s.store.listSteps r.id)
    (ho : o ∈ step.overrides s.store.overrides) :
    o ∈ s.store.overrides ∧ o.Concerns r (s.store.listSteps r.id) := by
  rw [RoutingStep.overrides_eq_filter, List.mem_filter, decide_eq_true_iff] at ho
  exact ⟨ho.1, ho.2.concerns hstep⟩

/-- A row for a step of a route is listed for the route. -/
theorem listed_of_mem_overrides (hr : s.store.findRouting code = some r)
    (hstep : step ∈ s.store.listSteps r.id) (ho : o ∈ step.overrides s.store.overrides) :
    ∃ listing, (listOverrides code).run.run (MemoryState.backend supply) s = (.ok listing, s) ∧
      o ∈ listing := by
  obtain ⟨hmem, hconcerns⟩ := concerns_of_mem_overrides hstep ho
  exact ⟨_, listOverrides_run hr,
    MemoryStore.mem_listOverrides.2 ⟨hmem, OverrideFilter.selects_iff.2 hconcerns⟩⟩

/-- A row for a step of a route may be changed through it, if the station group is known. -/
theorem updateOverride_run_of_mem_overrides (hr : s.store.findRouting code = some r)
    (hids : (s.store.overrides.map (·.id)).Nodup) (hstep : step ∈ s.store.listSteps r.id)
    (ho : o ∈ step.overrides s.store.overrides) {edit : OverrideEdit}
    (hgroup : (Check.group edit.stationGroupCode).Passes s.store) : ∃ o' t,
      (updateOverride code o.id edit).run.run (MemoryState.backend supply) s = (.ok o', t) := by
  obtain ⟨hmem, hconcerns⟩ := concerns_of_mem_overrides hstep ho
  exact updateOverride_run_of_owns hr (MemoryStore.findOverride_of_mem hids hmem)
    (Routing.owns_iff.2 (.inl hconcerns)) hgroup

end

end Service

/-- Every request answers with a row that is stored, for the step that was asked for. -/
theorem Request.keeps_program_createdOn (supply : Supply) (q : Request) (s : MemoryState) :
    q.program.Keeps (MemoryState.backend supply) sameDesign
      (fun outcome t => outcome.CreatedOn s.store t.store) s := by
  refine Program.keeps_bind.2 ?_
  match q with
  | .write (.create code request) =>
    refine Program.Keeps.imp (Service.keeps_createOverride_forStep request)
      fun outcome t h => ?_
    cases outcome with
    | error e => trivial
    | ok o => exact h
  | .write (.update ..) | .listOverrides _ | .compile .. | .listVersions _ | .getVersion .. =>
    exact Program.keeps_sameDesign supply (fun _ _ => trivial) _ s

/-! ## Replaced steps -/

namespace MemoryStore

variable {s : MemoryStore} {old new : RoutingStep} {key : String}

/-- A new step with the key of an old one has the overrides of the old one. -/
theorem overrides_eq_of_sourceStepKey (hrows : ∀ o ∈ s.overrides, o.WellTargeted s.steps)
    (hids : (s.steps.map (·.id)).Nodup) (hold : old ∈ s.steps)
    (hnew : ∀ o ∈ s.overrides, o.routingStepId ≠ some new.id)
    (holdKey : old.sourceStepKey = some key) (hnewKey : new.sourceStepKey = some key) :
    new.overrides s.overrides = old.overrides s.overrides := by
  rw [RoutingStep.overrides_eq_filter, RoutingStep.overrides_eq_filter]
  refine List.filter_congr fun o ho => decide_eq_decide.2 ?_
  rw [(hrows o ho).targets_iff hids hold holdKey, Override.targets_iff_of_id_ne (hnew o ho),
    hnewKey]
  simp [eq_comm]

/-- With the same overrides, what counts for the old step counts for the new one. -/
theorem exists_explainedBy (h : Override.Ranked s.overrides) (r : Routing)
    (hsame : new.overrides s.overrides = old.overrides s.overrides) :
    ∃ ofStep ofRoute, Override.IsLatest (old.overrides s.overrides) ofStep ∧
      old.ExplainedBy ofStep ofRoute (s.compiledStep r old) ∧
      new.ExplainedBy ofStep ofRoute (s.compiledStep r new) := by
  have hstep : Override.IsLatest (old.overrides s.overrides)
      (Override.latest? (old.overrides s.overrides)) := by
    rw [RoutingStep.overrides_eq_filter]
    exact (h.filter _).isLatest
  have hroute := (h.filter fun o => decide (o.IsOfRoute r)).isLatest
  refine ⟨_, _, hstep, explainedBy_compiledStep h ?_ hroute, explainedBy_compiledStep h ?_ hroute⟩
  · rwa [← RoutingStep.overrides_eq_filter]
  · rwa [← RoutingStep.overrides_eq_filter, hsame]

end MemoryStore

/-- A row that was written for a step without a key has no tie to a route whose steps it does not
know by their ids. -/
theorem Override.WellTargeted.not_owns_of_step {o : Override} {steps present : List RoutingStep}
    {step : RoutingStep} (h : o.WellTargeted steps) (htarget : o.target = step.asTarget)
    (hkey : step.sourceStepKey = none) (hids : ∀ new ∈ present, o.routingStepId ≠ some new.id)
    (r : Routing) :
    (∀ new ∈ present, ¬o.Targets new) ∧ r.owns present o = false := by
  simp only [Override.target, RoutingStep.asTarget, OverrideTarget.mk.injEq] at htarget
  obtain ⟨-, hroute, -, hnone⟩ := htarget
  rw [hkey] at hnone
  have hforeign : ¬o.Concerns r present := by
    rw [Concerns, hroute, hnone]
    rintro (hid | ⟨new, hnew, hid | ⟨key, hkey, -⟩⟩)
    · cases hid
    · exact hids new hnew hid
    · cases hkey
  refine ⟨fun new hnew htargets => hforeign (htargets.concerns hnew), ?_⟩
  rw [Bool.eq_false_iff, Ne, Routing.owns_iff]
  rintro (hconcerns | ⟨new, -, hoperation⟩)
  · exact hforeign hconcerns
  · rw [h.operationId] at hoperation
    cases hoperation

namespace World.Serves

variable {ι : Type} [DecidableEq ι] {supply : Supply} {store : MemoryStore} {q : ι → Request}
  {w w' : World ι Request.Outcome}

/-- A row that a request says it has created is stored, for the step that it was asked for. -/
theorem createdOn (h : w.Serves supply store q) (i : ι) :
    (w.programs i).Keeps (MemoryState.backend supply) sameDesign
      (fun outcome t => outcome.CreatedOn store t.store) w.state := by
  induction h with
  | start => exact (q i).keeps_program_createdOn supply (.start store)
  | @move w j _ ih =>
    have hlater : w.state.store.Later (w.move supply (.advance j)).state.store := w.later_advance j
    exact keeps_move MemoryStore.growing_later.trans ih (.refl _) hlater
      fun outcome _ hcreated => hcreated.later hlater

/-- A row that was created for a step is stored as a row for that step. -/
theorem exists_row (h : w.Serves supply store q) {j : ι} {code : String}
    {request : OverrideRequest} {o : Override}
    (hj : w.programs j = .done ⟨.write (.create code request), .ok o⟩) {step : RoutingStep}
    (hfor : request.IsForStep store code step) :
    ∃ row ∈ w.state.store.overrides, row.id = o.id ∧ row.target = step.asTarget := by
  have hcreated := h.createdOn j
  rw [hj] at hcreated
  obtain ⟨hmem, htarget⟩ := hcreated
  obtain ⟨row, hrow, hidentity⟩ := List.mem_map.1 hmem
  exact ⟨row, hrow, Override.id_eq_of_identity hidentity,
    (Override.target_eq_of_identity hidentity).trans (htarget step hfor)⟩

/-- **Overrides survive a replacement of the steps by source key.** Let requests be served on a
store, in any order of their moves, that has no overrides to begin with and whose steps have
different ids, and let new ids be fresh. When the steps of a route are then replaced by steps whose
ids no override knows, a new step has the very overrides that an old step of the route with the same
source key had, and the same two rows explain what the two steps compile to. These overrides are
listed for the route, and they may be changed through it as long as the station group is known. A
row that was created for a step without a source key, of whichever route, is for none of the steps
of the route, and no change of it through the route is accepted. -/
theorem overrides_survive_resync (h : w.Serves supply store q) (hstore : store.overrides = [])
    (hids : Function.Injective supply.overrideId) (hsteps : (store.steps.map (·.id)).Nodup)
    {code : String} {r : Routing} (hr : store.findRouting code = some r)
    {steps : List RoutingStep}
    (hnew : ∀ o ∈ w.state.store.overrides, ∀ new ∈ steps, o.routingStepId ≠ some new.id)
    (hresync : w.move supply (.change (.replaceSteps r.id steps)) = w') :
    (∀ old ∈ w.state.store.listSteps r.id, ∀ new ∈ w'.state.store.listSteps r.id, ∀ key,
      old.sourceStepKey = some key → new.sourceStepKey = some key →
        new.overrides w'.state.store.overrides = old.overrides w.state.store.overrides ∧
        (∃ ofStep ofRoute,
          Override.IsLatest (old.overrides w.state.store.overrides) ofStep ∧
          old.ExplainedBy ofStep ofRoute (w.state.store.compiledStep r old) ∧
          new.ExplainedBy ofStep ofRoute (w'.state.store.compiledStep r new)) ∧
        ∀ o ∈ new.overrides w'.state.store.overrides,
          (∃ listing, (Service.listOverrides code).run.run (MemoryState.backend supply) w'.state =
            (.ok listing, w'.state) ∧ o ∈ listing) ∧
          ∀ edit : OverrideEdit, (Check.group edit.stationGroupCode).Passes w'.state.store →
            ∃ o' t, (Service.updateOverride code o.id edit).run.run (MemoryState.backend supply)
              w'.state = (.ok o', t)) ∧
    ∀ j code' request o, w.programs j = .done ⟨.write (.create code' request), .ok o⟩ →
      ∀ step, request.IsForStep store code' step → step.sourceStepKey = none →
        ∃ row ∈ w'.state.store.overrides, row.id = o.id ∧
          (∀ new ∈ w'.state.store.listSteps r.id, ¬row.Targets new) ∧
          ∀ edit : OverrideEdit, edit.Mismatched supply w'.state code o.id := by
  have hrows := h.wellTargeted hstore
  have hrowIds := (h.drawsIds hstore).nodup hids
  have hr' : w'.state.store.findRouting code = some r := by
    rw [← hresync, ← hr, ← h.later.findRouting]
    rfl
  have hoverrides : w'.state.store.overrides = w.state.store.overrides := by
    rw [← hresync]
    rfl
  have hrowIds' : (w'.state.store.overrides.map (·.id)).Nodup := by rwa [hoverrides]
  have hfresh : ∀ o ∈ w.state.store.overrides, ∀ new ∈ w'.state.store.listSteps r.id,
      o.routingStepId ≠ some new.id := by
    rw [← hresync]
    exact fun o ho new hnewStep =>
      hnew o ho new (MemoryStore.mem_listSteps_replaceSteps.1 hnewStep).1
  constructor
  · intro old hold new hnewStep key holdKey hnewKey
    have hsame := MemoryStore.overrides_eq_of_sourceStepKey hrows (h.later.steps ▸ hsteps)
      (List.mem_filter.1 hold).1 (fun o ho => hfresh o ho new hnewStep) holdKey hnewKey
    obtain ⟨ofStep, ofRoute, hlatest, hexplained, hexplained'⟩ :=
      MemoryStore.exists_explainedBy (.of_nodup_ids hrowIds) r hsame
    refine ⟨hoverrides ▸ hsame, ⟨ofStep, ofRoute, hlatest, hexplained, ?_⟩, fun o ho =>
      ⟨Service.listed_of_mem_overrides hr' hnewStep ho, fun edit hgroup =>
        Service.updateOverride_run_of_mem_overrides hr' hrowIds' hnewStep ho hgroup⟩⟩
    rwa [MemoryStore.compiledStep, hoverrides]
  · intro j code' request o hj step hfor hkey
    obtain ⟨row, hrow, hid, htarget⟩ := h.exists_row hj hfor
    obtain ⟨hnone, hforeign⟩ := (hrows row hrow).not_owns_of_step htarget hkey (hfresh row hrow) r
    have hrow' : row ∈ w'.state.store.overrides := hoverrides ▸ hrow
    refine ⟨row, hrow', hid, hnone, fun edit => ?_⟩
    rw [← hid]
    exact (Service.mismatched_iff supply edit hr'
      (MemoryStore.findOverride_of_mem hrowIds' hrow')).2 hforeign

end World.Serves

/-! ## A step that comes back -/

namespace ReplacedSteps

/-- A step with a source key. -/
def keyed : RoutingStep := ⟨"s1", "r1", 1, "op", some "k1", none, some "g", false⟩

/-- A step without a source key. -/
def unkeyed : RoutingStep := ⟨"s2", "r1", 2, "op", none, none, some "g", false⟩

def store : MemoryStore :=
  { MemoryStore.empty with
    routings := [SingleStep.routing]
    steps := [keyed, unkeyed] }

/-- A request for an override of the first step or of the second one. -/
def requests (i : Bool) : Request :=
  .write (.create "R1" { BackwardClock.inspection true with stepNo := some (if i then 1 else 2) })

/-- The first step under another id, with another number and another operation. -/
def renewed : RoutingStep := { keyed with id := "s3", stepNo := 7, operationId := "other" }

/-- After both requests have been served. -/
def before : World Bool Request.Outcome :=
  (World.serving (.start store) requests).runSchedule TwoRoutes.supply
    [true, true, true, false, false, false]

/-- After the steps have been replaced; the second one has a new id and no key as before. -/
def after : World Bool Request.Outcome :=
  before.move TwoRoutes.supply
    (.change (.replaceSteps "r1" [renewed, { unkeyed with id := "s4" }]))

end ReplacedSteps

/-- The first step comes back with its override, and the override of the second one is lost. -/
theorem World.Serves.overrides_survive_resync_replacedSteps : ∃ first second,
    ReplacedSteps.after.state.store.overrides = [first, second] ∧
    ReplacedSteps.renewed.overrides [first, second] = [first] ∧
    ∀ edit : OverrideEdit,
      edit.Mismatched TwoRoutes.supply ReplacedSteps.after.state "R1" second.id := by
  have hbefore : ReplacedSteps.before.Serves TwoRoutes.supply ReplacedSteps.store
    ReplacedSteps.requests := .runSchedule .start _
  have hrouting : ReplacedSteps.store.findRouting "R1" = some SingleStep.routing := rfl
  have hresync : ReplacedSteps.before.move TwoRoutes.supply (.change (.replaceSteps
      SingleStep.routing.id [ReplacedSteps.renewed, { ReplacedSteps.unkeyed with id := "s4" }])) =
    ReplacedSteps.after := rfl
  obtain ⟨hkeyed, hunkeyed⟩ := hbefore.overrides_survive_resync rfl TwoRoutes.injective_overrideId
    (by decide) hrouting (by decide +kernel) hresync
  obtain ⟨hsame, -, -⟩ := hkeyed ReplacedSteps.keyed (by decide +kernel) ReplacedSteps.renewed
    (by decide +kernel) "k1" rfl rfl
  obtain ⟨row, -, hid, -, hmismatched⟩ := hunkeyed false _ _ _ rfl ReplacedSteps.unkeyed
    ⟨rfl, SingleStep.routing, 2, rfl, rfl, rfl⟩ rfl
  refine ⟨_, _, rfl, hsame.trans ?_, hmismatched⟩
  decide +kernel

end RoutePlan
