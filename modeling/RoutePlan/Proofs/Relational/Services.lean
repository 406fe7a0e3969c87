import RoutePlan.Proofs.Override.Ownership
import RoutePlan.Proofs.Relational.Alike
import RoutePlan.Proofs.Relational.Mirror

/-!
# Services on a store and on a server

A store in memory that is in order and a server that holds its renamed rows (`Mirrored`) serve
alike: the server has the renamed result of the store, or is refused for the same reason, and holds
the renamed rows of the store that is left behind. One lemma for each service says so, and is put
together from those on its calls. The only difference that a call makes is the order of the steps,
which the server sorts.
-/

namespace RoutePlan

/-! ## Steps in another order -/

/-- A filter for a route does not depend on the order of its steps. -/
theorem OverrideFilter.selects_perm {r : Routing} {steps steps' : List RoutingStep}
    (h : steps.Perm steps') : (forRouting r steps').selects = (forRouting r steps).selects := by
  funext o
  rw [Bool.eq_iff_iff, selects_iff, selects_iff]
  simp only [Override.Concerns, h.mem_iff]

/-- Ownership does not depend on the order of the steps. -/
theorem Routing.owns_perm {r : Routing} {steps steps' : List RoutingStep}
    (h : steps.Perm steps') : r.owns steps' = r.owns steps := by
  funext o
  rw [Bool.eq_iff_iff, owns_iff, owns_iff]
  simp only [Override.Concerns, Override.IsOfOperation, h.mem_iff]

namespace RoutingStep

/-- Sorting the steps only changes their order. -/
theorem perm_ascending (steps : List RoutingStep) : steps.Perm (ascending steps) :=
  (List.mergeSort_perm ..).symm

/-- Among steps with different numbers the step with a number is the one that has it. -/
theorem find?_eq_some_of_nodup {steps : List RoutingStep} (hnos : (steps.map (·.stepNo)).Nodup)
    {stepNo : Int32} {step : RoutingStep} :
    steps.find? (fun s => s.stepNo == stepNo) = some step ↔
      step ∈ steps ∧ step.stepNo = stepNo := by
  refine ⟨fun h => ⟨List.mem_of_find?_eq_some h, by simpa using List.find?_some h⟩, ?_⟩
  rintro ⟨hstep, rfl⟩
  obtain ⟨found, hfound⟩ : ∃ found, steps.find? (fun s => s.stepNo == step.stepNo) = some found :=
    Option.isSome_iff_exists.1 (List.find?_isSome.2 ⟨step, hstep, beq_self_eq_true step.stepNo⟩)
  have hno : found.stepNo = step.stepNo := by simpa using List.find?_some hfound
  rw [hfound, List.inj_on_of_nodup_map hnos (List.mem_of_find?_eq_some hfound) hstep hno]

/-- A step is found by its number in every order. -/
theorem find?_perm {steps steps' : List RoutingStep} (h : steps.Perm steps')
    (hnos : (steps.map (·.stepNo)).Nodup) (stepNo : Int32) :
    steps'.find? (fun s => s.stepNo == stepNo) = steps.find? fun s => s.stepNo == stepNo := by
  refine Option.ext fun step => ?_
  rw [find?_eq_some_of_nodup ((h.map _).nodup_iff.1 hnos), find?_eq_some_of_nodup hnos, h.mem_iff]

end RoutingStep

/-! ## Refusals -/

/-- Only the id of an override occurs in a refusal. -/
def RequestError.rename (id : String → String) : RequestError → RequestError
  | .overrideNotFound overrideId => .overrideNotFound (id overrideId)
  | .overrideMismatch code overrideId => .overrideMismatch code (id overrideId)
  | e => e

/-- A version conflict names no id. -/
theorem RequestError.isVersionConflict_rename (id : String → String) (e : RequestError) :
    (e.rename id).isVersionConflict = e.isVersionConflict := by
  cases e <;> rfl

/-- What is wrong with a request to create an override names no id. -/
theorem OverrideRequest.rename_of_stepNo?_eq_error {r : OverrideRequest} {e : RequestError}
    (h : r.stepNo? = .error e) (id : String → String) : e.rename id = e := by
  unfold stepNo? at h
  split at h
  · cases h
  · cases hno : r.stepNo with
    | none =>
      rw [hno] at h
      cases h
      rfl
    | some no =>
      rw [hno] at h
      cases h
  · cases h
    rfl

/-! ## Side by side -/

/-- A store in order, and a server that holds its renamed rows. -/
structure Mirrored [Storage] (σ π : Supply) (ρ : Renaming) (times : List Instant)
    (s : MemoryState) (t : Server) : Prop where
  regular : s.Regular σ π ρ times
  represents : t.Represents (s.rename ρ)

namespace Service

variable [storage : Storage] {α β : Type} {σ π : Supply} {ρ : Renaming} {times : List Instant}
  {s : MemoryState} {t : Server}

/-- The result of the server is the renamed one. The times that have been given are now those
before and those of the result. -/
def SameResult (σ π : Supply) (ρ : Renaming) (times : List Instant) (image : α → β)
    (given : α → List Instant) (a : α) (a' : β) (s : MemoryState) (t : Server) : Prop :=
  a' = image a ∧ ∃ times', times ⊆ times' ∧ given a ⊆ times' ∧ Mirrored σ π ρ times' s t

/-- The refusal of the server is the renamed one. -/
def SameRefusal (σ π : Supply) (ρ : Renaming) (times : List Instant)
    (e e' : RequestError) (s : MemoryState) (t : Server) : Prop :=
  e' = e.rename ρ.id ∧ Mirrored σ π ρ times s t

variable {post : α → β → MemoryState → Server → Prop}
  {refused : RequestError → RequestError → MemoryState → Server → Prop}

/-- The store is answered, and so is the server, which then holds the renamed rows of the store. -/
theorem alike_answer {c d : Call} {reply : c.Reply} {reply' : d.Reply} {s' : MemoryState}
    {post : c.Reply → d.Reply → MemoryState → Server → Prop}
    (hs : MemoryState.answer σ c s = (.ok reply, s'))
    (ht : Server.Replies π t d reply' (s'.rename ρ))
    (hpost : ∀ u, u.Represents (s'.rename ρ) → post reply reply' s' u) :
    Alike (MemoryState.backend σ) (Server.backend π) post refused (call c) (call d) s t := by
  obtain ⟨u, hanswer, hu⟩ := ht
  exact alike_call hs hanswer (hpost u hu)

/-- A call that changes nothing in the store changes no row of the server. -/
theorem alike_read {c d : Call} {reply : c.Reply} {reply' : d.Reply}
    {post : c.Reply → d.Reply → MemoryState → Server → Prop} (h : Mirrored σ π ρ times s t)
    (hs : MemoryState.answer σ c s = (.ok reply, s))
    (ht : Server.Replies π t d reply' (s.rename ρ))
    (hpost : ∀ u, Mirrored σ π ρ times s u → post reply reply' s u) :
    Alike (MemoryState.backend σ) (Server.backend π) post refused (call c) (call d) s t :=
  alike_answer hs ht fun u hu => hpost u ⟨h.regular, hu⟩

variable (ideal : storage.Ideal)

include ideal

/-- Both find the routing, or neither does. -/
theorem alike_loadRouting {post : Routing → Routing → MemoryState → Server → Prop}
    (h : Mirrored σ π ρ times s t) (code : String)
    (hpost : ∀ r ∈ s.store.routings, ∀ u, Mirrored σ π ρ times s u → post r r s u)
    (hrefused : ∀ u, Mirrored σ π ρ times s u →
      refused (.routeNotFound code) (.routeNotFound code) s u) :
    Alike (MemoryState.backend σ) (Server.backend π) post refused (loadRouting code)
      (loadRouting code) s t := by
  refine alike_bind (alike_read (c := .findRouting code) h rfl
    (Server.replies_findRouting ideal h.represents code) fun u hu => ?_)
  exact alike_orRefuse id Option.map_id_apply.symm
    (fun r hr => hpost r (List.mem_of_find?_eq_some hr) u hu) fun _ => hrefused u hu

/-- The steps come in another order, in which they are sorted. -/
theorem alike_listSteps
    {post : List RoutingStep → List RoutingStep → MemoryState → Server → Prop}
    (h : Mirrored σ π ρ times s t) (routingId : String)
    (hpost : ∀ steps', (s.store.listSteps routingId).Perm steps' →
      ∀ u, Mirrored σ π ρ times s u → post (s.store.listSteps routingId) steps' s u) :
    Alike (MemoryState.backend σ) (Server.backend π) post refused
      (call (.listSteps routingId)) (call (.listSteps routingId)) s t :=
  alike_read (c := .listSteps routingId) h rfl
    (Server.replies_listSteps ideal h.represents routingId)
    (hpost _ (RoutingStep.perm_ascending _))

/-- The overrides that concern a route, its steps being read in another order. -/
theorem alike_callListOverrides
    {post : List Override → List Override → MemoryState → Server → Prop}
    (h : Mirrored σ π ρ times s t) (r : Routing) {steps steps' : List RoutingStep}
    (hsteps : steps.Perm steps')
    (hpost : ∀ u, Mirrored σ π ρ times s u →
      post (s.store.listOverrides (.forRouting r steps))
        ((s.store.listOverrides (.forRouting r steps)).map (·.rename ρ)) s u) :
    Alike (MemoryState.backend σ) (Server.backend π) post refused
      (call (.listOverrides (.forRouting r steps))) (call (.listOverrides (.forRouting r steps')))
      s t := by
  have hrows : (s.store.rename ρ).listOverrides (.forRouting r steps') =
      (s.store.listOverrides (.forRouting r steps)).map (·.rename ρ) := by
    rw [← MemoryStore.listOverrides_rename h.regular.keepsOrder, MemoryStore.listOverrides,
      OverrideFilter.selects_perm hsteps]
    rfl
  have hreply : Server.Replies π t (.listOverrides (.forRouting r steps'))
      ((s.store.rename ρ).listOverrides (.forRouting r steps')) (s.rename ρ) :=
    Server.replies_listOverrides ideal h.represents _
  rw [hrows] at hreply
  exact alike_read (c := .listOverrides (.forRouting r steps)) h rfl hreply hpost

/-! ## Overrides -/

/-- Both list the same overrides. -/
theorem alike_listOverrides (h : Mirrored σ π ρ times s t) (code : String) :
    Alike (MemoryState.backend σ) (Server.backend π)
      (SameResult σ π ρ times (List.map (Override.rename ρ)) (List.flatMap Override.times))
      (SameRefusal σ π ρ times) (listOverrides code) (listOverrides code) s t := by
  refine alike_bind (alike_loadRouting ideal h code (fun r _ u hu => ?_) fun u hu => ⟨rfl, hu⟩)
  refine alike_bind (alike_listSteps ideal hu r.id fun steps hsteps v hv => ?_)
  refine alike_bind (alike_callListOverrides ideal hv r hsteps fun w hw =>
    alike_pure ⟨?_, times, List.Subset.refl _, fun time htime => ?_, hw⟩)
  · rw [← MemoryStore.listOverrides_rename h.regular.keepsOrder]
    simp only [MemoryStore.listOverrides, Override.mostRecentFirst_mostRecentFirst]
    exact MemoryStore.listOverrides_rename h.regular.keepsOrder _
  · obtain ⟨o, ho, htime⟩ := List.mem_flatMap.1 htime
    rw [MemoryStore.listOverrides, Override.mostRecentFirst_mostRecentFirst] at ho
    exact h.regular.overrideTimes o (MemoryStore.mem_listOverrides.1 ho).1 htime

/-- Both find the target of an override, or neither does. -/
theorem alike_resolveTarget {post : OverrideTarget → OverrideTarget → MemoryState → Server → Prop}
    (h : Mirrored σ π ρ times s t) (r : Routing) (stepNo : Option Int32)
    (hpost : ∀ target u, Mirrored σ π ρ times s u → post target target s u)
    (hrefused : ∀ no u, Mirrored σ π ρ times s u →
      refused (.stepNotFound r.code no) (.stepNotFound r.code no) s u) :
    Alike (MemoryState.backend σ) (Server.backend π) post refused (resolveTarget r stepNo)
      (resolveTarget r stepNo) s t := by
  cases stepNo with
  | none => exact alike_pure (hpost _ t h)
  | some no =>
    refine alike_bind (alike_listSteps ideal h r.id fun steps hsteps u hu => ?_)
    refine alike_bind (alike_orRefuse id ?_ (fun step _ => alike_pure (hpost _ u hu))
      fun _ => hrefused no u hu)
    rw [RoutingStep.find?_perm hsteps (h.regular.stepNos r.id), Option.map_id_apply]

/-- Both find the station group, or neither does. -/
theorem alike_resolveGroup {post : Change String → Change String → MemoryState → Server → Prop}
    (h : Mirrored σ π ρ times s t) (code : Change String)
    (hpost : ∀ group u, Mirrored σ π ρ times s u → post group group s u)
    (hrefused : ∀ name u, Mirrored σ π ρ times s u →
      refused (.stationGroupNotFound name) (.stationGroupNotFound name) s u) :
    Alike (MemoryState.backend σ) (Server.backend π) post refused (resolveGroup code)
      (resolveGroup code) s t := by
  cases code with
  | keep => exact alike_pure (hpost _ t h)
  | clear => exact alike_pure (hpost _ t h)
  | set name =>
    refine alike_bind (alike_read (c := .findStationGroup name) h rfl
      (Server.replies_findStationGroup ideal h.represents name) fun u hu => ?_)
    exact alike_bind (alike_orRefuse id Option.map_id_apply.symm
      (fun group _ => alike_pure (hpost _ u hu)) fun _ => hrefused name u hu)

/-- Both create the same override, or refuse it for the same reason. -/
theorem alike_createOverride (hσ : σ.Corresponds π ρ) (h : Mirrored σ π ρ times s t)
    (code : String) (request : OverrideRequest) :
    Alike (MemoryState.backend σ) (Server.backend π)
      (SameResult σ π ρ times (Override.rename ρ) Override.times) (SameRefusal σ π ρ times)
      (createOverride code request) (createOverride code request) s t := by
  refine alike_bind (alike_lift (fun stepNo _ => ?_) fun e he =>
    ⟨(OverrideRequest.rename_of_stepNo?_eq_error he ρ.id).symm, h⟩)
  refine alike_bind (alike_loadRouting ideal h code (fun r _ u hu => ?_) fun u hu => ⟨rfl, hu⟩)
  refine alike_bind (alike_resolveTarget ideal hu r stepNo (fun target v hv => ?_)
    fun no v hv => ⟨rfl, hv⟩)
  refine alike_bind (alike_resolveGroup ideal hv request.stationGroupCode (fun group w hw => ?_)
    fun name w hw => ⟨rfl, hw⟩)
  obtain ⟨o, s', hs, ht, hregular, htimes⟩ :=
    h.regular.insertOverride hσ ideal hw.represents (request.draft target (group.apply none))
  exact alike_answer (c := .insertOverride _) hs ht fun x hx =>
    ⟨rfl, _, List.subset_append_left .., htimes, hregular, hx⟩

/-- Both change the same override, or refuse to for the same reason. -/
theorem alike_updateOverride (hσ : σ.Corresponds π ρ) (h : Mirrored σ π ρ times s t)
    (code id : String) (edit : OverrideEdit) :
    Alike (MemoryState.backend σ) (Server.backend π)
      (SameResult σ π ρ times (Override.rename ρ) Override.times) (SameRefusal σ π ρ times)
      (updateOverride code id edit) (updateOverride code (ρ.id id) edit) s t := by
  refine alike_bind (alike_loadRouting ideal h code (fun r _ u hu => ?_) fun u hu => ⟨rfl, hu⟩)
  refine alike_bind (alike_listSteps ideal hu r.id fun steps hsteps v hv => ?_)
  refine alike_bind (alike_read (c := .findOverride id) hv rfl
    (Server.replies_findOverride ideal hv.represents (ρ.id id)) fun w hw => ?_)
  refine alike_bind (alike_orRefuse (Override.rename ρ)
    (MemoryStore.findOverride_rename hσ.id_injective s.store id) (fun old hold => ?_)
    fun _ => ⟨rfl, hw⟩)
  have howns : r.owns steps (old.rename ρ) = r.owns (s.store.listSteps r.id) old :=
    congrFun (Routing.owns_perm hsteps) (old.rename ρ)
  rw [howns]
  split
  · exact alike_bind (alike_throw ⟨rfl, hw⟩)
  refine alike_bind (alike_resolveGroup ideal hw edit.stationGroupCode (fun group x hx => ?_)
    fun name x hx => ⟨rfl, hx⟩)
  obtain ⟨o, s', hs, ht, hregular, htimes⟩ :=
    h.regular.updateOverride hσ ideal hx.represents hold (edit.patch group)
  refine alike_bind (alike_answer (c := .updateOverride _ _) hs ht fun y hy => ?_)
  exact alike_orRefuse (Override.rename ρ) rfl (fun o' ho => Option.some.inj ho ▸
    ⟨rfl, _, List.subset_append_left .., htimes, hregular, hy⟩) nofun

/-! ## Versions -/

/-- Both find the same specs. -/
theorem alike_specsOf {post : List DataSpec → List DataSpec → MemoryState → Server → Prop}
    (h : Mirrored σ π ρ times s t) (ids : List String)
    (hpost : ∀ specs u, Mirrored σ π ρ times s u → post specs specs s u) :
    Alike (MemoryState.backend σ) (Server.backend π) post refused (specsOf ids) (specsOf ids)
      s t := by
  unfold specsOf
  split
  · exact alike_pure (hpost [] t h)
  · exact alike_read (c := .findDataSpecs ids) h rfl
      (Server.replies_findDataSpecs ideal h.represents ids) (hpost _)

/-- The route compiles to the same. -/
theorem alike_readCompilation {post : Compilation → Compilation → MemoryState → Server → Prop}
    (h : Mirrored σ π ρ times s t) (r : Routing)
    (hpost : ∀ c u, Mirrored σ π ρ times s u → post c c s u)
    (hrefused : ∀ u, Mirrored σ π ρ times s u →
      refused (.routingEmpty r.code) (.routingEmpty r.code) s u) :
    Alike (MemoryState.backend σ) (Server.backend π) post refused (readCompilation r)
      (readCompilation r) s t := by
  refine alike_bind (alike_listSteps ideal h r.id fun steps hsteps u hu => ?_)
  have hempty : steps.isEmpty = (s.store.listSteps r.id).isEmpty := by
    rw [Bool.eq_iff_iff, List.isEmpty_iff, List.isEmpty_iff]
    exact ⟨fun h => List.perm_nil.1 (h ▸ hsteps), fun h => List.nil_perm.1 (h ▸ hsteps)⟩
  rw [hempty]
  split
  · exact alike_bind (alike_throw (hrefused u hu))
  refine alike_bind (alike_callListOverrides ideal hu r hsteps fun v hv => ?_)
  have hresolved : r.resolve steps ((s.store.listOverrides
      (.forRouting r (s.store.listSteps r.id))).map (·.rename ρ)) =
        r.resolve (s.store.listSteps r.id) (s.store.listOverrides
          (.forRouting r (s.store.listSteps r.id))) := by
    have hlisted : ρ.KeepsOrder (s.store.listOverrides (.forRouting r (s.store.listSteps r.id))) :=
      h.regular.keepsOrder.mono fun o ho => (MemoryStore.mem_listOverrides.1 ho).1
    rw [hlisted.resolve, Routing.resolve, Routing.resolve,
      RoutingStep.ascending_perm hsteps (h.regular.stepNos r.id)]
  rw [hresolved]
  exact alike_bind (alike_specsOf ideal hv _ fun specs w hw => alike_pure (hpost _ w hw))

/-- Both insert the next version, each at the time of its own clock. -/
theorem alike_insertNext (hσ : σ.Corresponds π ρ) (h : Mirrored σ π ρ times s t)
    (hrange : s.store.InRange) {r : Routing} (hr : r ∈ s.store.routings) (c : Compilation)
    {priorNo : Option Int32}
    (hprior : priorNo = (s.store.latestVersion r.id).map (·.versionNo)) :
    Alike (MemoryState.backend σ) (Server.backend π)
      (SameResult σ π ρ times (RouteVersion.rename ρ) RouteVersion.times) refused
      (do call (.insertVersion (c.draft r.id priorNo (← now).truncateToMicros) priorNo))
      (do call (.insertVersion (c.draft r.id priorNo (← now).truncateToMicros) priorNo)) s t := by
  subst hprior
  have hreadings : t.readings = s.readings := h.represents.readings
  let u : Server := { t with readings := t.readings + 1 }
  have hu : u.Represents ({ s with readings := s.readings + 1 }.rename ρ) :=
    { h.represents with readings := congrArg (· + 1) hreadings }
  have hclock : (Server.backend π).readClock t = (π.reading s.readings, u) := by
    rw [← hreadings]
    rfl
  obtain ⟨v, s', hs, ht, hregular, htimes⟩ := (h.regular.tick hσ (.inr rfl)).insertVersion hσ ideal
    hrange hr hu c (List.mem_append_right _ (List.mem_singleton_self _))
  rw [hσ.time (.inr rfl)] at ht
  refine alike_bind (alike_now ?_)
  rw [hclock]
  exact alike_answer (c := .insertVersion _ _) hs ht fun w hw =>
    ⟨rfl, _, List.subset_append_left .., htimes, hregular, hw⟩

/-- Both use the latest version again, or both insert the next one. -/
theorem alike_settleVersion (hσ : σ.Corresponds π ρ) (h : Mirrored σ π ρ times s t)
    (hrange : s.store.InRange) {r : Routing} (hr : r ∈ s.store.routings) (c : Compilation) :
    Alike (MemoryState.backend σ) (Server.backend π)
      (SameResult σ π ρ times (RouteVersion.rename ρ) RouteVersion.times) refused
      (settleVersion r c) (settleVersion r c) s t := by
  refine alike_bind (alike_read (c := .latestVersion r.id) h rfl
    (Server.replies_latestVersion ideal h.represents r.id) fun u hu => ?_)
  have hlatest : ((s.rename ρ).store.listVersions r.id).head? =
      (s.store.latestVersion r.id).map (RouteVersion.rename ρ) := by
    rw [h.regular.numbered.latestVersion_eq_head?, ← List.head?_map]
    exact congrArg List.head? (MemoryStore.listVersions_rename ρ s.store r.id)
  rw [hlatest, c.reusesPrior_rename]
  cases hprior : s.store.latestVersion r.id with
  | none => exact alike_insertNext ideal hσ hu hrange hr c (by rw [hprior])
  | some prior =>
    cases hreuses : (c.decision (some prior)).reusesPrior with
    | false => exact alike_insertNext ideal hσ hu hrange hr c (by rw [hprior])
    | true =>
      have hmem := (MemoryStore.latestVersion_eq_some hprior).1.1
      exact alike_pure ⟨rfl, times, List.Subset.refl _, h.regular.versionTimes prior hmem,
        hu⟩

/-- An attempt to compile is not overtaken. -/
theorem alike_compileOnce (hσ : σ.Corresponds π ρ) (h : Mirrored σ π ρ times s t)
    (hrange : s.store.InRange) (code : String) :
    Alike (MemoryState.backend σ) (Server.backend π)
      (SameResult σ π ρ times (RouteVersion.rename ρ) RouteVersion.times)
      (fun e e' s t => e.isVersionConflict = false ∧ SameRefusal σ π ρ times e e' s t)
      (compileOnce code) (compileOnce code) s t := by
  refine alike_bind (alike_loadRouting ideal h code (fun r hr u hu => ?_)
    fun u hu => ⟨rfl, rfl, hu⟩)
  exact alike_bind (alike_readCompilation ideal hu r
    (fun c v hv => alike_settleVersion ideal hσ hv hrange hr c) fun v hv => ⟨rfl, rfl, hv⟩)

/-- Both compile the route to the same version, or refuse to for the same reason. -/
theorem alike_compile (hσ : σ.Corresponds π ρ) (h : Mirrored σ π ρ times s t)
    (hrange : s.store.InRange) (code : String) (attempts : Nat) :
    Alike (MemoryState.backend σ) (Server.backend π)
      (SameResult σ π ρ times (RouteVersion.rename ρ) RouteVersion.times)
      (SameRefusal σ π ρ times) (compile code attempts) (compile code attempts) s t := by
  obtain ⟨left, hleft⟩ : ∃ left, max 1 attempts = left + 1 :=
    ⟨max 1 attempts - 1, by omega⟩
  rw [compile, hleft, compileWithin]
  refine alike_tryCatch ((alike_compileOnce ideal hσ h hrange code).imp (fun _ _ _ _ => id) ?_)
  rintro e e' u v ⟨hconflict, hrefusal⟩
  have hconflict' : e'.isVersionConflict = false := by
    rw [hrefusal.1, RequestError.isVersionConflict_rename, hconflict]
  rw [if_neg (Bool.eq_false_iff.1 hconflict), if_neg (Bool.eq_false_iff.1 hconflict')]
  exact alike_throw hrefusal

/-- Both list the same versions. -/
theorem alike_listVersions (h : Mirrored σ π ρ times s t) (code : String) :
    Alike (MemoryState.backend σ) (Server.backend π)
      (SameResult σ π ρ times (List.map (RouteVersion.rename ρ))
        (List.flatMap RouteVersion.times))
      (SameRefusal σ π ρ times) (listVersions code) (listVersions code) s t := by
  refine alike_bind (alike_loadRouting ideal h code (fun r _ u hu => ?_) fun u hu => ⟨rfl, hu⟩)
  refine alike_read (c := .listVersions r.id) hu rfl
    (Server.replies_listVersions ideal hu.represents r.id) fun v hv =>
      ⟨MemoryStore.listVersions_rename ρ s.store r.id, times, List.Subset.refl _,
        fun time htime => ?_, hv⟩
  obtain ⟨v, hv, htime⟩ := List.mem_flatMap.1 htime
  exact h.regular.versionTimes v (MemoryStore.mem_listVersions.1 hv).1 htime

/-- Both find the same version, or neither finds one. -/
theorem alike_getVersion (h : Mirrored σ π ρ times s t) (code : String) (versionNo : Int32) :
    Alike (MemoryState.backend σ) (Server.backend π)
      (SameResult σ π ρ times (RouteVersion.rename ρ) RouteVersion.times)
      (SameRefusal σ π ρ times) (getVersion code versionNo) (getVersion code versionNo) s t := by
  refine alike_bind (alike_loadRouting ideal h code (fun r _ u hu => ?_) fun u hu => ⟨rfl, hu⟩)
  refine alike_bind (alike_read (c := .findVersion r.id versionNo) hu rfl
    (Server.replies_findVersion ideal hu.represents r.id versionNo) fun v hv => ?_)
  refine alike_orRefuse (RouteVersion.rename ρ)
    (MemoryStore.findVersion_rename ρ s.store r.id versionNo) (fun w hw => ?_) fun _ => ⟨rfl, hv⟩
  exact ⟨rfl, times, List.Subset.refl _,
    h.regular.versionTimes w (MemoryStore.isVersion_of_findVersion hw).1, hv⟩

end Service
end RoutePlan
