import RoutePlan.Proofs.Override.Ownership
import RoutePlan.Proofs.Service.Confinement

/-!
# Which requests are refused, and why

Each request comes with a list of checks (`Request.checks`). What it takes to fail a check is said
on its own, whatever the other checks come to (`Check.Fails`), so a request may fail several of them
at once. A request that runs alone is refused for the first check that it fails, and if it passes
all of them, it is served (`Request.refused_iff_firstFailure`). For compile calls this needs a
guard: there is no number after the greatest one, and such a call gives up although no check fails.
-/

namespace RoutePlan

/-- What is checked of a request. -/
inductive Check
  /-- The scope of a new override is a route or a step. -/
  | scope (request : OverrideRequest)
  /-- An override of a step comes with the number of the step. -/
  | stepNo (request : OverrideRequest)
  /-- There is a route with the code. -/
  | route (code : String)
  /-- The route has a step with the number, if one is wanted. -/
  | step (code : String) (request : OverrideRequest)
  /-- The route has any steps. -/
  | steps (code : String)
  /-- The route has a version with the number. -/
  | version (code : String) (versionNo : Int32)
  /-- There is an override with the id. -/
  | override (id : String)
  /-- The override belongs to the route. -/
  | ownership (code id : String)
  /-- There is a station group with the code, if one is to be set. -/
  | group (code : Change String)

/-- What it takes to fail a check on a store, and the error that reports it. -/
inductive Check.Fails (s : MemoryStore) : Check → RequestError → Prop
  | scope {request : OverrideRequest} (hroute : request.scope ≠ "ROUTE")
    (hstep : request.scope ≠ "STEP") : Fails s (.scope request) (.scopeInvalid request.scope)
  | stepNo {request : OverrideRequest} (hscope : request.scope = "STEP")
    (hno : request.stepNo = none) : Fails s (.stepNo request) .stepNoRequired
  | route {code : String} (hroutings : ∀ r ∈ s.routings, r.code ≠ code) :
    Fails s (.route code) (.routeNotFound code)
  | step {code : String} {request : OverrideRequest} {r : Routing} {n : Int32}
    (hr : s.findRouting code = some r) (hscope : request.scope = "STEP")
    (hno : request.stepNo = some n) (hsteps : ∀ step ∈ s.listSteps r.id, step.stepNo ≠ n) :
    Fails s (.step code request) (.stepNotFound code n)
  | steps {code : String} {r : Routing} (hr : s.findRouting code = some r)
    (hsteps : s.listSteps r.id = []) : Fails s (.steps code) (.routingEmpty code)
  | version {code : String} {n : Int32} {r : Routing} (hr : s.findRouting code = some r)
    (hversions : ∀ v ∈ s.versionsOf r.id, v.versionNo ≠ n) :
    Fails s (.version code n) (.versionNotFound code n)
  | override {id : String} (hrows : ∀ o ∈ s.overrides, o.id ≠ id) :
    Fails s (.override id) (.overrideNotFound id)
  | ownership {code id : String} {r : Routing} {o : Override} (hr : s.findRouting code = some r)
    (ho : s.findOverride id = some o) (hconcerns : ¬o.Concerns r (s.listSteps r.id))
    (hoperation : ¬o.IsOfOperation (s.listSteps r.id)) :
    Fails s (.ownership code id) (.overrideMismatch code id)
  | group {code : String} (hgroups : ∀ g ∈ s.stationGroups, g.code ≠ code) :
    Fails s (.group (.set code)) (.stationGroupNotFound code)

namespace Check

/-- The check is not failed, whatever the error. -/
def Passes (s : MemoryStore) (c : Check) : Prop := ∀ e, ¬c.Fails s e

variable {s : MemoryStore} {c : Check} {code : String} {r : Routing}

/-- A check is failed for one reason. -/
theorem Fails.unique {e e' : RequestError} (h : c.Fails s e) (h' : c.Fails s e') : e = e' := by
  cases h <;> cases h' <;> simp_all

/-- Without a routing of the code the check of the route is failed. -/
theorem fails_route (hr : s.findRouting code = none) :
    (route code).Fails s (.routeNotFound code) :=
  .route (by simpa [MemoryStore.findRouting] using hr)

/-- With a routing of the code the check of the route is passed. -/
theorem passes_route (hr : s.findRouting code = some r) : (route code).Passes s :=
  fun _ hfails => by
    cases hfails with
    | route hroutings =>
      exact hroutings r (List.mem_of_find?_eq_some hr) (by simpa using List.find?_some hr)

/-- A routing with steps passes the check of its steps. -/
theorem passes_steps (hr : s.findRouting code = some r) (hsteps : s.listSteps r.id ≠ []) :
    (steps code).Passes s :=
  fun _ hfails => by
    cases hfails with
    | steps hr' hnone =>
      obtain rfl := Option.some.inj (hr.symm.trans hr')
      exact hsteps hnone

/-- An override that is found passes the check. -/
theorem passes_override {id : String} {o : Override} (ho : s.findOverride id = some o) :
    (override id).Passes s :=
  fun _ hfails => by
    cases hfails with
    | override hrows =>
      exact hrows o (List.mem_of_find?_eq_some ho) (by simpa using List.find?_some ho)

/-- An override that belongs to the routing passes the check of ownership. -/
theorem passes_ownership {id : String} {o : Override} (hr : s.findRouting code = some r)
    (ho : s.findOverride id = some o) (howns : r.owns (s.listSteps r.id) o = true) :
    (ownership code id).Passes s :=
  fun _ hfails => by
    cases hfails with
    | ownership hr' ho' hconcerns hoperation =>
      obtain rfl := Option.some.inj (hr.symm.trans hr')
      obtain rfl := Option.some.inj (ho.symm.trans ho')
      exact (Routing.owns_iff.1 howns).elim hconcerns hoperation

end Check

/-- The checks of a request, in the order in which they are made. -/
def Request.checks : Request → List Check
  | write (.create code request) => [.scope request, .stepNo request, .route code,
      .step code request, .group request.stationGroupCode]
  | write (.update code id edit) =>
    [.route code, .override id, .ownership code id, .group edit.stationGroupCode]
  | listOverrides code => [.route code]
  | compile code _ => [.route code, .steps code]
  | listVersions code => [.route code]
  | getVersion code versionNo => [.route code, .version code versionNo]

/-- The error of the first check that is failed. -/
def FirstFailure (s : MemoryStore) (checks : List Check) (e : RequestError) : Prop :=
  ∃ before c after, checks = before ++ c :: after ∧ (∀ b ∈ before, b.Passes s) ∧ c.Fails s e

/-- The first failure is that of the first check, or that of the others once it is passed. -/
theorem firstFailure_cons {s : MemoryStore} {c : Check} {checks : List Check} {e : RequestError} :
    FirstFailure s (c :: checks) e ↔ c.Fails s e ∨ c.Passes s ∧ FirstFailure s checks e := by
  constructor
  · rintro ⟨before, d, after, hchecks, hbefore, hd⟩
    cases before with
    | nil =>
      obtain ⟨rfl, -⟩ := List.cons.inj hchecks
      exact .inl hd
    | cons b before =>
      obtain ⟨rfl, hrest⟩ := List.cons.inj hchecks
      obtain ⟨hb, hbefore⟩ := List.forall_mem_cons.1 hbefore
      exact .inr ⟨hb, before, d, after, hrest, hbefore, hd⟩
  · rintro (h | ⟨h, before, d, after, rfl, hbefore, hd⟩)
    · exact ⟨[], c, checks, rfl, fun _ hb => absurd hb List.not_mem_nil, h⟩
    · exact ⟨c :: before, d, after, rfl, List.forall_mem_cons.2 ⟨h, hbefore⟩, hd⟩

/-- An outcome in accordance with some checks. -/
inductive Verdict (s : MemoryStore) {α : Type} : List Check → Except RequestError α → Prop
  | served (a : α) : Verdict s [] (.ok a)
  | failed {c : Check} {rest : List Check} {e : RequestError} (h : c.Fails s e) :
    Verdict s (c :: rest) (.error e)
  | passed {c : Check} {rest : List Check} {outcome : Except RequestError α} (h : c.Passes s)
    (hrest : Verdict s rest outcome) : Verdict s (c :: rest) outcome

namespace Verdict

variable {s : MemoryStore} {α : Type} {checks : List Check} {outcome : Except RequestError α}

/-- A request is served if it passes all checks. -/
theorem exists_ok_iff (h : Verdict s checks outcome) :
    (∃ a, outcome = .ok a) ↔ ∀ c ∈ checks, c.Passes s := by
  induction h with
  | served a => exact ⟨fun _ _ hc => absurd hc List.not_mem_nil, fun _ => ⟨a, rfl⟩⟩
  | failed h => exact ⟨nofun, fun hpass => absurd h (hpass _ (List.mem_cons_self ..) _)⟩
  | passed h _ ih => rw [ih, List.forall_mem_cons, and_iff_right h]

/-- A request is refused for the first check that it fails. -/
theorem eq_error_iff (h : Verdict s checks outcome) (e : RequestError) :
    outcome = .error e ↔ FirstFailure s checks e := by
  induction h with
  | served a => exact ⟨nofun, fun ⟨before, c, after, h, _⟩ => absurd h (by simp)⟩
  | @failed c rest e' h =>
    rw [firstFailure_cons]
    constructor
    · intro he
      exact .inl (Except.error.inj he ▸ h)
    · rintro (h' | ⟨hpass, -⟩)
      · rw [h.unique h']
      · exact absurd h (hpass e')
  | passed h _ ih => rw [firstFailure_cons, ih, and_iff_right h, or_iff_right (h e)]

end Verdict

/-- A scope is found by its name and by nothing else. -/
theorem Scope.ofName?_eq_some {text : String} {scope : Scope} :
    ofName? text = some scope ↔ text = scope.name :=
  ⟨fun h => (by simpa [names] using List.find?_some h : scope.name = text).symm,
    fun h => by rw [h, ofName?_name]⟩

/-- A request for a route goes on without a step, one for a step with the number of the step. -/
theorem OverrideRequest.stepNo?_cases (request : OverrideRequest) :
    (request.scope ≠ "ROUTE" ∧ request.scope ≠ "STEP" ∧
      request.stepNo? = .error (.scopeInvalid request.scope)) ∨
    (request.scope = "STEP" ∧ request.stepNo = none ∧ request.stepNo? = .error .stepNoRequired) ∨
    (request.scope = "ROUTE" ∧ request.stepNo? = .ok none) ∨
    ∃ n, request.scope = "STEP" ∧ request.stepNo = some n ∧ request.stepNo? = .ok (some n) := by
  have hroute : Scope.ofName? request.scope = some .route ↔ request.scope = "ROUTE" :=
    Scope.ofName?_eq_some
  have hstep : Scope.ofName? request.scope = some .step ↔ request.scope = "STEP" :=
    Scope.ofName?_eq_some
  unfold stepNo?
  split
  · next h => exact .inr (.inr (.inl ⟨hroute.1 h, rfl⟩))
  · next h =>
    cases hno : request.stepNo with
    | none => exact .inr (.inl ⟨hstep.1 h, rfl, rfl⟩)
    | some n => exact .inr (.inr (.inr ⟨n, hstep.1 h, rfl, rfl⟩))
  · next hnotRoute hnotStep => exact .inl ⟨hnotRoute ∘ hroute.2, hnotStep ∘ hstep.2, rfl⟩

namespace Service

/-- The service ends in accordance with some checks. -/
def Settles {α : Type} (supply : Supply) (s : MemoryState) (checks : List Check) (x : Service α) :
    Prop :=
  ∃ outcome t, x.run.run (MemoryState.backend supply) s = (outcome, t) ∧
    Verdict s.store checks outcome

variable {α β : Type} {supply : Supply} {s t : MemoryState} {c : Check} {rest : List Check}
  {x : Service α} {f : α → Service β}

namespace Settles

/-- A service with a result has no checks left to fail. -/
theorem of_ok {a : α} (h : x.run.run (MemoryState.backend supply) s = (.ok a, t)) :
    x.Settles supply s [] :=
  ⟨_, _, h, .served a⟩

/-- A service that is refused has failed the first of its checks. -/
theorem of_error {e : RequestError}
    (h : x.run.run (MemoryState.backend supply) s = (.error e, t)) (hfails : c.Fails s.store e) :
    x.Settles supply s (c :: rest) :=
  ⟨_, _, h, .failed hfails⟩

/-- Where a check has passed, the others are left. -/
theorem pass (h : c.Passes s.store) (hrest : x.Settles supply s rest) :
    x.Settles supply s (c :: rest) :=
  let ⟨outcome, t, hrun, hverdict⟩ := hrest
  ⟨outcome, t, hrun, .passed h hverdict⟩

/-- A service that is refused by its first part. -/
theorem bind_error {e : RequestError}
    (h : x.run.run (MemoryState.backend supply) s = (.error e, t)) (hfails : c.Fails s.store e) :
    (x >>= f).Settles supply s (c :: rest) :=
  .of_error (run_bind_of_error h f) hfails

/-- A first part that only reads leaves the checks to the rest. -/
theorem bind_ok {a : α} (h : x.run.run (MemoryState.backend supply) s = (.ok a, s))
    (hrest : (f a).Settles supply s rest) : (x >>= f).Settles supply s rest :=
  let ⟨outcome, t, hrun, hverdict⟩ := hrest
  ⟨outcome, t, (run_bind_of_ok h f).trans hrun, hverdict⟩

end Settles

/-- The route is loaded if there is one, and the rest of the checks is about it. -/
theorem Settles.loadRouting_bind {code : String} {f : Routing → Service β}
    (h : ∀ r, r.code = code → s.store.findRouting code = some r → (f r).Settles supply s rest) :
    (loadRouting code >>= f).Settles supply s (.route code :: rest) := by
  cases hr : s.store.findRouting code with
  | none => exact .bind_error (loadRouting_run_of_none hr) (Check.fails_route hr)
  | some r =>
    have hcode : r.code = code := by simpa using List.find?_some hr
    exact .pass (Check.passes_route hr) (.bind_ok (loadRouting_run hr) (h r hcode hr))

/-- A station group that is to be set is found by its code, or the request is refused. -/
theorem resolveGroup_run_set (supply : Supply) (s : MemoryState) (code : String) :
    (resolveGroup (.set code)).run.run (MemoryState.backend supply) s =
      match s.store.findStationGroup code with
      | none => (.error (.stationGroupNotFound code), s)
      | some g => (.ok (.set g.id), s) := by
  simp only [resolveGroup]
  rw [run_bind_of_ok (a := s.store.findStationGroup code) (t := s) rfl]
  cases s.store.findStationGroup code <;> rfl

/-- The station group is looked up if one is to be set. -/
theorem Settles.resolveGroup_bind {code : Change String} {f : Change String → Service β}
    (h : ∀ group, (f group).Settles supply s rest) :
    (resolveGroup code >>= f).Settles supply s (.group code :: rest) := by
  cases code with
  | keep => exact .pass nofun (h .keep)
  | clear => exact .pass nofun (h .clear)
  | set name =>
    have hrun := resolveGroup_run_set supply s name
    cases hg : s.store.findStationGroup name with
    | none =>
      rw [hg] at hrun
      refine .bind_error hrun (.group ?_)
      simpa [MemoryStore.findStationGroup] using hg
    | some g =>
      rw [hg] at hrun
      refine .pass (fun _ hfails => ?_) (.bind_ok hrun (h _))
      cases hfails with
      | group hgroups =>
        exact hgroups g (List.mem_of_find?_eq_some hg) (by simpa using List.find?_some hg)

/-- The step is looked up if one is wanted. -/
theorem Settles.resolveTarget_bind {r : Routing} {request : OverrideRequest} {wanted : Option Int32}
    {f : OverrideTarget → Service β} (hr : s.store.findRouting r.code = some r)
    (hwanted : ∀ n, wanted = some n ↔ request.scope = "STEP" ∧ request.stepNo = some n)
    (h : ∀ target, (f target).Settles supply s rest) :
    (resolveTarget r wanted >>= f).Settles supply s (.step r.code request :: rest) := by
  cases wanted with
  | none =>
    refine .pass (fun _ hfails => ?_) (h r.asTarget)
    cases hfails with
    | step _ hscope hno => cases (hwanted _).2 ⟨hscope, hno⟩
  | some n =>
    obtain ⟨hscope, hno⟩ := (hwanted n).1 rfl
    have hrun : (resolveTarget r (some n)).run.run (MemoryState.backend supply) s =
        match (s.store.listSteps r.id).find? fun step => step.stepNo == n with
        | none => (.error (.stepNotFound r.code n), s)
        | some step => (.ok step.asTarget, s) := by
      simp only [resolveTarget]
      rw [run_bind_of_ok (a := s.store.listSteps r.id) (t := s) rfl]
      cases (s.store.listSteps r.id).find? fun step => step.stepNo == n <;> rfl
    cases hfound : (s.store.listSteps r.id).find? fun step => step.stepNo == n with
    | none =>
      rw [hfound] at hrun
      exact .bind_error hrun (.step hr hscope hno (by simpa using hfound))
    | some step =>
      rw [hfound] at hrun
      refine .pass (fun _ hfails => ?_) (.bind_ok hrun (h _))
      cases hfails with
      | step hr' _ hno' hsteps =>
        obtain rfl := Option.some.inj (hr.symm.trans hr')
        obtain rfl := Option.some.inj (hno.symm.trans hno')
        exact hsteps step (List.mem_of_find?_eq_some hfound) (by simpa using List.find?_some hfound)

/-- A request to create an override ends in accordance with its checks. -/
theorem settles_createOverride (supply : Supply) (s : MemoryState) (code : String)
    (request : OverrideRequest) : (createOverride code request).Settles supply s
      (Request.write (.create code request)).checks := by
  have hscoped (h : request.scope = "ROUTE" ∨ request.scope = "STEP") :
      (Check.scope request).Passes s.store := fun _ hfails => by
    cases hfails with
    | scope hroute hstep => exact h.elim hroute hstep
  have hnumbered (h : request.scope = "STEP" → request.stepNo ≠ none) :
      (Check.stepNo request).Passes s.store := fun _ hfails => by
    cases hfails with
    | stepNo hscope hno => exact h hscope hno
  -- the scope and the number are looked at together, before the store is asked
  have hrest (wanted : Option Int32)
      (hwanted : ∀ n, wanted = some n ↔ request.scope = "STEP" ∧ request.stepNo = some n) :
      (do
        let routing ← loadRouting code
        let target ← resolveTarget routing wanted
        let group ← resolveGroup request.stationGroupCode
        call (.insertOverride (request.draft target (group.apply none)))).Settles supply s
          [.route code, .step code request, .group request.stationGroupCode] := by
    refine .loadRouting_bind fun r hcode hr => ?_
    subst hcode
    exact .resolveTarget_bind hr hwanted fun target => .resolveGroup_bind fun group => .of_ok rfl
  unfold createOverride
  rcases request.stepNo?_cases with ⟨hroute, hstep, hrun⟩ | ⟨hscope, hno, hrun⟩ | ⟨hscope, hrun⟩ |
    ⟨n, hscope, hno, hrun⟩ <;> rw [hrun]
  · exact .bind_error rfl (.scope hroute hstep)
  · exact .pass (hscoped (.inr hscope)) (.bind_error rfl (.stepNo hscope hno))
  · have hne : request.scope ≠ "STEP" := by rw [hscope]; decide
    exact .pass (hscoped (.inl hscope)) (.pass (hnumbered fun h => absurd h hne)
      (hrest none fun n => ⟨nofun, fun h => absurd h.1 hne⟩))
  · refine .pass (hscoped (.inr hscope)) (.pass (hnumbered fun _ => by rw [hno]; nofun)
      (hrest (some n) fun m => ?_))
    rw [hno, and_iff_right hscope]

/-- A request to change an override ends in accordance with its checks. -/
theorem settles_updateOverride (supply : Supply) (s : MemoryState) (code id : String)
    (edit : OverrideEdit) : (updateOverride code id edit).Settles supply s
      (Request.write (.update code id edit)).checks := by
  unfold updateOverride
  refine .loadRouting_bind fun r hcode hr => .bind_ok rfl (.bind_ok rfl ?_)
  subst hcode
  cases ho : s.store.findOverride id with
  | none =>
    refine .bind_error rfl (.override ?_)
    simpa [MemoryStore.findOverride] using ho
  | some o =>
    refine .pass (Check.passes_override ho) (.bind_ok rfl ?_)
    cases howns : r.owns (s.store.listSteps r.id) o with
    | false =>
      have hforeign := Bool.eq_false_iff.1 howns
      rw [Ne, Routing.owns_iff, not_or] at hforeign
      exact .of_error rfl (.ownership hr ho hforeign.1 hforeign.2)
    | true =>
      refine .pass (Check.passes_ownership hr ho howns) (.resolveGroup_bind fun group => ?_)
      obtain ⟨_, _, _, -, -, hcall⟩ := call_updateOverride_run supply ho (edit.patch group)
      exact .of_ok (run_bind_of_ok hcall _)

/-- A request to compile a route ends in accordance with its checks, if the version numbers are in
range. -/
theorem settles_compile (supply : Supply) {s : MemoryState} (hrange : s.store.InRange)
    (code : String) (attempts : Nat) :
    (compile code attempts).Settles supply s (Request.compile code attempts).checks := by
  obtain ⟨outcome, t, hrun, hends⟩ := compile_run_alone supply s code attempts
  refine ⟨outcome, t, hrun, ?_⟩
  generalize t.store = store at hends
  cases hends with
  | unknown hr => exact .failed (Check.fails_route hr)
  | empty r hr hsteps =>
    have hcode : r.code = code := by simpa using List.find?_some hr
    rw [hcode]
    exact .passed (Check.passes_route hr) (.failed (.steps hr hsteps))
  | reused r v hr hsteps =>
    exact .passed (Check.passes_route hr) (.passed (Check.passes_steps hr hsteps) (.served v))
  | inserted r _ _ hr hsteps =>
    exact .passed (Check.passes_route hr) (.passed (Check.passes_steps hr hsteps) (.served _))
  | numberTaken r _ _ htaken =>
    exact absurd (MemoryStore.findVersion_nextVersionNo hrange r.id) htaken

/-- A request to read a version ends in accordance with its checks. -/
theorem settles_getVersion (supply : Supply) (s : MemoryState) (code : String) (n : Int32) :
    (getVersion code n).Settles supply s (Request.getVersion code n).checks := by
  refine .loadRouting_bind fun r hcode hr => .bind_ok rfl ?_
  subst hcode
  cases hv : s.store.findVersion r.id n with
  | none =>
    refine .of_error rfl (.version hr fun v hv' => ?_)
    have hmem := MemoryStore.mem_versionsOf.1 hv'
    exact MemoryStore.findVersion_eq_none.1 hv v hmem.1 hmem.2
  | some v =>
    refine .pass (fun _ hfails => ?_) (.of_ok rfl)
    cases hfails with
    | version hr' hversions =>
      obtain rfl := Option.some.inj (hr.symm.trans hr')
      have hfound : v.routingId = r.id ∧ v.versionNo = n := by simpa using List.find?_some hv
      exact hversions v (MemoryStore.mem_versionsOf.2 ⟨List.mem_of_find?_eq_some hv, hfound.1⟩)
        hfound.2

/-- A request to list overrides ends in accordance with its checks. -/
theorem settles_listOverrides (supply : Supply) (s : MemoryState) (code : String) :
    (listOverrides code).Settles supply s (Request.listOverrides code).checks :=
  .loadRouting_bind fun _ _ _ => .bind_ok rfl (.bind_ok rfl (.of_ok rfl))

/-- A request to list versions ends in accordance with its checks. -/
theorem settles_listVersions (supply : Supply) (s : MemoryState) (code : String) :
    (listVersions code).Settles supply s (Request.listVersions code).checks :=
  .loadRouting_bind fun _ _ _ => .of_ok rfl

end Service

namespace Request

/-- A request that runs alone ends in accordance with its checks. -/
theorem settles (supply : Supply) (q : Request) {s : MemoryState}
    (hrange : ∀ code attempts, q = .compile code attempts → s.store.InRange) :
    q.serve.Settles supply s q.checks := by
  cases q with
  | write w =>
    cases w with
    | create code request => exact Service.settles_createOverride supply s code request
    | update code id edit => exact Service.settles_updateOverride supply s code id edit
  | listOverrides code => exact Service.settles_listOverrides supply s code
  | compile code attempts => exact Service.settles_compile supply (hrange _ _ rfl) code attempts
  | listVersions code => exact Service.settles_listVersions supply s code
  | getVersion code versionNo => exact Service.settles_getVersion supply s code versionNo

/-- **A request is refused for the first check that it fails.** Whatever the store holds, a request
that runs alone comes to an end. It is refused with an error if and only if that is the error of the
first of its checks that fails, and it is served if and only if all of them pass. Compile calls need
room for the next version number. -/
theorem refused_iff_firstFailure (supply : Supply) (q : Request) (s : MemoryState)
    (hrange : ∀ code attempts, q = .compile code attempts → s.store.InRange) :
    ∃ outcome t, q.serve.run.run (MemoryState.backend supply) s = (outcome, t) ∧
      (∀ e, outcome = .error e ↔ FirstFailure s.store q.checks e) ∧
      ((∃ reply, outcome = .ok reply) ↔ ∀ c ∈ q.checks, c.Passes s.store) := by
  obtain ⟨outcome, t, hrun, hverdict⟩ := q.settles supply hrange
  exact ⟨outcome, t, hrun, hverdict.eq_error_iff, hverdict.exists_ok_iff⟩

end Request

/-- A request for a step that the route does not have and for a station group that there is not. -/
def SingleStep.misdirected : OverrideRequest where
  scope := "STEP"
  stepNo := some 7
  stationType := none
  stationGroupCode := .set "G"
  allowedStationIds := none
  requiresFAI := none
  requiresAuthorization := none
  dataSpecIds := none
  ingestMapping := none
  info := none

/-- The step is looked up before the station group, so it is what the request is refused for. The
route compiles. -/
theorem Request.refused_iff_firstFailure_singleStep :
    (∃ outcome t, (write (.create "R1" SingleStep.misdirected)).serve.run.run
        (MemoryState.backend SingleStep.supply) (.start (SingleStep.store none)) = (outcome, t) ∧
      outcome = .error (.stepNotFound "R1" 7)) ∧
    (Check.group (.set "G")).Fails (SingleStep.store none) (.stationGroupNotFound "G") ∧
    ∃ outcome t, (compile "R1" 1).serve.run.run (MemoryState.backend SingleStep.supply)
        (.start (SingleStep.store none)) = (outcome, t) ∧ ∃ v, outcome = .ok v := by
  have hr : (SingleStep.store none).findRouting "R1" = some SingleStep.routing := rfl
  obtain ⟨outcome, t, hrun, hrefused, -⟩ := refused_iff_firstFailure SingleStep.supply
    (write (.create "R1" SingleStep.misdirected)) (.start (SingleStep.store none)) nofun
  obtain ⟨outcome', t', hrun', -, hserved⟩ := refused_iff_firstFailure SingleStep.supply
    (compile "R1" 1) (.start (SingleStep.store none)) fun _ _ _ => by decide
  refine ⟨⟨outcome, t, hrun, (hrefused _).2 ?_⟩, .group (by decide), outcome', t', hrun',
    hserved.2 fun c hc e hfails => ?_⟩
  · refine ⟨[.scope SingleStep.misdirected, .stepNo SingleStep.misdirected, .route "R1"],
      .step "R1" SingleStep.misdirected, [.group (.set "G")], rfl, fun c hc e hfails => ?_,
      .step hr rfl rfl (by decide)⟩
    simp only [List.mem_cons, List.not_mem_nil, or_false] at hc
    rcases hc with rfl | rfl | rfl
    · cases hfails with
      | scope _ hstep => exact hstep rfl
    · cases hfails with
      | stepNo _ hno => cases hno
    · exact Check.passes_route hr e hfails
  · simp only [checks, List.mem_cons, List.not_mem_nil, or_false] at hc
    rcases hc with rfl | rfl
    · exact Check.passes_route hr e hfails
    · exact Check.passes_steps hr (by decide) e hfails

end RoutePlan
