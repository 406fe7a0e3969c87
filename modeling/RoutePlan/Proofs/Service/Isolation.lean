import RoutePlan.Proofs.Service.Serving

/-!
# Routes are isolated from each other

Requests are served by programs that run call by call on one store, in any order
(`World.serving`). If the design stays as it is, all overrides are written by requests and new ids
are fresh, then requests through one route have no effect on another one that shares no source key
with it (`MemoryStore.Apart`): it resolves, compiles and lists the same, and it has the same
versions. An override that was created through the one cannot be changed through the other
(`World.Serves.isolated`).
-/

namespace RoutePlan

/-! ## Routes without a common target -/

section

variable {s : MemoryStore} {r : Routing} {o : Override}

/-- An override of a route concerns the routes with its id. -/
theorem Override.Concerns.id_eq {r' : Routing} {steps : List RoutingStep}
    (h : o.Concerns r steps) (htarget : o.target = r'.asTarget) : r'.id = r.id := by
  simp only [target, Routing.asTarget, OverrideTarget.mk.injEq] at htarget
  obtain ⟨-, hrouting, hid, hkey⟩ := htarget
  rw [Concerns, hrouting, hid, hkey] at h
  rcases h with h | ⟨y, -, h | ⟨key, h, -⟩⟩
  · exact Option.some.inj h
  · cases h
  · cases h

/-- An override of a step concerns the route of the step, and the routes that have a step with the
same source key. -/
theorem Override.Concerns.step_or_key {step : RoutingStep} (h : o.Concerns r (s.listSteps r.id))
    (hids : (s.steps.map (·.id)).Nodup) (hstep : step ∈ s.steps)
    (htarget : o.target = step.asTarget) :
    step ∈ s.listSteps r.id ∨ ∃ y ∈ s.listSteps r.id, ∃ key,
      step.sourceStepKey = some key ∧ y.sourceStepKey = some key := by
  simp only [target, RoutingStep.asTarget, OverrideTarget.mk.injEq] at htarget
  obtain ⟨-, hrouting, hid, hkey⟩ := htarget
  rw [Concerns, hrouting, hid, hkey] at h
  rcases h with h | ⟨y, hy, h | ⟨key, hstepKey, hyKey⟩⟩
  · cases h
  · have hsame := List.inj_on_of_nodup_map hids hstep (List.mem_filter.1 hy).1 (Option.some.inj h)
    exact .inl (hsame ▸ hy)
  · exact .inr ⟨y, hy, key, hstepKey, hyKey⟩

/-- A row that was written by a request belongs to a route only if it concerns it. -/
theorem Override.WellTargeted.concerns {steps : List RoutingStep} (h : o.WellTargeted s.steps)
    (howns : r.owns steps o = true) : o.Concerns r steps := by
  refine (Routing.owns_iff.1 howns).resolve_right ?_
  rintro ⟨step, -, hoperation⟩
  rw [h.operationId] at hoperation
  cases hoperation

end

/-- The steps have different ids, and the two routes have different ids and no source key in
common. -/
structure MemoryStore.Apart (s : MemoryStore) (a b : Routing) : Prop where
  stepIds : (s.steps.map (·.id)).Nodup
  ids : a.id ≠ b.id
  keys : ∀ x ∈ s.listSteps a.id, ∀ y ∈ s.listSteps b.id, ∀ key, x.sourceStepKey = some key →
    y.sourceStepKey ≠ some key

namespace MemoryStore.Apart

variable {s : MemoryStore} {a b : Routing} {o : Override}

/-- Routes that are apart stay so in every later store. -/
theorem later {t : MemoryStore} (h : s.Apart a b) (hlater : s.Later t) : t.Apart a b where
  stepIds := hlater.steps ▸ h.stepIds
  ids := h.ids
  keys := hlater.listSteps ▸ h.keys

/-- An override that was written by a request belongs to one of the routes at most. -/
theorem not_owns (h : s.Apart a b) (ho : o.WellTargeted s.steps)
    (ha : a.owns (s.listSteps a.id) o = true) : b.owns (s.listSteps b.id) o = false := by
  refine Bool.eq_false_iff.2 fun hb => ?_
  have ha := ho.concerns ha
  have hb := ho.concerns hb
  rcases ho.target with ⟨r, htarget⟩ | ⟨step, hstep, htarget⟩
  · exact h.ids ((ha.id_eq htarget).symm.trans (hb.id_eq htarget))
  -- the step is one of the route, or it has a source key in common with one
  rcases ha.step_or_key h.stepIds hstep htarget with ha | ⟨x, hx, key, hkey, hxKey⟩ <;>
    rcases hb.step_or_key h.stepIds hstep htarget with hb | ⟨y, hy, key', hkey', hyKey⟩
  · have hroute : ∀ {r : Routing}, step ∈ s.listSteps r.id → step.routingId = r.id :=
      fun h => beq_iff_eq.1 (List.mem_filter.1 h).2
    exact h.ids ((hroute ha).symm.trans (hroute hb))
  · exact h.keys step ha y hy key' hkey' hyKey
  · exact h.keys x hx step hb key hxKey hkey
  · rw [hkey] at hkey'
    exact h.keys x hx y hy key hxKey (hkey' ▸ hyKey)

/-- So the rows that the filter of the one route selects are among those foreign to the other. -/
theorem filter_selects (h : s.Apart a b) (hrows : ∀ o ∈ s.overrides, o.WellTargeted s.steps) :
    s.overrides.filter (OverrideFilter.forRouting b (s.listSteps b.id)).selects =
      (a.foreign (s.listSteps a.id) s.overrides).filter
        (OverrideFilter.forRouting b (s.listSteps b.id)).selects := by
  rw [Routing.foreign, List.filter_filter]
  refine List.filter_congr fun o ho => ?_
  cases hselects : (OverrideFilter.forRouting b (s.listSteps b.id)).selects o with
  | false => rfl
  | true =>
    cases howns : a.owns (s.listSteps a.id) o with
    | false => rfl
    | true =>
      have hb := h.not_owns (hrows o ho) howns
      rw [Routing.owns_iff.2 (.inl (OverrideFilter.selects_iff.1 hselects))] at hb
      cases hb

end MemoryStore.Apart

/-! ## What is seen of a route -/

/-- A client of the route sees the same in both states: the resolved steps, the violations, the
listing and the versions. A version that is up to date in the first state is used again in the
second one. -/
structure MemoryState.LooksAlike (supply : Supply) (r : Routing) (s t : MemoryState) : Prop where
  resolvedSteps : t.store.resolvedSteps r = s.store.resolvedSteps r
  violations : (t.store.compilation r).violations = (s.store.compilation r).violations
  listing : ∃ rows,
    (Service.listOverrides r.code).run.run (MemoryState.backend supply) s = (.ok rows, s) ∧
    (Service.listOverrides r.code).run.run (MemoryState.backend supply) t = (.ok rows, t)
  versions : t.store.versionsOf r.id = s.store.versionsOf r.id
  compile : ∀ v, UpToDate (MemoryStore.Compiles r.code) v s.store → s.store.listSteps r.id ≠ [] →
    ∀ attempts,
      (Service.compile r.code attempts).run.run (MemoryState.backend supply) t = (.ok v, t)

/-- Confined moves through one route are not seen by the clients of another one. -/
theorem MemoryStore.Confined.looksAlike (supply : Supply) {s t : MemoryState} {a b : Routing}
    (h : s.store.Confined a.code t.store) (hlater : s.store.Later t.store)
    (ha : s.store.findRouting a.code = some a) (hb : s.store.findRouting b.code = some b)
    (hapart : s.store.Apart a b)
    (hrows : ∀ o ∈ s.store.overrides, o.WellTargeted s.store.steps) :
    s.LooksAlike supply b t := by
  have hselects : t.store.overrides.filter
        (OverrideFilter.forRouting b (s.store.listSteps b.id)).selects =
      s.store.overrides.filter (OverrideFilter.forRouting b (s.store.listSteps b.id)).selects := by
    have hforeign := (hapart.later hlater).filter_selects (h.wellTargeted hrows)
    rw [h.overrides a ha, hlater.listSteps] at hforeign
    rw [hforeign, hapart.filter_selects hrows]
  have hlisting : t.store.listOverrides (.forRouting b (s.store.listSteps b.id)) =
      s.store.listOverrides (.forRouting b (s.store.listSteps b.id)) :=
    congrArg Override.mostRecentFirst hselects
  have hresolved : t.store.resolvedSteps b = s.store.resolvedSteps b := by
    rw [MemoryStore.resolvedSteps, MemoryStore.resolvedSteps, hlater.listSteps, hlisting]
  have hcompilation : t.store.compilation b = s.store.compilation b := by
    rw [MemoryStore.compilation_eq, MemoryStore.compilation_eq, hresolved, hlater.findDataSpecs]
  have hversions := h.versions a ha b.id hapart.ids.symm
  have hb' : t.store.findRouting b.code = some b := by rw [hlater.findRouting, hb]
  refine ⟨hresolved, congrArg Compilation.violations hcompilation, ⟨_,
    Service.listOverrides_run hb, ?_⟩, hversions, fun v hv hsteps attempts => ?_⟩
  · rw [← hlisting, ← hlater.listSteps]
    exact Service.listOverrides_run hb'
  · obtain ⟨r, c, ⟨hr, rfl⟩, hlatest, hreuse⟩ := hv
    obtain rfl := Option.some.inj (hb.symm.trans hr)
    refine Service.compile_run_of_reuses hb' (by rwa [hlater.listSteps]) ?_ ?_ attempts
    · rw [MemoryStore.latestVersion, hversions, ← MemoryStore.latestVersion, hlatest]
    · rw [hcompilation, hreuse]

/-! ## Changes through another route -/

/-- No one changes the design, and nothing is written. -/
def frozen : Contract MemoryState where
  rely s t := s.store.Later t.store
  guarantee s t := t.store = s.store

namespace Service

variable {supply : Supply} {s : MemoryState} {code id : String} {r : Routing} {o : Override}

/-- A request to change an override that does not belong to the route is refused and writes nothing,
whatever other requests do. -/
theorem keeps_updateOverride_of_foreign (hr : s.store.findRouting code = some r)
    (ho : s.store.findOverride id = some o) (howns : r.owns (s.store.listSteps r.id) o = false)
    (edit : OverrideEdit) :
    Keeps (MemoryState.backend supply) frozen (fun _ _ => False)
      (fun e _ => e = .overrideMismatch r.code id) (updateOverride code id edit) s := by
  have hnothing : ∀ t, frozen.guarantee t t := fun _ => rfl
  unfold updateOverride
  refine keeps_bind.2 (keeps_loadRouting hnothing (fun t r' ht hr' => ?_) fun t ht hr' => ?_)
  · rw [MemoryStore.Later.findRouting ht, hr, Option.some.injEq] at hr'
    subst hr'
    refine keeps_bind.2 (keeps_reading hnothing (·.listSteps r.id) (fun _ => rfl) fun u hu => ?_)
    refine keeps_bind.2 (keeps_reading hnothing (·.findOverride id) (fun _ => rfl) fun v hv => ?_)
    have htu : s.store.Later u.store := ht.trans hu
    obtain ⟨found, hfound, hsame⟩ := (htu.trans hv).findOverride ho
    rw [hfound]
    refine keeps_bind.2 (keeps_orRefuse.2 (keeps_ite (fun _ => rfl) fun hnot => ?_))
    rw [htu.listSteps, r.owns_congr hsame, howns] at hnot
    exact absurd rfl hnot
  · rw [MemoryStore.Later.findRouting ht, hr] at hr'
    cases hr'

/-- A station group is looked up in one move at most. -/
theorem endsWithin_resolveGroup (group : Change String) : EndsWithin 1 (resolveGroup group) := by
  cases group with
  | keep => exact (endsWithin_pure _).mono (Nat.zero_le 1)
  | clear => exact (endsWithin_pure _).mono (Nat.zero_le 1)
  | set name =>
    exact (endsWithin_call _).bind fun _ => (endsWithin_orRefuse ..).bind fun _ => endsWithin_pure _

/-- A request to change an override takes at most five moves. -/
theorem endsWithin_updateOverride (code id : String) (edit : OverrideEdit) :
    EndsWithin 5 (updateOverride code id edit) := by
  unfold updateOverride
  refine (endsWithin_loadRouting code).bind fun r => (endsWithin_call _).bind fun steps =>
    (endsWithin_call _).bind fun found => (endsWithin_orRefuse ..).bind fun o => ?_
  have hwrite : EndsWithin 2 (resolveGroup edit.stationGroupCode >>= fun group => do
      orRefuse (.overrideNotFound id) (← call (.updateOverride id (edit.patch group)))) :=
    (endsWithin_resolveGroup _).bind fun _ => (endsWithin_call _).bind fun _ =>
      endsWithin_orRefuse ..
  exact endsWithin_ite ((endsWithin_throw _).bind fun _ => hwrite) hwrite

end Service

namespace World

variable {ι : Type} [DecidableEq ι] {supply : Supply} {w : World ι Request.Outcome}

/-- While a request to change an override of another route is served, nothing is written by it, and
it ends by being refused. -/
theorem update_of_foreign {k : ι} {b : Routing} {id : String} {edit : OverrideEdit} {o : Override}
    (hb : w.state.store.findRouting b.code = some b) (ho : w.state.store.findOverride id = some o)
    (howns : b.owns (w.state.store.listSteps b.id) o = false)
    (hk : w.programs k = Request.program (.write (.update b.code id edit))) (schedule : List ι) :
    ((w.runSchedule supply schedule).move supply (.advance k)).state.store =
        (w.runSchedule supply schedule).state.store ∧
      (5 ≤ schedule.count k → (w.runSchedule supply schedule).programs k =
        .done ⟨.write (.update b.code id edit), .error (.overrideMismatch b.code id)⟩) := by
  have hkeeps : (w.programs k).Keeps (MemoryState.backend supply) frozen
      (fun outcome _ => outcome =
        ⟨.write (.update b.code id edit), .error (.overrideMismatch b.code id)⟩) w.state := by
    rw [hk]
    refine Program.keeps_bind.2 (Program.Keeps.imp
      (Service.keeps_updateOverride_of_foreign hb ho howns edit) fun outcome t h => ?_)
    cases outcome with
    | ok o => exact h.elim
    | error e =>
      obtain rfl : e = .overrideMismatch b.code id := h
      rfl
  have hends : (w.programs k).EndsWithin 5 := by
    rw [hk]
    refine Request.endsWithin_program ?_
    exact Service.endsWithin_updateOverride b.code id edit
  have hrun : ((w.runSchedule supply schedule).programs k).Keeps (MemoryState.backend supply) frozen
      _ (w.runSchedule supply schedule).state :=
    keeps_run MemoryStore.growing_later.trans (fun _ _ _ h _ => h) hkeeps
      (w.respects_later schedule)
  refine ⟨?_, fun hcount => ?_⟩
  · cases hdone : ((w.runSchedule supply schedule).programs k).isDone with
    | true => rw [state_advance, Program.advance_of_isDone hdone]
    | false => exact guarantee_advance hrun (.refl _) hdone
  · have hdone : ((w.runSchedule supply schedule).programs k).isDone = true :=
      isDone_runSchedule hends hcount
    cases hp : (w.runSchedule supply schedule).programs k with
    | done outcome =>
      rw [hp] at hrun
      exact congrArg Program.done hrun
    | readClock next =>
      rw [hp] at hdone
      cases hdone
    | call c next =>
      rw [hp] at hdone
      cases hdone

/-- **Routes are isolated from each other.** Let requests be served on a store, in any order of
their moves, that has no overrides to begin with, and let new ids be fresh. If two routes are apart,
any moves of requests through the one, at whichever point, are not seen by a client of the other
one. And if a request through the first route has created an override, every request to change it
through the other one is refused and writes nothing, whatever other requests do meanwhile. -/
theorem Serves.isolated {store : MemoryStore} {q : ι → Request} (h : w.Serves supply store q)
    (hstore : store.overrides = []) (hids : Function.Injective supply.overrideId) {a b : Routing}
    (ha : store.findRouting a.code = some a) (hb : store.findRouting b.code = some b)
    (hapart : store.Apart a b) :
    (∀ schedule, (∀ i ∈ schedule, (q i).code = a.code) →
      w.state.LooksAlike supply b (w.runSchedule supply schedule).state) ∧
    ∀ j request o, w.programs j = .done ⟨.write (.create a.code request), .ok o⟩ →
      ∀ k edit, w.programs k = Request.program (.write (.update b.code o.id edit)) →
      ∀ schedule,
        ((w.runSchedule supply schedule).move supply (.advance k)).state.store =
            (w.runSchedule supply schedule).state.store ∧
          (5 ≤ schedule.count k → (w.runSchedule supply schedule).programs k =
            .done ⟨.write (.update b.code o.id edit),
              .error (.overrideMismatch b.code o.id)⟩) := by
  have ha : w.state.store.findRouting a.code = some a := by rw [h.later.findRouting, ha]
  have hb : w.state.store.findRouting b.code = some b := by rw [h.later.findRouting, hb]
  have hapart := hapart.later h.later
  have hrows := h.wellTargeted hstore
  refine ⟨fun schedule hcode => ?_, fun j request o hj k edit hk => ?_⟩
  · exact (h.confined_runSchedule hcode).looksAlike supply (w.later_runSchedule schedule) ha hb
      hapart hrows
  · obtain ⟨hmem, howns⟩ := h.stores hj
    obtain ⟨row, hrow, hsame⟩ := List.mem_map.1 hmem
    have hfound := MemoryStore.findOverride_of_mem ((h.drawsIds hstore).nodup hids) hrow
    rw [Override.id_eq_of_identity hsame] at hfound
    have hrowOwns : a.owns (w.state.store.listSteps a.id) row = true := by
      rw [a.owns_congr hsame, howns a ha]
    exact update_of_foreign hb hfound (hapart.not_owns (hrows row hrow) hrowOwns) hk

end World

/-! ## Two routes with one operation -/

namespace TwoRoutes

/-- Another route. -/
def second : Routing := ⟨"r2", "R2", "Route", "MES", none⟩

/-- Each route has one step, and both steps have the same operation and the same station group. -/
def store : MemoryStore :=
  { MemoryStore.empty with
    routings := [SingleStep.routing, second]
    steps := [⟨"s1", "r1", 1, "op", some "k1", none, some "g", false⟩,
      ⟨"s2", "r2", 1, "op", some "k2", none, some "g", false⟩] }

/-- Ids of different lengths. -/
def supply : Supply :=
  { SingleStep.supply with overrideId := fun n => String.ofList (List.replicate n 'o') }

/-- No id of an override is given twice. -/
theorem injective_overrideId : Function.Injective supply.overrideId := fun m n h => by
  have hlists := String.ofList_injective h
  rw [← List.length_replicate (n := m) (a := 'o'), hlists, List.length_replicate]

/-- A request to create an override of the first route. -/
def create : OverrideWrite :=
  .create "R1" ⟨"ROUTE", none, some .manual, .keep, none, none, none, none, none, none⟩

/-- A request to change the first override that is created, through the second route. -/
def update : OverrideWrite :=
  .update "R2" "" ⟨.clear, .keep, .keep, .keep, .keep, .keep, .keep, .keep⟩

/-- The client `false` creates the override, and the client `true` changes it. -/
def requests (i : Bool) : Request := .write (if i then update else create)

/-- The two routes are apart, although they have an operation in common. -/
theorem apart : store.Apart SingleStep.routing second where
  stepIds := by decide
  ids := by decide
  keys := by decide

end TwoRoutes

/-- A client of the second route does not see that an override of the first one is created, and
cannot change it. -/
theorem World.Serves.isolated_twoRoutes : ∃ w o,
    w = (World.serving (.start TwoRoutes.store) TwoRoutes.requests).runSchedule TwoRoutes.supply
      [false, false] ∧
    w.state.store.overrides = [o] ∧
    (MemoryState.start TwoRoutes.store).LooksAlike TwoRoutes.supply TwoRoutes.second w.state ∧
    (w.runSchedule TwoRoutes.supply [true, true, true, true, true]).programs true =
      .done ⟨.write TwoRoutes.update, .error (.overrideMismatch "R2" o.id)⟩ := by
  have hstart : (World.serving (.start TwoRoutes.store) TwoRoutes.requests).Serves
    TwoRoutes.supply TwoRoutes.store TwoRoutes.requests := .start
  obtain ⟨hunseen, -⟩ := hstart.isolated rfl TwoRoutes.injective_overrideId
    (a := SingleStep.routing) (b := TwoRoutes.second) rfl rfl TwoRoutes.apart
  obtain ⟨-, hrefused⟩ := (hstart.runSchedule [false, false]).isolated rfl
    TwoRoutes.injective_overrideId (a := SingleStep.routing) (b := TwoRoutes.second) rfl rfl
    TwoRoutes.apart
  refine ⟨_, _, rfl, rfl, hunseen _ (by decide), ?_⟩
  exact (hrefused false _ _ rfl true _ rfl _).2 (by decide)

end RoutePlan
