import RoutePlan.Proofs.Compile.Outcome
import RoutePlan.Proofs.Service.Requests
import RoutePlan.Proofs.Store.Identity

/-!
# What a request does to the tables

A request that is refused leaves every table as it is. One that is served adds one override, changes
one override, adds one version or writes nothing (`Request.Effect`). No request does more
(`Request.effect`), whatever the state of the store.
-/

namespace RoutePlan

/-- The change of a station group by its code becomes a change by its id. -/
inductive MemoryStore.ResolvesGroup (s : MemoryStore) : Change String → Change String → Prop
  | keep : ResolvesGroup s .keep .keep
  | clear : ResolvesGroup s .clear .clear
  | set {code : String} {g : StationGroup} (hg : s.findStationGroup code = some g) :
    ResolvesGroup s (.set code) (.set g.id)

/-- `new` is what a served request makes of the row `old`: the station group is looked up by its
code, every other attribute is changed as the request says, and what is no attribute stays. -/
structure OverrideEdit.Rewrites (e : OverrideEdit) (s : MemoryStore) (old new : Override) :
    Prop where
  identity : new.identity = old.identity
  stationType : new.stationType = e.stationType.apply old.stationType
  stationGroupId : ∃ group, s.ResolvesGroup e.stationGroupCode group ∧
    new.stationGroupId = group.apply old.stationGroupId
  allowedStationIds : new.allowedStationIds = e.allowedStationIds.apply old.allowedStationIds
  requiresFAI : new.requiresFAI = e.requiresFAI.apply old.requiresFAI
  requiresAuthorization :
    new.requiresAuthorization = e.requiresAuthorization.apply old.requiresAuthorization
  dataSpecIds : new.dataSpecIds = e.dataSpecIds.apply old.dataSpecIds
  ingestMapping : new.ingestMapping = e.ingestMapping.apply old.ingestMapping
  info : new.info = e.info.apply old.info

/-- Whether a request is one to write an override. -/
def Request.isWrite : Request → Bool
  | write _ => true
  | _ => false

/-- What a request may do to a store `s`, by its outcome. -/
inductive Request.Effect (s : MemoryStore) :
    (q : Request) → Except RequestError q.Reply → MemoryStore → Prop
  | refused {q : Request} (e : RequestError) : Effect s q (.error e) s
  | created {code : String} {request : OverrideRequest} (o : Override) :
    Effect s (.write (.create code request)) (.ok o)
      { s with overrides := s.overrides ++ [o], lastStamp := some o.updatedAt }
  | updated {code id : String} {edit : OverrideEdit} {before after : List Override}
    {old o : Override} (hrows : s.overrides = before ++ old :: after) (hid : old.id = id)
    (hrewrites : edit.Rewrites s old o) :
    Effect s (.write (.update code id edit)) (.ok o)
      { s with overrides := before ++ o :: after, lastStamp := some o.updatedAt }
  | inserted {code : String} {attempts : Nat} (v : RouteVersion) :
    Effect s (.compile code attempts) (.ok v) { s with versions := s.versions ++ [v] }
  | unchanged {q : Request} (hq : q.isWrite = false) (reply : q.Reply) : Effect s q (.ok reply) s

/-- An update replaces the row that was found. -/
theorem MemoryStore.updateOverride_of_found {s : MemoryStore} {id : String} {old : Override}
    (h : s.findOverride id = some old) (patch : OverridePatch) (reading : Instant) :
    ∃ before after o, s.overrides = before ++ old :: after ∧
      o = { patch.apply old with updatedAt := nextStamp s.lastStamp reading } ∧
      s.updateOverride id patch reading =
        (some o, { s with overrides := before ++ o :: after, lastStamp := some o.updatedAt }) := by
  simp only [updateOverride, drawStamp, writeOverride]
  split
  · next hnone =>
    rw [findOverride, updateFirst_eq_none.1 hnone] at h
    cases h
  · next o rows hupdate =>
    obtain ⟨before, old', after, hs, rfl, rfl, hfirst⟩ := updateFirst_eq_some hupdate
    obtain rfl : old = old' := Option.some.inj (h.symm.trans hfirst)
    exact ⟨before, after, _, hs, rfl, rfl⟩

namespace Service

variable {supply : Supply} {s t : MemoryState}

/-- A station group that is known by its code is found. -/
theorem resolveGroup_run_of_resolves (supply : Supply) {code group : Change String}
    (h : s.store.ResolvesGroup code group) :
    (resolveGroup code).run.run (MemoryState.backend supply) s = (.ok group, s) := by
  cases h with
  | keep => rfl
  | clear => rfl
  | @set name g hg =>
    have hcall : (call (.findStationGroup name)).run.run (MemoryState.backend supply) s =
      (.ok (s.store.findStationGroup name), s) := rfl
    simp only [resolveGroup]
    rw [run_bind_of_ok hcall, hg]
    rfl

/-- The change of a station group is resolved unless there is no group with the code. -/
theorem resolveGroup_run (supply : Supply) (s : MemoryState) (code : Change String) :
    (∃ group, s.store.ResolvesGroup code group ∧
      (resolveGroup code).run.run (MemoryState.backend supply) s = (.ok group, s)) ∨
    ∃ name, (resolveGroup code).run.run (MemoryState.backend supply) s =
      (.error (.stationGroupNotFound name), s) := by
  cases code with
  | keep => exact .inl ⟨.keep, .keep, resolveGroup_run_of_resolves supply .keep⟩
  | clear => exact .inl ⟨.clear, .clear, resolveGroup_run_of_resolves supply .clear⟩
  | set name =>
    cases hg : s.store.findStationGroup name with
    | some g => exact .inl ⟨.set g.id, .set hg, resolveGroup_run_of_resolves supply (.set hg)⟩
    | none =>
      have hcall : (call (.findStationGroup name)).run.run (MemoryState.backend supply) s =
        (.ok none, s) := call_run_of_ok (by rw [← hg]; rfl)
      simp only [resolveGroup]
      rw [run_bind_of_ok hcall]
      exact .inr ⟨name, rfl⟩

/-- A request to create an override adds the one that it answers with, or nothing. -/
theorem effect_createOverride {code : String} {request : OverrideRequest}
    {outcome : Except RequestError Override}
    (h : (createOverride code request).run.run (MemoryState.backend supply) s = (outcome, t)) :
    Request.Effect s.store (.write (.create code request)) outcome t.store := by
  unfold createOverride at h
  rcases ReadsOnly.bind_run (fun _ => rfl) h with ⟨e, rfl, rfl⟩ | ⟨stepNo, -, h⟩
  · exact .refused e
  rcases (readsOnly_loadRouting code).bind_run h with ⟨e, rfl, rfl⟩ | ⟨r, -, h⟩
  · exact .refused e
  rcases (readsOnly_resolveTarget r stepNo).bind_run h with ⟨e, rfl, rfl⟩ | ⟨target, -, h⟩
  · exact .refused e
  rcases (readsOnly_resolveGroup _).bind_run h with ⟨e, rfl, rfl⟩ | ⟨group, -, h⟩
  · exact .refused e
  obtain ⟨rfl, rfl⟩ := Prod.mk.inj h
  exact .created _

/-- The change of a row that was found is answered with the changed row. -/
theorem call_updateOverride_run (supply : Supply) {id : String} {old : Override}
    (h : s.store.findOverride id = some old) (patch : OverridePatch) :
    ∃ before after o, s.store.overrides = before ++ old :: after ∧
      o = { patch.apply old with
        updatedAt := MemoryStore.nextStamp s.store.lastStamp (supply.reading s.readings) } ∧
      (call (.updateOverride id patch)).run.run (MemoryState.backend supply) s =
        (.ok (some o), { s with
          store :=
            { s.store with overrides := before ++ o :: after, lastStamp := some o.updatedAt }
          readings := s.readings + 1 }) := by
  obtain ⟨before, after, o, hrows, ho, hupdate⟩ :=
    MemoryStore.updateOverride_of_found h patch (supply.reading s.readings)
  refine ⟨before, after, o, hrows, ho, call_run_of_ok ?_⟩
  simp only [MemoryState.backend, MemoryState.answer, hupdate]

/-- How a request to change an override ends when it runs alone, with the store that it leaves. -/
inductive UpdatedAlone (s : MemoryStore) (code id : String) (edit : OverrideEdit) :
    Except RequestError Override → MemoryStore → Prop
  | unknown (hr : s.findRouting code = none) :
    UpdatedAlone s code id edit (.error (.routeNotFound code)) s
  | missing {r : Routing} (hr : s.findRouting code = some r) (ho : s.findOverride id = none) :
    UpdatedAlone s code id edit (.error (.overrideNotFound id)) s
  | foreign {r : Routing} {o : Override} (hr : s.findRouting code = some r)
    (ho : s.findOverride id = some o) (howns : r.owns (s.listSteps r.id) o = false) :
    UpdatedAlone s code id edit (.error (.overrideMismatch r.code id)) s
  | noGroup {r : Routing} {o : Override} (hr : s.findRouting code = some r)
    (ho : s.findOverride id = some o) (howns : r.owns (s.listSteps r.id) o = true)
    (name : String) : UpdatedAlone s code id edit (.error (.stationGroupNotFound name)) s
  | updated {r : Routing} {before after : List Override} {old o : Override}
    (hr : s.findRouting code = some r) (ho : s.findOverride id = some old)
    (howns : r.owns (s.listSteps r.id) old = true) (hrows : s.overrides = before ++ old :: after)
    (hrewrites : edit.Rewrites s old o) :
    UpdatedAlone s code id edit (.ok o)
      { s with overrides := before ++ o :: after, lastStamp := some o.updatedAt }

/-- A request to change an override that runs alone ends in one of five ways. A row that was found
and belongs to the route is still there when it is written. -/
theorem updateOverride_run_alone (supply : Supply) (s : MemoryState) (code id : String)
    (edit : OverrideEdit) :
    ∃ outcome t, (updateOverride code id edit).run.run (MemoryState.backend supply) s =
      (outcome, t) ∧ UpdatedAlone s.store code id edit outcome t.store := by
  have hfind : (call (.findOverride id)).run.run (MemoryState.backend supply) s =
    (.ok (s.store.findOverride id), s) := rfl
  unfold updateOverride
  cases hr : s.store.findRouting code with
  | none => exact ⟨_, _, run_bind_of_error (loadRouting_run_of_none hr) _, .unknown hr⟩
  | some r =>
    rw [run_bind_of_ok (loadRouting_run hr), run_bind_of_ok (t := s) rfl, run_bind_of_ok hfind]
    cases ho : s.store.findOverride id with
    | none => exact ⟨_, _, run_bind_of_error rfl _, .missing hr ho⟩
    | some old =>
      rw [run_bind_of_ok (a := old) (t := s) rfl]
      cases howns : r.owns (s.store.listSteps r.id) old with
      | false => exact ⟨_, _, rfl, .foreign hr ho howns⟩
      | true =>
        rcases resolveGroup_run supply s edit.stationGroupCode with
          ⟨group, hgroup, hrun⟩ | ⟨name, hrun⟩
        · obtain ⟨before, after, o, hrows, rfl, hcall⟩ :=
            call_updateOverride_run supply ho (edit.patch group)
          refine ⟨_, _, (run_bind_of_ok hrun _).trans (run_bind_of_ok hcall _),
            .updated hr ho howns hrows ?_⟩
          exact ⟨rfl, rfl, ⟨group, hgroup, rfl⟩, rfl, rfl, rfl, rfl, rfl, rfl⟩
        · exact ⟨_, _, run_bind_of_error hrun _, .noGroup hr ho howns name⟩

/-- A request to change an override changes the one that it answers with, or nothing. -/
theorem effect_updateOverride {code id : String} {edit : OverrideEdit}
    {outcome : Except RequestError Override}
    (h : (updateOverride code id edit).run.run (MemoryState.backend supply) s = (outcome, t)) :
    Request.Effect s.store (.write (.update code id edit)) outcome t.store := by
  obtain ⟨outcome', t', hrun, hends⟩ := updateOverride_run_alone supply s code id edit
  rw [h, Prod.mk.injEq] at hrun
  obtain ⟨rfl, rfl⟩ := hrun
  generalize t.store = store at hends
  cases hends with
  | unknown | missing | foreign | noGroup => exact .refused _
  | updated _ ho _ hrows hrewrites =>
    exact .updated hrows (by simpa using List.find?_some ho) hrewrites

/-- A request to compile a route adds the version that it answers with, or nothing. -/
theorem effect_compile {code : String} {attempts : Nat}
    {outcome : Except RequestError RouteVersion}
    (h : (compile code attempts).run.run (MemoryState.backend supply) s = (outcome, t)) :
    Request.Effect s.store (.compile code attempts) outcome t.store := by
  obtain ⟨outcome', t', hrun, hends⟩ := compile_run_alone supply s code attempts
  rw [h, Prod.mk.injEq] at hrun
  obtain ⟨rfl, rfl⟩ := hrun
  generalize t.store = store at hends
  cases hends with
  | unknown | empty | numberTaken => exact .refused _
  | reused => exact .unchanged rfl _
  | inserted => exact .inserted _

/-- A request to list overrides only reads. -/
theorem readsOnly_listOverrides (code : String) : (listOverrides code).ReadsOnly supply :=
  (readsOnly_loadRouting code).bind fun _ => .bind (fun _ => rfl) fun _ =>
    .bind (fun _ => rfl) fun _ => readsOnly_pure _

/-- A request to list versions only reads. -/
theorem readsOnly_listVersions (code : String) : (listVersions code).ReadsOnly supply :=
  (readsOnly_loadRouting code).bind fun _ _ => rfl

/-- A request to read a version only reads. -/
theorem readsOnly_getVersion (code : String) (versionNo : Int32) :
    (getVersion code versionNo).ReadsOnly supply :=
  (readsOnly_loadRouting code).bind fun _ => .bind (fun _ => rfl) fun _ => readsOnly_orRefuse _ _

end Service

/-- A request that only reads has no effect but its answer. -/
theorem Request.effect_of_readsOnly {supply : Supply} {q : Request} {s t : MemoryState}
    {outcome : Except RequestError q.Reply} (hq : q.isWrite = false)
    (hreads : q.serve.ReadsOnly supply)
    (h : q.serve.run.run (MemoryState.backend supply) s = (outcome, t)) :
    Request.Effect s.store q outcome t.store := by
  obtain rfl : t = s := (congrArg Prod.snd h).symm.trans (hreads s)
  cases outcome with
  | error e => exact .refused e
  | ok reply => exact .unchanged hq reply

/-- **A request writes the one row that it answers with, or nothing.** Whatever the store holds, a
refused request leaves it as it is. A served one adds one override, changes one override in the
attributes that the request names, adds one version, or leaves the store as it is. -/
theorem Request.effect (supply : Supply) (q : Request) (s : MemoryState) :
    ∃ outcome t, q.serve.run.run (MemoryState.backend supply) s = (outcome, t) ∧
      Request.Effect s.store q outcome t.store := by
  obtain ⟨outcome, t, hrun⟩ : ∃ outcome t,
      q.serve.run.run (MemoryState.backend supply) s = (outcome, t) := ⟨_, _, rfl⟩
  refine ⟨outcome, t, hrun, ?_⟩
  cases q with
  | write w =>
    cases w with
    | create code request => exact Service.effect_createOverride hrun
    | update code id edit => exact Service.effect_updateOverride hrun
  | compile code attempts => exact Service.effect_compile hrun
  | listOverrides code =>
    exact effect_of_readsOnly rfl (Service.readsOnly_listOverrides code) hrun
  | listVersions code => exact effect_of_readsOnly rfl (Service.readsOnly_listVersions code) hrun
  | getVersion code versionNo =>
    exact effect_of_readsOnly rfl (Service.readsOnly_getVersion code versionNo) hrun

end RoutePlan
