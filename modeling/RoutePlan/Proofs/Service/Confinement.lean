import RoutePlan.Proofs.Compile.Moves
import RoutePlan.Proofs.Override.Ownership

/-!
# What a request leaves alone

A request names one route by its code. If no one changes the design while it is served, each of its
moves leaves alone the overrides that do not belong to that route and the versions of other routes,
whatever the other requests do (`Request.keeps_serve`). A row that it adds names the route as a
whole, or a step by its id and its source key, and nothing else (`Override.WellTargeted`).
-/

namespace RoutePlan

/-! ## Targets -/

/-- The override is for some route as a whole or for one of the steps, and for no operation. -/
structure Override.WellTargeted (o : Override) (steps : List RoutingStep) : Prop where
  operationId : o.operationId = none
  target : (∃ r : Routing, o.target = r.asTarget) ∨ ∃ step ∈ steps, o.target = step.asTarget

/-- Whether a row is properly targeted rests on its identity. -/
theorem Override.WellTargeted.congr {a b : Override} {steps : List RoutingStep}
    (h : b.WellTargeted steps) (hid : a.identity = b.identity) : a.WellTargeted steps := by
  refine ⟨(operationId_eq_of_identity hid).trans h.operationId, ?_⟩
  rw [target_eq_of_identity hid]
  exact h.target

/-- What a new override of a route with these steps may target. -/
def Routing.Offers (r : Routing) (steps : List RoutingStep) (target : OverrideTarget) : Prop :=
  target = r.asTarget ∨ ∃ step ∈ steps, target = step.asTarget

namespace Routing.Offers

variable {r : Routing} {steps : List RoutingStep} {o : Override}

/-- A row with a target that its route offers, and with no operation, is properly targeted. -/
theorem wellTargeted {s : MemoryStore} (h : r.Offers (s.listSteps r.id) o.target)
    (hoperation : o.operationId = none) : o.WellTargeted s.steps := by
  refine ⟨hoperation, h.imp (⟨r, ·⟩) ?_⟩
  rintro ⟨step, hstep, htarget⟩
  exact ⟨step, (List.mem_filter.1 hstep).1, htarget⟩

/-- An override with such a target belongs to the route. -/
theorem owns (h : r.Offers steps o.target) : r.owns steps o = true := by
  refine owns_iff.2 (.inl ?_)
  rcases h with h | ⟨step, hstep, h⟩
  · exact .inl (congrArg OverrideTarget.routingId h)
  · exact .inr ⟨step, hstep, .inl (congrArg OverrideTarget.routingStepId h)⟩

end Routing.Offers

/-! ## Confined moves -/

/-- The overrides that do not belong to a route with these steps. -/
def Routing.foreign (r : Routing) (steps : List RoutingStep) (rows : List Override) :
    List Override :=
  rows.filter fun o => !r.owns steps o

/-- Of two lists of rows the foreign ones are those of each. -/
theorem Routing.foreign_append (r : Routing) (steps : List RoutingStep)
    (rows more : List Override) :
    r.foreign steps (rows ++ more) = r.foreign steps rows ++ r.foreign steps more :=
  List.filter_append ..

/-- A row that belongs to the route is not among the foreign ones. -/
theorem Routing.foreign_cons_of_owns {r : Routing} {steps : List RoutingStep} {o : Override}
    (h : r.owns steps o = true) (rows : List Override) :
    r.foreign steps (o :: rows) = r.foreign steps rows :=
  List.filter_cons_of_neg (by simp [h])

namespace MemoryStore

/-- From `s` to `t` nothing has changed but for the route with the code. -/
structure Confined (code : String) (s t : MemoryStore) : Prop where
  overrides : ∀ r, s.findRouting code = some r →
    r.foreign (t.listSteps r.id) t.overrides = r.foreign (s.listSteps r.id) s.overrides
  versions : ∀ r, s.findRouting code = some r → ∀ id ≠ r.id, t.versionsOf id = s.versionsOf id
  wellTargeted : (∀ o ∈ s.overrides, o.WellTargeted s.steps) →
    ∀ o ∈ t.overrides, o.WellTargeted t.steps

variable {code : String} {s t u : MemoryStore} {r : Routing} {o old : Override}

namespace Confined

/-- To do nothing is confined. -/
theorem refl (s : MemoryStore) : s.Confined code s :=
  ⟨fun _ _ => rfl, fun _ _ _ _ => rfl, fun h => h⟩

/-- Confined moves in turn are confined. -/
theorem trans (h : s.Confined code t) (hlater : s.Later t) (h' : t.Confined code u) :
    s.Confined code u where
  overrides r hr := (h'.overrides r (hlater.findRouting ▸ hr)).trans (h.overrides r hr)
  versions r hr id hne :=
    (h'.versions r (hlater.findRouting ▸ hr) id hne).trans (h.versions r hr id hne)
  wellTargeted hs := h'.wellTargeted (h.wellTargeted hs)

/-- A version of the route is added. -/
theorem addVersion (hr : s.findRouting code = some r) {v : RouteVersion} (hv : v.routingId = r.id) :
    s.Confined code (s.addVersion v) where
  overrides _ _ := rfl
  versions r' hr' id hne := by
    obtain rfl := Option.some.inj (hr.symm.trans hr')
    rw [versionsOf_addVersion, if_neg (fun h => hne (h.symm.trans hv)), List.append_nil]
  wellTargeted h := h

/-- An override of the route is added. -/
theorem addOverride (hr : s.findRouting code = some r)
    (htarget : r.Offers (s.listSteps r.id) o.target) (hoperation : o.operationId = none)
    (stamp : Option Instant) :
    s.Confined code { s with overrides := s.overrides ++ [o], lastStamp := stamp } where
  overrides r' hr' := by
    obtain rfl := Option.some.inj (hr.symm.trans hr')
    show r.foreign (s.listSteps r.id) (s.overrides ++ [o]) = _
    rw [r.foreign_append, Routing.foreign_cons_of_owns htarget.owns]
    exact List.append_nil _
  versions _ _ _ _ := rfl
  wellTargeted h c hc := by
    rcases List.mem_append.1 hc with hc | hc
    · exact h c hc
    · rw [List.mem_singleton.1 hc]
      exact htarget.wellTargeted hoperation

/-- An override of the route is changed. -/
theorem updateOverride (hr : s.findRouting code = some r) {before after : List Override}
    (hrows : s.overrides = before ++ old :: after)
    (howns : r.owns (s.listSteps r.id) old = true) (hid : o.identity = old.identity)
    (stamp : Option Instant) :
    s.Confined code { s with overrides := before ++ o :: after, lastStamp := stamp } where
  overrides r' hr' := by
    obtain rfl := Option.some.inj (hr.symm.trans hr')
    have howns' : r.owns (s.listSteps r.id) o = true := (r.owns_congr hid _).trans howns
    show r.foreign (s.listSteps r.id) (before ++ o :: after) = _
    rw [hrows, r.foreign_append, r.foreign_append, Routing.foreign_cons_of_owns howns,
      Routing.foreign_cons_of_owns howns']
  versions _ _ _ _ := rfl
  wellTargeted h c hc := by
    rw [hrows] at h
    rcases List.mem_append.1 hc with hc | hc
    · exact h c (List.mem_append_left _ hc)
    rcases List.mem_cons.1 hc with rfl | hc
    · exact (h old (List.mem_append_right _ (List.mem_cons_self ..))).congr hid
    · exact h c (List.mem_append_right _ (List.mem_cons_of_mem _ hc))

end Confined
end MemoryStore

/-! ## Requests -/

namespace MemoryStore

/-- The override is stored, and it belongs to the route with the code. -/
structure Stores (s : MemoryStore) (code : String) (o : Override) : Prop where
  mem : o.identity ∈ s.identities
  owns : ∀ r, s.findRouting code = some r → r.owns (s.listSteps r.id) o = true

/-- What is stored for a route is stored for it in every later store. -/
theorem Stores.later {s t : MemoryStore} {code : String} {o : Override} (h : s.Stores code o)
    (hlater : s.Later t) : t.Stores code o where
  mem := hlater.identities.subset h.mem
  owns := by
    rw [hlater.findRouting, hlater.listSteps]
    exact h.owns

/-- Others may lead to a later store. -/
theorem growing_later : Growing Later where
  trans h h' := h.trans h'
  self _ := .refl _
  grows h := h.grows

end MemoryStore

/-- No one changes the design, and each move of a request through the code is confined. -/
def confinement (code : String) : Contract MemoryState where
  rely s t := s.store.Later t.store
  guarantee s t := s.store.Confined code t.store

/-- A move that does nothing satisfies the guarantee. -/
theorem confinement_nothing (code : String) (s : MemoryState) : (confinement code).guarantee s s :=
  .refl s.store

/-- A move of a compile call is confined to its route. -/
theorem CompileMove.confined {code : String} {s t : MemoryStore}
    (h : CompileMove (MemoryStore.Holds code) s t) : s.Confined code t := by
  cases h with
  | nothing => exact .refl s
  | version r c compiledAt id hr _ => exact .addVersion hr rfl

namespace Service

variable {supply : Supply} {code : String} {s : MemoryState}

/-- The target is one that the route offers. -/
theorem keeps_resolveTarget {r : Routing} (stepNo : Option Int32)
    {post : OverrideTarget → MemoryState → Prop}
    (hpost : ∀ t target, s.store.Later t.store → r.Offers (s.store.listSteps r.id) target →
      post target t) :
    Keeps (MemoryState.backend supply) (confinement code) post (fun _ _ => True)
      (resolveTarget r stepNo) s := by
  cases stepNo with
  | none => exact keeps_pure.2 (hpost s _ (.refl _) (.inl rfl))
  | some stepNo =>
    refine keeps_bind.2 ?_
    refine keeps_reading (confinement_nothing code) (·.listSteps r.id) (fun _ => rfl) fun t ht => ?_
    refine keeps_bind.2 (keeps_orRefuse.2 ?_)
    split
    · next step hstep =>
      rw [MemoryStore.Later.listSteps ht] at hstep
      exact keeps_pure.2 (hpost t _ ht (.inr ⟨step, List.mem_of_find?_eq_some hstep, rfl⟩))
    · trivial

/-- A station group is looked up in a later store. -/
theorem keeps_resolveGroup (group : Change String) {post : Change String → MemoryState → Prop}
    (hpost : ∀ t change, s.store.Later t.store → post change t) :
    Keeps (MemoryState.backend supply) (confinement code) post (fun _ _ => True)
      (resolveGroup group) s := by
  cases group with
  | keep => exact keeps_pure.2 (hpost s _ (.refl _))
  | clear => exact keeps_pure.2 (hpost s _ (.refl _))
  | set name =>
    refine keeps_bind.2 ?_
    refine keeps_reading (confinement_nothing code) (·.findStationGroup name) (fun _ => rfl)
      fun t ht => keeps_bind.2 (keeps_orRefuse.2 ?_)
    split
    · exact keeps_pure.2 (hpost t _ ht)
    · trivial

/-- A request to create an override adds one that belongs to the route. -/
theorem keeps_createOverride (request : OverrideRequest) :
    Keeps (MemoryState.backend supply) (confinement code) (fun o t => t.store.Stores code o)
      (fun _ _ => True) (createOverride code request) s := by
  unfold createOverride
  refine keeps_bind.2 ?_
  cases request.stepNo? with
  | error e => trivial
  | ok stepNo =>
    refine keeps_bind.2 (keeps_loadRouting (confinement_nothing code) (fun t r _ hr => ?_) ?_)
    · refine keeps_bind.2 (keeps_resolveTarget stepNo fun u target hu htarget => ?_)
      refine keeps_bind.2 (keeps_resolveGroup _ fun v group hv => ?_)
      refine keeps_call.2 fun w hw => ?_
      have hlater : t.store.Later w.store := hu.trans (hv.trans hw)
      have hr : w.store.findRouting code = some r := by rw [hlater.findRouting, hr]
      have htarget : r.Offers (w.store.listSteps r.id) target := by rwa [hlater.listSteps]
      refine ⟨.addOverride hr ?_ rfl _, List.mem_map_of_mem (List.mem_append_right _
        (List.mem_singleton_self _)), fun r' hr' => ?_⟩
      · exact htarget
      · obtain rfl := Option.some.inj (hr.symm.trans hr')
        exact Routing.Offers.owns htarget
    · exact fun _ _ _ => trivial

/-- A request to change an override changes one that belongs to the route. -/
theorem keeps_updateOverride (id : String) (edit : OverrideEdit) :
    Keeps (MemoryState.backend supply) (confinement code) (fun _ _ => True) (fun _ _ => True)
      (updateOverride code id edit) s := by
  unfold updateOverride
  refine keeps_bind.2 (keeps_loadRouting (confinement_nothing code) (fun t r _ hr => ?_)
    fun _ _ _ => trivial)
  refine keeps_bind.2 (keeps_reading (confinement_nothing code) (·.listSteps r.id) (fun _ => rfl)
    fun u hu => ?_)
  refine keeps_bind.2 (keeps_reading (confinement_nothing code) (·.findOverride id) (fun _ => rfl)
    fun v hv => ?_)
  refine keeps_bind.2 (keeps_orRefuse.2 ?_)
  split
  · next found hfound =>
    refine keeps_ite (fun _ => trivial) fun howns => ?_
    refine keeps_bind.2 (keeps_resolveGroup _ fun w group hw => ?_)
    refine keeps_bind.2 (keeps_call.2 fun x hx => ?_)
    -- the row that was found is still the first one with the id
    have hlater : v.store.Later x.store := hw.trans hx
    obtain ⟨old, hold, hsame⟩ := hlater.findOverride hfound
    obtain ⟨before, after, o, hrows, ho, hupdate⟩ :=
      MemoryStore.updateOverride_of_found hold (edit.patch group) (supply.reading x.readings)
    simp only [MemoryState.backend, MemoryState.answer, hupdate]
    refine ⟨.updateOverride (r := r) ?_ hrows ?_ (by rw [ho]; rfl) _, keeps_orRefuse.2 trivial⟩
    · rw [(hu.trans (hv.trans hlater)).findRouting, hr]
    · rw [(hv.trans hlater).listSteps, r.owns_congr hsame]
      simpa using howns
  · trivial

/-- To list overrides is confined to the route. -/
theorem keeps_listOverrides : Keeps (MemoryState.backend supply) (confinement code)
    (fun _ _ => True) (fun _ _ => True) (listOverrides code) s := by
  unfold listOverrides
  refine keeps_bind.2 (keeps_loadRouting (confinement_nothing code) (fun t r _ _ => ?_)
    fun _ _ _ => trivial)
  refine keeps_bind.2 (keeps_reading (confinement_nothing code) (·.listSteps r.id) (fun _ => rfl)
    fun u _ => ?_)
  exact keeps_bind.2 (keeps_reading (confinement_nothing code)
    (·.listOverrides (.forRouting r (u.store.listSteps r.id))) (fun _ => rfl) fun _ _ => trivial)

/-- To compile a route is confined to it. -/
theorem keeps_compile (attempts : Nat) : Keeps (MemoryState.backend supply) (confinement code)
    (fun _ _ => True) (fun _ _ => True) (compile code attempts) s := by
  have hmoves := keeps_compileWithin_moves (s := s) (P := MemoryStore.Holds code) supply
    MemoryStore.growing_later (fun h => h.holds MemoryStore.growing_later) (max 1 attempts)
    (max 1 attempts)
  exact Program.Keeps.mono hmoves (fun _ _ => id) (fun _ _ h => h.confined) fun _ _ => id

/-- To list versions is confined to the route. -/
theorem keeps_listVersions : Keeps (MemoryState.backend supply) (confinement code)
    (fun _ _ => True) (fun _ _ => True) (listVersions code) s :=
  keeps_bind.2 (keeps_loadRouting (confinement_nothing code) (fun _ r _ _ =>
    keeps_reading (confinement_nothing code) (·.listVersions r.id) (fun _ => rfl)
      fun _ _ => trivial) fun _ _ _ => trivial)

/-- To read a version is confined to the route. -/
theorem keeps_getVersion (versionNo : Int32) : Keeps (MemoryState.backend supply)
    (confinement code) (fun _ _ => True) (fun _ _ => True) (getVersion code versionNo) s := by
  unfold getVersion
  refine keeps_bind.2 (keeps_loadRouting (confinement_nothing code) (fun t r _ _ => ?_)
    fun _ _ _ => trivial)
  refine keeps_bind.2 (keeps_reading (confinement_nothing code) (·.findVersion r.id versionNo)
    (fun _ => rfl) fun u _ => keeps_orRefuse.2 ?_)
  split <;> trivial

end Service

/-- The code of the route that a request names. -/
def Request.code : Request → String
  | write (.create code _) => code
  | write (.update code _ _) => code
  | listOverrides code => code
  | compile code _ => code
  | listVersions code => code
  | getVersion code _ => code

/-- An outcome of a request: the request, with what it is answered with or why it was refused. -/
abbrev Request.Outcome := Σ q : Request, Except RequestError q.Reply

/-- The override that was created, if there is one, is stored. -/
def Request.Outcome.Stored (s : MemoryStore) : Request.Outcome → Prop
  | ⟨.write (.create code _), .ok o⟩ => s.Stores code o
  | _ => True

/-- What an outcome says is stored is stored in every later store. -/
theorem Request.Outcome.Stored.later {s t : MemoryStore} {outcome : Request.Outcome}
    (h : outcome.Stored s) (hlater : s.Later t) : outcome.Stored t := by
  unfold Stored at h ⊢
  split at h
  · exact h.later hlater
  · trivial

/-- Each move of a request leaves alone what does not belong to the route that it names. -/
theorem Request.keeps_serve (supply : Supply) (q : Request) (s : MemoryState) :
    q.serve.Keeps (MemoryState.backend supply) (confinement q.code)
      (fun reply t => Outcome.Stored t.store ⟨q, .ok reply⟩)
      (fun e t => Outcome.Stored t.store ⟨q, .error e⟩) s := by
  cases q with
  | write w =>
    cases w with
    | create code request => exact Service.keeps_createOverride request
    | update code id edit => exact Service.keeps_updateOverride id edit
  | listOverrides code => exact Service.keeps_listOverrides
  | compile code attempts => exact Service.keeps_compile attempts
  | listVersions code => exact Service.keeps_listVersions
  | getVersion code versionNo => exact Service.keeps_getVersion versionNo

end RoutePlan
