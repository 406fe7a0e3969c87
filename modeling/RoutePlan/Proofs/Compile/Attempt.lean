import RoutePlan.Proofs.Concurrency.Interleaving
import RoutePlan.Proofs.Version.Signature

/-!
# What a compile call does to the store

A compile call that is interleaved with others reads its inputs one after another, compares the
latest version last and then inserts at most one version. Its contract says so whatever the others
do (`Service.keeps_compileWithin`): each of its moves writes nothing or inserts a version right
after the version that is the latest at that moment and that the compilation did not use again
(`CompileMove`). The result is the latest version when the call ends. An attempt that is refused for
a version conflict has been overtaken: the number of the latest version has changed since the
attempt read it (`Overtaken`).
-/

namespace RoutePlan

/-! ## Version numbers -/

/-- No version has the greatest number there is, so every version can have a successor. -/
def MemoryStore.InRange (s : MemoryStore) : Prop := ∀ v ∈ s.versions, v.versionNo < Int32.maxValue

instance (s : MemoryStore) : Decidable s.InRange :=
  inferInstanceAs (Decidable (∀ v ∈ s.versions, v.versionNo < Int32.maxValue))

/-- A store that grows into one in range is in range. -/
theorem MemoryStore.InRange.of_grows {s t : MemoryStore} (h : t.InRange) (hst : s.Grows t) :
    s.InRange :=
  fun v hv => h v (hst.mem_versions hv)

/-- A number that is not the greatest has a successor. -/
theorem toInt_add_one {n : Int32} (h : n < Int32.maxValue) : (n + 1).toInt = n.toInt + 1 := by
  have hlt := Int32.lt_iff_toInt_lt.1 h
  have hge := n.le_toInt
  have hmax : Int32.maxValue.toInt = 2147483647 := by decide
  have hone : (1 : Int32).toInt = 1 := by decide
  rw [Int32.toInt_add, hone, Int.bmod_eq_of_le (by omega) (by omega)]

/-- The successor of a number that is not the greatest is greater. -/
theorem lt_add_one {n : Int32} (h : n < Int32.maxValue) : n < n + 1 := by
  rw [Int32.lt_iff_toInt_lt, toInt_add_one h]
  omega

/-- The next number of a route is above all of its numbers. -/
theorem MemoryStore.lt_nextVersionNo {s : MemoryStore} (h : s.InRange) {routingId : String}
    {v : RouteVersion} (hv : v ∈ s.versions) (hid : v.routingId = routingId) :
    v.versionNo < nextVersionNo ((s.latestVersion routingId).map (·.versionNo)) := by
  cases hl : s.latestVersion routingId with
  | none =>
    have := mem_versionsOf.2 ⟨hv, hid⟩
    rw [RouteVersion.latest?_eq_none.1 hl] at this
    cases this
  | some p =>
    have ⟨⟨hp, _⟩, hle⟩ := latestVersion_eq_some hl
    exact Int32.lt_of_le_of_lt (hle v hv hid) (lt_add_one (h p hp))

/-- So the next number is free. -/
theorem MemoryStore.findVersion_nextVersionNo {s : MemoryStore} (h : s.InRange)
    (routingId : String) :
    s.findVersion routingId
      (nextVersionNo ((s.latestVersion routingId).map (·.versionNo))) = none := by
  refine findVersion_eq_none.2 fun v hv hid heq => ?_
  have hlt := lt_nextVersionNo h hv hid
  rw [heq] at hlt
  exact Int32.lt_irrefl hlt

/-- The next number of a route is that of its latest version plus one, or one. -/
theorem MemoryStore.toInt_nextVersionNo {s : MemoryStore} (h : s.InRange) (routingId : String) :
    (nextVersionNo ((s.latestVersion routingId).map (·.versionNo))).toInt =
      ((s.latestVersion routingId).elim 0 fun v => v.versionNo.toInt) + 1 := by
  cases hl : s.latestVersion routingId with
  | none => rfl
  | some v => exact toInt_add_one (h v (latestVersion_eq_some hl).1.1)

/-- A version with the next number becomes the latest. -/
theorem MemoryStore.latestVersion_addVersion {s : MemoryStore} (h : s.InRange) {v : RouteVersion}
    (hv : v.versionNo = nextVersionNo ((s.latestVersion v.routingId).map (·.versionNo))) :
    (s.addVersion v).latestVersion v.routingId = some v := by
  show RouteVersion.latest? ((s.addVersion v).versionsOf v.routingId) = some v
  rw [versionsOf_addVersion, if_pos rfl]
  refine RouteVersion.latest?_concat_of_lt fun w hw => ?_
  have ⟨hw, hid⟩ := mem_versionsOf.1 hw
  rw [hv]
  exact lt_nextVersionNo h hw hid

/-! ## Compilations of a store -/

/-- Without ids there are no specs. -/
theorem MemoryStore.findDataSpecs_nil (s : MemoryStore) : s.findDataSpecs [] = [] :=
  List.filter_eq_nil_iff.2 fun _ _ => by simp

/-- What the rows read for a route compile to. -/
def Compilation.ofReads (r : Routing) (steps : List RoutingStep) (overrides : List Override)
    (specs : List String → List DataSpec) : Compilation :=
  .ofSteps r (r.resolve steps overrides) (specs (ResolvedStep.specIds (r.resolve steps overrides)))

/-- What a route compiles to in a store. -/
def MemoryStore.compilation (s : MemoryStore) (r : Routing) : Compilation :=
  .ofReads r (s.listSteps r.id) (s.listOverrides (.forRouting r (s.listSteps r.id))) s.findDataSpecs

/-- A move of a compile call: nothing is written, or a version is inserted after the latest one,
which was not used again. Of the compiled route and its compilation `P` is known. -/
inductive CompileMove (P : MemoryStore → Routing → Compilation → Prop) (s : MemoryStore) :
    MemoryStore → Prop
  | nothing : CompileMove P s s
  | version (r : Routing) (c : Compilation) (t : Instant) (id : String) : P s r c →
    (c.decision (s.latestVersion r.id)).reusesPrior = false →
    CompileMove P s (s.addVersion
      ((c.draft r.id ((s.latestVersion r.id).map (·.versionNo)) t).row id))

/-- Others may do this between two moves of a compile call. -/
structure Interference (R : MemoryStore → MemoryStore → Prop) : Prop where
  trans : ∀ {s t u}, R s t → R t u → R s u
  self : ∀ {s t}, R s t → R t t
  grows : ∀ {s t}, R s t → s.Grows t
  inRange : ∀ {s t}, R s t → t.InRange

/-- Others may do this, whatever becomes of the version numbers. -/
structure Growing (R : MemoryStore → MemoryStore → Prop) : Prop where
  trans : ∀ {s t u}, R s t → R t u → R s u
  self : ∀ {s t}, R s t → R t t
  grows : ∀ {s t}, R s t → s.Grows t

/-- What others may do in range is among what they may do at all. -/
theorem Interference.growing {R : MemoryStore → MemoryStore → Prop} (hR : Interference R) :
    Growing R :=
  ⟨hR.trans, hR.self, hR.grows⟩

/-- The contract of compile calls among others that do `R`. -/
def compileContract (R : MemoryStore → MemoryStore → Prop)
    (P : MemoryStore → Routing → Compilation → Prop) : Contract MemoryState where
  rely s t := R s.store t.store
  guarantee s t := CompileMove P s.store t.store

/-- `c` is what a route with the code compiles to, read on the way from `s` to `t`: the routing,
its steps, the overrides and the specs one after another. -/
def ReadBetween (R : MemoryStore → MemoryStore → Prop) (code : String) (s t : MemoryStore)
    (r : Routing) (c : Compilation) : Prop :=
  ∃ s₁ s₂ s₃ s₄, R s s₁ ∧ R s₁ s₂ ∧ R s₂ s₃ ∧ R s₃ s₄ ∧ R s₄ t ∧ s₁.findRouting code = some r ∧
    c = .ofReads r (s₂.listSteps r.id) (s₃.listOverrides (.forRouting r (s₂.listSteps r.id)))
      s₄.findDataSpecs

/-- The number of the latest version of a compiled route has changed on the way from `s` to `t`. -/
def Overtaken (R : MemoryStore → MemoryStore → Prop)
    (P : MemoryStore → Routing → Compilation → Prop) (s t : MemoryStore) : Prop :=
  ∃ u r c, R s u ∧ R u t ∧ P t r c ∧
    (t.latestVersion r.id).map (·.versionNo) ≠ (u.latestVersion r.id).map (·.versionNo)

/-- At some moment after `s` there is no route with the code, or it has no steps. -/
def Uncompilable (R : MemoryStore → MemoryStore → Prop) (code : String) (s : MemoryStore) : Prop :=
  ∃ t, R s t ∧ ∀ r, t.findRouting code = some r → t.listSteps r.id = []

/-- `v` is the latest version of a compiled route, and its compilation uses it again. -/
def UpToDate (P : MemoryStore → Routing → Compilation → Prop) (v : RouteVersion)
    (t : MemoryStore) : Prop :=
  ∃ r c, P t r c ∧ t.latestVersion r.id = some v ∧ (c.decision (some v)).reusesPrior = true

/-- A change of the latest number on the way from a later store is one on the way from the earlier
store. -/
theorem Overtaken.of_rely {R : MemoryStore → MemoryStore → Prop}
    {P : MemoryStore → Routing → Compilation → Prop} {s t u : MemoryStore}
    (h : Overtaken R P t u) (hR : Interference R) (hst : R s t) : Overtaken R P s u := by
  obtain ⟨v, r, c, hv, hrest⟩ := h
  exact ⟨v, r, c, hR.trans hst hv, hrest⟩

namespace Service

variable {supply : Supply} {R : MemoryStore → MemoryStore → Prop}
  {P : MemoryStore → Routing → Compilation → Prop} {s : MemoryState}

/-! ## Reading -/

/-- A call that only reads is answered from some store that the others leave behind. -/
theorem keeps_read {c : Call} (read : MemoryStore → c.Reply)
    (hread : ∀ t, MemoryState.answer supply c t = (.ok (read t.store), t))
    {post : c.Reply → MemoryState → Prop} {refused : RequestError → MemoryState → Prop}
    (h : ∀ t, R s.store t.store → post (read t.store) t) :
    Keeps (MemoryState.backend supply) (compileContract R P) post refused (call c) s :=
  keeps_reading (fun _ => CompileMove.nothing) read hread h

/-- The specs are those of some moment; without ids that moment is the present one. -/
theorem keeps_specsOf (hself : R s.store s.store) {ids : List String}
    {post : List DataSpec → MemoryState → Prop} {refused : RequestError → MemoryState → Prop}
    (hpost : ∀ t, R s.store t.store → post (t.store.findDataSpecs ids) t) :
    Keeps (MemoryState.backend supply) (compileContract R P) post refused (specsOf ids) s := by
  unfold specsOf
  split
  · next h =>
    refine keeps_pure.2 ?_
    rw [← MemoryStore.findDataSpecs_nil s.store, ← List.isEmpty_iff.1 h]
    exact hpost s hself
  · exact keeps_read (·.findDataSpecs ids) (fun _ => rfl) hpost

/-- The inputs of a compilation are read at three moments. -/
theorem keeps_readCompilation (hself : ∀ s t, R s t → R t t) {r : Routing}
    {post : Compilation → MemoryState → Prop} {refused : RequestError → MemoryState → Prop}
    (hpost : ∀ u v t, R s.store u → R u v → R v t.store →
      post (.ofReads r (u.listSteps r.id)
        (v.listOverrides (.forRouting r (u.listSteps r.id))) t.store.findDataSpecs) t)
    (hrefused : ∀ t, R s.store t.store → t.store.listSteps r.id = [] →
      refused (.routingEmpty r.code) t) :
    Keeps (MemoryState.backend supply) (compileContract R P) post refused
      (readCompilation r) s := by
  rw [readCompilation, keeps_bind]
  refine keeps_read (·.listSteps r.id) (fun _ => rfl) fun u hu => ?_
  refine keeps_ite (fun h => ?_) fun _ => ?_
  · rw [keeps_bind, keeps_throw]
    exact hrefused u hu (List.isEmpty_iff.1 h)
  rw [keeps_bind]
  refine keeps_read (·.listOverrides (.forRouting r (u.store.listSteps r.id))) (fun _ => rfl)
    fun v hv => ?_
  rw [keeps_bind]
  exact keeps_specsOf (hself _ _ hv) fun t ht => keeps_pure.2 (hpost u.store v.store t hu hv ht)

/-! ## Settling the version -/

/-- The insertion after the version `prior` that was read in `u`: if it succeeds, `prior` is still
the latest version; if not, another version is. -/
theorem keeps_insertVersion (hR : Interference R) {r : Routing} {c : Compilation} {t : Instant}
    {u : MemoryStore} (hself : R u u) (hu : R u s.store)
    (hP : ∀ v, R u v → P v r c) (hadd : ∀ v w, P v r c → P (v.addVersion w) r c)
    (hnew : (c.decision (u.latestVersion r.id)).reusesPrior = false) :
    Keeps (MemoryState.backend supply) (compileContract R P)
      (fun v s => UpToDate P v s.store)
      (fun e t => e.isVersionConflict = true ∧ Overtaken R P u t.store)
      (call (.insertVersion (c.draft r.id ((u.latestVersion r.id).map (·.versionNo)) t)
        ((u.latestVersion r.id).map (·.versionNo)))) s := by
  refine keeps_call.2 fun w hw => ?_
  have huw := hR.trans hu hw
  have hrange := hR.inRange huw
  simp only [MemoryState.backend, MemoryState.answer]
  split
  · next e h =>
    obtain ⟨rfl, hconflict⟩ := MemoryStore.insertVersion_eq_error.1 h
    refine ⟨.nothing, rfl, u, r, c, hself, huw, hP _ huw, fun hno => ?_⟩
    rcases hconflict with hne | htaken
    · exact hne hno
    · have hfree := MemoryStore.findVersion_nextVersionNo hrange r.id
      rw [hno] at hfree
      exact htaken hfree
  · next v store h =>
    obtain ⟨hno, -, rfl, rfl⟩ := MemoryStore.insertVersion_eq_ok.1 h
    have hlatest : w.store.latestVersion r.id = u.latestVersion r.id :=
      (hR.grows huw).latestVersion_eq hno
    rw [← hlatest] at hnew
    simp only [← hlatest]
    exact ⟨.version r c t _ (hP _ huw) hnew, r, c, hadd _ _ (hP _ huw),
      MemoryStore.latestVersion_addVersion hrange rfl, c.reusesPrior_draft ..⟩

/-- The latest version of some moment is used again, or it is not, and the next version is to be
inserted at a later moment. -/
theorem keeps_settleVersion_cases {r : Routing} {c : Compilation}
    {post : RouteVersion → MemoryState → Prop} {refused : RequestError → MemoryState → Prop}
    (hreuse : ∀ (u : MemoryState) v, R s.store u.store → u.store.latestVersion r.id = some v →
      (c.decision (some v)).reusesPrior = true → post v u)
    (hnew : ∀ (u w : MemoryState) t, R s.store u.store →
      (c.decision (u.store.latestVersion r.id)).reusesPrior = false → R u.store w.store →
      Keeps (MemoryState.backend supply) (compileContract R P) post refused
        (call (.insertVersion (c.draft r.id ((u.store.latestVersion r.id).map (·.versionNo)) t)
          ((u.store.latestVersion r.id).map (·.versionNo)))) w) :
    Keeps (MemoryState.backend supply) (compileContract R P) post refused
      (settleVersion r c) s := by
  rw [settleVersion, keeps_bind]
  refine keeps_read (·.latestVersion r.id) (fun _ => rfl) fun u hu => ?_
  split
  · next v hdecision hlatest =>
    rw [hlatest] at hdecision
    exact keeps_pure.2 (hreuse u v hu hlatest hdecision)
  · next hnot =>
    have hdecision : (c.decision (u.store.latestVersion r.id)).reusesPrior = false := by
      cases hl : u.store.latestVersion r.id with
      | none => rfl
      | some v => exact Bool.eq_false_iff.2 fun h => hnot v (by rw [hl, h]) hl
    rw [keeps_bind]
    exact keeps_now.2 fun w hw => ⟨.nothing, hnew u _ _ hu hdecision hw⟩

/-- The latest version is used again, or the next one is inserted, or another writer was faster. -/
theorem keeps_settleVersion (hR : Interference R) {r : Routing} {c : Compilation}
    (hP : ∀ v, R s.store v → P v r c) (hadd : ∀ v w, P v r c → P (v.addVersion w) r c) :
    Keeps (MemoryState.backend supply) (compileContract R P)
      (fun v s => UpToDate P v s.store)
      (fun e t => e.isVersionConflict = true ∧ Overtaken R P s.store t.store)
      (settleVersion r c) s := by
  refine keeps_settleVersion_cases (fun u v hu hlatest hreuse => ?_) fun u w t hu hnew hw => ?_
  · exact ⟨r, c, hP _ hu, hlatest, hreuse⟩
  · refine (keeps_insertVersion hR (hR.self hu) hw (fun v hv => hP v (hR.trans hu hv)) hadd
      hnew).imp (fun _ _ h => h) fun e t h => ⟨h.1, h.2.of_rely hR hu⟩

/-! ## Attempts -/

/-- One attempt ends with the latest version, or was overtaken, or there was nothing to compile. -/
theorem keeps_compileOnce (hR : Interference R) {code : String}
    (hP : ∀ {s t r c}, ReadBetween R code s t r c → P t r c)
    (hadd : ∀ {v w r c}, P v r c → P (v.addVersion w) r c) :
    Keeps (MemoryState.backend supply) (compileContract R P)
      (fun v t => UpToDate P v t.store)
      (fun e t => e.isVersionConflict = true ∧ Overtaken R P s.store t.store ∨
        e.isVersionConflict = false ∧ Uncompilable R code s.store)
      (compileOnce code) s := by
  rw [compileOnce, keeps_bind]
  refine keeps_loadRouting (fun _ => CompileMove.nothing) (fun t r ht hr => ?_)
    fun t ht hr => .inr ⟨rfl, _, ht, ?_⟩
  · have hself : ∀ s t, R s t → R t t := fun _ _ => hR.self
    rw [keeps_bind]
    refine keeps_readCompilation hself (fun u v w hu hv hw => ?_) fun u hu hsteps => .inr ⟨rfl, _,
      hR.trans ht hu, fun r' hr' => ?_⟩
    · have hsw := hR.trans ht (hR.trans hu (hR.trans hv hw))
      refine (keeps_settleVersion hR (fun x hx => hP ⟨_, _, _, _, ht, hu, hv, hw, hx, hr, rfl⟩)
        fun _ _ => hadd).imp (fun _ _ h => h) fun e x h => .inl ⟨h.1, h.2.of_rely hR hsw⟩
    · have := (hR.grows hu).findRouting hr
      rw [hr', Option.some.injEq] at this
      rw [this, hsteps]
  · intro r hr'
    rw [hr] at hr'
    cases hr'

/-- Another attempt is made exactly if the one before was refused for a version conflict. -/
theorem keeps_compileWithin_succ {k : Contract MemoryState} {code : String} {attempts left : Nat}
    {post : RouteVersion → MemoryState → Prop} {refused : RequestError → MemoryState → Prop} :
    Keeps (MemoryState.backend supply) k post refused (compileWithin code attempts (left + 1)) s ↔
      Keeps (MemoryState.backend supply) k post
        (fun e t => Keeps (MemoryState.backend supply) k post refused
          (if e.isVersionConflict then compileWithin code attempts left else throw e) t)
        (compileOnce code) s :=
  keeps_tryCatch

/-- Whatever number of attempts is left, a result is the latest version at the end. -/
theorem keeps_compileWithin (supply : Supply) (hR : Interference R) {code : String}
    (hP : ∀ {s t r c}, ReadBetween R code s t r c → P t r c)
    (hadd : ∀ {v w r c}, P v r c → P (v.addVersion w) r c) (attempts left : Nat) :
    Keeps (MemoryState.backend supply) (compileContract R P)
      (fun v t => UpToDate P v t.store) (fun _ _ => True) (compileWithin code attempts left) s := by
  induction left generalizing s with
  | zero => exact keeps_throw.2 trivial
  | succ left ih =>
    refine keeps_compileWithin_succ.2 ((keeps_compileOnce hR hP hadd).imp (fun _ _ h => h)
      fun e t _ => keeps_ite (fun _ => ih) fun _ => keeps_throw.2 trivial)

end Service
end RoutePlan
