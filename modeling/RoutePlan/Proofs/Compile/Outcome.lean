import RoutePlan.Proofs.Compile.Alone

/-!
# How a compile call that runs alone ends

A compile call that nobody interferes with ends in one of five ways (`Service.CompiledAlone`): there
is no route with the code, the route has no steps, the latest version is used again, the next
version is inserted, or the number of the next version is already taken. Nothing is written but the
one version that is inserted. Of the overrides a call reads the rows that the filter of the route
selects, so it does the same on any table from which the same rows are selected
(`Service.compileWithin_run_withOverrides`).
-/

namespace RoutePlan

namespace Service

variable {supply : Supply} {s : MemoryState} {code : String} {r : Routing}

/-- Without a routing of the code the request is refused. -/
theorem loadRouting_run_of_none (hr : s.store.findRouting code = none) :
    (loadRouting code).run.run (MemoryState.backend supply) s =
      (.error (.routeNotFound code), s) := by
  unfold loadRouting
  rw [run_bind_of_ok (a := none) (t := s) (congrArg (fun r? => (Except.ok r?, s)) hr)]
  rfl

/-- Without steps the request is refused. -/
theorem readCompilation_run_of_empty (hsteps : s.store.listSteps r.id = []) :
    (readCompilation r).run.run (MemoryState.backend supply) s =
      (.error (.routingEmpty r.code), s) := by
  unfold readCompilation
  rw [run_bind_of_ok (t := s) rfl, if_pos (List.isEmpty_iff.2 hsteps)]
  exact run_bind_of_error rfl _

/-- A version that is not used again is inserted at the next reading of the clock. -/
theorem settleVersion_run_of_new {c : Compilation}
    (hnew : (c.decision (s.store.latestVersion r.id)).reusesPrior = false) :
    (settleVersion r c).run.run (MemoryState.backend supply) s =
      (call (.insertVersion
        (c.draft r.id ((s.store.latestVersion r.id).map (·.versionNo))
          (supply.reading s.readings).truncateToMicros)
        ((s.store.latestVersion r.id).map (·.versionNo)))).run.run (MemoryState.backend supply)
          { s with readings := s.readings + 1 } := by
  unfold settleVersion
  rw [run_bind_of_ok (t := s) rfl, hnew]
  dsimp only
  rw [run_bind_of_ok (t := { s with readings := s.readings + 1 }) rfl]
  rfl

/-- An attempt in three steps: the route, its steps, and what they compile to. -/
theorem compileOnce_run (supply : Supply) (s : MemoryState) (code : String) :
    (compileOnce code).run.run (MemoryState.backend supply) s =
      match s.store.findRouting code with
      | none => (.error (.routeNotFound code), s)
      | some r =>
        if s.store.listSteps r.id = [] then (.error (.routingEmpty r.code), s)
        else (settleVersion r (s.store.compilation r)).run.run (MemoryState.backend supply) s := by
  unfold compileOnce
  cases hr : s.store.findRouting code with
  | none => exact run_bind_of_error (loadRouting_run_of_none hr) _
  | some r =>
    rw [run_bind_of_ok (loadRouting_run hr)]
    dsimp only
    split
    · next hsteps => exact run_bind_of_error (readCompilation_run_of_empty hsteps) _
    · next hsteps => rw [run_bind_of_ok (readCompilation_run hsteps)]

/-- A handler takes over in the state in which the service is refused. -/
theorem run_tryCatch {α σ : Type} {backend : Backend σ} (x : Service α)
    (handler : RequestError → Service α) (s : σ) : (tryCatch x handler).run.run backend s =
      match x.run.run backend s with
      | (.ok a, t) => (.ok a, t)
      | (.error e, t) => (handler e).run.run backend t := by
  refine (Program.run_bind backend x.run _ s).trans ?_
  match x.run.run backend s with
  | (.ok _, _) | (.error _, _) => rfl

/-! ## The ways to end -/

/-- How a compile call of the code that began with the store `s` ends when it runs alone, with the
store that it leaves. -/
inductive CompiledAlone (s : MemoryStore) (code : String) (attempts : Nat) :
    Except RequestError RouteVersion → MemoryStore → Prop
  | unknown (hr : s.findRouting code = none) :
    CompiledAlone s code attempts (.error (.routeNotFound code)) s
  | empty (r : Routing) (hr : s.findRouting code = some r) (hsteps : s.listSteps r.id = []) :
    CompiledAlone s code attempts (.error (.routingEmpty r.code)) s
  | reused (r : Routing) (v : RouteVersion) (hr : s.findRouting code = some r)
    (hsteps : s.listSteps r.id ≠ []) (hlatest : s.latestVersion r.id = some v)
    (hreuse : ((s.compilation r).decision (some v)).reusesPrior = true) :
    CompiledAlone s code attempts (.ok v) s
  | inserted (r : Routing) (t : Instant) (id : String) (hr : s.findRouting code = some r)
    (hsteps : s.listSteps r.id ≠ [])
    (hnew : ((s.compilation r).decision (s.latestVersion r.id)).reusesPrior = false) :
    CompiledAlone s code attempts
      (.ok (((s.compilation r).draft r.id ((s.latestVersion r.id).map (·.versionNo)) t).row id))
      (s.addVersion
        (((s.compilation r).draft r.id ((s.latestVersion r.id).map (·.versionNo)) t).row id))
  | numberTaken (r : Routing) (hr : s.findRouting code = some r) (hsteps : s.listSteps r.id ≠ [])
    (htaken : s.findVersion r.id
      (nextVersionNo ((s.latestVersion r.id).map (·.versionNo))) ≠ none) :
    CompiledAlone s code attempts (.error (.contention code attempts)) s

namespace CompiledAlone

variable {s : MemoryStore} {attempts : Nat} {e : RequestError} {t : MemoryStore}

/-- Whoever is refused at the end was not overtaken. -/
theorem isVersionConflict_eq_false (h : CompiledAlone s code attempts (.error e) t) :
    e.isVersionConflict = false := by
  cases h <;> rfl

end CompiledAlone

/-- An attempt that runs alone ends the call, or its number is already taken. -/
theorem compileOnce_run_alone (supply : Supply) (s : MemoryState) (code : String)
    (attempts : Nat) : ∃ outcome t, (compileOnce code).run.run (MemoryState.backend supply) s =
      (outcome, t) ∧ (CompiledAlone s.store code attempts outcome t.store ∨
        (∃ e, outcome = .error e ∧ e.isVersionConflict = true) ∧ t.store = s.store ∧
          CompiledAlone s.store code attempts (.error (.contention code attempts)) s.store) := by
  rw [compileOnce_run]
  cases hr : s.store.findRouting code with
  | none => exact ⟨_, _, rfl, .inl (.unknown hr)⟩
  | some r =>
    dsimp only
    split
    · next hsteps => exact ⟨_, _, rfl, .inl (.empty r hr hsteps)⟩
    next hsteps =>
    cases hdecision :
        ((s.store.compilation r).decision (s.store.latestVersion r.id)).reusesPrior with
    | true =>
      cases hlatest : s.store.latestVersion r.id with
      | none =>
        rw [hlatest] at hdecision
        cases hdecision
      | some v =>
        rw [hlatest] at hdecision
        exact ⟨_, _, settleVersion_run_of_reuses hlatest hdecision,
          .inl (.reused r v hr hsteps hlatest hdecision)⟩
    | false =>
      rw [settleVersion_run_of_new hdecision, call_run]
      simp only [MemoryState.backend, MemoryState.answer]
      split
      · next e h =>
        obtain ⟨rfl, hconflict⟩ := MemoryStore.insertVersion_eq_error.1 h
        have htaken := hconflict.resolve_left (fun hne => hne rfl)
        exact ⟨_, _, rfl, .inr ⟨⟨_, rfl, rfl⟩, rfl, .numberTaken r hr hsteps htaken⟩⟩
      · next v store h =>
        obtain ⟨-, -, rfl, rfl⟩ := MemoryStore.insertVersion_eq_ok.1 h
        exact ⟨_, _, rfl, .inl (.inserted r _ _ hr hsteps hdecision)⟩

/-- The attempts that are left end the call; without any left the number was taken all along. -/
theorem compileWithin_run_alone (supply : Supply) (code : String) (attempts left : Nat)
    (s : MemoryState) (hleft : left = 0 →
      CompiledAlone s.store code attempts (.error (.contention code attempts)) s.store) :
    ∃ outcome t, (compileWithin code attempts left).run.run (MemoryState.backend supply) s =
      (outcome, t) ∧ CompiledAlone s.store code attempts outcome t.store := by
  induction left generalizing s with
  | zero => exact ⟨_, _, rfl, hleft rfl⟩
  | succ left ih =>
    rw [compileWithin, run_tryCatch]
    obtain ⟨outcome, t, honce, hends⟩ := compileOnce_run_alone supply s code attempts
    rw [honce]
    rcases hends with hends | ⟨⟨e, rfl, he⟩, hstore, htaken⟩
    · cases outcome with
      | ok v => exact ⟨_, _, rfl, hends⟩
      | error e =>
        dsimp only
        rw [if_neg (Bool.eq_false_iff.1 hends.isVersionConflict_eq_false)]
        exact ⟨_, _, rfl, hends⟩
    · dsimp only
      rw [if_pos he, ← hstore]
      exact ih t fun _ => hstore ▸ htaken

/-- A compile call that runs alone ends in one of five ways. -/
theorem compile_run_alone (supply : Supply) (s : MemoryState) (code : String) (attempts : Nat) :
    ∃ outcome t, (compile code attempts).run.run (MemoryState.backend supply) s = (outcome, t) ∧
      CompiledAlone s.store code (max 1 attempts) outcome t.store :=
  compileWithin_run_alone supply code _ _ s fun h => absurd h (by omega)

end Service

/-! ## Overrides that are not read -/

/-- The filter of the route with the code selects the same rows from another table of overrides. -/
def MemoryStore.SelectsAlike (s : MemoryStore) (code : String) (rows : List Override) : Prop :=
  ∀ r, s.findRouting code = some r →
    rows.filter (OverrideFilter.forRouting r (s.listSteps r.id)).selects =
      s.overrides.filter (OverrideFilter.forRouting r (s.listSteps r.id)).selects

/-- The state with another table of overrides. -/
def MemoryState.withOverrides (rows : List Override) (s : MemoryState) : MemoryState :=
  { s with store := { s.store with overrides := rows } }

/-- An insertion of a version has nothing to do with the overrides. -/
theorem MemoryState.answer_insertVersion_withOverrides (supply : Supply) (s : MemoryState)
    (rows : List Override) (draft : VersionDraft) (expected : Option Int32) :
    answer supply (.insertVersion draft expected) (s.withOverrides rows) =
      ((answer supply (.insertVersion draft expected) s).1,
        (answer supply (.insertVersion draft expected) s).2.withOverrides rows) := by
  cases h : s.store.insertVersion draft expected (supply.versionId s.versionIds) with
  | error e =>
    have hrows : (s.withOverrides rows).store.insertVersion draft expected
        (supply.versionId s.versionIds) = .error e :=
      MemoryStore.insertVersion_eq_error.2 ((MemoryStore.insertVersion_eq_error (s := s.store)).1 h)
    have hids : (s.withOverrides rows).versionIds = s.versionIds := rfl
    simp only [answer, h, hids, hrows]
  | ok result =>
    obtain ⟨hno, hfree, hv, ht⟩ := MemoryStore.insertVersion_eq_ok.1 h
    have hrows : (s.withOverrides rows).store.insertVersion draft expected
        (supply.versionId s.versionIds) =
          .ok (result.1, (s.withOverrides rows).store.addVersion result.1) :=
      MemoryStore.insertVersion_eq_ok.2 ⟨hno, hfree, hv, by rw [hv]⟩
    have hids : (s.withOverrides rows).versionIds = s.versionIds := rfl
    simp only [answer, h, hids, hrows, ht]
    rfl

namespace Service

variable {supply : Supply} {s : MemoryState} {code : String} {r : Routing} {rows : List Override}

/-- To settle a version is to read and write versions only. -/
theorem settleVersion_run_withOverrides (c : Compilation) :
    (settleVersion r c).run.run (MemoryState.backend supply) (s.withOverrides rows) =
      (((settleVersion r c).run.run (MemoryState.backend supply) s).1,
        ((settleVersion r c).run.run (MemoryState.backend supply) s).2.withOverrides rows) := by
  cases hdecision : (c.decision (s.store.latestVersion r.id)).reusesPrior with
  | true =>
    cases hlatest : s.store.latestVersion r.id with
    | none =>
      rw [hlatest] at hdecision
      cases hdecision
    | some v =>
      rw [hlatest] at hdecision
      rw [settleVersion_run_of_reuses hlatest hdecision]
      exact settleVersion_run_of_reuses (s := s.withOverrides rows) hlatest hdecision
  | false =>
    rw [settleVersion_run_of_new (s := s.withOverrides rows) hdecision,
      settleVersion_run_of_new hdecision, call_run, call_run]
    have hanswer := MemoryState.answer_insertVersion_withOverrides supply
      { s with readings := s.readings + 1 } rows
    exact congrArg (fun a => (Except.mapError RequestError.storage a.1, a.2)) (hanswer _ _)

/-- What a route compiles to depends on the overrides that its filter selects. -/
theorem compilation_withOverrides (hrows : s.store.SelectsAlike code rows)
    (hr : s.store.findRouting code = some r) :
    (s.withOverrides rows).store.compilation r = s.store.compilation r := by
  have hlist : (s.withOverrides rows).store.listOverrides
      (.forRouting r (s.store.listSteps r.id)) =
        s.store.listOverrides (.forRouting r (s.store.listSteps r.id)) :=
    congrArg Override.mostRecentFirst (hrows r hr)
  exact congrArg (Compilation.ofReads r (s.store.listSteps r.id) · s.store.findDataSpecs) hlist

/-- An attempt that runs alone does the same on a table of overrides from which the filter of the
route selects the same rows. -/
theorem compileOnce_run_withOverrides (hrows : s.store.SelectsAlike code rows) :
    (compileOnce code).run.run (MemoryState.backend supply) (s.withOverrides rows) =
      (((compileOnce code).run.run (MemoryState.backend supply) s).1,
        ((compileOnce code).run.run (MemoryState.backend supply) s).2.withOverrides rows) := by
  have hfound : (s.withOverrides rows).store.findRouting = s.store.findRouting := rfl
  have hsteps : (s.withOverrides rows).store.listSteps = s.store.listSteps := rfl
  rw [compileOnce_run, compileOnce_run, hfound, hsteps]
  cases hr : s.store.findRouting code with
  | none => rfl
  | some r =>
    dsimp only
    rw [compilation_withOverrides hrows hr]
    split
    · rfl
    · exact settleVersion_run_withOverrides _

/-- Compile calls that run alone do the same on tables of overrides from which the filter of the
route selects the same rows. -/
theorem compileWithin_run_withOverrides (attempts left : Nat)
    (hrows : s.store.SelectsAlike code rows) :
    (compileWithin code attempts left).run.run (MemoryState.backend supply) (s.withOverrides rows) =
      (((compileWithin code attempts left).run.run (MemoryState.backend supply) s).1,
        ((compileWithin code attempts left).run.run
          (MemoryState.backend supply) s).2.withOverrides rows) := by
  induction left generalizing s with
  | zero => rfl
  | succ left ih =>
    rw [compileWithin, run_tryCatch, run_tryCatch, compileOnce_run_withOverrides hrows]
    obtain ⟨outcome, t, honce, hends⟩ := compileOnce_run_alone supply s code attempts
    rw [honce]
    cases outcome with
    | ok v => rfl
    | error e =>
      dsimp only
      split
      · next he =>
        -- an attempt that is overtaken has written nothing
        rcases hends with hends | ⟨-, hstore, -⟩
        · rw [hends.isVersionConflict_eq_false] at he
          cases he
        · exact ih (hstore ▸ hrows)
      · rfl

end Service
end RoutePlan
