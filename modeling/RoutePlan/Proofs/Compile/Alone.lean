import RoutePlan.Proofs.Compile.Concurrent

/-!
# A compile call that runs alone

If nobody interferes, a compile call of a route with steps returns the latest version and leaves the
store as it is, if what the route compiles to uses that version again
(`Service.compile_run_of_reuses`); otherwise it adds one version with the next number
(`Service.compile_run_of_changed`).
-/

namespace RoutePlan

namespace Service

variable {α β σ : Type} {backend : Backend σ} {s t : σ}

/-- A call is answered by the backend. -/
theorem call_run (c : Call) : (call c).run.run backend s =
    ((backend.answer c s).1.mapError .storage, (backend.answer c s).2) := rfl

/-- A call that succeeds hands on the reply. -/
theorem call_run_of_ok {c : Call} {reply : c.Reply} (h : backend.answer c s = (.ok reply, t)) :
    (call c).run.run backend s = (.ok reply, t) := by
  rw [call_run, h]
  rfl

/-- A service goes on with the result of its first part. -/
theorem run_bind_of_ok {x : Service α} {a : α} (h : x.run.run backend s = (.ok a, t))
    (f : α → Service β) : (x >>= f).run.run backend s = (f a).run.run backend t := by
  refine (Program.run_bind backend x.run _ s).trans ?_
  rw [h]
  rfl

/-- A service ends where its first part is refused. -/
theorem run_bind_of_error {x : Service α} {e : RequestError}
    (h : x.run.run backend s = (.error e, t)) (f : α → Service β) :
    (x >>= f).run.run backend s = (.error e, t) := by
  refine (Program.run_bind backend x.run _ s).trans ?_
  rw [h]
  rfl

/-- A handler has nothing to do if there is a result. -/
theorem run_tryCatch_of_ok {x : Service α} {a : α} (h : x.run.run backend s = (.ok a, t))
    (handler : RequestError → Service α) : (tryCatch x handler).run.run backend s = (.ok a, t) := by
  refine (Program.run_bind backend x.run _ s).trans ?_
  rw [h]
  rfl

variable {supply : Supply} {s : MemoryState} {code : String} {r : Routing} {c : Compilation}

/-- The routing with the code is loaded. -/
theorem loadRouting_run (hr : s.store.findRouting code = some r) :
    (loadRouting code).run.run (MemoryState.backend supply) s = (.ok r, s) := by
  unfold loadRouting
  rw [run_bind_of_ok (a := some r) (t := s) (congrArg (fun r? => (Except.ok r?, s)) hr)]
  rfl

/-- The specs of the present store, whether it is asked or not. -/
theorem specsOf_run (ids : List String) : (specsOf ids).run.run (MemoryState.backend supply) s =
    (.ok (s.store.findDataSpecs ids), s) := by
  unfold specsOf
  split
  · next h =>
    rw [List.isEmpty_iff.1 h, MemoryStore.findDataSpecs_nil]
    rfl
  · rfl

/-- What is read of a route with steps is what it compiles to. -/
theorem readCompilation_run (hsteps : s.store.listSteps r.id ≠ []) :
    (readCompilation r).run.run (MemoryState.backend supply) s =
      (.ok (s.store.compilation r), s) := by
  unfold readCompilation
  rw [run_bind_of_ok (t := s) rfl, if_neg (by rwa [List.isEmpty_iff]), run_bind_of_ok (t := s) rfl]
  exact run_bind_of_ok (specsOf_run _) _

/-- The latest version is returned if it is used again. -/
theorem settleVersion_run_of_reuses {v : RouteVersion}
    (hlatest : s.store.latestVersion r.id = some v)
    (hreuse : (c.decision (some v)).reusesPrior = true) :
    (settleVersion r c).run.run (MemoryState.backend supply) s = (.ok v, s) := by
  unfold settleVersion
  rw [run_bind_of_ok (a := some v) (t := s) (congrArg (fun v? => (Except.ok v?, s)) hlatest),
    hreuse]
  rfl

end Service

/-- The version that a compilation adds to a state. -/
def Compilation.nextVersion (c : Compilation) (supply : Supply) (s : MemoryState)
    (routingId : String) : RouteVersion :=
  (c.draft routingId ((s.store.latestVersion routingId).map (·.versionNo))
    (supply.reading s.readings).truncateToMicros).row (supply.versionId s.versionIds)

/-- A compilation ends with the version: the latest one, or the one that is made from the
compilation. Either has the signature and the status of the compilation and, when there are
violations, a report that agrees. -/
structure Compilation.EndsWith (c : Compilation) (supply : Supply) (s : MemoryState)
    (routingId : String) (v : RouteVersion) : Prop where
  origin : s.store.latestVersion routingId = some v ∨ v = c.nextVersion supply s routingId
  signature : v.snapshot.storedSignature? = some c.core.signature
  status : v.status = c.status
  report : ∀ report ∈ c.report?, ∃ stored ∈ v.report, stored.json.agrees report.json = true

/-- A version of either origin that the compilation uses again has its signature, its status and its
report. -/
theorem Compilation.endsWith_of_reuses {c : Compilation} {supply : Supply} {s : MemoryState}
    {routingId : String} {v : RouteVersion}
    (horigin : s.store.latestVersion routingId = some v ∨ v = c.nextVersion supply s routingId)
    (hreuse : (c.decision (some v)).reusesPrior = true) : c.EndsWith supply s routingId v := by
  obtain ⟨hsignature, hstatus, hreport⟩ := reusesPrior_iff.1 hreuse
  exact ⟨horigin, hsignature, hstatus, hreport⟩

namespace Service

variable {supply : Supply} {s : MemoryState} {code : String} {r : Routing} {c : Compilation}

/-- The next version is added and returned if the latest one is not used again. -/
theorem settleVersion_run_of_changed (supply : Supply) (hrange : s.store.InRange)
    (hnew : (c.decision (s.store.latestVersion r.id)).reusesPrior = false) :
    (settleVersion r c).run.run (MemoryState.backend supply) s =
      (.ok (c.nextVersion supply s r.id),
        { store := s.store.addVersion (c.nextVersion supply s r.id)
          readings := s.readings + 1
          overrideIds := s.overrideIds
          versionIds := s.versionIds + 1 }) := by
  have hinsert : s.store.insertVersion (c.draft r.id
      ((s.store.latestVersion r.id).map (·.versionNo)) (supply.reading s.readings).truncateToMicros)
      ((s.store.latestVersion r.id).map (·.versionNo)) (supply.versionId s.versionIds) =
      .ok (c.nextVersion supply s r.id, s.store.addVersion (c.nextVersion supply s r.id)) :=
    MemoryStore.insertVersion_eq_ok.2
      ⟨rfl, MemoryStore.findVersion_nextVersionNo hrange r.id, rfl, rfl⟩
  unfold settleVersion
  rw [run_bind_of_ok (t := s) rfl, hnew]
  dsimp only
  rw [run_bind_of_ok (t := { s with readings := s.readings + 1 }) rfl, call_run]
  simp only [MemoryState.backend, MemoryState.answer, hinsert]
  rfl

/-- What a route with steps compiles to is settled, whatever the number of attempts. -/
theorem compile_run {v : RouteVersion} {t : MemoryState} (hr : s.store.findRouting code = some r)
    (hsteps : s.store.listSteps r.id ≠ [])
    (h : (settleVersion r (s.store.compilation r)).run.run (MemoryState.backend supply) s =
      (.ok v, t)) (attempts : Nat) :
    (compile code attempts).run.run (MemoryState.backend supply) s = (.ok v, t) := by
  have honce : (compileOnce code).run.run (MemoryState.backend supply) s = (.ok v, t) := by
    unfold compileOnce
    rw [run_bind_of_ok (loadRouting_run hr), run_bind_of_ok (readCompilation_run hsteps), h]
  unfold compile
  obtain ⟨left, hleft⟩ := Nat.exists_eq_add_of_le' (Nat.le_max_left 1 attempts)
  rw [hleft]
  exact run_tryCatch_of_ok honce _

/-- A route with steps is compiled, and the version has the signature, the status and the report of
what it compiles to. -/
theorem compile_run_endsWith (supply : Supply) (hr : s.store.findRouting code = some r)
    (hsteps : s.store.listSteps r.id ≠ []) (hrange : s.store.InRange) (attempts : Nat) :
    ∃ v t, (compile code attempts).run.run (MemoryState.backend supply) s = (.ok v, t) ∧
      (s.store.compilation r).EndsWith supply s r.id v := by
  cases hdecision : ((s.store.compilation r).decision (s.store.latestVersion r.id)).reusesPrior with
  | false =>
    exact ⟨_, _, compile_run hr hsteps (settleVersion_run_of_changed supply hrange hdecision) _,
      Compilation.endsWith_of_reuses (.inr rfl) (Compilation.reusesPrior_draft ..)⟩
  | true =>
    cases hlatest : s.store.latestVersion r.id with
    | none =>
      rw [hlatest] at hdecision
      cases hdecision
    | some v =>
      rw [hlatest] at hdecision
      exact ⟨v, s, compile_run hr hsteps (settleVersion_run_of_reuses hlatest hdecision) _,
        Compilation.endsWith_of_reuses (.inl hlatest) hdecision⟩

/-- While the latest version is used again, compiling changes nothing. -/
theorem compile_run_of_reuses {v : RouteVersion} (hr : s.store.findRouting code = some r)
    (hsteps : s.store.listSteps r.id ≠ []) (hlatest : s.store.latestVersion r.id = some v)
    (hreuse : ((s.store.compilation r).decision (some v)).reusesPrior = true) (attempts : Nat) :
    (compile code attempts).run.run (MemoryState.backend supply) s = (.ok v, s) :=
  compile_run hr hsteps (settleVersion_run_of_reuses hlatest hreuse) attempts

end Service
end RoutePlan
