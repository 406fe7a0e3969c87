import RoutePlan.Proofs.Compile.Concurrent

/-!
# Compile calls of unchanged input converge

If several compile calls of one code run at the same time and nothing else writes, they all return
the same version (`World.converge`). What each of them relies on is that the others insert at most
one version, that they do so only if the latest version was not up to date, and that afterwards it
is (`Converging`). A call that is overtaken therefore finds an up-to-date version at its second
attempt (`Converging.of_overtaken`), which no one overtakes any more.
-/

namespace RoutePlan

open MemoryStore (Compiles)

/-- Compile calls of `code` that started in `s₀` may take the store from `s` to `t`: the inputs stay
as they are, and the only new version is one that is up to date, where there was none. -/
structure Converging (code : String) (s₀ s t : MemoryStore) : Prop where
  grows : s.Grows t
  inRange : t.InRange
  start : s₀.SameInputs s
  inputs : s.SameInputs t
  /-- No version was inserted since the start, or one that is up to date. -/
  inserted : t.versions = s₀.versions ∨
    (∀ v, ¬UpToDate (Compiles code) v s₀) ∧
      ∃ v, t.versions = s₀.versions ++ [v] ∧ UpToDate (Compiles code) v t
  /-- If it was inserted between `s` and `t`, there was none before. -/
  once : t.versions = s.versions ∨ s.versions = s₀.versions

namespace Converging

variable {code : String} {s₀ s t u : MemoryStore} {v : RouteVersion}

/-- Compile calls of one code are such others as a compile call may run among. -/
theorem interference (code : String) (s₀ : MemoryStore) :
    Interference (Converging code s₀) where
  trans {s t u} h h' := by
    refine ⟨h.grows.trans h'.grows, h'.inRange, h.start, h.inputs.trans h'.inputs, h'.inserted, ?_⟩
    rcases h'.once with hut | ht
    · rw [hut]
      exact h.once
    · rcases h.once with hts | hs
      · exact .inr (hts.symm.trans ht)
      · exact .inr hs
  self h := ⟨.refl _, h.inRange, h.start.trans h.inputs, .refl _, h.inserted, .inl rfl⟩
  grows h := h.grows
  inRange h := h.inRange

/-- The store is the same, or a version was inserted that is up to date, where there was none. -/
theorem eq_or (h : Converging code s₀ s t) : t = s ∨
    (∀ v, ¬UpToDate (Compiles code) v s) ∧ ∃ v, UpToDate (Compiles code) v t := by
  rcases h.once with hts | hs
  · exact .inl (h.inputs.eq_of_versions hts)
  · have hstart := h.start.eq_of_versions hs
    rcases h.inserted with ht | ⟨hnone, v, -, hv⟩
    · exact .inl (h.inputs.eq_of_versions (ht.trans hs.symm))
    · exact .inr ⟨hstart ▸ hnone, v, hv⟩

/-- An up-to-date version stays up to date. -/
theorem upToDate (h : Converging code s₀ s t) (hv : UpToDate (Compiles code) v s) :
    UpToDate (Compiles code) v t := by
  rcases h.eq_or with rfl | ⟨hnone, _⟩
  · exact hv
  · exact absurd hv (hnone v)

/-- A call that was overtaken started without an up-to-date version and ends with one. -/
theorem of_overtaken (h : Overtaken (Converging code s₀) (Compiles code) s t) :
    (∀ v, ¬UpToDate (Compiles code) v s) ∧ ∃ v, UpToDate (Compiles code) v t := by
  obtain ⟨u, r, c, hsu, hut, -, hno⟩ := h
  rcases hut.eq_or with rfl | ⟨hnone, hsome⟩
  · exact absurd rfl hno
  · exact ⟨fun v hv => hnone v (hsu.upToDate hv), hsome⟩

/-- The moves of a compile call are such as the others rely on. -/
theorem of_compileMove (hself : Converging code s₀ s s) (hrange : t.InRange)
    (h : CompileMove (Compiles code) s t) : Converging code s₀ s t := by
  refine ⟨h.grows hself.inRange, hrange, hself.start, h.sameInputs, ?_, ?_⟩ <;>
    rcases hself.inserted with hs | ⟨-, v, -, hv⟩
  · have hstart := hself.start.eq_of_versions hs
    cases h with
    | nothing => exact .inl hs
    | version r c compiledAt id hc hnew =>
      refine .inr ⟨fun v hv => ?_, _, by rw [← hs]; rfl, r, c,
        (MemoryStore.SameInputs.addVersion _ s).compiles hc,
        MemoryStore.latestVersion_addVersion hself.inRange rfl, c.reusesPrior_draft ..⟩
      have hmove := (CompileMove.version r c compiledAt id hc hnew).eq_of_upToDate (hstart ▸ hv)
      have hlength := congrArg (fun s => s.versions.length) hmove
      simp [MemoryStore.addVersion] at hlength
  · rw [h.eq_of_upToDate hv]
    exact hself.inserted
  · exact .inr hs
  · exact .inl (by rw [h.eq_of_upToDate hv])

end Converging

/-! ## A call -/

namespace Service

variable {supply : Supply} {code : String} {s₀ : MemoryStore} {r : Routing} {s : MemoryState}

/-- A route with steps can be compiled at any moment. -/
theorem not_uncompilable (hr : s₀.findRouting code = some r) (hsteps : s₀.listSteps r.id ≠ []) :
    ¬Uncompilable (Converging code s₀) code s.store := by
  rintro ⟨t, ht, hempty⟩
  have hinputs := ht.start.trans ht.inputs
  exact hsteps (hinputs.listSteps ▸ hempty r (hinputs.findRouting ▸ hr))

/-- Two attempts are enough. -/
theorem keeps_compileWithin_converging (supply : Supply) (hr : s₀.findRouting code = some r)
    (hsteps : s₀.listSteps r.id ≠ []) (attempts left : Nat) :
    Keeps (MemoryState.backend supply)
      (compileContract (Converging code s₀) (Compiles code))
      (fun v t => UpToDate (Compiles code) v t.store) (fun _ _ => False)
      (compileWithin code attempts (left + 2)) s := by
  have hR := Converging.interference code s₀
  have hattempt : ∀ s, Keeps (MemoryState.backend supply)
      (compileContract (Converging code s₀) (Compiles code))
      (fun v t => UpToDate (Compiles code) v t.store)
      (fun e t => e.isVersionConflict = true ∧
        (∀ v, ¬UpToDate (Compiles code) v s.store) ∧ ∃ v, UpToDate (Compiles code) v t.store)
      (compileOnce code) s := by
    intro s
    refine (keeps_compileOnce hR
      (fun h => ⟨h.holds hR.growing, h.compilation hR.growing (·.inputs)⟩)
      fun h => (MemoryStore.SameInputs.addVersion _ _).compiles h).imp (fun _ _ h => h) ?_
    rintro e t (⟨he, h⟩ | ⟨-, h⟩)
    · exact ⟨he, Converging.of_overtaken h⟩
    · exact absurd h (not_uncompilable hr hsteps)
  refine keeps_compileWithin_succ.2 ((hattempt s).imp (fun _ _ h => h) ?_)
  rintro e t ⟨he, -, v, hv⟩
  rw [if_pos he]
  refine keeps_compileWithin_succ.2 ((hattempt t).imp (fun _ _ h => h) ?_)
  rintro e u ⟨-, hnone, -⟩
  exact absurd hv (hnone v)

end Service

/-! ## All calls -/

namespace World

variable {ι : Type} [DecidableEq ι] {supply : Supply} {code : String} {s₀ : MemoryStore}

/-- What a call of `code` has ended with is the up-to-date version. -/
def EndsUpToDate (code : String) : Except RequestError RouteVersion → MemoryState → Prop
  | .ok v, t => UpToDate (Compiles code) v t.store
  | .error _, _ => False

/-- The version that a call has ended with stays up to date. -/
theorem EndsUpToDate.of_converging {result : Except RequestError RouteVersion} {s t : MemoryState}
    (h : EndsUpToDate code result s) (hst : Converging code s₀ s.store t.store) :
    EndsUpToDate code result t := by
  cases result with
  | ok v => exact hst.upToDate h
  | error e => exact h

/-- Calls that all keep to what the others rely on keep to it along every schedule. -/
theorem respects_converging {schedule : List ι} {w : World ι (Except RequestError RouteVersion)}
    (hkeeps : ∀ i, (w.programs i).Keeps (MemoryState.backend supply)
      (compileContract (Converging code s₀) (Compiles code)) (EndsUpToDate code) w.state)
    (hself : Converging code s₀ w.state.store w.state.store)
    (hrange : (w.runSchedule supply schedule).state.store.InRange) :
    w.Respects (compileContract (Converging code s₀) (Compiles code)) supply
      (schedule.map .advance) := by
  have hR := Converging.interference code s₀
  induction schedule generalizing w with
  | nil => exact hself
  | cons j schedule ih =>
    rw [runSchedule_cons] at hrange
    have hmove : Converging code s₀ w.state.store (w.move supply (.advance j)).state.store := by
      cases hdone : (w.programs j).isDone with
      | true =>
        rw [state_advance, Program.advance_of_isDone hdone]
        exact hself
      | false =>
        exact .of_compileMove hself (hrange.of_grows (grows_run _ _))
          (guarantee_advance (hkeeps j) hself hdone)
    refine ⟨hself, hmove, ih (fun i => ?_) (hR.self hmove) hrange⟩
    exact keeps_move hR.trans (hkeeps i) hself hmove fun _ _ hresult =>
      hresult.of_converging hmove

/-- **Compile calls of unchanged input converge.** Any number of compile calls of a code with at
least one step, each with two attempts or more, run at the same time in any order, and nothing else
writes. A call that has made seven moves for each of its attempts has ended. Whatever has ended
returned the version that is the latest at the end of the run. No version was inserted, or one, if
the latest version was not up to date at the start. -/
theorem converge (supply : Supply) {s : MemoryState} {r : Routing}
    (hr : s.store.findRouting code = some r) (hsteps : s.store.listSteps r.id ≠ [])
    {attempts : ι → Nat} (hattempts : ∀ i, 2 ≤ attempts i) (schedule : List ι)
    (hrange :
      ((compiling s (fun _ => code) attempts).runSchedule supply schedule).state.store.InRange) :
    let final := (compiling s (fun _ => code) attempts).runSchedule supply schedule
    (∀ i, 7 * attempts i ≤ schedule.count i → (final.programs i).isDone = true) ∧
      (∀ i result, final.programs i = .done result →
        ∃ v, result = .ok v ∧ final.state.store.latestVersion r.id = some v) ∧
      (final.state.store.versions = s.store.versions ∨
        (∀ v, ¬UpToDate (Compiles code) v s.store) ∧
          ∃ v, final.state.store.versions = s.store.versions ++ [v]) := by
  intro final
  have hR := Converging.interference code s.store
  have hself : Converging code s.store s.store s.store :=
    ⟨.refl _, hrange.of_grows (grows_run _ (compiling s (fun _ => code) attempts)), .refl _,
      .refl _, .inl rfl, .inl rfl⟩
  have hkeeps : ∀ i, ((compiling s (fun _ => code) attempts).programs i).Keeps
      (MemoryState.backend supply) (compileContract (Converging code s.store) (Compiles code))
      (EndsUpToDate code) s := by
    intro i
    have hleft : max 1 (attempts i) = attempts i - 2 + 2 := by
      have := hattempts i
      omega
    have h := Service.keeps_compileWithin_converging (s := s) supply hr hsteps
      (max 1 (attempts i)) (attempts i - 2)
    rw [← hleft] at h
    exact (Program.keeps_congr fun result t => by cases result <;> rfl).1 h
  have hrespects := respects_converging hkeeps hself hrange
  refine ⟨fun i hi => isDone_runSchedule ?_ hi, fun i result hdone => ?_, ?_⟩
  · have hends := Service.endsWithin_compile code (attempts i)
    rwa [Nat.max_eq_right (Nat.le_trans (Nat.le_succ 1) (hattempts i))] at hends
  · have hend : (final.programs i).Keeps _ _ (EndsUpToDate code) final.state :=
      keeps_run hR.trans (fun _ _ _ => EndsUpToDate.of_converging) (hkeeps i) hrespects
    rw [hdone] at hend
    cases result with
    | error e => exact hend.elim
    | ok v =>
      obtain ⟨r', c, hc, hlatest, -⟩ := hend
      have hfound : final.state.store.findRouting code = some r :=
        (grows_runSchedule schedule (compiling s (fun _ => code) attempts)).findRouting hr
      rw [hc.1, Option.some.injEq] at hfound
      exact ⟨v, rfl, hfound ▸ hlatest⟩
  · rcases hrespects.run.inserted with hsame | ⟨hnone, v, hv, -⟩
    · exact .inl hsame
    · exact .inr ⟨hnone, v, hv⟩

/-- Two calls in turn: call 0 has inserted a version, and call 1 was overtaken. -/
theorem converge_singleStep :
    let final := (compiling (.start (SingleStep.store none)) (fun _ : Fin 2 => "R1")
      fun _ => 2).runSchedule SingleStep.supply [0, 1, 0, 1, 0, 1, 0, 1, 0, 1, 0, 1]
    ∀ i result, final.programs i = .done result →
      ∃ v, result = .ok v ∧ final.state.store.latestVersion "r1" = some v :=
  (converge SingleStep.supply (r := SingleStep.routing) rfl (by decide) (fun _ => Nat.le_refl 2) _
    (by decide +kernel)).2.1

end World
end RoutePlan
