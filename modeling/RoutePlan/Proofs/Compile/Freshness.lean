import RoutePlan.Proofs.Compile.Alone

/-!
# When the latest version reflects the latest inputs

A compile call that began after the last change of the inputs returns a version that reflects them,
and it is the latest one then. It need not stay the latest: an attempt that read the inputs before
the change but asks for the latest version only afterwards inserts on top of it what the old inputs
compile to (`World.not_staysLatest`). This is the only way: the latest version keeps its content if
and only if every version that is inserted later comes from an attempt that also began after the
change (`World.staysLatest_iff`).
-/

namespace RoutePlan

open MemoryStore (Holds Compiles)

namespace RouteVersion.SameContent

variable {u v w : RouteVersion}

/-- The order of the versions does not matter. -/
theorem symm (h : u.SameContent v) : v.SameContent u :=
  ⟨h.route.symm, h.steps.symm, h.status.symm, h.report.symm⟩

/-- Versions with the content of one version have the same content. -/
theorem trans (h : u.SameContent v) (h' : v.SameContent w) : u.SameContent w :=
  ⟨h.route.trans h'.route, h.steps.trans h'.steps, h.status.trans h'.status,
    h.report.trans h'.report⟩

end RouteVersion.SameContent

/-- The store grows in range while the inputs stay as they are. -/
def MemoryStore.GrowsUnchanged (s t : MemoryStore) : Prop := s.GrowsInRange t ∧ s.SameInputs t

/-- Others may let the store grow in range while the inputs stay as they are. -/
theorem MemoryStore.interference_growsUnchanged : Interference GrowsUnchanged where
  trans h h' := ⟨interference_growsInRange.trans h.1 h'.1, h.2.trans h'.2⟩
  self h := ⟨interference_growsInRange.self h.1, .refl _⟩
  grows h := h.1.1
  inRange h := h.1.2

/-- A compile call that inserts a version changes the content of the latest one. -/
theorem CompileMove.not_sameContent {code : String} {s t : MemoryStore} {r : Routing}
    {u w : RouteVersion} (h : CompileMove (Holds code) s t) (hrange : s.InRange)
    (hchanged : t.versions ≠ s.versions) (hr : s.findRouting code = some r)
    (hu : s.latestVersion r.id = some u) (hw : t.latestVersion r.id = some w) :
    ¬u.SameContent w := by
  cases h with
  | nothing => exact absurd rfl hchanged
  | version r' c compiledAt id hr' hnew =>
    have heq : r' = r := Option.some.inj (hr'.symm.trans hr)
    subst heq
    have hlatest := MemoryStore.latestVersion_addVersion hrange
      (v := (c.draft r'.id ((s.latestVersion r'.id).map (·.versionNo)) compiledAt).row id) rfl
    have hwrow := Option.some.inj (hw.symm.trans hlatest)
    intro hsame
    rw [hu, Compilation.reusesPrior_congr hsame, hwrow, c.reusesPrior_draft] at hnew
    cases hnew

namespace World

variable {ι : Type} [DecidableEq ι] {supply : Supply} {code : String}

/-- On the way through a schedule the call `j` stood at the beginning of an attempt. -/
def BeginsAttempt (supply : Supply) (w : World ι (Except RequestError RouteVersion))
    (code : String) (j : ι) (calls : List ι) : Prop :=
  ∃ before attempts left, before <+: calls ∧
    (w.runSchedule supply before).programs j = (Service.compileWithin code attempts left).run

variable {w : World ι (Except RequestError RouteVersion)} {calls : List ι} {j : ι}

/-- Compile calls among themselves leave the inputs as they are. -/
theorem Reached.respects_growsUnchanged (h : w.Reached supply fun _ => code)
    {guarantee : MemoryState → MemoryState → Prop}
    (hrange : (w.runSchedule supply calls).state.store.InRange) :
    w.Respects ⟨fun s t => s.store.GrowsUnchanged t.store, guarantee⟩ supply
      (calls.map .advance) := by
  induction calls generalizing w with
  | nil => exact ⟨⟨.refl _, hrange⟩, .refl _⟩
  | cons j calls ih =>
    have hj := hrange.of_grows (grows_runSchedule calls (w.move supply (.advance j)))
    exact ⟨⟨⟨.refl _, hj.of_grows (grows_move _ _)⟩, .refl _⟩,
      ⟨⟨grows_move _ _, hj⟩, (h.compileMove hj).sameInputs⟩, ih (h.run [.advance j]) hrange⟩

/-- A schedule of compile calls leaves the inputs as they are. -/
theorem Reached.sameInputs (h : w.Reached supply fun _ => code)
    (hrange : (w.runSchedule supply calls).state.store.InRange) :
    w.state.store.SameInputs (w.runSchedule supply calls).state.store := by
  have hrespects : w.Respects ⟨fun s t => s.store.GrowsUnchanged t.store, fun _ _ => True⟩ supply
      (calls.map .advance) := h.respects_growsUnchanged hrange
  exact (hrespects.rely_run MemoryStore.interference_growsUnchanged.trans).2

namespace BeginsAttempt

variable (hbegins : BeginsAttempt supply w code j calls) (h : w.Reached supply fun _ => code)

include hbegins h

/-- An attempt that began after the last change of the inputs goes on to compile what the store
holds. -/
theorem keeps (hrange : (w.runSchedule supply calls).state.store.InRange)
    (hrun : ((w.runSchedule supply calls).programs j).isDone = false) :
    Program.Keeps (MemoryState.backend supply)
      (compileContract MemoryStore.GrowsUnchanged (Compiles code))
      (fun result t => ∀ v, result = .ok v → UpToDate (Compiles code) v t.store)
      ((w.runSchedule supply calls).programs j) (w.runSchedule supply calls).state := by
  obtain ⟨before, attempts, left, ⟨after, rfl⟩, hprogram⟩ := hbegins
  rw [runSchedule_append] at hrange hrun ⊢
  have hR := MemoryStore.interference_growsUnchanged
  refine keeps_run_of_running hR.trans ?_
    ((h.runSchedule before).respects_growsUnchanged hrange) hrun
  rw [hprogram]
  have hkeeps := Service.keeps_compileWithin (P := Compiles code)
    (s := (w.runSchedule supply before).state) supply hR
    (fun hread => ⟨hread.holds hR.growing, hread.compilation hR.growing (·.2)⟩)
    (fun hc => (MemoryStore.SameInputs.addVersion _ _).compiles hc) attempts left
  refine Program.Keeps.imp hkeeps ?_
  rintro result t hresult v rfl
  exact hresult

/-- What such an attempt inserts is what the store compiles to. -/
theorem compileMove (hrange : (w.runSchedule supply (calls ++ [j])).state.store.InRange) :
    CompileMove (Compiles code) (w.runSchedule supply calls).state.store
      (w.runSchedule supply (calls ++ [j])).state.store := by
  rw [runSchedule_concat] at hrange ⊢
  have hcalls := hrange.of_grows (grows_move _ _)
  cases hdone : ((w.runSchedule supply calls).programs j).isDone with
  | true =>
    rw [state_advance, Program.advance_of_isDone hdone]
    exact .nothing
  | false =>
    exact guarantee_advance (hbegins.keeps h hcalls hdone) ⟨⟨.refl _, hcalls⟩, .refl _⟩ hdone

/-- What such an attempt returns is up to date. -/
theorem upToDate (hrange : (w.runSchedule supply (calls ++ [j])).state.store.InRange)
    (hrun : ((w.runSchedule supply calls).programs j).isDone = false) {v : RouteVersion}
    (hdone : (w.runSchedule supply (calls ++ [j])).programs j = .done (.ok v)) :
    UpToDate (Compiles code) v (w.runSchedule supply (calls ++ [j])).state.store := by
  rw [runSchedule_concat] at hrange hdone ⊢
  have hcalls := hrange.of_grows (grows_move _ _)
  have hend := ((hbegins.keeps h hcalls hrun).advance ⟨⟨.refl _, hcalls⟩, .refl _⟩).2
  rw [programs_advance_self] at hdone
  rw [hdone] at hend
  exact hend v rfl

end BeginsAttempt

variable {post : List ι} {v : RouteVersion}

/-- Whoever inserts after `calls` in the course of `post` has begun the attempt since `w`. -/
def InsertsFresh (supply : Supply) (w : World ι (Except RequestError RouteVersion)) (code : String)
    (calls post : List ι) : Prop :=
  ∀ more j, more ++ [j] <+: post →
    (w.runSchedule supply (calls ++ more ++ [j])).state.store.versions ≠
      (w.runSchedule supply (calls ++ more)).state.store.versions →
    BeginsAttempt supply w code j (calls ++ more)

/-- The latest version of a route has the content of `v` all along `post`. -/
def StaysLatest (supply : Supply) (w : World ι (Except RequestError RouteVersion))
    (routingId : String) (v : RouteVersion) (calls post : List ι) : Prop :=
  ∀ more, more <+: post → ∃ u,
    (w.runSchedule supply (calls ++ more)).state.store.latestVersion routingId = some u ∧
      v.SameContent u

/-- If only such attempts insert, nothing is inserted while the latest version is up to date. -/
theorem InsertsFresh.store_eq (hfresh : InsertsFresh supply w code calls post)
    (h : w.Reached supply fun _ => code)
    (hv : UpToDate (Compiles code) v (w.runSchedule supply calls).state.store)
    (hrange : (w.runSchedule supply (calls ++ post)).state.store.InRange) {more : List ι}
    (hmore : more <+: post) :
    (w.runSchedule supply (calls ++ more)).state.store =
      (w.runSchedule supply calls).state.store := by
  induction more using List.reverseRecOn with
  | nil => rw [List.append_nil]
  | append_singleton more j ih =>
    have hbefore := ih ((List.prefix_append ..).trans hmore)
    obtain ⟨rest, rfl⟩ := hmore
    have hj : (w.runSchedule supply (calls ++ more ++ [j])).state.store.InRange := by
      rw [← List.append_assoc, ← List.append_assoc, runSchedule_append] at hrange
      exact hrange.of_grows (grows_runSchedule ..)
    rw [← List.append_assoc, ← hbefore]
    by_cases hsame : (w.runSchedule supply (calls ++ more ++ [j])).state.store.versions =
        (w.runSchedule supply (calls ++ more)).state.store.versions
    · have hmove := h.runSchedule (calls ++ more)
      rw [runSchedule_concat] at hj hsame ⊢
      exact (hmove.compileMove hj).sameInputs.eq_of_versions hsame
    · exact ((hfresh more j (List.prefix_append ..) hsame).compileMove h hj).eq_of_upToDate
        (hbefore ▸ hv)

/-- If the latest version keeps its content, nothing is inserted. -/
theorem StaysLatest.insertsFresh {r : Routing} (hstays : StaysLatest supply w r.id v calls post)
    (h : w.Reached supply fun _ => code)
    (hr : (w.runSchedule supply calls).state.store.findRouting code = some r)
    (hrange : (w.runSchedule supply (calls ++ post)).state.store.InRange) :
    InsertsFresh supply w code calls post := by
  intro more j hmore hchanged
  obtain ⟨u, hu, hvu⟩ := hstays more ((List.prefix_append ..).trans hmore)
  obtain ⟨u', hu', hvu'⟩ := hstays (more ++ [j]) hmore
  obtain ⟨rest, rfl⟩ := hmore
  have hmove := h.runSchedule (calls ++ more)
  rw [← List.append_assoc, ← List.append_assoc, runSchedule_append, runSchedule_concat] at hrange
  rw [← List.append_assoc, runSchedule_concat] at hu'
  rw [runSchedule_concat] at hchanged
  have hj := hrange.of_grows (grows_runSchedule ..)
  refine absurd (hvu.symm.trans hvu') ((hmove.compileMove hj).not_sameContent
    (hj.of_grows (grows_move ..)) hchanged ?_ hu hu')
  rw [runSchedule_append]
  exact (grows_runSchedule ..).findRouting hr

/-- **When the latest version keeps its content.** A compile call that begins when the inputs are
no longer changed returns the version that is the latest at that moment. From then on the latest
version has the same route, steps, status and report exactly if whatever is inserted comes from
attempts that began when the inputs were no longer changed, too. -/
theorem staysLatest_iff (h : w.Reached supply fun _ => code) {i : ι} {attempts : Nat}
    (hbegins : w.programs i = (Service.compile code attempts).run) {mid : List ι}
    (hrun : ((w.runSchedule supply mid).programs i).isDone = false)
    (hreturns : (w.runSchedule supply (mid ++ [i])).programs i = .done (.ok v))
    (hrange : (w.runSchedule supply (mid ++ [i] ++ post)).state.store.InRange) :
    ∃ r, w.state.store.findRouting code = some r ∧
      (w.runSchedule supply (mid ++ [i])).state.store.latestVersion r.id = some v ∧
      (StaysLatest supply w r.id v (mid ++ [i]) post ↔
        InsertsFresh supply w code (mid ++ [i]) post) := by
  have hreturned : (w.runSchedule supply (mid ++ [i])).state.store.InRange := by
    rw [runSchedule_append] at hrange
    exact hrange.of_grows (grows_runSchedule ..)
  have hi : BeginsAttempt supply w code i mid := ⟨[], _, _, List.nil_prefix, hbegins⟩
  have hv := hi.upToDate h hreturned hrun hreturns
  obtain ⟨r, c, hc, hlatest, -⟩ := id hv
  refine ⟨r, (h.sameInputs hreturned).findRouting ▸ hc.1, hlatest, fun hstays => ?_,
    fun hfresh more hmore => ⟨v, ?_, .refl v⟩⟩
  · exact hstays.insertsFresh h hc.1 hrange
  · rw [hfresh.store_eq h hv hrange hmore]
    exact hlatest

end World

/-! ## A stale insertion -/

namespace StaleInsertion

open SingleStep (routing supply)

/-- Call 0 has read its inputs when the override is added, and call 1 has not begun. -/
def world : World (Fin 2) (Except RequestError RouteVersion) :=
  (World.compiling (.start (SingleStep.store none)) (fun _ => "R1") fun _ => 1).run supply
    [.advance 0, .advance 0, .advance 0, .change (.addOverride SingleStep.manual)]

/-- Call 1 has returned. -/
def returned : World (Fin 2) (Except RequestError RouteVersion) :=
  world.runSchedule supply (List.replicate 5 1 ++ [1])

/-- What call 1 has returned. -/
def fresh : RouteVersion :=
  (world.state.store.compilation routing).nextVersion supply world.state "r1"

/-- What call 0 inserts on top of it. -/
def stale : RouteVersion :=
  ((SingleStep.store none).compilation routing).nextVersion supply returned.state "r1"

/-- Call 0 goes on with the inputs that it has read. -/
theorem programs_returned : returned.programs 0 =
    (tryCatch (Service.settleVersion routing ((SingleStep.store none).compilation routing))
      fun error => if error.isVersionConflict then Service.compileWithin "R1" 1 0
        else throw error).run := by
  with_unfolding_all rfl

/-- What call 1 has returned is the latest version. -/
theorem latestVersion_returned : returned.state.store.latestVersion "r1" = some fresh := by
  with_unfolding_all rfl

/-- The version numbers are in range when call 1 has returned. -/
theorem inRange_returned : returned.state.store.InRange := by decide +kernel

/-- The old inputs break a rule, so the version of the new ones is not used again. -/
theorem decision_stale : (((SingleStep.store none).compilation routing).decision
    (returned.state.store.latestVersion routing.id)).reusesPrior = false := by
  rw [show routing.id = "r1" from rfl, latestVersion_returned]
  refine Bool.eq_false_iff.2 fun h => ?_
  have hstatus := (Compilation.reusesPrior_iff.1 h).2.1
  exact absurd hstatus (by decide +kernel)

/-- When call 0 has ended, its version is the latest. -/
theorem store_after : (returned.runSchedule supply (List.replicate 3 0)).state.store =
    returned.state.store.addVersion stale := by
  have hends : (returned.programs 0).EndsWithin 3 := by
    rw [programs_returned]
    exact (Service.endsWithin_settleVersion _ _).tryCatch fun e =>
      Service.endsWithin_ite (Service.endsWithin_throw _) (Service.endsWithin_throw e)
  rw [(World.runSchedule_replicate hends).1, programs_returned,
    Service.run_tryCatch_of_ok
      (Service.settleVersion_run_of_changed supply inRange_returned decision_stale)]
  rfl

/-- The version numbers are in range when call 0 has ended. -/
theorem inRange_after :
    (returned.runSchedule supply (List.replicate 3 0)).state.store.InRange := by
  rw [store_after]
  decide +kernel

/-- When call 0 has ended, the latest version is the stale one. -/
theorem latestVersion_after :
    (returned.runSchedule supply (List.replicate 3 0)).state.store.latestVersion "r1" =
      some stale := by
  rw [store_after]
  exact MemoryStore.latestVersion_addVersion inRange_returned rfl

/-- Call 1 has not ended after five moves. -/
theorem running : ((world.runSchedule supply (List.replicate 5 1)).programs 1).isDone = false := by
  decide +kernel

/-- Call 1 returns with its sixth move. -/
theorem returns : (world.runSchedule supply (List.replicate 5 1 ++ [1])).programs 1 =
    .done (.ok fresh) := by
  with_unfolding_all rfl

/-- The world is one that compile calls have reached. -/
theorem reached : world.Reached supply fun _ => "R1" := ⟨_, _, _, rfl⟩

end StaleInsertion

/-- What a compile call that began after the last change of the inputs has returned need not stay
the latest version: call 0, which read the inputs before the change, inserts after call 1. -/
theorem World.not_staysLatest : ¬∀ (supply : Supply) (code : String)
    (w : World (Fin 2) (Except RequestError RouteVersion)) (i : Fin 2) (attempts : Nat)
    (mid post : List (Fin 2)) (v : RouteVersion) (r : Routing),
    w.Reached supply (fun _ => code) → w.programs i = (Service.compile code attempts).run →
    ((w.runSchedule supply mid).programs i).isDone = false →
    (w.runSchedule supply (mid ++ [i])).programs i = .done (.ok v) →
    (w.runSchedule supply (mid ++ [i] ++ post)).state.store.InRange →
    w.state.store.findRouting code = some r →
    StaysLatest supply w r.id v (mid ++ [i]) post := by
  intro h
  have hstays := h SingleStep.supply "R1" StaleInsertion.world 1 1 (List.replicate 5 1)
    (List.replicate 3 0) StaleInsertion.fresh SingleStep.routing StaleInsertion.reached rfl
    StaleInsertion.running StaleInsertion.returns
    (by rw [runSchedule_append]; exact StaleInsertion.inRange_after) rfl
  obtain ⟨u, hu, hsame⟩ := hstays (List.replicate 3 0) List.prefix_rfl
  rw [runSchedule_append] at hu
  have hstale := StaleInsertion.latestVersion_after.symm.trans hu
  rw [← Option.some.inj hstale] at hsame
  exact absurd hsame.status (by decide +kernel)

/-- Call 0 does not insert afresh, so what call 1 has returned does not stay. -/
theorem World.staysLatest_iff_staleInsertion : ∃ r,
    StaleInsertion.world.state.store.findRouting "R1" = some r ∧
      StaleInsertion.returned.state.store.latestVersion r.id = some StaleInsertion.fresh ∧
      (StaysLatest SingleStep.supply StaleInsertion.world r.id StaleInsertion.fresh
          (List.replicate 5 1 ++ [1]) (List.replicate 3 0) ↔
        InsertsFresh SingleStep.supply StaleInsertion.world "R1"
          (List.replicate 5 1 ++ [1]) (List.replicate 3 0)) :=
  staysLatest_iff StaleInsertion.reached rfl StaleInsertion.running StaleInsertion.returns
    (by rw [runSchedule_append]; exact StaleInsertion.inRange_after)

end RoutePlan
