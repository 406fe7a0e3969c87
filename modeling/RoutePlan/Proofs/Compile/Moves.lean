import RoutePlan.Proofs.Compile.Concurrent

/-!
# The moves of a compile call

Whatever becomes of a compile call, and whatever the version numbers, each of its moves writes
nothing or inserts a version made from what it has read (`Service.keeps_compileWithin_moves`). For a
call that runs alone this is what the route compiles to in the store that the call began with
(`Service.compile_run_created`).
-/

namespace RoutePlan

namespace Service

variable {supply : Supply} {R : MemoryStore → MemoryStore → Prop}
  {P : MemoryStore → Routing → Compilation → Prop} {s : MemoryState}

/-- If the insertion after a version succeeds, that version is still the latest one. -/
theorem keeps_insertVersion_moves (hR : Growing R) {r : Routing} {c : Compilation} {t : Instant}
    {u : MemoryStore} (hu : R u s.store) (hP : ∀ v, R u v → P v r c)
    (hnew : (c.decision (u.latestVersion r.id)).reusesPrior = false) :
    Keeps (MemoryState.backend supply) (compileContract R P) (fun _ _ => True) (fun _ _ => True)
      (call (.insertVersion (c.draft r.id ((u.latestVersion r.id).map (·.versionNo)) t)
        ((u.latestVersion r.id).map (·.versionNo)))) s := by
  refine keeps_call.2 fun w hw => ?_
  have huw := hR.trans hu hw
  simp only [MemoryState.backend, MemoryState.answer]
  split
  · exact ⟨.nothing, trivial⟩
  · next v store h =>
    obtain ⟨hno, -, rfl, rfl⟩ := MemoryStore.insertVersion_eq_ok.1 h
    have hlatest : w.store.latestVersion r.id = u.latestVersion r.id :=
      (hR.grows huw).latestVersion_eq hno
    rw [← hlatest] at hnew ⊢
    exact ⟨.version r c t _ (hP _ huw) hnew, trivial⟩

/-- Settling the version writes nothing or inserts a version made from the compilation. -/
theorem keeps_settleVersion_moves (hR : Growing R) {r : Routing} {c : Compilation}
    (hP : ∀ v, R s.store v → P v r c) :
    Keeps (MemoryState.backend supply) (compileContract R P) (fun _ _ => True) (fun _ _ => True)
      (settleVersion r c) s := by
  refine keeps_settleVersion_cases (fun _ _ _ _ _ => trivial) fun u w t hu hnew hw => ?_
  exact keeps_insertVersion_moves hR hw (fun v hv => hP v (hR.trans hu hv)) hnew

/-- An attempt writes nothing or inserts a version made from what was read. -/
theorem keeps_compileOnce_moves (hR : Growing R) {code : String}
    (hP : ∀ {s t r c}, ReadBetween R code s t r c → P t r c) :
    Keeps (MemoryState.backend supply) (compileContract R P) (fun _ _ => True) (fun _ _ => True)
      (compileOnce code) s := by
  have hself : ∀ s t, R s t → R t t := fun _ _ => hR.self
  rw [compileOnce, keeps_bind]
  refine keeps_loadRouting (fun _ => CompileMove.nothing) (fun t r ht hr => ?_)
    fun _ _ _ => trivial
  rw [keeps_bind]
  refine keeps_readCompilation hself (fun u v w hu hv hw => ?_) fun _ _ _ => trivial
  exact keeps_settleVersion_moves hR fun x hx => hP ⟨_, _, _, _, ht, hu, hv, hw, hx, hr, rfl⟩

/-- Every move of a compile call writes nothing or inserts a version made from what was read. -/
theorem keeps_compileWithin_moves (supply : Supply) (hR : Growing R) {code : String}
    (hP : ∀ {s t r c}, ReadBetween R code s t r c → P t r c) (attempts left : Nat) :
    Keeps (MemoryState.backend supply) (compileContract R P) (fun _ _ => True) (fun _ _ => True)
      (compileWithin code attempts left) s := by
  induction left generalizing s with
  | zero => exact keeps_throw.2 trivial
  | succ left ih =>
    refine keeps_compileWithin_succ.2 ((keeps_compileOnce_moves hR hP).imp (fun _ _ h => h) ?_)
    exact fun e t _ => keeps_ite (fun _ => ih) fun _ => keeps_throw.2 trivial

end Service

/-- The version is made from a compilation. -/
def Compilation.Makes (c : Compilation) (r : Routing) (v : RouteVersion) : Prop :=
  ∃ prior compiledAt id, v = (c.draft r.id prior compiledAt).row id

/-- A move of a compile call only adds versions, each made from a compilation of which `P` is
known. -/
theorem CompileMove.versions {P : MemoryStore → Routing → Compilation → Prop} {s t : MemoryStore}
    (h : CompileMove P s t) : ∃ created, t.versions = s.versions ++ created ∧
      ∀ v ∈ created, ∃ r c, P s r c ∧ c.Makes r v := by
  cases h with
  | nothing => exact ⟨[], (List.append_nil _).symm, nofun⟩
  | version r c compiledAt id hc _ =>
    refine ⟨[_], rfl, fun v hv => ⟨r, c, hc, _, compiledAt, id, List.mem_singleton.1 hv⟩⟩

/-! ## A call that runs alone -/

namespace MemoryStore

/-- Others may let the store grow while its inputs stay as they are. -/
theorem growing_sameInputs : Growing fun s t => s.SameInputs t ∧ s.Grows t where
  trans h h' := ⟨h.1.trans h'.1, h.2.trans h'.2⟩
  self _ := ⟨.refl _, .refl _⟩
  grows h := h.2

end MemoryStore

/-- Some moves of compile calls of one code leave the inputs alone, and all versions they insert are
made from what the route with the code compiles to. -/
theorem CompileMove.created {code : String} {s t : MemoryStore}
    (h : Relation.ReflTransGen (CompileMove (MemoryStore.Compiles code)) s t) :
    s.SameInputs t ∧ ∃ created, t.versions = s.versions ++ created ∧
      ∀ v ∈ created, ∃ r, s.findRouting code = some r ∧ (s.compilation r).Makes r v := by
  induction h with
  | refl => exact ⟨.refl s, [], (List.append_nil _).symm, nofun⟩
  | @tail t u _ hmove ih =>
    obtain ⟨hinputs, created, hversions, hcreated⟩ := ih
    obtain ⟨more, hmore, hmade⟩ := hmove.versions
    refine ⟨hinputs.trans hmove.sameInputs, created ++ more, ?_, fun v hv => ?_⟩
    · rw [hmore, hversions, List.append_assoc]
    · rcases List.mem_append.1 hv with hv | hv
      · exact hcreated v hv
      · obtain ⟨r, c, ⟨hr, hc⟩, hmakes⟩ := hmade v hv
        rw [hinputs.findRouting] at hr
        rw [hinputs.compilation] at hc
        exact ⟨r, hr, hc ▸ hmakes⟩

namespace Service

/-- A compile call that runs alone, whatever its outcome, leaves the inputs alone and adds versions
at most that are made from what the route compiles to. -/
theorem compile_run_created {supply : Supply} {s t : MemoryState} {code : String} {attempts : Nat}
    {outcome : Except RequestError RouteVersion}
    (h : (compile code attempts).run.run (MemoryState.backend supply) s = (outcome, t)) :
    s.store.SameInputs t.store ∧ ∃ created, t.store.versions = s.store.versions ++ created ∧
      ∀ v ∈ created, ∃ r, s.store.findRouting code = some r ∧
        (s.store.compilation r).Makes r v := by
  have hR := MemoryStore.growing_sameInputs
  have hkeeps := keeps_compileWithin_moves (s := s) (P := MemoryStore.Compiles code) supply hR
    (fun hread => ⟨hread.holds hR, hread.compilation hR (·.1)⟩) (max 1 attempts) (max 1 attempts)
  have hmoves := (Program.Keeps.run hkeeps fun s => ⟨.refl s.store, .refl s.store⟩).1
  have hstate : ((compileWithin code (max 1 attempts) (max 1 attempts)).run.run
      (MemoryState.backend supply) s).2 = t := congrArg Prod.snd h
  rw [hstate] at hmoves
  exact CompileMove.created (hmoves.lift MemoryState.store fun _ _ hmove => hmove)

end Service
end RoutePlan
