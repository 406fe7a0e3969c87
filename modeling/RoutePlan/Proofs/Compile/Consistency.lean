import RoutePlan.Proofs.Compile.History
import RoutePlan.Proofs.Compile.Moves
import RoutePlan.Proofs.Version.Report

/-!
# Stored versions agree with themselves

A version says some things more than once: it has a report exactly if it is invalid, and its number
and its time of compilation stand in the row and in the document
(`RouteVersion.SelfConsistent`). All of this is written in one move, from one compilation
(`Compilation.Makes.selfConsistent`), so it agrees in every version of every run in which versions
are inserted by compile calls only, whatever the others do to the design data and the overrides
meanwhile (`World.selfConsistent_run`).
-/

namespace RoutePlan

/-! ## A single version -/

/-- What the version says of the compilation `c` it was made from, and what it says twice, is the
same everywhere. -/
structure RouteVersion.SelfConsistent (v : RouteVersion) (c : Compilation) : Prop where
  /-- There is no report exactly if the version is ready. -/
  report : v.report = none ↔ v.status = .ready
  /-- The report of an invalid version is read back as all violations, in their order. -/
  violations : v.status = .invalid → v.violations = c.violations ∧ c.violations ≠ []
  /-- The document is read back as the compiled core with the number and the time of the row. -/
  snapshot : Snapshot.decode v.snapshot.json = .ok (c.core.stamp ⟨v.versionNo, v.compiledAt⟩)
  ascending : c.core.steps.Pairwise fun a b => a.stepNo ≤ b.stepNo
  signature : v.snapshot.storedSignature? = some c.core.signature

namespace Compilation

variable {c : Compilation} {r : Routing} {v : RouteVersion}

/-- There is no report exactly if the compilation is ready. -/
theorem report?_eq_none : c.report? = none ↔ c.status = .ready := by
  rw [report?, status]
  split <;> simp

/-- A compilation that is invalid has found a violation. -/
theorem violations_ne_nil (h : c.status = .invalid) : c.violations ≠ [] := by
  intro hnil
  rw [status, hnil] at h
  cases h

/-- A version that is made from a compilation agrees with it and with itself. -/
theorem Makes.selfConsistent (h : c.Makes r v)
    (hsteps : c.core.steps.Pairwise fun a b => a.stepNo ≤ b.stepNo)
    (hread : Instant.read? v.compiledAt.text = some v.compiledAt) : v.SelfConsistent c := by
  obtain ⟨prior, compiledAt, id, rfl⟩ := h
  constructor
  case report => exact report?_eq_none
  case violations =>
    intro hinvalid
    exact ⟨RouteVersion.violations_draft c r.id prior compiledAt id, violations_ne_nil hinvalid⟩
  case snapshot => exact Snapshot.reads hread
  case ascending => exact hsteps
  case signature => exact c.core.storedSignature?_stamp _

end Compilation

/-! ## Runs -/

namespace World

variable {ι : Type} [DecidableEq ι] {supply : Supply} {code : ι → String}

/-- The store at some moment of a run is `s`. -/
def Visits {α : Type} (supply : Supply) (w : World ι α) (moves : List (Move ι)) (s : MemoryStore) :
    Prop :=
  ∃ before, before <+: moves ∧ (w.run supply before).state.store = s

/-- `c` is what a route with the code compiles to, where the routing, the steps, the overrides and
the specs were each read at some moment of a run. -/
def Compiled {α : Type} (supply : Supply) (w : World ι α) (moves : List (Move ι)) (code : String)
    (r : Routing) (c : Compilation) : Prop :=
  ∃ s₁ s₂ s₃ s₄, w.Visits supply moves s₁ ∧ w.Visits supply moves s₂ ∧ w.Visits supply moves s₃ ∧
    w.Visits supply moves s₄ ∧ s₁.findRouting code = some r ∧
    c = .ofReads r (s₂.listSteps r.id) (s₃.listOverrides (.forRouting r (s₂.listSteps r.id)))
      s₄.findDataSpecs

section
variable {α : Type} {w : World ι α} {moves more : List (Move ι)} {r : Routing} {c : Compilation}

/-- The moments of a run are moments of every longer run. -/
theorem Visits.mono {s : MemoryStore} (h : w.Visits supply moves s) :
    w.Visits supply (moves ++ more) s := by
  obtain ⟨before, hbefore, hs⟩ := h
  exact ⟨before, hbefore.trans (List.prefix_append ..), hs⟩

/-- What is compiled in a run is compiled in every longer run. -/
theorem Compiled.mono {code : String} (h : w.Compiled supply moves code r c) :
    w.Compiled supply (moves ++ more) code r c := by
  obtain ⟨s₁, s₂, s₃, s₄, h₁, h₂, h₃, h₄, hreads⟩ := h
  exact ⟨s₁, s₂, s₃, s₄, h₁.mono, h₂.mono, h₃.mono, h₄.mono, hreads⟩

/-- The steps that are compiled in a run are in ascending order. -/
theorem Compiled.pairwise_steps {code : String} (h : w.Compiled supply moves code r c) :
    c.core.steps.Pairwise fun a b => a.stepNo ≤ b.stepNo := by
  obtain ⟨_, _, _, _, -, -, -, -, -, rfl⟩ := h
  exact SnapshotCore.pairwise_ofSteps ..

/-- What was read on the way was read at moments of the run. -/
theorem Compiled.of_readBetween {code : String} {s t : MemoryStore}
    (h : ReadBetween (fun s t => s.Grows t ∧ w.Visits supply moves t) code s t r c) :
    w.Compiled supply moves code r c := by
  obtain ⟨s₁, s₂, s₃, s₄, h₁, h₂, h₃, h₄, -, hreads⟩ := h
  exact ⟨s₁, s₂, s₃, s₄, h₁.2, h₂.2, h₃.2, h₄.2, hreads⟩

/-- Others may let the store grow through the moments of a run. -/
theorem growing_visits (supply : Supply) (w : World ι α) (moves : List (Move ι)) :
    Growing fun s t => s.Grows t ∧ w.Visits supply moves t where
  trans h h' := ⟨h.1.trans h'.1, h'.2⟩
  self h := ⟨.refl _, h.2⟩
  grows h := h.1

/-- Every move of a run leads to a moment of it. -/
theorem respects_visits {guarantee : MemoryState → MemoryState → Prop}
    (before after : List (Move ι)) :
    (w.run supply before).Respects
      ⟨fun s t => s.store.Grows t.store ∧ w.Visits supply (before ++ after) t.store, guarantee⟩
      supply after := by
  -- the moments are those of the whole run, while the induction takes it from any of them onwards
  have hself : w.Visits supply (before ++ after) (w.run supply before).state.store :=
    ⟨before, List.prefix_append .., rfl⟩
  induction after generalizing before with
  | nil => exact ⟨.refl _, hself⟩
  | cons m after ih =>
    have hm : (w.run supply before).move supply m = w.run supply (before ++ [m]) := by simp
    have hafter := ih (before ++ [m]) ⟨before ++ [m], List.prefix_append .., rfl⟩
    have hmove : w.Visits supply (before ++ m :: after)
        ((w.run supply before).move supply m).state.store :=
      ⟨before ++ [m], ⟨after, by simp⟩, by rw [hm]⟩
    rw [List.append_assoc, List.singleton_append, ← hm] at hafter
    exact ⟨⟨.refl _, hself⟩, ⟨grows_move _ m, hmove⟩, hafter⟩

end

variable {s : MemoryState} {attempts : ι → Nat}

/-- If versions are inserted by compile calls only, every version is made from what was read in the
course of the run. -/
theorem made_run (supply : Supply) (hs : s.store.versions = []) (code : ι → String)
    (attempts : ι → Nat) {moves : List (Move ι)} (hmoves : ∀ m ∈ moves, m.insertsVersion = false) :
    ∀ v ∈ ((compiling s code attempts).run supply moves).state.store.versions,
      ∃ i r c, (compiling s code attempts).Compiled supply moves (code i) r c ∧ c.Makes r v := by
  induction moves using List.reverseRecOn with
  | nil =>
    intro v hv
    rw [run_nil, show (compiling s code attempts).state.store.versions = [] from hs] at hv
    cases hv
  | append_singleton moves m ih =>
    have ih := ih fun m hm => hmoves m (List.mem_append_left _ hm)
    have hm := hmoves m (by simp)
    have hlater : ∀ v ∈ ((compiling s code attempts).run supply moves).state.store.versions,
        ∃ i r c, (compiling s code attempts).Compiled supply (moves ++ [m]) (code i) r c ∧
          c.Makes r v := by
      intro v hv
      obtain ⟨i, r, c, hc, hmakes⟩ := ih v hv
      exact ⟨i, r, c, hc.mono, hmakes⟩
    intro v hv
    rw [run_append] at hv
    cases m with
    | advance i =>
      -- what the call has read so far was there at moments of the run so far
      have hkeeps := Service.keeps_compileWithin_moves (s := s)
        (P := fun _ r c => (compiling s code attempts).Compiled supply moves (code i) r c) supply
        (growing_visits supply (compiling s code attempts) moves) Compiled.of_readBetween
        (max 1 (attempts i)) (max 1 (attempts i))
      have hmove := compileMove_advance (w := compiling s code attempts)
        (growing_visits supply _ moves) hkeeps (respects_visits [] moves)
      obtain ⟨created, hversions, hcreated⟩ := hmove.versions
      rw [run_cons, run_nil, hversions] at hv
      rcases List.mem_append.1 hv with hv | hv
      · exact hlater v hv
      · obtain ⟨r, c, hc, hmakes⟩ := hcreated v hv
        exact ⟨i, r, c, hc.mono, hmakes⟩
    | call c =>
      have hversions := MemoryState.versions_answer supply (c := c)
        ((compiling s code attempts).run supply moves).state fun draft expected hc => by
          rw [hc] at hm
          cases hm
      exact hlater v (hversions ▸ hv)
    | change d => exact hlater v (d.versions_apply _ ▸ hv)

/-- **Every stored version agrees with itself.** In a run that starts without versions and in which
versions are inserted by compile calls only, every version is consistent with the compilation it was
made from, and this is what some route with the code of a call compiles to. Of the times of
compilation it is assumed that they are read back from their texts. -/
theorem selfConsistent_run (supply : Supply) (hs : s.store.versions = []) (code : ι → String)
    (attempts : ι → Nat) {moves : List (Move ι)} (hmoves : ∀ m ∈ moves, m.insertsVersion = false)
    (hread : ∀ v ∈ ((compiling s code attempts).run supply moves).state.store.versions,
      Instant.read? v.compiledAt.text = some v.compiledAt) :
    ∀ v ∈ ((compiling s code attempts).run supply moves).state.store.versions,
      ∃ i r c, (compiling s code attempts).Compiled supply moves (code i) r c ∧
        v.routingId = r.id ∧ v.SelfConsistent c := by
  intro v hv
  obtain ⟨i, r, c, hc, hmakes⟩ := made_run supply hs code attempts hmoves v hv
  refine ⟨i, r, c, hc, ?_, hmakes.selfConsistent hc.pairwise_steps (hread v hv)⟩
  obtain ⟨_, _, _, rfl⟩ := hmakes
  rfl

/-- A call of a route whose step has no station type. -/
def untypedCall : World (Fin 1) (Except RequestError RouteVersion) :=
  compiling (.start (SingleStep.store none)) (fun _ => "R1") fun _ => 1

/-- The override that sets the station type comes too late for the call. -/
def lateOverride : List (Move (Fin 1)) :=
  List.replicate 3 (.advance 0) ++ .change (.addOverride SingleStep.manual) ::
    List.replicate 4 (.advance 0)

/-- The call inserts an invalid version, which agrees with itself. -/
theorem selfConsistent_run_lateOverride :
    ∃ v ∈ (untypedCall.run SingleStep.supply lateOverride).state.store.versions,
      v.status = .invalid ∧ ∃ r c,
        untypedCall.Compiled SingleStep.supply lateOverride "R1" r c ∧ v.routingId = r.id ∧
        v.SelfConsistent c := by
  have hinvalid : ∃ v ∈ (untypedCall.run SingleStep.supply lateOverride).state.store.versions,
      v.status = .invalid := by decide +kernel
  have hmoves : ∀ m ∈ lateOverride, m.insertsVersion = false := by
    simp [lateOverride, Move.insertsVersion]
  have hread : ∀ v ∈ (untypedCall.run SingleStep.supply lateOverride).state.store.versions,
      Instant.read? v.compiledAt.text = some v.compiledAt := by decide +kernel
  obtain ⟨v, hv, hstatus⟩ := hinvalid
  obtain ⟨_, hconsistent⟩ := selfConsistent_run SingleStep.supply rfl (fun _ : Fin 1 => "R1")
    (fun _ => 1) hmoves hread v hv
  exact ⟨v, hv, hstatus, hconsistent⟩

end World
end RoutePlan
