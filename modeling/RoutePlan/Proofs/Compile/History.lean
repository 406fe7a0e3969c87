import RoutePlan.Proofs.Compile.Concurrent
import Mathlib.Data.List.Basic
import Mathlib.Data.List.Chain

/-!
# The history of a route

If versions are inserted by compile calls only, the versions of a route are numbered from one on
without a gap, and each differs from the one before it in its signature, its status or its report
(`RouteVersion.History`). A compile move keeps this (`CompileMove.history`): it inserts after the
version that it compared, because that version is still the latest one when it inserts. So every run
that starts without versions keeps it, whatever becomes of the design data meanwhile
(`World.history_run`).
-/

namespace RoutePlan

/-! ## Histories -/

namespace RouteVersion

/-- Both versions have no report, or their reports agree as JSON data. -/
def reportsAgree (v w : RouteVersion) : Bool :=
  match v.report, w.report with
  | none, none => true
  | some before, some report => before.json.agrees report.json
  | _, _ => false

/-- Two versions that are told apart by their stored signature, their status or their report. -/
def Differs (v w : RouteVersion) : Prop :=
  v.snapshot.storedSignature? ≠ w.snapshot.storedSignature? ∨ v.status ≠ w.status ∨
    v.reportsAgree w = false

/-- The versions of one route, in the order of insertion. -/
structure History (vs : List RouteVersion) : Prop where
  /-- They are numbered 1, 2, 3 and so on. -/
  numbered : ∀ k (h : k < vs.length), vs[k].versionNo.toInt = k + 1
  /-- None repeats the one before it. -/
  changing : vs.IsChain Differs

/-- A route without versions has a history. -/
theorem History.nil : History [] := ⟨nofun, .nil⟩

/-- In a history the latest version is the last one. -/
theorem History.latest? {vs : List RouteVersion} (h : History vs) : latest? vs = vs.getLast? := by
  rcases List.eq_nil_or_concat' vs with rfl | ⟨init, w, rfl⟩
  · rfl
  rw [List.getLast?_concat]
  refine latest?_concat_of_lt fun v hv => ?_
  obtain ⟨k, hk, rfl⟩ := List.getElem_of_mem hv
  have hkth := h.numbered k (by simp; omega)
  have hlast := h.numbered init.length (by simp)
  rw [List.getElem_append_left hk] at hkth
  rw [List.getElem_concat_length rfl] at hlast
  rw [Int32.lt_iff_toInt_lt, hkth, hlast]
  omega

/-- The number after the latest one is the number of the versions, plus one. -/
theorem History.toInt_nextVersionNo {vs : List RouteVersion} (h : History vs)
    (hrange : ∀ v ∈ vs, v.versionNo < Int32.maxValue) :
    (nextVersionNo ((RouteVersion.latest? vs).map (·.versionNo))).toInt = vs.length + 1 := by
  rw [h.latest?]
  rcases List.eq_nil_or_concat' vs with rfl | ⟨init, w, rfl⟩
  · rfl
  have hlast := h.numbered init.length (by simp)
  rw [List.getElem_concat_length rfl] at hlast
  rw [List.getLast?_concat, Option.map_some, nextVersionNo, Option.elim_some,
    toInt_add_one (hrange w (by simp)), hlast, List.length_append, List.length_singleton]
  rfl

/-- A history goes on with a version that has the next number and differs from the latest one. -/
theorem History.concat {vs : List RouteVersion} (h : History vs)
    (hrange : ∀ v ∈ vs, v.versionNo < Int32.maxValue) {w : RouteVersion}
    (hno : w.versionNo = nextVersionNo ((RouteVersion.latest? vs).map (·.versionNo)))
    (hdiffers : ∀ v, RouteVersion.latest? vs = some v → v.Differs w) : History (vs ++ [w]) := by
  refine ⟨fun k hk => ?_, h.changing.append (.singleton w) fun v hv u hu => ?_⟩
  · rcases Nat.lt_or_ge k vs.length with hlt | hge
    · rw [List.getElem_append_left hlt]
      exact h.numbered k hlt
    · rw [List.length_append, List.length_singleton] at hk
      have hlast : k = vs.length := by omega
      subst hlast
      rw [List.getElem_concat_length rfl, hno, h.toInt_nextVersionNo hrange]
  · rw [List.head?_cons, Option.mem_some] at hu
    rw [← hu]
    exact hdiffers v (h.latest?.trans hv)

end RouteVersion

/-- A version that is not used again differs from the one that is made instead. -/
theorem Compilation.differs_draft {c : Compilation} {v : RouteVersion}
    (h : (c.decision (some v)).reusesPrior = false) (routingId : String) (prior : Option Int32)
    (t : Instant) (id : String) : v.Differs ((c.draft routingId prior t).row id) := by
  by_cases hsignature : v.snapshot.storedSignature? = some c.core.signature
  · by_cases hstatus : v.status = c.status
    · refine .inr (.inr (Bool.eq_false_iff.2 fun hagree => ?_))
      refine Bool.eq_false_iff.1 h (reusesPrior_iff.2 ⟨hsignature, hstatus, fun report hr => ?_⟩)
      have hreport : ((c.draft routingId prior t).row id).report = some report := hr
      simp only [RouteVersion.reportsAgree, hreport] at hagree
      cases hv : v.report with
      | none => simp [hv] at hagree
      | some before => exact ⟨before, rfl, by simpa [hv] using hagree⟩
    · exact .inr (.inl hstatus)
  · exact .inl fun heq => hsignature (heq.trans (c.core.storedSignature?_stamp _))

/-! ## Moves -/

/-- Every route has a history. -/
def MemoryStore.HasHistory (s : MemoryStore) : Prop :=
  ∀ routingId, RouteVersion.History (s.versionsOf routingId)

/-- Whatever leaves the versions alone keeps the histories. -/
theorem MemoryStore.HasHistory.of_versions_eq {s t : MemoryStore} (h : s.HasHistory)
    (hv : t.versions = s.versions) : t.HasHistory := by
  intro routingId
  rw [versionsOf, hv]
  exact h routingId

/-- A compile move keeps the histories. -/
theorem CompileMove.history {P : MemoryStore → Routing → Compilation → Prop} {s t : MemoryStore}
    (h : CompileMove P s t) (hrange : s.InRange) (hs : s.HasHistory) : t.HasHistory := by
  cases h with
  | nothing => exact hs
  | version r c compiledAt id _ hnew =>
    intro routingId
    rw [MemoryStore.versionsOf_addVersion]
    split
    · next hid =>
      subst hid
      refine (hs _).concat (fun v hv => hrange v (MemoryStore.mem_versionsOf.1 hv).1) ?_
        fun v hv => ?_
      · rw [← MemoryStore.latestVersion]
        rfl
      · rw [← MemoryStore.latestVersion] at hv
        exact c.differs_draft (by rw [← hv]; exact hnew) ..
    · rw [List.append_nil]
      exact hs routingId

/-- Another client inserts a version. -/
def Move.insertsVersion {ι : Type} : Move ι → Bool
  | .call (.insertVersion _ _) => true
  | _ => false

/-- A change of the design leaves the versions alone. -/
theorem DesignChange.versions_apply (d : DesignChange) (s : MemoryStore) :
    (d.apply s).versions = s.versions := by
  cases d with
  | writeOverride id patch stamp => exact s.versions_writeOverride id patch stamp
  | _ => rfl

namespace World

variable {ι : Type} [DecidableEq ι]

/-- **The history invariant.** In a run that starts without versions and in which versions are
inserted by compile calls only, the versions of every route are numbered without a gap and none
repeats the one before it; and every version that was stored at any moment of the run is still
stored as it was, in its place. -/
theorem history_run (supply : Supply) {s : MemoryState} (hs : s.store.versions = [])
    (code : ι → String) (attempts : ι → Nat) {moves : List (Move ι)}
    (hmoves : ∀ m ∈ moves, m.insertsVersion = false)
    (hrange : ((compiling s code attempts).run supply moves).state.store.InRange) :
    ((compiling s code attempts).run supply moves).state.store.HasHistory ∧
      ∀ before after, moves = before ++ after →
        ((compiling s code attempts).run supply before).state.store.versions <+:
          ((compiling s code attempts).run supply moves).state.store.versions := by
  refine ⟨?_, fun before after h => ?_⟩
  · induction moves using List.reverseRecOn with
    | nil =>
      intro routingId
      rw [run_nil, MemoryStore.versionsOf,
        show (compiling s code attempts).state.store.versions = [] from hs]
      exact .nil
    | append_singleton moves m ih =>
      have hbefore := hrange.of_grows (by rw [run_append]; exact grows_run [m] _)
      have ih := ih (fun m hm => hmoves m (List.mem_append_left _ hm)) hbefore
      have hm := hmoves m (by simp)
      rw [run_append] at hrange ⊢
      cases m with
      | advance i =>
        exact (Reached.compileMove ⟨s, attempts, moves, rfl⟩ hrange).history hbefore ih
      | call c =>
        refine ih.of_versions_eq (MemoryState.versions_answer supply _ fun draft expected hc => ?_)
        rw [hc] at hm
        cases hm
      | change d => exact ih.of_versions_eq (d.versions_apply _)
  · obtain ⟨more, hmore, -⟩ := (grows_run after
      ((compiling s code attempts).run supply before)).versions
    rw [h, run_append, hmore]
    exact List.prefix_append ..

/-- Two calls run while an override is added, and one of them has inserted a version. -/
theorem history_run_singleStep :
    ((compiling (.start (SingleStep.store none)) (fun _ : Fin 2 => "R1") fun _ => 1).run
      SingleStep.supply ([.advance 0, .advance 1, .change (.addOverride SingleStep.manual)] ++
        List.replicate 5 (.advance 1) ++ List.replicate 2 (.advance 0))).state.store.HasHistory :=
  (history_run SingleStep.supply rfl _ _ (by simp [Move.insertsVersion]) (by decide +kernel)).1

end World
end RoutePlan
