import RoutePlan.Proofs.Store.Growth
import Mathlib.Data.List.Nodup
import Mathlib.Data.List.Perm.Basic

/-!
# The versions of a store, seen by its queries

A client may insert versions under any numbers, below the latest one or with gaps between them, so
the table is in no order. What holds of it is that no two versions of a routing share a number
(`MemoryStore.Numbered`): an insertion under a number that is taken is refused, whatever number the
client expects to be the latest (`MemoryState.numbered_answer`). From this alone it follows that the
three queries, which search for the last maximum, sort, and search for the first match, show one and
the same list (`MemoryStore.Numbered.versionViews`). It holds after any calls
(`MemoryState.numbered_answerAll`).
-/

namespace RoutePlan

namespace MemoryStore

variable {s t : MemoryStore} {routingId : String} {n : Int32} {v w : RouteVersion}

/-- No two versions of a routing have the same number. -/
def Numbered (s : MemoryStore) : Prop :=
  (s.versions.map fun v => (v.routingId, v.versionNo)).Nodup

/-- A version of the routing is stored under the number. -/
def HoldsNo (s : MemoryStore) (routingId : String) (n : Int32) : Prop :=
  ∃ v ∈ s.versions, v.routingId = routingId ∧ v.versionNo = n

/-- The greatest number that is stored for a routing; `none` stands for no number at all. -/
def GreatestNo (s : MemoryStore) (routingId : String) : Option Int32 → Prop
  | none => ∀ n, ¬s.HoldsNo routingId n
  | some n => s.HoldsNo routingId n ∧ ∀ m, s.HoldsNo routingId m → m ≤ n

/-- The row is stored, and it is the version of the routing with the number. -/
def IsVersion (s : MemoryStore) (routingId : String) (n : Int32) (v : RouteVersion) : Prop :=
  v ∈ s.versions ∧ v.routingId = routingId ∧ v.versionNo = n

/-! ## What the queries search for -/

/-- No version is found exactly if the number is free. -/
theorem findVersion_eq_none_iff : s.findVersion routingId n = none ↔ ¬s.HoldsNo routingId n := by
  rw [findVersion_eq_none]
  exact ⟨fun h ⟨v, hv, hid, hno⟩ => h v hv hid hno, fun h v hv hid hno => h ⟨v, hv, hid, hno⟩⟩

/-- What is found is a version of the routing with the number. -/
theorem isVersion_of_findVersion (h : s.findVersion routingId n = some v) :
    s.IsVersion routingId n v := by
  have hsat := List.find?_some h
  rw [Bool.and_eq_true, beq_iff_eq, beq_iff_eq] at hsat
  exact ⟨List.mem_of_find?_eq_some h, hsat⟩

/-- The number of the latest version is the greatest one. -/
theorem latestVersion_map_versionNo {expected : Option Int32} :
    (s.latestVersion routingId).map (·.versionNo) = expected ↔ s.GreatestNo routingId expected := by
  have hgreatest : s.GreatestNo routingId ((s.latestVersion routingId).map (·.versionNo)) := by
    cases hl : s.latestVersion routingId with
    | none =>
      rintro n ⟨v, hv, hid, -⟩
      have hmem := mem_versionsOf.2 ⟨hv, hid⟩
      rw [RouteVersion.latest?_eq_none.1 hl] at hmem
      cases hmem
    | some v =>
      have ⟨⟨hv, hid⟩, hle⟩ := latestVersion_eq_some hl
      refine ⟨⟨v, hv, hid, rfl⟩, ?_⟩
      rintro m ⟨w, hw, hwid, rfl⟩
      exact hle w hw hwid
  constructor
  · rintro rfl
    exact hgreatest
  · intro h
    cases hn : (s.latestVersion routingId).map (·.versionNo) with
    | none =>
      rw [hn] at hgreatest
      cases expected with
      | none => rfl
      | some m => exact absurd h.1 (hgreatest m)
    | some n =>
      rw [hn] at hgreatest
      cases expected with
      | none => exact absurd hgreatest.1 (h n)
      | some m => rw [Int32.le_antisymm (h.2 n hgreatest.1) (hgreatest.2 m h.1)]

/-- The order of a listing is transitive. -/
private theorem noGreater_trans (a b c : RouteVersion)
    (hab : decide (b.versionNo ≤ a.versionNo) = true)
    (hbc : decide (c.versionNo ≤ b.versionNo) = true) :
    decide (c.versionNo ≤ a.versionNo) = true :=
  decide_eq_true (Int32.le_trans (of_decide_eq_true hbc) (of_decide_eq_true hab))

/-- Of two versions one may be listed before the other. -/
private theorem noGreater_total (a b : RouteVersion) :
    (decide (b.versionNo ≤ a.versionNo) || decide (a.versionNo ≤ b.versionNo)) = true := by
  rw [Bool.or_eq_true, decide_eq_true_iff, decide_eq_true_iff]
  exact Int32.le_total b.versionNo a.versionNo

/-- A listing has the versions of the routing. -/
theorem listVersions_perm (s : MemoryStore) (routingId : String) :
    (s.listVersions routingId).Perm (s.versionsOf routingId) :=
  List.mergeSort_perm _ _

/-- The versions that are listed are those that are stored for the routing. -/
theorem mem_listVersions :
    v ∈ s.listVersions routingId ↔ v ∈ s.versions ∧ v.routingId = routingId :=
  (s.listVersions_perm routingId).mem_iff.trans mem_versionsOf

/-! ## Unique numbers -/

/-- There is one version at most with a number. -/
theorem Numbered.eq (h : s.Numbered) (hv : s.IsVersion routingId n v)
    (hw : s.IsVersion routingId n w) : v = w :=
  List.inj_on_of_nodup_map h hv.1 hw.1
    (Prod.ext (hv.2.1.trans hw.2.1.symm) (hv.2.2.trans hw.2.2.symm))

/-- Whatever leaves the versions alone keeps the numbers unique. -/
theorem Numbered.of_versions_eq (h : s.Numbered) (hv : t.versions = s.versions) : t.Numbered := by
  rw [Numbered, hv]
  exact h

/-- A version with a free number keeps the numbers unique. -/
theorem Numbered.addVersion (h : s.Numbered) (hfree : ¬s.HoldsNo v.routingId v.versionNo) :
    (s.addVersion v).Numbered := by
  rw [Numbered, MemoryStore.addVersion, List.map_append, List.map_singleton]
  refine List.Nodup.append h (List.nodup_singleton _) fun key hkey hnew => hfree ?_
  rw [List.mem_singleton] at hnew
  obtain ⟨w, hw, hkey⟩ := List.mem_map.1 hkey
  rw [hnew, Prod.mk.injEq] at hkey
  exact ⟨w, hw, hkey⟩

/-- No version of a routing is stored twice. -/
theorem Numbered.nodup_versionsOf (h : s.Numbered) (routingId : String) :
    (s.versionsOf routingId).Nodup :=
  h.of_map.filter _

/-- The listing of a routing is in strict order. -/
theorem Numbered.listVersions_descending (h : s.Numbered) (routingId : String) :
    (s.listVersions routingId).Pairwise fun a b => b.versionNo < a.versionNo := by
  have hsorted : (s.listVersions routingId).Pairwise fun a b => b.versionNo ≤ a.versionNo :=
    (List.pairwise_mergeSort noGreater_trans noGreater_total _).imp of_decide_eq_true
  have hnodup : (s.listVersions routingId).Nodup :=
    (s.listVersions_perm routingId).nodup_iff.2 (h.nodup_versionsOf routingId)
  refine (hsorted.and hnodup).imp_of_mem fun ha hb ⟨hle, hne⟩ => ?_
  have ⟨ha, haid⟩ := mem_listVersions.1 ha
  have ⟨hb, hbid⟩ := mem_listVersions.1 hb
  exact Int32.lt_of_le_of_ne hle fun heq => hne (h.eq ⟨ha, haid, heq.symm⟩ ⟨hb, hbid, rfl⟩)

/-! ## One list -/

/-- The queries about the versions of a routing show one list. -/
structure VersionViews (s : MemoryStore) : Prop where
  numbered : s.Numbered
  descending : ∀ routingId, (s.listVersions routingId).Pairwise fun a b => b.versionNo < a.versionNo
  /-- Every version of the routing is listed once, and nothing else is. -/
  once : ∀ routingId v, (s.listVersions routingId).count v =
    if v ∈ s.versions ∧ v.routingId = routingId then 1 else 0
  latest : ∀ routingId, s.latestVersion routingId = (s.listVersions routingId).head?
  found : ∀ routingId n v, s.findVersion routingId n = some v ↔
    v ∈ s.listVersions routingId ∧ v.versionNo = n

/-- The latest version is the first of the listing. -/
theorem Numbered.latestVersion_eq_head? (h : s.Numbered) (routingId : String) :
    s.latestVersion routingId = (s.listVersions routingId).head? := by
  have hmem : ∀ {v}, v ∈ s.listVersions routingId ↔ v ∈ s.versions ∧ v.routingId = routingId :=
    mem_listVersions
  have hdesc := h.listVersions_descending routingId
  cases hlist : s.listVersions routingId with
  | nil =>
    cases hl : s.latestVersion routingId with
    | none => rfl
    | some v =>
      have hv := hmem.2 (latestVersion_eq_some hl).1
      rw [hlist] at hv
      cases hv
  | cons first rest =>
    rw [hlist] at hdesc hmem
    obtain ⟨hfirst, hfirstId⟩ := hmem.1 (List.mem_cons_self ..)
    cases hl : s.latestVersion routingId with
    | none =>
      have hv := mem_versionsOf.2 ⟨hfirst, hfirstId⟩
      rw [RouteVersion.latest?_eq_none.1 hl] at hv
      cases hv
    | some v =>
      -- both are the greatest, so they have the same number and are the same row
      obtain ⟨⟨hv, hvid⟩, hle⟩ := latestVersion_eq_some hl
      have hno : v.versionNo ≤ first.versionNo := by
        rcases List.mem_cons.1 (hmem.2 ⟨hv, hvid⟩) with rfl | hrest
        · exact Int32.le_rfl
        · exact Int32.le_of_lt ((List.pairwise_cons.1 hdesc).1 v hrest)
      rw [h.eq ⟨hv, hvid, Int32.le_antisymm hno (hle first hfirst hfirstId)⟩
        ⟨hfirst, hfirstId, rfl⟩]
      rfl

/-- The version with a number is found by it. -/
theorem Numbered.findVersion_eq_some (h : s.Numbered) :
    s.findVersion routingId n = some v ↔ s.IsVersion routingId n v := by
  refine ⟨isVersion_of_findVersion, fun hv => ?_⟩
  cases hf : s.findVersion routingId n with
  | none => exact absurd ⟨v, hv⟩ (findVersion_eq_none_iff.1 hf)
  | some w => rw [h.eq (isVersion_of_findVersion hf) hv]

/-- Unique numbers are all that the agreement of the queries takes. -/
theorem Numbered.versionViews (h : s.Numbered) : s.VersionViews where
  numbered := h
  descending := h.listVersions_descending
  once routingId v := by
    rw [(s.listVersions_perm routingId).count_eq, (h.nodup_versionsOf routingId).count]
    exact if_congr mem_versionsOf rfl rfl
  latest := h.latestVersion_eq_head?
  found routingId n v := by
    rw [h.findVersion_eq_some, mem_listVersions, IsVersion, and_assoc]

/-- A version that was found is found again, as it was. -/
theorem Grows.findVersion (h : s.Grows t) (hv : s.findVersion routingId n = some v) :
    t.findVersion routingId n = some v := by
  obtain ⟨more, ht, -⟩ := h.versions
  unfold MemoryStore.findVersion at hv ⊢
  rw [ht, List.find?_append, hv, Option.some_or]

/-- The condition of an insertion: the client knows the greatest number, and the new one is free. -/
def Accepts (s : MemoryStore) (draft : VersionDraft) (expected : Option Int32) : Prop :=
  s.GreatestNo draft.routingId expected ∧ ¬s.HoldsNo draft.routingId draft.versionNo

/-- A version that is accepted is added. -/
theorem insertVersion_of_accepts {draft : VersionDraft} {expected : Option Int32}
    (h : s.Accepts draft expected) (id : String) :
    s.insertVersion draft expected id = .ok (draft.row id, s.addVersion (draft.row id)) :=
  insertVersion_eq_ok.2
    ⟨latestVersion_map_versionNo.2 h.1, findVersion_eq_none_iff.2 h.2, rfl, rfl⟩

/-- A version that is not accepted is refused as a conflict. -/
theorem insertVersion_of_not_accepts {draft : VersionDraft} {expected : Option Int32}
    (h : ¬s.Accepts draft expected) (id : String) :
    s.insertVersion draft expected id =
      .error (.versionConflict draft.routingId draft.versionNo) := by
  refine insertVersion_eq_error.2 ⟨rfl, ?_⟩
  rw [Ne, Ne, latestVersion_map_versionNo, findVersion_eq_none_iff]
  exact not_and_or.1 h

end MemoryStore

namespace MemoryState

variable {supply : Supply} {s t : MemoryState}

/-- The state after some calls, each of them answered or refused. -/
def answerAll (supply : Supply) (s : MemoryState) (calls : List Call) : MemoryState :=
  calls.foldl (fun s c => (answer supply c s).2) s

/-- One call keeps the numbers unique. -/
theorem numbered_answer (supply : Supply) (c : Call) (h : s.store.Numbered) :
    (answer supply c s).2.store.Numbered := by
  by_cases hc : ∃ draft expected, c = .insertVersion draft expected
  · obtain ⟨draft, expected, rfl⟩ := hc
    by_cases haccepts : s.store.Accepts draft expected
    · simp only [answer, MemoryStore.insertVersion_of_accepts haccepts]
      exact h.addVersion haccepts.2
    · simp only [answer, MemoryStore.insertVersion_of_not_accepts haccepts]
      exact h
  · exact h.of_versions_eq
      (versions_answer supply s fun draft expected hc' => hc ⟨draft, expected, hc'⟩)

/-- Any calls keep them unique. -/
theorem numbered_answerAll (supply : Supply) (calls : List Call) (h : s.store.Numbered) :
    (s.answerAll supply calls).store.Numbered := by
  induction calls generalizing s with
  | nil => exact h
  | cons c calls ih => exact ih (numbered_answer supply c h)

/-- Any calls let the store grow. -/
theorem grows_answerAll (supply : Supply) (s : MemoryState) (calls : List Call) :
    s.store.Grows (s.answerAll supply calls).store := by
  induction calls generalizing s with
  | nil => exact .refl _
  | cons c calls ih => exact (grows_answer supply c s).trans (ih _)

/-- What becomes of an insertion. -/
structure SettlesInsertion (supply : Supply) (s : MemoryState) (draft : VersionDraft)
    (expected : Option Int32) : Prop where
  accepted : (∃ v, (answer supply (.insertVersion draft expected) s).1 = .ok v) ↔
    s.store.Accepts draft expected
  added : ∀ v, (answer supply (.insertVersion draft expected) s).1 = .ok v →
    v = draft.row (supply.versionId s.versionIds) ∧
      (answer supply (.insertVersion draft expected) s).2.store = s.store.addVersion v
  refused : ∀ e, (answer supply (.insertVersion draft expected) s).1 = .error e →
    e = .versionConflict draft.routingId draft.versionNo ∧
      (answer supply (.insertVersion draft expected) s).2 = s

/-- An insertion adds the version if it is accepted, and otherwise it is refused and adds
nothing. -/
theorem settlesInsertion (supply : Supply) (s : MemoryState) (draft : VersionDraft)
    (expected : Option Int32) : s.SettlesInsertion supply draft expected := by
  by_cases h : s.store.Accepts draft expected
  · have hrun : answer supply (.insertVersion draft expected) s =
        (.ok (draft.row (supply.versionId s.versionIds)),
          ⟨s.store.addVersion (draft.row (supply.versionId s.versionIds)), s.readings,
            s.overrideIds, s.versionIds + 1⟩) := by
      simp only [answer, MemoryStore.insertVersion_of_accepts h]
    refine ⟨iff_of_true ⟨_, by rw [hrun]⟩ h, fun v hv => ?_, fun e he => ?_⟩
    · rw [hrun, Except.ok.injEq] at hv
      rw [hrun, ← hv]
      exact ⟨rfl, rfl⟩
    · rw [hrun] at he
      cases he
  · have hrun : answer supply (.insertVersion draft expected) s =
        (.error (.versionConflict draft.routingId draft.versionNo), s) := by
      simp only [answer, MemoryStore.insertVersion_of_not_accepts h]
    refine ⟨iff_of_false (fun hok => ?_) h, fun v hv => ?_, fun e he => ?_⟩
    · obtain ⟨v, hv⟩ := hok
      rw [hrun] at hv
      cases hv
    · rw [hrun] at hv
      cases hv
    · rw [hrun, Except.error.injEq] at he
      rw [hrun]
      exact ⟨he.symm, rfl⟩

/-- **The queries about versions agree after any calls.** Take a store that started without
versions, and any calls since, with insertions of any numbers in any order among them. The numbers
of a routing are unique, and its listing, its latest version and the search by number show one and
the same list. The next insertion succeeds exactly if it expects the greatest number and its own is
free; a refused one changes nothing. And a version that is found is found as it is ever after. -/
theorem versionViews_answerAll (supply : Supply) (hs : s.store.versions = []) {calls : List Call}
    (ht : s.answerAll supply calls = t) :
    t.store.VersionViews ∧
      (∀ draft expected, t.SettlesInsertion supply draft expected) ∧
      ∀ routingId n v, t.store.findVersion routingId n = some v →
        ∀ more, (t.answerAll supply more).store.findVersion routingId n = some v := by
  subst ht
  have hnew : s.store.Numbered := by
    rw [MemoryStore.Numbered, hs]
    exact .nil
  refine ⟨(numbered_answerAll supply calls hnew).versionViews, settlesInsertion supply _, ?_⟩
  intro routingId n v hv more
  exact (grows_answerAll supply _ more).findVersion hv

/-- The version 3 of a route is inserted after its version 5, and a second version 3 is refused. -/
theorem versionViews_answerAll_smallerNumber :
    let supply : Supply := ⟨fun _ => ⟨0, 0⟩, fun _ => "o", fun _ => "v"⟩
    let draft (n : Int32) : VersionDraft := ⟨"r", n, .ready, .null, none, ⟨0, 0⟩⟩
    let t := (start .empty).answerAll supply
      [.insertVersion (draft 5) none, .insertVersion (draft 3) (some 5),
        .insertVersion (draft 3) (some 5)]
    t.store.versions.map (·.versionNo) = [5, 3] ∧ t.store.VersionViews :=
  ⟨by decide, (versionViews_answerAll _ rfl rfl).1⟩

end MemoryState
end RoutePlan
