import RoutePlan.Proofs.Relational.Answers
import RoutePlan.Proofs.Relational.Renaming
import RoutePlan.Proofs.Service.Effect

/-!
# A store and a server that mirror each other

A store in memory and a database server take their clock readings and ids from supplies of their
own, which correspond under a renaming (`Supply.Corresponds`). While the store is in order
(`MemoryState.Regular`), a server that holds its renamed rows answers a call that writes with the
renamed row, and holds the renamed rows of the changed store.
-/

namespace RoutePlan

/-! ## Clocks -/

namespace Instant

/-- No instant is before its whole microseconds. -/
theorem truncateToMicros_le (t : Instant) : t.truncateToMicros ≤ t := by
  simp only [le_def, lt_def, truncateToMicros]
  omega

/-- What is a microsecond later is later by its whole microseconds. -/
theorem lt_truncateToMicros {t u : Instant} (h : t.addMicrosecond ≤ u) :
    t < u.truncateToMicros := by
  unfold addMicrosecond at h
  simp only [le_def, lt_def, truncateToMicros] at *
  split at h <;> simp only at h <;> omega

end Instant

namespace Supply

/-- The clock goes on by a microsecond at least from one reading to the next. -/
def Advances (supply : Supply) : Prop :=
  ∀ n, (supply.reading n).addMicrosecond ≤ supply.reading (n + 1)

variable {supply : Supply}

/-- The time is a reading, or its whole microseconds. -/
def Reads (supply : Supply) (n : Nat) (t : Instant) : Prop :=
  t = supply.reading n ∨ t = (supply.reading n).truncateToMicros

/-- A time of a reading lies between its whole microseconds and the reading. -/
theorem Reads.bounds {n : Nat} {t : Instant} (h : supply.Reads n t) :
    (supply.reading n).truncateToMicros ≤ t ∧ t ≤ supply.reading n := by
  rcases h with rfl | rfl
  · exact ⟨Instant.truncateToMicros_le _, Instant.lt_irrefl _⟩
  · exact ⟨Instant.lt_irrefl _, Instant.truncateToMicros_le _⟩

namespace Advances

variable (h : supply.Advances)

include h

/-- A reading is past before the next one, also if that is cut off. -/
theorem lt_next (n : Nat) : supply.reading n < (supply.reading (n + 1)).truncateToMicros :=
  Instant.lt_truncateToMicros (h n)

/-- Readings that are cut off are in order. -/
theorem truncated_lt_next (n : Nat) :
    (supply.reading n).truncateToMicros < (supply.reading (n + 1)).truncateToMicros :=
  Instant.lt_of_le_of_lt (Instant.truncateToMicros_le _) (h.lt_next n)

/-- An earlier reading is past before a later one, also if that is cut off. -/
theorem lt_of_lt {m n : Nat} (hmn : m < n) :
    supply.reading m < (supply.reading n).truncateToMicros := by
  induction n with
  | zero => exact absurd hmn m.not_lt_zero
  | succ n ih =>
    rcases Nat.lt_succ_iff_lt_or_eq.1 hmn with hlt | rfl
    · exact Instant.lt_trans (ih hlt) (h.truncated_lt_next n)
    · exact h.lt_next m

/-- A time is of one reading only. -/
theorem reads_unique {m n : Nat} {t : Instant} (hm : supply.Reads m t) (hn : supply.Reads n t) :
    m = n := by
  have hlater : ∀ {i j}, supply.Reads i t → supply.Reads j t → ¬i < j := fun hi hj hij =>
    hj.bounds.1 (Instant.lt_of_le_of_lt hi.bounds.2 (h.lt_of_lt hij))
  exact Nat.le_antisymm (Nat.le_of_not_lt (hlater hn hm)) (Nat.le_of_not_lt (hlater hm hn))

end Advances

/-- The ids of each supply are all different, and the second one gives those of the first one under
another name. -/
structure RenamesIds (σ π : Supply) (id : String → String) : Prop where
  id_injective : id.Injective
  overrideId_injective : σ.overrideId.Injective
  versionId_injective : σ.versionId.Injective
  overrideId : ∀ n, π.overrideId n = id (σ.overrideId n)
  versionId : ∀ n, π.versionId n = id (σ.versionId n)

/-- The second supply gives the renamed ids of the first one, and its clock is read in whole
microseconds where the first one is read, cut off or not. Both clocks advance. -/
structure Corresponds (σ π : Supply) (ρ : Renaming) : Prop extends σ.RenamesIds π ρ.id where
  advances : σ.Advances
  advances_renamed : π.Advances
  time : ∀ {n t}, σ.Reads n t → ρ.time t = (π.reading n).truncateToMicros

open Classical in
/-- What becomes of the times of one clock under another one: the n-th reading becomes the n-th
one, in whole microseconds. -/
noncomputable def matchTime (σ π : Supply) (t : Instant) : Instant :=
  if h : ∃ n, σ.Reads n t then (π.reading h.choose).truncateToMicros else t

/-- If the ids correspond and both clocks advance, the supplies do under the renaming that matches
their readings. -/
theorem RenamesIds.corresponds {σ π : Supply} {id : String → String} (h : σ.RenamesIds π id)
    (hσ : σ.Advances) (hπ : π.Advances) : σ.Corresponds π ⟨id, matchTime σ π⟩ where
  toRenamesIds := h
  advances := hσ
  advances_renamed := hπ
  time := fun {n t} ht => by
    have hread : ∃ n, σ.Reads n t := ⟨n, ht⟩
    rw [← hσ.reads_unique hread.choose_spec ht]
    exact dif_pos hread

end Supply

/-! ## Stores in order -/

/-- The next one of a sequence without repetitions is not among those before. -/
theorem next_notMem {α : Type} {f : Nat → α} (hf : f.Injective) {n : Nat} {given : List α}
    (hgiven : given = (List.range n).map f) : f n ∉ given := by
  rw [hgiven]
  intro hmem
  obtain ⟨m, hm, heq⟩ := List.mem_map.1 hmem
  rw [hf heq, List.mem_range] at hm
  exact Nat.lt_irrefl _ hm

/-- What holds of a store that has served requests one after another since it held no more than
design data; `times` are the times that it has given. -/
structure MemoryState.Regular (σ π : Supply) (ρ : Renaming) (times : List Instant)
    (s : MemoryState) : Prop where
  stepNos : ∀ routingId, ((s.store.listSteps routingId).map (·.stepNo)).Nodup
  ordered : ρ.OrdersTimes times
  past : ∀ u ∈ times, u < (σ.reading s.readings).truncateToMicros ∧
    ρ.time u < (π.reading s.readings).truncateToMicros
  lastStamp : ∀ last, s.store.lastStamp = some last → last ∈ times
  stamped : s.store.WellStamped
  overrideTimes : ∀ o ∈ s.store.overrides, o.times ⊆ times
  versionTimes : ∀ v ∈ s.store.versions, v.times ⊆ times
  overrideIds : s.store.overrides.map (·.id) = (List.range s.overrideIds).map σ.overrideId
  versionIds : s.store.versions.map (·.id) = (List.range s.versionIds).map σ.versionId
  numbered : s.store.Numbered
  positive : ∀ v ∈ s.store.versions, 1 ≤ v.versionNo

namespace MemoryState.Regular

variable {σ π : Supply} {ρ : Renaming} {times : List Instant} {s : MemoryState}
  (h : s.Regular σ π ρ times)

include h

/-- The renaming keeps the order of the overrides. -/
theorem keepsOrder : ρ.KeepsOrder s.store.overrides :=
  h.ordered.keepsOrder (fun o ho => h.overrideTimes o ho (by simp [Override.times]))
    h.stamped.distinct

/-- The next reading of the clock is the next stamp. -/
theorem nextStamp_eq : MemoryStore.nextStamp s.store.lastStamp (σ.reading s.readings) =
    σ.reading s.readings := by
  cases hlast : s.store.lastStamp with
  | none => rfl
  | some last =>
    have hlt : last < σ.reading s.readings :=
      Instant.lt_of_lt_of_le (h.past last (h.lastStamp last hlast)).1
        (Instant.truncateToMicros_le _)
    exact if_neg fun hle => hle hlt

/-- The number after that of the latest version is positive. -/
theorem one_le_nextVersionNo (hrange : s.store.InRange) (routingId : String) :
    1 ≤ nextVersionNo ((s.store.latestVersion routingId).map (·.versionNo)) := by
  have hone : (1 : Int32).toInt = 1 := rfl
  rw [Int32.le_iff_toInt_le, hone, MemoryStore.toInt_nextVersionNo hrange routingId]
  cases hlatest : s.store.latestVersion routingId with
  | none => decide
  | some v =>
    have hpositive := h.positive v (MemoryStore.latestVersion_eq_some hlatest).1.1
    rw [Int32.le_iff_toInt_le, hone] at hpositive
    simp only [Option.elim_some]
    omega

variable (hσ : σ.Corresponds π ρ)

include hσ

/-- The overrides have different ids after the renaming. -/
theorem nodup_renamedIds : ((s.store.rename ρ).overrides.map (·.id)).Nodup := by
  have hids : (s.store.rename ρ).overrides.map (·.id) =
      ((List.range s.overrideIds).map σ.overrideId).map ρ.id := by
    rw [← h.overrideIds, MemoryStore.rename, List.map_map, List.map_map]
    rfl
  rw [hids]
  exact (List.nodup_range.map hσ.overrideId_injective).map hσ.id_injective

/-- The next id is new, also after the renaming. -/
theorem overrideId_fresh :
    ∀ o ∈ (s.store.rename ρ).overrides, o.id ≠ π.overrideId s.overrideIds := by
  intro o' ho' heq
  obtain ⟨o, ho, rfl⟩ := List.mem_map.1 ho'
  rw [hσ.overrideId] at heq
  refine next_notMem hσ.overrideId_injective h.overrideIds ?_
  rw [← hσ.id_injective heq]
  exact List.mem_map_of_mem ho

/-- The next id of a version is new, also after the renaming. -/
theorem versionId_fresh : ∀ v ∈ (s.store.rename ρ).versions, v.id ≠ π.versionId s.versionIds := by
  intro v' hv' heq
  obtain ⟨v, hv, rfl⟩ := List.mem_map.1 hv'
  rw [hσ.versionId] at heq
  refine next_notMem hσ.versionId_injective h.versionIds ?_
  rw [← hσ.id_injective heq]
  exact List.mem_map_of_mem hv

/-- The clock is read, and its reading is one more time that is given, cut off or not. -/
theorem tick {t : Instant} (ht : σ.Reads s.readings t) :
    MemoryState.Regular σ π ρ (times ++ [t]) { s with readings := s.readings + 1 } where
  stepNos := h.stepNos
  ordered := h.ordered.concat fun u hu => by
    rw [hσ.time ht]
    exact ⟨Instant.lt_of_lt_of_le (h.past u hu).1 ht.bounds.1, (h.past u hu).2⟩
  past u hu := by
    have hnext := hσ.advances_renamed.truncated_lt_next s.readings
    rcases List.mem_append.1 hu with hu | hu
    · exact ⟨Instant.lt_trans (h.past u hu).1 (hσ.advances.truncated_lt_next _),
        Instant.lt_trans (h.past u hu).2 hnext⟩
    · rw [List.mem_singleton.1 hu, hσ.time ht]
      exact ⟨Instant.lt_of_le_of_lt ht.bounds.2 (hσ.advances.lt_next _), hnext⟩
  lastStamp last hlast := List.mem_append_left _ (h.lastStamp last hlast)
  stamped := h.stamped
  overrideTimes o ho u hu := List.mem_append_left _ (h.overrideTimes o ho hu)
  versionTimes v hv u hu := List.mem_append_left _ (h.versionTimes v hv hu)
  overrideIds := h.overrideIds
  versionIds := h.versionIds
  numbered := h.numbered
  positive := h.positive

variable [storage : Storage] (ideal : storage.Ideal) {t : Server}

include ideal

/-- A new override is mirrored by its renamed row. -/
theorem insertOverride (ht : t.Represents (s.rename ρ)) (draft : OverrideDraft) : ∃ o s',
    answer σ (.insertOverride draft) s = (.ok o, s') ∧
      Server.Replies π t (.insertOverride draft) (o.rename ρ) (s'.rename ρ) ∧
      s'.Regular σ π ρ (times ++ [σ.reading s.readings]) ∧
      o.times ⊆ times ++ [σ.reading s.readings] := by
  let o := draft.row (σ.overrideId s.overrideIds) (σ.reading s.readings)
  let s' : MemoryState := { s with
    store := { s.store.addOverride o with lastStamp := some (σ.reading s.readings) }
    readings := s.readings + 1
    overrideIds := s.overrideIds + 1 }
  have hanswer : answer σ (.insertOverride draft) s = (.ok o, s') := by
    simp only [answer, MemoryStore.insertOverride, MemoryStore.drawStamp, h.nextStamp_eq]
    rfl
  have htimes : o.times ⊆ times ++ [σ.reading s.readings] := fun u hu =>
    List.mem_append_right _ (by simpa [o, Override.times, OverrideDraft.row] using hu)
  refine ⟨o, s', hanswer, ?_, ?_, htimes⟩
  · have hrow : o.rename ρ = draft.row (π.overrideId s.overrideIds)
        (π.reading s.readings).truncateToMicros := by
      rw [hσ.overrideId, ← hσ.time (.inl rfl)]
      rfl
    refine (Server.replies_insertOverride ideal ht draft (h.overrideId_fresh hσ) hrow).congr ?_
    simp only [rename, MemoryStore.rename, MemoryStore.addOverride, s', List.map_append,
      List.map_singleton]
  · have hstamped := wellStamped_answer σ (.insertOverride draft) h.stamped
    rw [hanswer] at hstamped
    have htick := h.tick hσ (.inl rfl)
    exact {
      htick with
      lastStamp := fun last hlast => by
        rw [← Option.some.inj hlast]
        exact List.mem_append_right _ (List.mem_singleton_self _)
      stamped := hstamped
      overrideTimes := fun c hc => by
        rcases List.mem_append.1 hc with hc | hc
        · exact htick.overrideTimes c hc
        · exact List.mem_singleton.1 hc ▸ htimes
      overrideIds := by
        simp only [s', MemoryStore.addOverride, List.map_append, h.overrideIds, List.range_succ]
        rfl }

/-- The change of an override that is there is mirrored by that of its renamed row. -/
theorem updateOverride (ht : t.Represents (s.rename ρ)) {id : String} {old : Override}
    (hfound : s.store.findOverride id = some old) (patch : OverridePatch) : ∃ o s',
    answer σ (.updateOverride id patch) s = (.ok (some o), s') ∧
      Server.Replies π t (.updateOverride (ρ.id id) patch) (some (o.rename ρ)) (s'.rename ρ) ∧
      s'.Regular σ π ρ (times ++ [σ.reading s.readings]) ∧
      o.times ⊆ times ++ [σ.reading s.readings] := by
  obtain ⟨before, after, o, hrows, ho, hupdate⟩ :=
    MemoryStore.updateOverride_of_found hfound patch (σ.reading s.readings)
  rw [h.nextStamp_eq] at ho
  let s' : MemoryState := { s with
    store := { s.store with
      overrides := before ++ o :: after
      lastStamp := some o.updatedAt }
    readings := s.readings + 1 }
  have hanswer : answer σ (.updateOverride id patch) s = (.ok (some o), s') := by
    simp only [answer, hupdate]
    rfl
  have hold : old ∈ s.store.overrides := by simp [hrows]
  have hid : old.id = id := by simpa using List.find?_some hfound
  have hsame : o.id = old.id ∧ o.createdAt = old.createdAt := by
    rw [ho]
    exact ⟨rfl, rfl⟩
  have hstamp : o.updatedAt = σ.reading s.readings := by rw [ho]
  have htick := h.tick hσ (.inl rfl)
  have htimes : o.times ⊆ times ++ [σ.reading s.readings] := by
    intro u hu
    rw [Override.times, hsame.2, hstamp, List.mem_cons, List.mem_singleton] at hu
    rcases hu with rfl | rfl
    · exact htick.overrideTimes old hold (List.mem_cons_self ..)
    · exact List.mem_append_right _ (List.mem_singleton_self _)
  refine ⟨o, s', hanswer, ?_, ?_, htimes⟩
  · have hrow : o.rename ρ = { patch.apply (old.rename ρ) with
        updatedAt := (π.reading s.readings).truncateToMicros } := by
      rw [ho, ← hσ.time (.inl rfl)]
      rfl
    have hrenamed : (s.store.rename ρ).overrides =
        before.map (·.rename ρ) ++ old.rename ρ :: after.map (·.rename ρ) := by
      rw [MemoryStore.rename, hrows, List.map_append, List.map_cons]
    have hlater : (old.rename ρ).updatedAt < (π.reading s.readings).truncateToMicros :=
      (h.past _ (h.overrideTimes old hold (by simp [Override.times]))).2
    have hreply := Server.replies_updateOverride ideal ht patch hrenamed (h.nodup_renamedIds hσ)
      hlater hrow
    rw [show (old.rename ρ).id = ρ.id id from congrArg ρ.id hid] at hreply
    refine hreply.congr ?_
    simp only [rename, MemoryStore.rename, s', List.map_append, List.map_cons]
  · have hstamped := wellStamped_answer σ (.updateOverride id patch) h.stamped
    rw [hanswer] at hstamped
    exact {
      htick with
      lastStamp := fun last hlast => by
        rw [← Option.some.inj hlast, hstamp]
        exact List.mem_append_right _ (List.mem_singleton_self _)
      stamped := hstamped
      overrideTimes := fun c hc => by
        have hc' : c = o ∨ c ∈ s.store.overrides := by
          rw [hrows]
          simp only [s', List.mem_append, List.mem_cons] at hc ⊢
          tauto
        rcases hc' with rfl | hc'
        · exact htimes
        · exact htick.overrideTimes c hc'
      overrideIds := by
        have hids := h.overrideIds
        rw [hrows] at hids
        simpa only [s', List.map_append, List.map_cons, hsame.1] using hids }

/-- The version that a compilation makes at a time that has been given is mirrored by its renamed
row. -/
theorem insertVersion (hrange : s.store.InRange) {r : Routing} (hr : r ∈ s.store.routings)
    (ht : t.Represents (s.rename ρ)) (c : Compilation) {u : Instant} (hu : u ∈ times) :
    let prior := (s.store.latestVersion r.id).map (·.versionNo)
    ∃ v s', answer σ (.insertVersion (c.draft r.id prior u) prior) s = (.ok v, s') ∧
      Server.Replies π t (.insertVersion (c.draft r.id prior (ρ.time u)) prior) (v.rename ρ)
        (s'.rename ρ) ∧
      s'.Regular σ π ρ times ∧ v.times ⊆ times := by
  intro prior
  let v := (c.draft r.id prior u).row (σ.versionId s.versionIds)
  let s' : MemoryState := { s with
    store := s.store.addVersion v
    versionIds := s.versionIds + 1 }
  have hfree : s.store.findVersion r.id (nextVersionNo prior) = none :=
    MemoryStore.findVersion_nextVersionNo hrange r.id
  have hinsert : s.store.insertVersion (c.draft r.id prior u) prior (σ.versionId s.versionIds) =
      .ok (v, s.store.addVersion v) :=
    MemoryStore.insertVersion_eq_ok.2 ⟨rfl, hfree, rfl, rfl⟩
  have hanswer : answer σ (.insertVersion (c.draft r.id prior u) prior) s = (.ok v, s') := by
    simp only [answer, hinsert]
    rfl
  have hunheld := MemoryStore.findVersion_eq_none_iff.1 hfree
  have htimes : v.times ⊆ times := List.cons_subset.2 ⟨hu, List.nil_subset _⟩
  refine ⟨v, s', hanswer, ?_, ?_, htimes⟩
  · have hrow : v.rename ρ =
        (c.draft r.id prior (ρ.time u)).row (π.versionId s.versionIds) := by
      rw [Compilation.rename_draft, hσ.versionId]
    have hexpected : ((s.store.rename ρ).listVersions r.id).head?.map (·.versionNo) = prior := by
      rw [MemoryStore.listVersions_rename, List.head?_map, Option.map_map,
        ← h.numbered.latestVersion_eq_head?]
      rfl
    have hfresh : ∀ w ∈ (s.store.rename ρ).versions, w.id ≠ (v.rename ρ).id := by
      rw [show (v.rename ρ).id = π.versionId s.versionIds from (hσ.versionId _).symm]
      exact h.versionId_fresh hσ
    refine (Server.replies_insertVersion ideal ht _ hrow hexpected
      (h.one_le_nextVersionNo hrange r.id) hfresh (mt MemoryStore.holdsNo_rename.1 hunheld)
      ⟨r, hr, rfl⟩).congr ?_
    simp only [rename, MemoryStore.rename, MemoryStore.addVersion, s', List.map_append,
      List.map_singleton]
  · exact {
      h with
      stamped := ⟨h.stamped.le_last, h.stamped.distinct⟩
      versionTimes := fun w hw => by
        rcases List.mem_append.1 hw with hw | hw
        · exact h.versionTimes w hw
        · exact List.mem_singleton.1 hw ▸ htimes
      versionIds := by
        simp only [s', MemoryStore.addVersion, List.map_append, h.versionIds, List.range_succ]
        rfl
      numbered := h.numbered.addVersion hunheld
      positive := fun w hw => by
        rcases List.mem_append.1 hw with hw | hw
        · exact h.positive w hw
        · rw [List.mem_singleton.1 hw]
          exact h.one_le_nextVersionNo hrange r.id }

end MemoryState.Regular
end RoutePlan
