import RoutePlan.Proofs.Override.Precedence
import RoutePlan.Proofs.Store.Growth

/-!
# The stamps of overrides

A store in memory stamps each override that it writes, and whatever the clock reads, the stamp is
after the last one (`MemoryStore.lt_nextStamp`). If the overrides were written in no other way, no
two of them have the same stamp and none has a stamp after the last one (`MemoryStore.WellStamped`).
Every call keeps this invariant (`MemoryState.wellStamped_answer`), and under it a row that was just
written is later than all others (`MemoryStore.Wrote.lt`).
-/

namespace RoutePlan
namespace MemoryStore

variable {s t : MemoryStore} {o c : Override}

/-! ## Writing a row -/

/-- A stamp is after the last one, whatever the clock reads. -/
theorem lt_nextStamp (last reading : Instant) : last < nextStamp (some last) reading := by
  rw [nextStamp]
  split
  · exact Instant.lt_addMicrosecond last
  · next h => exact Decidable.not_not.1 h

/-- The first element that passes the test is replaced, the others stay where they are. -/
theorem updateFirst_eq_some {α : Type} {p : α → Bool} {f : α → α} {items items' : List α} {b : α}
    (h : updateFirst p f items = some (b, items')) : ∃ before a after,
      items = before ++ a :: after ∧ items' = before ++ b :: after ∧ b = f a ∧
        items.find? p = some a := by
  induction items generalizing items' with
  | nil => cases h
  | cons a rest ih =>
    rw [updateFirst] at h
    split at h
    · next hp =>
      obtain ⟨rfl, rfl⟩ := Prod.mk.inj (Option.some.inj h)
      exact ⟨[], a, rest, rfl, rfl, rfl, List.find?_cons_of_pos hp⟩
    · next hp =>
      obtain ⟨⟨b', rest'⟩, hrest, heq⟩ := Option.map_eq_some_iff.1 h
      obtain ⟨rfl, rfl⟩ := Prod.mk.inj heq
      obtain ⟨before, old, after, hitems, rfl, hb, hold⟩ := ih hrest
      refine ⟨a :: before, old, after, congrArg (a :: ·) hitems, rfl, hb, ?_⟩
      rw [List.find?_cons_of_neg hp, hold]

/-- No element is replaced exactly if there is none to replace. -/
theorem updateFirst_eq_none {α : Type} {p : α → Bool} {f : α → α} {items : List α} :
    updateFirst p f items = none ↔ items.find? p = none := by
  induction items with
  | nil => exact ⟨fun _ => rfl, fun _ => rfl⟩
  | cons a rest ih =>
    rw [updateFirst, List.find?_cons]
    cases p a with
    | true => exact ⟨nofun, nofun⟩
    | false =>
      rw [if_neg Bool.false_ne_true, Option.map_eq_none_iff]
      exact ih

/-- The override was written: at the end of the table or in place of one with the same target, under
a stamp after the last one. Nothing else has changed. -/
structure Wrote (s t : MemoryStore) (o : Override) : Prop where
  rows : ∃ before after, ∃ replaced : Option Override,
    s.overrides = before ++ (replaced.toList ++ after) ∧ t.overrides = before ++ o :: after ∧
      ∀ old, replaced = some old → o.SameTarget old
  stamp : ∀ last, s.lastStamp = some last → last < o.updatedAt
  rest : t = { s with overrides := t.overrides, lastStamp := some o.updatedAt }

/-- An insertion has written the row that it returns. -/
theorem wrote_insertOverride {draft : OverrideDraft} {id : String} {reading : Instant}
    (h : s.insertOverride draft id reading = (o, t)) : s.Wrote t o := by
  simp only [insertOverride, drawStamp] at h
  obtain ⟨rfl, rfl⟩ := Prod.mk.inj h
  refine ⟨⟨s.overrides, [], none, ?_, rfl, fun old hold => ?_⟩, fun last hlast => ?_, rfl⟩
  · rw [Option.toList_none, List.nil_append, List.append_nil]
  · cases hold
  · have hstamp := lt_nextStamp last reading
    rwa [← hlast] at hstamp

/-- A change that finds its row has written the row that it returns. -/
theorem wrote_updateOverride {id : String} {patch : OverridePatch} {reading : Instant}
    (h : s.updateOverride id patch reading = (some o, t)) : s.Wrote t o := by
  simp only [updateOverride, drawStamp, writeOverride] at h
  split at h
  · cases h
  · next written overrides hupdate =>
    obtain ⟨ho, rfl⟩ := Prod.mk.inj h
    obtain rfl := Option.some.inj ho
    obtain ⟨before, old, after, hs, ht, rfl, -⟩ := updateFirst_eq_some hupdate
    refine ⟨⟨before, after, some old, hs, ht, fun old' hold' => ?_⟩, fun last hlast => ?_, rfl⟩
    · obtain rfl := Option.some.inj hold'
      exact ⟨rfl, rfl, rfl, rfl⟩
    · have hstamp := lt_nextStamp last reading
      rwa [← hlast] at hstamp

/-- A change that finds no row draws a stamp all the same. -/
theorem updateOverride_eq_none {id : String} {patch : OverridePatch} {reading : Instant}
    (h : s.updateOverride id patch reading = (none, t)) : t = (s.drawStamp reading).2 := by
  simp only [updateOverride, writeOverride] at h
  split at h
  · exact (Prod.mk.inj h).2.symm
  · cases h

namespace Wrote

/-- The row that was written is stored. -/
theorem mem (h : s.Wrote t o) : o ∈ t.overrides := by
  obtain ⟨before, after, _, -, ht, -⟩ := h.rows
  rw [ht]
  exact List.mem_append_right _ (List.mem_cons_self ..)

/-- The other rows were there before, in the same order. -/
theorem sublist (h : s.Wrote t o) : ∃ before after, t.overrides = before ++ o :: after ∧
    (before ++ after).Sublist s.overrides := by
  obtain ⟨before, after, _, hs, ht, -⟩ := h.rows
  refine ⟨before, after, ht, ?_⟩
  rw [hs]
  exact (List.Sublist.refl before).append (List.sublist_append_right ..)

/-- Every other row was there before. -/
theorem mem_or_eq (h : s.Wrote t o) (hc : c ∈ t.overrides) : c = o ∨ c ∈ s.overrides := by
  obtain ⟨before, after, ht, hsub⟩ := h.sublist
  rw [ht, List.mem_append, List.mem_cons] at hc
  rcases hc with hc | rfl | hc
  · exact .inr (hsub.subset (List.mem_append_left _ hc))
  · exact .inl rfl
  · exact .inr (hsub.subset (List.mem_append_right _ hc))

/-- The rows for other targets are the same as before. -/
theorem filter_eq (h : s.Wrote t o) {p : Override → Prop} [DecidablePred p]
    (htarget : ∀ a b : Override, a.SameTarget b → (p a ↔ p b)) (ho : ¬p o) :
    t.overrides.filter (fun c => p c) = s.overrides.filter fun c => p c := by
  obtain ⟨before, after, replaced, hs, ht, hsame⟩ := h.rows
  have hreplaced : replaced.toList.filter (fun c => p c) = [] := by
    refine List.filter_eq_nil_iff.2 fun old hold => ?_
    have := htarget o old (hsame old (Option.mem_toList.1 hold))
    simpa using mt this.2 ho
  rw [hs, ht, List.filter_append, List.filter_append, List.filter_append, hreplaced,
    List.filter_cons_of_neg (by simpa using ho), List.nil_append]

end Wrote

/-! ## The invariant -/

/-- The overrides have different stamps, none after the last stamp that was given. -/
structure WellStamped (s : MemoryStore) : Prop where
  le_last : ∀ o ∈ s.overrides, ∃ last, s.lastStamp = some last ∧ o.updatedAt ≤ last
  distinct : s.overrides.Pairwise fun a b => a.updatedAt ≠ b.updatedAt

/-- Without overrides the stamps are in order. -/
theorem wellStamped_of_eq_nil (h : s.overrides = []) : s.WellStamped := by
  constructor <;> simp [h]

/-- A row that was just written is later than the rows that were there before. -/
theorem Wrote.lt (h : s.Wrote t o) (hs : s.WellStamped) (hc : c ∈ s.overrides) :
    c.updatedAt < o.updatedAt := by
  obtain ⟨last, hlast, hle⟩ := hs.le_last c hc
  exact Instant.lt_of_le_of_lt hle (h.stamp last hlast)

namespace WellStamped

/-- Rows whose stamps are in order are ranked. -/
theorem ranked (h : s.WellStamped) : Override.Ranked s.overrides := by
  refine h.distinct.imp fun {a b} hne => ?_
  rcases Instant.lt_or_eq_or_gt a.updatedAt b.updatedAt with hlt | heq | hgt
  · exact .inl (.inl hlt)
  · exact absurd heq hne
  · exact .inr (.inl hgt)

/-- A row that is written under a new stamp keeps the stamps in order. -/
theorem wrote (h : s.WellStamped) (hw : s.Wrote t o) : t.WellStamped where
  le_last c hc := by
    refine ⟨o.updatedAt, by rw [hw.rest], ?_⟩
    rcases hw.mem_or_eq hc with rfl | hc
    · exact Instant.lt_irrefl _
    · exact Instant.le_of_lt (hw.lt h hc)
  distinct := by
    obtain ⟨before, after, ht, hsub⟩ := hw.sublist
    have hne : ∀ c ∈ before ++ after, c.updatedAt ≠ o.updatedAt := fun c hc heq =>
      Instant.lt_irrefl _ (heq ▸ hw.lt h (hsub.subset hc))
    have hothers := h.distinct.sublist hsub
    rw [List.pairwise_append] at hothers
    rw [ht, List.pairwise_append, List.pairwise_cons]
    refine ⟨hothers.1, ⟨fun c hc => ?_, hothers.2.1⟩, fun a ha c hc => ?_⟩
    · exact (hne c (List.mem_append_right _ hc)).symm
    · rcases List.mem_cons.1 hc with rfl | hc
      · exact hne a (List.mem_append_left _ ha)
      · exact hothers.2.2 a ha c hc

/-- A stamp that is drawn but not written keeps the stamps in order. -/
theorem drawStamp (h : s.WellStamped) (reading : Instant) :
    (s.drawStamp reading).2.WellStamped where
  le_last o ho := by
    obtain ⟨last, hlast, hle⟩ := h.le_last o ho
    refine ⟨_, rfl, Instant.le_of_lt (Instant.lt_of_le_of_lt hle ?_)⟩
    rw [hlast]
    exact lt_nextStamp last reading
  distinct := h.distinct

end WellStamped
end MemoryStore

/-- Whatever is called, the invariant is kept. -/
theorem MemoryState.wellStamped_answer (supply : Supply) (c : Call) {s : MemoryState}
    (h : s.store.WellStamped) : (answer supply c s).2.store.WellStamped := by
  cases c with
  | insertOverride draft => exact h.wrote (MemoryStore.wrote_insertOverride rfl)
  | updateOverride id patch =>
    simp only [answer]
    cases hupdate : s.store.updateOverride id patch (supply.reading s.readings) with
    | mk found store =>
      cases found with
      | none =>
        rw [MemoryStore.updateOverride_eq_none hupdate]
        exact h.drawStamp _
      | some o => exact h.wrote (MemoryStore.wrote_updateOverride hupdate)
  | insertVersion draft expected =>
    simp only [answer]
    split
    · exact h
    · next hinsert =>
      rw [(MemoryStore.insertVersion_eq_ok.1 hinsert).2.2.2]
      exact ⟨h.le_last, h.distinct⟩
  | _ => exact h

end RoutePlan
