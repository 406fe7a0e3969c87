import Mathlib.Data.List.Chain
import Mathlib.Data.List.Sort
import RoutePlan.Proofs.Override.Updates

/-!
# Updates of one row at the same time

An update in memory first draws its stamp and then writes the row (`MemoryStore.updateOverride`),
and other updates may come in between (`Updating.step`). A call that runs alone is one update
(`Updating.run_alone`). The stamps are drawn in ascending order, but the row has the stamp that was
written last (`Updating.Consistent`, which every step keeps). So each call makes the row later
exactly if the first one does and the calls write in the order in which they have drawn
(`Updating.Consistent.advances_iff`). The first one does if the store has given a stamp that is not
before the row, or if the clock is past the row (`Updating.Consistent.head_advances`).
-/

namespace RoutePlan

/-- A call that has returned: the row that it has found, and the row that it was answered. -/
structure RowUpdate (ι : Type) where
  call : ι
  before : Option Override
  after : Option Override

/-- The row is later than before. -/
def RowUpdate.Advances {ι : Type} (u : RowUpdate ι) : Prop :=
  ∀ old ∈ u.before, ∀ new ∈ u.after, old.updatedAt < new.updatedAt

/-- A store while calls update one row: the stamps that they have drawn and the calls that have
returned, in order. -/
structure Updating (ι : Type) where
  store : MemoryStore
  drawn : List (ι × Instant)
  updates : List (RowUpdate ι)

namespace Updating

variable {ι : Type} [DecidableEq ι] (id : String) (patch : ι → OverridePatch)
  (reading : ι → Instant)

/-- No call has begun. -/
def start (s : MemoryStore) : Updating ι := ⟨s, [], []⟩

/-- One call goes on: it draws its stamp, or writes the row and returns, or has returned. -/
def step (w : Updating ι) (i : ι) : Updating ι :=
  match w.drawn.find? fun d => d.1 = i with
  | none =>
    let (stamp, store) := w.store.drawStamp (reading i)
    { w with store, drawn := w.drawn ++ [(i, stamp)] }
  | some (_, stamp) =>
    if w.updates.any fun u => u.call = i then w
    else
      let (after, store) := w.store.writeOverride id (patch i) stamp
      { w with store, updates := w.updates ++ [⟨i, w.store.findOverride id, after⟩] }

/-- The calls go on in the given order. -/
def run (w : Updating ι) (schedule : List ι) : Updating ι :=
  schedule.foldl (step id patch reading) w

/-- A call that runs alone is an update. -/
theorem run_alone (s : MemoryStore) (i : ι) :
    let w := (start s).run id patch reading [i, i]
    w.store = (s.updateOverride id (patch i) (reading i)).2 ∧
      w.updates = [⟨i, s.findOverride id, (s.updateOverride id (patch i) (reading i)).1⟩] := by
  simp [run, step, start, MemoryStore.updateOverride, MemoryStore.drawStamp,
    MemoryStore.findOverride]

end Updating

/-! ## Lists in the same order -/

/-- An item with a new name leaves the names different. -/
theorem nodup_map_concat {α β : Type} {f : α → β} {l : List α} {a : α} (h : (l.map f).Nodup)
    (ha : f a ∉ l.map f) : ((l ++ [a]).map f).Nodup := by
  rw [List.map_append, List.map_singleton, ← List.concat_eq_append]
  exact h.concat ha

/-- Items with different names are known from their names. -/
theorem eq_of_map_eq {α β : Type} {f : α → β} {items l l' : List α}
    (hinj : ∀ x ∈ items, ∀ y ∈ items, f x = f y → x = y) (hl : l ⊆ items) (hl' : l' ⊆ items)
    (h : l.map f = l'.map f) : l = l' := by
  induction l generalizing l' with
  | nil => exact (List.map_eq_nil_iff.1 h.symm).symm
  | cons a l ih =>
    cases l' with
    | nil => cases h
    | cons b l' =>
      obtain ⟨ha, hl⟩ := List.cons_subset.1 hl
      obtain ⟨hb, hl'⟩ := List.cons_subset.1 hl'
      obtain ⟨hab, h⟩ := List.cons.inj h
      rw [hinj a ha b hb hab, ih hl hl' h]

/-- Some of a number of items with different names are in their order exactly if the names are. -/
theorem sublist_map_iff_of_subset {α β : Type} {f : α → β} {l items : List α} (hl : l ⊆ items)
    (hnodup : (items.map f).Nodup) : (l.map f).Sublist (items.map f) ↔ l.Sublist items := by
  refine ⟨fun h => ?_, List.Sublist.map f⟩
  obtain ⟨l', hsublist, hmap⟩ := List.sublist_map_iff.1 h
  rwa [eq_of_map_eq (List.inj_on_of_nodup_map hnodup) hl hsublist.subset hmap]

instance : Trans (LT.lt : Instant → Instant → Prop) (LT.lt : Instant → Instant → Prop)
    (LT.lt : Instant → Instant → Prop) := ⟨Instant.lt_trans⟩

/-- Some of a number of things in ascending order of their times are in ascending order exactly if
they are in the same order. -/
theorem pairwise_lt_iff_sublist {α : Type} {l items : List (α × Instant)} (hl : l ⊆ items)
    (hnodup : l.Nodup) (hitems : items.Pairwise fun a b => a.2 < b.2) :
    (l.Pairwise fun a b => a.2 < b.2) ↔ l.Sublist items := by
  refine ⟨fun h => ?_, fun h => List.Pairwise.sublist h hitems⟩
  have : Std.Antisymm fun a b : α × Instant => a.2 < b.2 :=
    ⟨fun _ _ hab hba => absurd hba (Instant.lt_asymm hab)⟩
  exact List.sublist_of_subperm_of_pairwise (List.subperm_of_subset hnodup hl) h hitems

/-! ## What has become of the row -/

namespace MemoryStore

/-- The stamp for a reading is not before it. -/
theorem le_nextStamp (last : Option Instant) (reading : Instant) :
    reading ≤ nextStamp last reading := by
  cases last with
  | none => exact Instant.lt_irrefl reading
  | some last =>
    rw [nextStamp]
    split
    · next hle => exact Instant.le_trans hle (Instant.le_of_lt (Instant.lt_addMicrosecond last))
    · exact Instant.lt_irrefl reading

/-- The stamp for a reading is after every stamp that was given. -/
theorem lt_nextStamp_of_le {last : Option Instant} {t : Instant} (h : ∃ l ∈ last, t ≤ l)
    (reading : Instant) : t < nextStamp last reading := by
  obtain ⟨l, rfl, hle⟩ := h
  exact Instant.lt_of_le_of_lt hle (lt_nextStamp l reading)

end MemoryStore

namespace Updating

variable {ι : Type} {id : String} {patch : ι → OverridePatch} {reading : ι → Instant}

/-- From one row to another by calls that have written under their stamps, one after the other. -/
inductive History : Override → List (ι × Instant) → List (RowUpdate ι) → Override → Prop
  | refl (c : Override) : History c [] [] c
  | write (i : ι) {c new o : Override} {written : List (ι × Instant)}
      {updates : List (RowUpdate ι)} (h : History new written updates o) :
      History c ((i, new.updatedAt) :: written) (⟨i, some c, some new⟩ :: updates) o

namespace History

variable {c o new : Override} {written : List (ι × Instant)} {updates : List (RowUpdate ι)}

/-- One more update goes on with the row that the one before has left. -/
theorem concat (h : History c written updates o) (i : ι) :
    History c (written ++ [(i, new.updatedAt)]) (updates ++ [⟨i, some o, some new⟩]) new := by
  induction h with
  | refl c => exact .write i (.refl new)
  | write j _ ih => exact .write j ih

/-- The updates are made by the calls that have written. -/
theorem calls (h : History c written updates o) :
    updates.map (·.call) = written.map Prod.fst := by
  induction h with
  | refl => rfl
  | write i _ ih => rw [List.map_cons, List.map_cons, ih]

/-- An update advances exactly if it moves the time of the row forward. -/
theorem advances_write {i : ι} :
    RowUpdate.Advances ⟨i, some c, some new⟩ ↔ c.updatedAt < new.updatedAt :=
  ⟨fun h => h c rfl new rfl, fun h _ hold _ hnew => Option.some.inj hold ▸ Option.some.inj hnew ▸ h⟩

/-- All updates advance exactly if the times of the row do. -/
theorem advances_iff (h : History c written updates o) :
    (∀ u ∈ updates, u.Advances) ↔ (c.updatedAt :: written.map Prod.snd).IsChain (· < ·) := by
  induction h with
  | refl c => simp
  | write i h ih =>
    rw [List.forall_mem_cons, advances_write, ih, List.map_cons, List.isChain_cons_cons]

/-- The first update advances exactly if the first stamp is after the row. -/
theorem head_advances_iff (h : History c written updates o) :
    (∀ u ∈ updates.head?, u.Advances) ↔
      ∀ t ∈ (written.map Prod.snd).head?, c.updatedAt < t := by
  cases h with
  | refl => simp
  | write i h => simp [advances_write]

end History

/-- What holds while calls update a row that a store has held at first. -/
structure Consistent (id : String) (reading : ι → Instant) (s : MemoryStore) (c : Override)
    (w : Updating ι) : Prop where
  /-- The stamps are drawn in ascending order. -/
  increasing : w.drawn.Pairwise fun a b => a.2 < b.2
  le_last : ∀ d ∈ w.drawn, ∃ last ∈ w.store.lastStamp, d.2 ≤ last
  after_first : ∀ last ∈ s.lastStamp, ∀ d ∈ w.drawn, last < d.2
  reads : ∀ d ∈ w.drawn, reading d.1 ≤ d.2
  grows : ∀ first ∈ s.lastStamp, ∃ last ∈ w.store.lastStamp, first ≤ last
  drawnOnce : (w.drawn.map Prod.fst).Nodup
  history : ∃ written o, History c written w.updates o ∧ w.store.findOverride id = some o ∧
    written ⊆ w.drawn ∧ (written.map Prod.fst).Nodup

/-- Before any call has begun, the row is as it was. -/
theorem consistent_start {s : MemoryStore} {c : Override} (hc : s.findOverride id = some c) :
    Consistent id reading s c (start s : Updating ι) where
  increasing := .nil
  le_last := nofun
  after_first := nofun
  reads := nofun
  grows first hfirst := ⟨first, hfirst, Instant.lt_irrefl _⟩
  drawnOnce := .nil
  history := ⟨[], c, .refl c, hc, List.nil_subset _, .nil⟩

section
variable {s : MemoryStore} {c : Override} {w : Updating ι}

namespace Consistent

/-- A call that has not drawn yet draws a stamp after all others. -/
theorem draw (h : Consistent id reading s c w) {i : ι} (hi : i ∉ w.drawn.map Prod.fst) :
    Consistent id reading s c { w with
      store := (w.store.drawStamp (reading i)).2
      drawn := w.drawn ++ [(i, (w.store.drawStamp (reading i)).1)] } where
  increasing := by
    rw [List.pairwise_append]
    refine ⟨h.increasing, List.pairwise_singleton .., fun d hd e he => ?_⟩
    obtain rfl := List.mem_singleton.1 he
    exact MemoryStore.lt_nextStamp_of_le (h.le_last d hd) _
  le_last d hd := by
    refine ⟨_, rfl, ?_⟩
    rcases List.mem_append.1 hd with hd | hd
    · exact Instant.le_of_lt (MemoryStore.lt_nextStamp_of_le (h.le_last d hd) _)
    · obtain rfl := List.mem_singleton.1 hd
      exact Instant.lt_irrefl _
  after_first first hfirst d hd := by
    rcases List.mem_append.1 hd with hd | hd
    · exact h.after_first first hfirst d hd
    · obtain rfl := List.mem_singleton.1 hd
      exact MemoryStore.lt_nextStamp_of_le (h.grows first hfirst) _
  reads d hd := by
    rcases List.mem_append.1 hd with hd | hd
    · exact h.reads d hd
    · obtain rfl := List.mem_singleton.1 hd
      exact MemoryStore.le_nextStamp _ _
  grows first hfirst :=
    ⟨_, rfl, Instant.le_of_lt (MemoryStore.lt_nextStamp_of_le (h.grows first hfirst) _)⟩
  drawnOnce := nodup_map_concat h.drawnOnce hi
  history := by
    obtain ⟨written, o, hhistory, ho, hdrawn, hnodup⟩ := h.history
    exact ⟨written, o, hhistory, ho, List.subset_append_of_subset_left _ hdrawn, hnodup⟩

/-- A call that has drawn writes its change of the row under its stamp. -/
theorem write (h : Consistent id reading s c w) {i : ι} {stamp : Instant}
    (hdrawn : (i, stamp) ∈ w.drawn) (hi : i ∉ w.updates.map (·.call)) :
    Consistent id reading s c { w with
      store := (w.store.writeOverride id (patch i) stamp).2
      updates := w.updates ++ [⟨i, w.store.findOverride id,
        (w.store.writeOverride id (patch i) stamp).1⟩] } := by
  obtain ⟨written, o, hhistory, ho, hsubset, hnodup⟩ := h.history
  obtain ⟨t, hwrite, ht, hlast⟩ := MemoryStore.writeOverride_eq ho (patch i) stamp
  rw [hwrite, ho]
  refine ⟨h.increasing, ?_, h.after_first, h.reads, ?_, h.drawnOnce, _, _, hhistory.concat i, ht,
    ?_, ?_⟩
  · rw [hlast]
    exact h.le_last
  · rw [hlast]
    exact h.grows
  · exact List.append_subset.2 ⟨hsubset, by simpa using hdrawn⟩
  · rw [hhistory.calls] at hi
    exact nodup_map_concat hnodup hi

/-- A step of a call keeps the history consistent. -/
theorem step [DecidableEq ι] (h : Consistent id reading s c w) (i : ι) :
    Consistent id reading s c (w.step id patch reading i) := by
  unfold Updating.step
  split
  · next hnone =>
    refine h.draw fun hi => ?_
    obtain ⟨d, hd, hdi⟩ := List.mem_map.1 hi
    simpa [hdi] using List.find?_eq_none.1 hnone d hd
  · next j stamp hsome =>
    split
    · exact h
    · next hreturned =>
      obtain rfl : j = i := by simpa using List.find?_some hsome
      refine h.write (List.mem_of_find?_eq_some hsome) fun hj => hreturned ?_
      obtain ⟨u, hu, huj⟩ := List.mem_map.1 hj
      exact List.any_eq_true.2 ⟨u, hu, decide_eq_true huj⟩

/-- Any schedule keeps the history consistent. -/
theorem run [DecidableEq ι] (h : Consistent id reading s c w) (schedule : List ι) :
    Consistent id reading s c (w.run id patch reading schedule) := by
  induction schedule generalizing w with
  | nil => exact h
  | cons i schedule ih => exact ih (h.step i)

/-- The row advances all the time exactly if it does at first and the calls write in the order in
which they have drawn. -/
theorem advances_iff (h : Consistent id reading s c w) : (∀ u ∈ w.updates, u.Advances) ↔
    (∀ u ∈ w.updates.head?, u.Advances) ∧
      (w.updates.map (·.call)).Sublist (w.drawn.map Prod.fst) := by
  obtain ⟨written, o, hhistory, -, hdrawn, hnodup⟩ := h.history
  rw [hhistory.advances_iff, hhistory.head_advances_iff, hhistory.calls, List.isChain_cons,
    sublist_map_iff_of_subset hdrawn h.drawnOnce,
    ← pairwise_lt_iff_sublist hdrawn hnodup.of_map h.increasing, List.isChain_iff_pairwise,
    List.pairwise_map]

/-- The row advances at first if the store has given a stamp that is not before it, or if every call
reads a time after it. -/
theorem head_advances (h : Consistent id reading s c w)
    (hc : (∃ last ∈ s.lastStamp, c.updatedAt ≤ last) ∨ ∀ i, c.updatedAt < reading i) :
    ∀ u ∈ w.updates.head?, u.Advances := by
  obtain ⟨written, o, hhistory, -, hdrawn, -⟩ := h.history
  rw [hhistory.head_advances_iff]
  intro t ht
  obtain ⟨d, hd, rfl⟩ := List.mem_map.1 (List.mem_of_mem_head? ht)
  rcases hc with ⟨last, hlast, hle⟩ | hlater
  · exact Instant.lt_of_le_of_lt hle (h.after_first last hlast d (hdrawn hd))
  · exact Instant.lt_of_lt_of_le (hlater d.1) (h.reads d (hdrawn hd))

end Consistent
end

end Updating
end RoutePlan
