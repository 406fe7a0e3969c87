import RoutePlan.Proofs.Override.Racing
import RoutePlan.Proofs.Relational.Amending
import RoutePlan.Proofs.Relational.Answers

/-!
# Updates move a row forward in time

On a server, a stamp is drawn when the row has been read, in the same transaction, and it is after
the time of the row. The time of a row that the server can hold, in whole microseconds, comes back
as it was stored. So updates of one row, which the server takes one after the other, are answered
with later and later times (`Server.updateTimes_pairwise`), also if some of them fail and are tried
again. In memory the stamp is after the stamps that the store has given but not always after the
row, and another update may draw later but write first (`updateTimes_advance`).
-/

namespace RoutePlan

/-! ## Stored instants -/

namespace Instant

/-- A stored instant is a number of whole microseconds within its second. -/
theorem stored_nanos (t : Instant) : t.stored.nanos < 1000000000 ∧ t.stored.nanos % 1000 = 0 := by
  simp only [stored, Int.fmod_eq_emod_of_nonneg _ (by decide : (0 : Int) ≤ 1000000)]
  omega

/-- An instant in whole microseconds is stored without loss. -/
theorem stored_total {t : Instant} (h : t.nanos % 1000 = 0) :
    t.stored.seconds * 1000000000 + t.stored.nanos = t.seconds * 1000000000 + t.nanos := by
  have hdvd : (1000 : Int) ∣ (t.seconds - databaseEpoch) * 1000000000 + t.nanos := by omega
  simp only [stored, Int.fmod_eq_emod_of_nonneg _ (by decide : (0 : Int) ≤ 1000000),
    Int.fdiv_eq_ediv_of_nonneg _ (by decide : (0 : Int) ≤ 1000000),
    Int.tdiv_eq_ediv_of_dvd hdvd]
  omega

/-- What is stored is stored again without loss. -/
theorem stored_stored (t : Instant) : t.stored.stored = t.stored := by
  have hnanos := t.stored_nanos
  have hnanos' := t.stored.stored_nanos
  have htotal := stored_total hnanos.2
  generalize t.stored = s at *
  obtain ⟨seconds, nanos⟩ := s
  cases hs : stored ⟨seconds, nanos⟩ with
  | mk seconds' nanos' =>
    simp only [hs, Instant.mk.injEq] at *
    omega

/-- What is later than a stored instant is stored as something later. -/
theorem lt_stored {last t : Instant} (hlast : last.stored = last) (ht : t.nanos % 1000 = 0)
    (h : last < t) : last < t.stored := by
  have hnanos := last.stored_nanos
  rw [hlast] at hnanos
  have htotal := stored_total ht
  have hstored := t.stored_nanos
  rw [lt_def] at h ⊢
  omega

end Instant

namespace Server

/-- A stamp after a stored instant is in whole microseconds. -/
theorem nanos_of_stampAfter {last reading stamp : Instant} (hlast : last.stored = last)
    (h : stampAfter last reading.truncateToMicros = some stamp) : stamp.nanos % 1000 = 0 := by
  have hnanos := last.stored_nanos
  rw [hlast] at hnanos
  unfold stampAfter at h
  split at h
  · obtain rfl := Option.some.inj (Option.filter_eq_some_iff.1 h).1
    have hlength : last.secondLength = 1000000000 := if_neg (by omega)
    rw [Instant.addMicrosecond, hlength]
    split <;> dsimp only <;> omega
  · obtain rfl := Option.some.inj h
    simp only [Instant.truncateToMicros]
    omega

end Server

/-! ## The time of a row -/

namespace OverrideColumns

/-- The row has a time of update that the server can hold. -/
structure Dated (c : OverrideColumns) (t : Instant) : Prop where
  updatedAt : c.updatedAt = some t
  isStored : t.stored = t

variable {patch : OverridePatch} {c c' : OverrideColumns} {last : Instant}

/-- A change gives the row a later time. -/
theorem Amends.dated (h : Amends patch c c') (hc : c.Dated last) : ∃ t, c'.Dated t ∧ last < t := by
  obtain ⟨hload, hread, hstamp⟩ := h
  have htime := Option.some.inj ((columns_of_load hload).2.symm.trans hc.updatedAt)
  rw [← OverrideRow.updatedAt_of_toOverride hread] at htime
  subst htime
  exact ⟨_, ⟨rfl, Instant.stored_stored _⟩, Instant.lt_stored hc.isStored
    (Server.nanos_of_stampAfter hc.isStored hstamp) (Server.lt_of_stampAfter hstamp)⟩

/-- One or more changes give the row a later time. -/
theorem dated_of_transGen (h : Relation.TransGen (Amends patch) c c') (hc : c.Dated last) :
    ∃ t, c'.Dated t ∧ last < t := by
  induction h with
  | single hstep => exact hstep.dated hc
  | tail _ hstep ih =>
    obtain ⟨t, ht, hlt⟩ := ih
    obtain ⟨t', ht', hlt'⟩ := hstep.dated ht
    exact ⟨t', ht', Instant.lt_trans hlt hlt'⟩

/-- Whatever number of changes is made, the row has no earlier time. -/
theorem dated_of_amends (h : Relation.ReflTransGen (Amends patch) c c') (hc : c.Dated last) :
    ∃ t, c'.Dated t ∧ last ≤ t := by
  rcases Relation.reflTransGen_iff_eq_or_transGen.1 h with rfl | h
  · exact ⟨last, hc, Instant.lt_irrefl last⟩
  · obtain ⟨t, ht, hlt⟩ := dated_of_transGen h hc
    exact ⟨t, ht, Instant.le_of_lt hlt⟩

end OverrideColumns

namespace Database

/-- The row with an id, the first one if there are several. -/
def rowOf (id : String) (db : Database) : Option OverrideColumns :=
  db.overrides.find? fun r => r.id == some id

/-- The row between the others is the one that is found by the id. -/
theorem HasBetween.rowOf {before after : List OverrideColumns} {id : String}
    {p : OverrideColumns → Prop} {db : Database} (h : HasBetween before after p db)
    (hbefore : ∀ b ∈ before, b.id ≠ some id) (hp : ∀ c, p c → c.id = some id) :
    ∃ c, p c ∧ db.rowOf id = some c := by
  obtain ⟨c, _, -, hc, hfound⟩ := h.find?_eq hbefore hp
  exact ⟨c, hc, hfound⟩

end Database

namespace Server

open OverrideColumns (Amends)

/-- Whatever becomes of an update, the row is not earlier than before, and if the update answers
with an override, the row and the override are later. -/
theorem updateOverride_dated (supply : Supply) {id : String} (patch : OverridePatch) {t u : Server}
    {c : OverrideColumns} {last : Instant} (ht : t.committed.rowOf id = some c)
    (hc : c.Dated last) {result : (Call.updateOverride id patch).Answer}
    (hanswer : answer supply (.updateOverride id patch) t = (result, u)) :
    ∃ c' time, u.committed.rowOf id = some c' ∧ c'.Dated time ∧ last ≤ time ∧
      ∀ o, result = .ok (some o) → last < time ∧ o.updatedAt = time := by
  obtain ⟨hid, before, after, hrows, hbefore⟩ := List.find?_eq_some_iff_append.1 ht
  have hid : c.id = some id := eq_of_beq hid
  have hbefore : ∀ b ∈ before, b.id ≠ some id := by simpa using hbefore
  have hstart : Database.HasBetween before after (Relation.ReflTransGen (Amends patch) c)
      t.committed := ⟨c, [], by rw [hrows, List.append_nil], .refl⟩
  have hupdate := (ensures_updateOverride supply patch hbefore hid).asStore hstart
  rw [answer] at hanswer
  rw [hanswer] at hupdate
  have hids : ∀ c', Relation.ReflTransGen (Amends patch) c c' → c'.id = some id := fun c' h =>
    (OverrideColumns.id_eq_of_amends h).trans hid
  cases result with
  | error e =>
    have htried : Database.HasBetween before after (Relation.ReflTransGen (Amends patch) c)
        u.committed := hupdate
    obtain ⟨c', hamends, hfound⟩ := htried.rowOf hbefore hids
    obtain ⟨time, htime, hle⟩ := OverrideColumns.dated_of_amends hamends hc
    refine ⟨c', time, hfound, htime, hle, fun o ho => ?_⟩
    cases ho
  | ok o? =>
    have hsaved : Database.HasBetween before after (fun c' =>
        Relation.TransGen (Amends patch) c c' ∧
          ∃ row o, o? = some o ∧ c'.load = .ok row ∧ row.toOverride = .ok o) u.committed := hupdate
    obtain ⟨c', ⟨hamends, row, o, rfl, hload, hread⟩, hfound⟩ := hsaved.rowOf hbefore
      fun c' h => hids c' h.1.to_reflTransGen
    obtain ⟨time, htime, hlt⟩ := OverrideColumns.dated_of_transGen hamends hc
    refine ⟨c', time, hfound, htime, Instant.le_of_lt hlt, fun o' ho' => ⟨hlt, ?_⟩⟩
    obtain rfl := Option.some.inj (Except.ok.inj ho')
    have hrow := (OverrideColumns.columns_of_load hload).2.symm.trans htime.updatedAt
    exact (OverrideRow.updatedAt_of_toOverride hread).trans (Option.some.inj hrow)

/-- The times of the rows that updates of one row are answered with, one update after the other. -/
def updateTimes (supply : Supply) (id : String) : List OverridePatch → Server → List Instant
  | [], _ => []
  | patch :: patches, t =>
    match answer supply (.updateOverride id patch) t with
    | (.ok (some o), u) => o.updatedAt :: updateTimes supply id patches u
    | (_, u) => updateTimes supply id patches u

/-- Updates of one row are answered with later and later times. -/
theorem updateTimes_pairwise (supply : Supply) {id : String} (patches : List OverridePatch)
    {t : Server} {c : OverrideColumns} {last : Instant} (ht : t.committed.rowOf id = some c)
    (hc : c.Dated last) : (last :: updateTimes supply id patches t).Pairwise (· < ·) := by
  induction patches generalizing t c last with
  | nil => exact List.pairwise_singleton ..
  | cons patch patches ih =>
    rw [updateTimes]
    cases hanswer : answer supply (.updateOverride id patch) t with
    | mk result u =>
      obtain ⟨c', time, hfound, htime, hle, hlater⟩ :=
        updateOverride_dated supply patch ht hc hanswer
      have hrest := ih hfound htime
      split
      · next o u' heq =>
        obtain ⟨rfl, rfl⟩ := Prod.mk.inj heq
        obtain ⟨hlt, ho⟩ := hlater o rfl
        rw [ho]
        refine List.pairwise_cons.2 ⟨fun time' hmem => ?_, hrest⟩
        rcases List.mem_cons.1 hmem with rfl | hmem
        · exact hlt
        · exact Instant.lt_trans hlt (List.rel_of_pairwise_cons hrest hmem)
      · next u' heq =>
        obtain ⟨rfl, rfl⟩ := Prod.mk.inj heq
        refine List.pairwise_cons.2 ⟨fun time' hmem => ?_, (List.pairwise_cons.1 hrest).2⟩
        exact Instant.lt_of_le_of_lt hle (List.rel_of_pairwise_cons hrest hmem)

end Server

/-- **Updates move a row forward in time.** In memory, whatever the clock reads and in whatever
order the calls that update a row draw their stamps and write, each of them makes the row later
exactly if the first one does and they write in the order in which they have drawn; and the first
one does if the store has given a stamp that is not before the row, or if the clock is past the row.
A server makes the row later with every update, whatever disturbs it and whatever time the row had.
-/
theorem updateTimes_advance {ι : Type} [DecidableEq ι] (id : String) :
    (∀ (s : MemoryStore) (c : Override) (patch : ι → OverridePatch) (reading : ι → Instant)
      (schedule : List ι), s.findOverride id = some c →
      let w := (Updating.start s).run id patch reading schedule
      ((∀ u ∈ w.updates, u.Advances) ↔ (∀ u ∈ w.updates.head?, u.Advances) ∧
        (w.updates.map (·.call)).Sublist (w.drawn.map Prod.fst)) ∧
      ((∃ last ∈ s.lastStamp, c.updatedAt ≤ last) ∨ (∀ i, c.updatedAt < reading i) →
        ∀ u ∈ w.updates.head?, u.Advances)) ∧
    ∀ (supply : Supply) (patches : List OverridePatch) (t : Server) (c : OverrideColumns)
      (last : Instant), t.committed.rowOf id = some c → c.Dated last →
      (last :: Server.updateTimes supply id patches t).Pairwise (· < ·) := by
  refine ⟨fun s c patch reading schedule hc => ?_, fun supply patches t c last ht hc =>
    Server.updateTimes_pairwise supply patches ht hc⟩
  have hconsistent : Updating.Consistent id reading s c
      ((Updating.start s).run id patch reading schedule) :=
    (Updating.consistent_start hc).run schedule
  exact ⟨hconsistent.advances_iff, hconsistent.head_advances⟩

/-! ## A row from the future -/

namespace FutureRow

/-- The first instant of the year 2190. -/
def time : Instant := ⟨6942585600, 0⟩

/-- A row whose time of update is ahead of the clock. -/
def row : Override := { SingleStep.manual with updatedAt := time }

/-- A store with the row, as it was imported. -/
def store : MemoryStore := { MemoryStore.empty with overrides := [row] }

def patch : OverridePatch := ⟨.keep, .keep, .keep, .set true, .keep, .keep, .keep, .keep⟩

def columns : OverrideColumns := .ofRow (.ofOverride row)

/-- A server with the row. -/
def server : Server :=
  .start { Database.empty with
    overrides := [columns]
    tables := Table.ofStore }

/-- Two calls update the row, which the store has stamped. -/
def race (schedule : List Bool) : Updating Bool :=
  (Updating.start { store with lastStamp := some time }).run "o1" (fun _ => patch)
    (fun _ => ⟨0, 0⟩) schedule

/-- The row has the time that is stored in it. -/
theorem dated_columns : columns.Dated time := ⟨rfl, rfl⟩

end FutureRow

/-- Two calls that write in the order in which they have drawn make a row from the future later, and
so do two updates on a server. -/
theorem updateTimes_advance_futureRow :
    (((FutureRow.race [false, true, false, true]).updates.map (·.call) = [false, true] ∧
      ∀ u ∈ (FutureRow.race [false, true, false, true]).updates, u.Advances) ∧
    Server.updateTimes SingleStep.supply "o1" [FutureRow.patch, FutureRow.patch] FutureRow.server =
      [⟨6942585600, 1000⟩, ⟨6942585600, 2000⟩]) ∧
    (FutureRow.time :: Server.updateTimes SingleStep.supply "o1"
      [FutureRow.patch, FutureRow.patch] FutureRow.server).Pairwise (· < ·) := by
  have hadvance := @updateTimes_advance Bool _ "o1"
  obtain ⟨hiff, hfirst⟩ := hadvance.1 { FutureRow.store with lastStamp := some FutureRow.time }
    FutureRow.row (fun _ => FutureRow.patch) (fun _ => ⟨0, 0⟩) [false, true, false, true] rfl
  refine ⟨⟨⟨by decide +kernel, hiff.2 ⟨?_, by decide +kernel⟩⟩, by decide +kernel⟩, ?_⟩
  · exact hfirst (.inl ⟨_, rfl, Instant.lt_irrefl _⟩)
  · exact hadvance.2 _ _ _ _ _ (by decide +kernel) FutureRow.dated_columns

/-- In memory, an update gives a row from the future an earlier time, and so does a call that draws
its stamp before another one but writes after it. -/
theorem not_updateTimes_advance :
    (∃ o, (FutureRow.store.updateOverride "o1" FutureRow.patch ⟨0, 0⟩).1 = some o ∧
      o.updatedAt < FutureRow.row.updatedAt) ∧
    ∃ u ∈ (FutureRow.race [false, true, true, false]).updates, ∃ old new, u.before = some old ∧
      u.after = some new ∧ new.updatedAt < old.updatedAt :=
  ⟨⟨_, rfl, by decide⟩, _, List.mem_cons_of_mem _ (List.mem_singleton_self _), _, _, rfl, rfl,
    by decide⟩

end RoutePlan
