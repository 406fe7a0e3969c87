import Mathlib.Logic.Relation
import RoutePlan.Proofs.Relational.Ensures
import RoutePlan.Proofs.Relational.Tables

/-!
# The row that an update leaves behind

An update loads a stored row, changes it as an override and stores the result in its place
(`OverrideColumns.Amends`). Whatever disturbs the server, an update that answers with an override
has done this to the first row with the id and to no other row, and has answered with what it has
stored (`Server.updateOverride_amends`). It may have done so more than once: if the connection is
lost when the change is already committed, the update is tried again on the changed row.
-/

namespace RoutePlan

open Relation (ReflTransGen TransGen)

/-- Two steps in turn succeed exactly if the second one does with the value of the first. -/
theorem bind_eq_ok_iff {ε α β : Type} {x : Except ε α} {f : α → Except ε β} {b : β} :
    x >>= f = .ok b ↔ ∃ a, x = .ok a ∧ f a = .ok b := by
  constructor
  · intro h
    cases x with
    | error e => cases h
    | ok a => exact ⟨a, rfl, h⟩
  · rintro ⟨a, rfl, h⟩
    exact h

/-- After a check a step goes on exactly if the check passes. -/
theorem unit_bind_eq_ok_iff {ε β : Type} {x : Except ε Unit} {f : Unit → Except ε β} {b : β} :
    x >>= f = .ok b ↔ x = .ok () ∧ f () = .ok b := by
  rw [bind_eq_ok_iff]
  exact ⟨fun ⟨_, hx, hf⟩ => ⟨hx, hf⟩, fun ⟨hx, hf⟩ => ⟨(), hx, hf⟩⟩

/-- A check passes exactly if its condition is true. -/
theorem requireThat_eq_ok_iff {condition : Bool} {refusal : Refusal} :
    requireThat condition refusal = .ok () ↔ condition = true := by
  cases condition <;> simp [requireThat]

/-- The override of a row has its id. -/
theorem OverrideRow.id_of_toOverride {row : OverrideRow} {o : Override}
    (h : row.toOverride = .ok o) : o.id = row.id := by
  unfold toOverride at h
  split at h
  · cases h
  · cases h
    rfl

/-- The override of a row has its time of update. -/
theorem OverrideRow.updatedAt_of_toOverride {row : OverrideRow} {o : Override}
    (h : row.toOverride = .ok o) : o.updatedAt = row.updatedAt := by
  unfold toOverride at h
  split at h
  · cases h
  · cases h
    rfl

/-- A stamp is after the last one. -/
theorem Server.lt_of_stampAfter {last reading stamp : Instant}
    (h : stampAfter last reading = some stamp) : last < stamp := by
  unfold stampAfter at h
  split at h
  · obtain rfl := Option.some.inj (Option.filter_eq_some_iff.1 h).1
    exact last.lt_addMicrosecond
  · next hlater =>
    obtain rfl := Option.some.inj h
    exact Decidable.not_not.1 hlater

section
variable [Storage]

omit [Storage] in
/-- A column that must be set has the value that is loaded. -/
theorem Column.eq_of_required {α : Type} {column : Option α} {a : α}
    (h : required column = .ok a) : column = some a := by
  cases column with
  | none => cases h
  | some b => rw [Except.ok.inj h]

/-- A column of an instant has the value that is loaded, and it can be loaded. -/
theorem Column.eq_of_instant {name : String} {column : Option Instant} {t : Instant}
    (h : Column.instant name column = .ok t) : column = some t ∧ Storage.loads t := by
  obtain ⟨s, hs, h⟩ := bind_eq_ok_iff.1 h
  split at h
  · next hloads =>
    cases h
    exact ⟨eq_of_required hs, hloads⟩
  · cases h

namespace OverrideColumns

variable {c c' : OverrideColumns} {row : OverrideRow} {patch : OverridePatch}

/-- A row that can be loaded has an id and a time of update. -/
theorem columns_of_load (h : c.load = .ok row) :
    c.id = some row.id ∧ c.updatedAt = some row.updatedAt := by
  obtain ⟨id, hid, h⟩ := bind_eq_ok_iff.1 h
  obtain ⟨scope, -, h⟩ := bind_eq_ok_iff.1 h
  obtain ⟨ingestMapping, -, h⟩ := bind_eq_ok_iff.1 h
  obtain ⟨info, -, h⟩ := bind_eq_ok_iff.1 h
  obtain ⟨createdAt, -, h⟩ := bind_eq_ok_iff.1 h
  obtain ⟨updatedAt, hupdated, h⟩ := bind_eq_ok_iff.1 h
  cases h
  exact ⟨Column.eq_of_required hid, (Column.eq_of_instant hupdated).1⟩

/-- A stored row is loaded and read as an override; the row of the changed override is stored in its
place, under a stamp after its own. -/
inductive Amends (patch : OverridePatch) : OverrideColumns → OverrideColumns → Prop
  | store {c : OverrideColumns} {row : OverrideRow} {o : Override} {reading stamp : Instant}
      (hload : c.load = .ok row) (hread : row.toOverride = .ok o)
      (hstamp : Server.stampAfter o.updatedAt reading.truncateToMicros = some stamp) :
      Amends patch c (.ofRow (Server.patchedRow patch o stamp))

/-- A changed row keeps its id. -/
theorem Amends.id_eq (h : Amends patch c c') : c'.id = c.id := by
  obtain ⟨hload, hread, -⟩ := h
  rw [(columns_of_load hload).1, ← OverrideRow.id_of_toOverride hread]
  rfl

/-- However often it is changed, a row keeps its id. -/
theorem id_eq_of_amends (h : ReflTransGen (Amends patch) c c') : c'.id = c.id := by
  induction h with
  | refl => rfl
  | tail _ hstep ih => exact hstep.id_eq.trans ih

end OverrideColumns

/-! ## A row among other rows -/

namespace Database

/-- Between the rows that stand before and after it there is a row with a property; other writers
may have added rows at the end. -/
def HasBetween (before after : List OverrideColumns) (p : OverrideColumns → Prop)
    (db : Database) : Prop :=
  ∃ c added, db.overrides = before ++ c :: (after ++ added) ∧ p c

variable {before after : List OverrideColumns} {p q : OverrideColumns → Prop} {db db' : Database}

omit [Storage] in
/-- The property of the row between the others may be weakened. -/
theorem HasBetween.imp (h : HasBetween before after p db) (hpq : ∀ c, p c → q c) :
    HasBetween before after q db := by
  obtain ⟨c, added, hrows, hc⟩ := h
  exact ⟨c, added, hrows, hpq c hc⟩

omit [Storage] in
/-- Other writers add rows after it. -/
theorem HasBetween.persists : Persists (HasBetween before after p) := by
  rintro db row ⟨c, added, hrows, hc⟩
  cases row with
  | override r =>
    refine ⟨c, added ++ [r], ?_, hc⟩
    simp only [insertRaw, hrows, List.append_assoc, List.cons_append]
  | _ =>
    refine ⟨c, added, ?_, hc⟩
    simp only [insertRaw, createTable, apply_ite Database.overrides, ite_self, hrows]

omit [Storage] in
/-- The row with an id that no row before it has is found. -/
theorem HasBetween.find?_eq {id : String} (h : HasBetween before after p db)
    (hbefore : ∀ b ∈ before, b.id ≠ some id) (hp : ∀ c, p c → c.id = some id) :
    HasBetween before after (fun c => p c ∧
      db.overrides.find? (fun r => r.id == some id) = some c) db := by
  obtain ⟨c, added, hrows, hc⟩ := h
  refine ⟨c, added, hrows, hc, ?_⟩
  rw [hrows, List.find?_append, List.find?_eq_none.2 (by simpa using hbefore), Option.none_or,
    List.find?_cons_of_pos (by simp [hp c hc])]

/-- The row between the others is the one that a row of its id replaces. -/
theorem HasBetween.replaceOverride {row : OverrideRow} (h : HasBetween before after p db)
    (hbefore : ∀ b ∈ before, b.id ≠ some row.id) (hp : ∀ c, p c → c.id = some row.id)
    (hdb : db.replaceOverride row = .ok db') :
    HasBetween before after (fun c' => ∃ c, p c ∧ c' = .ofRow row) db' := by
  obtain ⟨c, added, hrows, hc⟩ := h
  obtain ⟨_, -, hdb⟩ := bind_eq_ok_iff.1 hdb
  obtain ⟨_, -, hdb⟩ := bind_eq_ok_iff.1 hdb
  obtain ⟨_, -, hdb⟩ := bind_eq_ok_iff.1 hdb
  obtain ⟨_, -, hdb⟩ := bind_eq_ok_iff.1 hdb
  cases hdb
  refine ⟨.ofRow row, added, ?_, c, hc, rfl⟩
  dsimp only
  rw [hrows]
  exact replaceFirst_append (by simpa using hbefore) (by simp [hp c hc])

end Database

/-! ## Updates -/

namespace Server

open OverrideColumns (Amends)
open Database (HasBetween)

omit [Storage] in
/-- If something is found and it can be read, it is the result. -/
theorem exists_of_mapM_some {α β ε : Type} {f : α → Except ε β} {a : α} {result : Option β}
    (h : (some a).mapM f = .ok result) : ∃ b, result = some b ∧ f a = .ok b := by
  rw [Option.mapM_some] at h
  cases hb : f a with
  | error e =>
    rw [hb] at h
    cases h
  | ok b =>
    rw [hb] at h
    cases h
    exact ⟨b, rfl, rfl⟩

variable {α : Type} {p : Database → Prop} {a b : OverrideColumns → Prop}
  {before after : List OverrideColumns}

omit [Storage] in
/-- The property of the row that a transaction sees may be weakened. -/
theorem Within.imp {db : Database} {opened : Option Database}
    (h : Within p (HasBetween before after a) db opened) (hab : ∀ c, a c → b c) :
    Within p (HasBetween before after b) db opened := by
  obtain ⟨hdb, db', hopen, hdb'⟩ := h
  exact ⟨hdb, db', hopen, hdb'.imp hab⟩

section
variable {id : String} (hbefore : ∀ b ∈ before, b.id ≠ some id) (hp : Database.Persists p)

include hbefore hp

/-- The row that is loaded is the one between the others. -/
theorem ensures_loadOverride (ha : ∀ c, a c → c.id = some id) :
    Ensures (Within p (HasBetween before after a)) (loadOverride id)
      (fun found => Within p (HasBetween before after fun c =>
        a c ∧ ∃ row, found = some row ∧ c.load = .ok row)) (Outside p) := by
  have hfound : Ensures (Within p (HasBetween before after a))
      (read (.select .overrides) fun db => do
        requireTexts [id]
        return db.overrides.find? fun r => r.id == some id)
      (fun found => Within p (HasBetween before after fun c => a c ∧ found = some c))
      (Outside p) := by
    refine (ensures_read hp HasBetween.persists).imp (fun _ _ h => h) ?_ fun _ _ h => h
    rintro found db opened ⟨hdb, db', hopen, hbetween, hrun⟩
    obtain ⟨_, -, hrun⟩ := bind_eq_ok_iff.1 hrun
    cases hrun
    refine ⟨hdb, db', hopen, (hbetween.find?_eq hbefore ha).imp ?_⟩
    exact fun c hc => hc
  refine hfound.bind fun found => ?_
  refine (ensures_loading (fun _ _ h => h.1) _).imp (fun _ _ h => h) ?_ fun _ _ h => h
  rintro row? db opened ⟨hload, hwithin⟩
  refine hwithin.imp ?_
  rintro c ⟨hc, rfl⟩
  obtain ⟨row, hrow, hload⟩ := exists_of_mapM_some hload
  exact ⟨hc, row, hrow, hload⟩

/-- The row that is replaced is the one between the others. -/
theorem ensures_replaceOverride {row : OverrideRow} (hrow : row.id = id)
    (ha : ∀ c, a c → c.id = some id) :
    Ensures (Within p (HasBetween before after a))
      (change (.update .overrides) (Database.replaceOverride row))
      (fun _ => Within p (HasBetween before after fun c' => ∃ c, a c ∧ c' = .ofRow row))
      (Outside p) := by
  subst hrow
  refine (ensures_change hp HasBetween.persists).imp (fun _ _ h => h) ?_ fun _ _ h => h
  rintro - db opened ⟨hdb, db', hopen, db'', hbetween, hrun⟩
  exact ⟨hdb, db', hopen, hbetween.replaceOverride hbefore ha hrun⟩

/-- Within a transaction the row is changed once, whatever has become of it so far. -/
theorem ensures_amendOverride (supply : Supply) (patch : OverridePatch)
    (ha : ∀ c, a c → c.id = some id) :
    Ensures (Within p (HasBetween before after a)) (amendOverride supply id patch)
      (fun result => Within p (HasBetween before after fun c' =>
        (∃ c, a c ∧ Amends patch c c') ∧ ∃ row, result = some row ∧ c'.load = .ok row))
      (Outside p) := by
  unfold amendOverride
  refine (ensures_loadOverride hbefore hp ha).bind fun found => ?_
  cases found with
  | none =>
    refine ensures_pure ?_
    rintro db opened ⟨hdb, db', hopen, c, added, hrows, -, row, hrow, -⟩
    cases hrow
  | some found =>
    dsimp only
    refine Ensures.of_fact (found.id = id) ?_ fun hfound => ?_
    · rintro db opened ⟨-, db', -, c, added, -, hc, row, hrow, hload⟩
      obtain rfl := Option.some.inj hrow
      exact Option.some.inj ((OverrideColumns.columns_of_load hload).1.symm.trans (ha c hc))
    refine (ensures_ofExcept (fun _ _ h => h.1) _).bind fun o => Ensures.of_and fun hread => ?_
    refine (ensures_drawStamp (fun _ _ h => h.1) supply _).bind fun stamp => Ensures.of_and ?_
    rintro ⟨reading, hstamp⟩
    have hid : (patchedRow patch o stamp).id = id :=
      (OverrideRow.id_of_toOverride hread).trans hfound
    refine (ensures_replaceOverride hbefore hp hid fun c hc => ha c hc.1).bind fun _ => ?_
    refine (ensures_loading (fun _ _ h => h.1) _).bind fun row => Ensures.of_and fun hrow => ?_
    refine ensures_pure fun db opened h => h.imp ?_
    rintro _ ⟨c, ⟨hc, _, hsome, hload⟩, rfl⟩
    obtain rfl := Option.some.inj hsome
    exact ⟨⟨c, hc, .store hload hread hstamp⟩, row, rfl, hrow⟩

end

/-- Whatever becomes of an update, it has changed the first row with the id, if at all, and no other
row; it may have been changed by tries that have failed. -/
theorem ensures_updateOverride (supply : Supply) {id : String} (patch : OverridePatch)
    {c : OverrideColumns} (hbefore : ∀ b ∈ before, b.id ≠ some id) (hid : c.id = some id) :
    Ensures (Outside (HasBetween before after (ReflTransGen (Amends patch) c)))
      (updateOverride supply id patch)
      (fun o? => Outside (HasBetween before after fun c' => TransGen (Amends patch) c c' ∧
        ∃ row o, o? = some o ∧ c'.load = .ok row ∧ row.toOverride = .ok o))
      (Outside (HasBetween before after (ReflTransGen (Amends patch) c))) := by
  let tried : Database → Prop := HasBetween before after (ReflTransGen (Amends patch) c)
  let saved (row? : Option OverrideRow) : Database → Prop := HasBetween before after fun c' =>
    TransGen (Amends patch) c c' ∧ ∃ row, row? = some row ∧ c'.load = .ok row
  have hids : ∀ c', ReflTransGen (Amends patch) c c' → c'.id = some id := fun c' h =>
    (OverrideColumns.id_eq_of_amends h).trans hid
  have htransaction : Ensures (Within tried tried) (amendOverride supply id patch)
      (fun row? => Within tried (saved row?)) (Outside tried) := by
    refine (ensures_amendOverride hbefore HasBetween.persists supply patch hids).imp
      (fun _ _ h => h) (fun row? _ _ h => h.imp ?_) fun _ _ h => h
    rintro c'' ⟨⟨c', hc, hamends⟩, hrow⟩
    exact ⟨TransGen.tail' hc hamends, hrow⟩
  have hunit : Ensures (Outside tried) (unit (transaction (amendOverride supply id patch)))
      (fun row? => Outside (saved row?)) (Outside tried) :=
    Ensures.unit (ensures_transaction HasBetween.persists htransaction
      (fun _ => HasBetween.persists) fun _ _ h => h.imp fun _ hc => hc.1.to_reflTransGen)
  refine hunit.bind fun row? => ?_
  refine (ensures_ofExcept ?_ _).imp (fun _ _ h => h) ?_ fun _ _ h => h
  · exact fun _ _ h => h.imp fun _ hc => hc.1.to_reflTransGen
  · rintro o? db opened ⟨hresult, hsaved⟩
    refine hsaved.imp ?_
    rintro c' ⟨hamends, row, rfl, hload⟩
    obtain ⟨o, rfl, hread⟩ := exists_of_mapM_some hresult
    exact ⟨hamends, row, o, rfl, hload, hread⟩

/-- An update that answers with an override has changed the first row with the id, once or more
often, and no other row; the override is read from the row that it has stored. -/
theorem updateOverride_amends (supply : Supply) {id : String} (patch : OverridePatch)
    {c : OverrideColumns} (hbefore : ∀ b ∈ before, b.id ≠ some id) (hid : c.id = some id)
    {t u : Server} (ht : t.committed.overrides = before ++ c :: after) {o : Override}
    (hanswer : answer supply (.updateOverride id patch) t = (.ok (some o), u)) :
    ∃ c' row added, u.committed.overrides = before ++ c' :: (after ++ added) ∧
      TransGen (Amends patch) c c' ∧ c'.load = .ok row ∧ row.toOverride = .ok o := by
  have hstart : HasBetween before after (ReflTransGen (Amends patch) c) t.committed :=
    ⟨c, [], by rw [ht, List.append_nil], .refl⟩
  have hupdate := (ensures_updateOverride supply patch hbefore hid).asStore hstart
  rw [answer] at hanswer
  rw [hanswer] at hupdate
  obtain ⟨c', added, hrows, hamends, row, o', ho, hload, hread⟩ := hupdate
  obtain rfl := Option.some.inj ho
  exact ⟨c', row, added, hrows, hamends, hload, hread⟩

end Server

end
end RoutePlan
