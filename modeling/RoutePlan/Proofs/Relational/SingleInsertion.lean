import RoutePlan.Proofs.Relational.Amending
import RoutePlan.Proofs.Relational.Tries

/-!
# An insertion adds one row at most

While a call runs, the data grow by what it has written and by rows of other writers
(`Server.Grown`). A connection that is lost leaves open whether the row is there, and the insertion
of an override is tried again all the same: if the row is there, its key is taken from then on, and
no try adds another one (`Server.tryInsert_cases`). A version is inserted in one transaction, which
is not tried again (`Server.InsertsVersion`).
-/

namespace RoutePlan

def RawRow.override? : RawRow → Option OverrideColumns
  | override row => some row
  | _ => none

namespace Database

variable {db : Database}

/-- A table that is there is not created again. -/
theorem createTable_of_mem {table : Table} (h : table ∈ db.tables) : db.createTable table = db :=
  if_pos h

/-- A row that is brought in stands at the end of its table. -/
theorem overrides_insertRaw (db : Database) (row : RawRow) :
    (db.insertRaw row).overrides = db.overrides ++ row.override?.toList := by
  cases row <;> simp [insertRaw, RawRow.override?, createTable, apply_ite Database.overrides]

/-- Rows that are brought in stand at the end of their table. -/
theorem overrides_insertRawRows (db : Database) (rows : List RawRow) :
    (db.insertRawRows rows).overrides = db.overrides ++ rows.filterMap RawRow.override? := by
  induction rows generalizing db with
  | nil => simp
  | cons row rows ih =>
    rw [insertRawRows, List.foldl_cons, ← insertRawRows, ih, overrides_insertRaw, List.append_assoc]
    cases hrow : row.override? <;> simp [hrow]

end Database

namespace Server

variable {t s u : Server} {written : List RawRow} {db : Database}

/-! ## Data that grow -/

/-- The data are those of `t` with rows added: those in `written`, and those that other writers had
to commit and, as `s` has it, have no longer to commit. -/
def Grown (t : Server) (written : List RawRow) (s : Server) (db : Database) : Prop :=
  ∃ rows others, db = t.committed.insertRawRows rows ∧ rows.Perm (written ++ others) ∧
    (others ++ s.pending).Perm t.pending

/-- Before the call the data have not grown. -/
theorem Grown.start : Grown t [] t t.committed := ⟨[], [], rfl, .refl _, .refl _⟩

/-- Other writers commit rows. -/
theorem Grown.insertRawRows {rows : List RawRow} (h : Grown t written s db)
    (hpending : (rows ++ u.pending).Perm s.pending) :
    Grown t written u (db.insertRawRows rows) := by
  obtain ⟨before, others, rfl, hbefore, hothers⟩ := h
  refine ⟨before ++ rows, others ++ rows, (Database.insertRawRows_append ..).symm, ?_, ?_⟩
  · rw [← List.append_assoc]
    exact hbefore.append_right rows
  · rw [List.append_assoc]
    exact (hpending.append_left others).trans hothers

/-- The call writes a row. -/
theorem Grown.insertRaw (h : Grown t written s db) (row : RawRow) :
    Grown t (row :: written) s (db.insertRaw row) := by
  obtain ⟨rows, others, rfl, hrows, hothers⟩ := h
  refine ⟨rows ++ [row], others, (Database.insertRawRows_concat ..).symm, ?_, hothers⟩
  exact (List.perm_append_singleton row rows).trans (hrows.cons row)

/-- The rows that have been written are there. -/
theorem Grown.mem_overrides {row : OverrideColumns} (h : Grown t written s db)
    (hrow : RawRow.override row ∈ written) : row ∈ db.overrides := by
  obtain ⟨rows, others, rfl, hrows, -⟩ := h
  have hmem : RawRow.override row ∈ rows := hrows.mem_iff.2 (List.mem_append_left _ hrow)
  rw [Database.overrides_insertRawRows]
  exact List.mem_append_right _ (List.mem_filterMap.2 ⟨_, hmem, rfl⟩)

/-- No transaction is open, and the committed data have grown. -/
structure Added (t : Server) (written : List RawRow) (s : Server) : Prop where
  idle : s.open? = none
  grown : Grown t written s s.committed

/-- A transaction is open. The data that it sees have grown, and the committed data are left to
other writers. -/
structure Adding (t : Server) (written : List RawRow) (s : Server) : Prop where
  isOpen : s.open?.isSome = true
  committed : Grown t [] s s.committed
  seen : Grown t written s s.view

/-- Rows of other writers let the committed data grow. -/
theorem Added.passes {rows : List RawRow} (h : Added t written s) (hpasses : Passes rows s u) :
    Added t written u where
  idle := by rw [hpasses.opened, h.idle]; rfl
  grown := by
    rw [hpasses.committed]
    exact h.grown.insertRawRows hpasses.pending

/-- Rows of other writers let the data in a transaction grow. -/
theorem Adding.passes {rows : List RawRow} (h : Adding t written s) (hpasses : Passes rows s u) :
    Adding t written u where
  isOpen := by rw [hpasses.opened, Option.isSome_map, h.isOpen]
  committed := by
    rw [hpasses.committed]
    exact h.committed.insertRawRows hpasses.pending
  seen := by
    rw [hpasses.view]
    exact h.seen.insertRawRows hpasses.pending

/-- A row is written outside of a transaction. -/
theorem Added.write (h : Added t written s) (row : RawRow) :
    Added t (row :: written) (s.write (s.view.insertRaw row)) := by
  rw [write_of_idle h.idle, view_of_idle h.idle]
  exact ⟨h.idle, h.grown.insertRaw row⟩

/-- A row is written in a transaction. -/
theorem Adding.write (h : Adding t written s) (row : RawRow) :
    Adding t (row :: written) (s.write (s.view.insertRaw row)) := by
  rw [write_of_isOpen h.isOpen]
  exact ⟨rfl, h.committed, h.seen.insertRaw row⟩

/-- A transaction begins. -/
theorem Added.begin (h : Added t [] s) : Adding t [] { s with open? := some s.committed } :=
  ⟨rfl, h.grown, h.grown⟩

/-- A result that a store would return is that of the work. -/
theorem asStore_cases {α : Type} {work : Work α} {result : Except StoreError α}
    (h : asStore work t = (result, u)) :
    ∃ done, work.run t = (done, u) ∧ ∀ a, result = .ok a → done = .ok a := by
  cases hrun : work.run t with
  | mk done v =>
    simp only [asStore, hrun] at h
    cases h
    refine ⟨done, rfl, fun a ha => ?_⟩
    cases done with
    | error e => cases ha
    | ok b => exact congrArg Except.ok (Except.ok.inj ha)

/-! ## Overrides -/

section
variable [Storage] {row : OverrideRow} {db' : Database}

/-- The table lets in a row whose id is not taken. -/
theorem insertOverride_eq_ok (htable : Table.overrides ∈ db.tables)
    (h : db.insertOverride row = .ok db') :
    (∀ r ∈ db.overrides, r.id ≠ some row.id) ∧ db' = db.insertRaw (.override (.ofRow row)) := by
  simp only [Database.insertOverride, unit_bind_eq_ok_iff, requireThat_eq_ok_iff] at h
  obtain ⟨-, -, -, hfree, h⟩ := h
  cases h
  refine ⟨?_, by rw [Database.insertRaw, Database.createTable_of_mem htable]⟩
  simpa using hfree

/-- The row has been added or it has not. -/
def AddedOnce (t : Server) (row : RawRow) (s : Server) : Prop := Added t [] s ∨ Added t [row] s

omit [Storage] in
/-- Rows of other writers do not count. -/
theorem AddedOnce.passes {row : RawRow} {rows : List RawRow} (h : AddedOnce t row s)
    (hpasses : Passes rows s u) : AddedOnce t row u :=
  h.imp (·.passes hpasses) (·.passes hpasses)

/-- The statement that inserts a row adds it, but not once more: then the key is taken. -/
theorem insertOverride_cases (h : AddedOnce t (.override (.ofRow row)) s)
    {result : Except DatabaseError Unit}
    (hrun : (change (.insert .overrides) (Database.insertOverride row)).run s = (result, u)) :
    AddedOnce t (.override (.ofRow row)) u ∧
      (result = .ok () → Added t [.override (.ofRow row)] u) := by
  rcases change_cases hrun with
    ⟨e, rows, rfl, hpasses⟩ | ⟨db, rows, v, hpasses, htables, hdb, hwritten⟩
  · refine ⟨h.passes hpasses, fun hok => ?_⟩
    cases hok
  · obtain ⟨hfree, rfl⟩ := insertOverride_eq_ok (htables _ rfl) hdb
    rcases h.passes hpasses with hnone | hadded
    · have hadded := (hnone.write (.override (.ofRow row))).passes hwritten
      exact ⟨.inr hadded, fun _ => hadded⟩
    · rw [view_of_idle hadded.idle] at hfree
      exact absurd rfl (hfree _ (hadded.grown.mem_overrides (List.mem_singleton_self _)))

/-- A try to add an override, on a connection of its own. -/
def tryInsert (row : OverrideRow) : Work OverrideRow := do
  connect
  change (.insert .overrides) (Database.insertOverride row)
  loading (OverrideColumns.ofRow row).load

/-- A try ends in the row only if it has added it. -/
theorem tryInsert_cases (h : AddedOnce t (.override (.ofRow row)) s)
    {result : Except DatabaseError OverrideRow} (hrun : (tryInsert row).run s = (result, u)) :
    AddedOnce t (.override (.ofRow row)) u ∧ ∀ saved, result = .ok saved →
      Added t [.override (.ofRow row)] u ∧ (OverrideColumns.ofRow row).load = .ok saved := by
  rcases bind_cases hrun with ⟨e, hconnect, rfl⟩ | ⟨_, c, hconnect, hrun⟩
  · exact ⟨h.passes (connect_passes hconnect), by simp⟩
  have hc := h.passes (connect_passes hconnect)
  rcases bind_cases hrun with ⟨e, hinsert, rfl⟩ | ⟨_, v, hinsert, hrun⟩
  · exact ⟨(insertOverride_cases hc hinsert).1, by simp⟩
  · obtain ⟨hv, hadded⟩ := insertOverride_cases hc hinsert
    obtain ⟨rfl, hload⟩ := loading_cases hrun
    exact ⟨hv, fun saved hsaved => ⟨hadded rfl, hload saved hsaved⟩⟩

/-- The row that an insertion of an override is to add. -/
def newOverrideRow (supply : Supply) (draft : OverrideDraft) (t : Server) : OverrideRow :=
  .ofOverride (draft.row (supply.overrideId t.overrideIds)
    (supply.reading t.readings).truncateToMicros)

/-- Whatever strikes it, an insertion adds its row once at most; if it answers with an override, it
has added the row, and the override is read from it. -/
theorem insertOverride_addsOnce {supply : Supply} {draft : OverrideDraft} (ht : t.open? = none)
    {result : Except StoreError Override}
    (h : answer supply (.insertOverride draft) t = (result, u)) :
    let row := newOverrideRow supply draft t
    AddedOnce t (.override (.ofRow row)) u ∧ ∀ o, result = .ok o →
      Added t [.override (.ofRow row)] u ∧
        ∃ saved, (OverrideColumns.ofRow row).load = .ok saved ∧ saved.toOverride = .ok o := by
  intro row
  -- the stamp and the id are drawn before the first try
  let drawn : Server := { t with readings := t.readings + 1, overrideIds := t.overrideIds + 1 }
  have hdrawn : Added t [] drawn := ⟨ht, .start⟩
  obtain ⟨done, hrun, hresult⟩ := asStore_cases h
  have hwork : (retrying (tryInsert row) retries >>= fun saved => ofExcept saved.toOverride).run
      drawn = (done, u) := hrun
  have hkeeps : ∀ s e v, AddedOnce t (.override (.ofRow row)) s →
      (tryInsert row).run s = (.error e, v) → AddedOnce t (.override (.ofRow row)) v :=
    fun s e v hs htry => (tryInsert_cases hs htry).1
  rcases bind_cases hwork with ⟨e, htries, rfl⟩ | ⟨saved, v, htries, hread⟩
  · obtain ⟨s, hs, htry⟩ := exists_of_retrying hkeeps (.inl hdrawn) htries
    refine ⟨(tryInsert_cases hs htry).1, fun o ho => ?_⟩
    cases hresult o ho
  · obtain ⟨s, hs, htry⟩ := exists_of_retrying hkeeps (.inl hdrawn) htries
    obtain ⟨hv, hadded⟩ := tryInsert_cases hs htry
    obtain ⟨rfl, rfl⟩ : saved.toOverride = done ∧ v = u := Prod.mk.inj hread
    refine ⟨hv, fun o ho => ?_⟩
    obtain ⟨hadded, hload⟩ := hadded saved rfl
    exact ⟨hadded, saved, hload, hresult o ho⟩

/-! ## Versions -/

variable {version : VersionRow}

/-- The table lets in a row that is as it was drawn up. -/
theorem insertVersion_eq_ok (htable : Table.versions ∈ db.tables)
    (h : db.insertVersion version = .ok db') :
    db' = db.insertRaw (.version (.ofRow version)) := by
  simp only [Database.insertVersion, unit_bind_eq_ok_iff] at h
  obtain ⟨-, -, -, -, -, -, h⟩ := h
  cases h
  rw [Database.insertRaw, Database.createTable_of_mem htable]

/-- Within its transaction, an insertion adds the version once at most, and it has added it if it
ends in a row. -/
theorem compareAndInsert_cases {expected : Option Int32} (h : Adding t [] s)
    {result : Except DatabaseError (Option VersionRow)}
    (hrun : (compareAndInsert version expected).run s = (result, u)) :
    (Adding t [] u ∨ Adding t [.version (.ofRow version)] u) ∧
      ∀ row, result = .ok (some row) → Adding t [.version (.ofRow version)] u ∧
        (VersionColumns.ofRow version).load = .ok row := by
  unfold compareAndInsert at hrun
  rcases bind_cases hrun with ⟨e, hread, rfl⟩ | ⟨greatest, v, hread, hrun⟩
  · obtain ⟨rows, hpasses⟩ := read_cases hread
    exact ⟨.inl (h.passes hpasses), by simp⟩
  obtain ⟨rows, hpasses⟩ := read_cases hread
  have hv := h.passes hpasses
  split at hrun
  · cases hrun
    exact ⟨.inl hv, by simp⟩
  have hinsert {done : Except DatabaseError Unit} {w : Server}
      (hdone : (change (.insert .versions) (Database.insertVersion version)).run v = (done, w)) :
      (Adding t [] w ∧ ∃ e, done = .error e) ∨ Adding t [.version (.ofRow version)] w := by
    rcases change_cases hdone with
      ⟨e, rows, rfl, hpasses⟩ | ⟨db, rows, x, hpasses, htables, hdb, hwritten⟩
    · exact .inl ⟨hv.passes hpasses, e, rfl⟩
    · rw [insertVersion_eq_ok (htables _ rfl) hdb] at hwritten
      exact .inr (((hv.passes hpasses).write _).passes hwritten)
  rcases bind_cases hrun with ⟨e, hdone, rfl⟩ | ⟨_, w, hdone, hrun⟩
  · exact ⟨(hinsert hdone).imp_left (·.1), by simp⟩
  rcases hinsert hdone with ⟨-, e, he⟩ | hadding
  · cases he
  rcases bind_cases hrun with ⟨e, hload, rfl⟩ | ⟨row, x, hload, hreturn⟩
  · obtain ⟨rfl, -⟩ := loading_cases hload
    exact ⟨.inr hadding, by simp⟩
  · obtain ⟨rfl, hloaded⟩ := loading_cases hload
    cases hreturn
    refine ⟨.inr hadding, fun row' hrow => ?_⟩
    cases hrow
    exact ⟨hadding, hloaded row rfl⟩

/-- One transaction adds the version once at most, and it has added it if it ends in a row. -/
theorem transaction_addsOnce {expected : Option Int32} (h : Added t [] s)
    {result : Except DatabaseError (Option VersionRow)}
    (hrun : (transaction (compareAndInsert version expected)).run s = (result, u)) :
    AddedOnce t (.version (.ofRow version)) u ∧ ∀ row, result = .ok (some row) →
      Added t [.version (.ofRow version)] u ∧ (VersionColumns.ofRow version).load = .ok row := by
  obtain ⟨hidle, done, v, hwork, hends⟩ := transaction_cases hrun
  obtain ⟨honce, hrow⟩ := compareAndInsert_cases h.begin hwork
  have hcommitted : Grown t [] v v.committed := honce.elim (·.committed) (·.committed)
  rcases hends with ⟨e, rfl, rfl, hdata, hpending⟩ | ⟨a, rows, rfl, hsame, hpending, hdata⟩
  · refine ⟨.inl ⟨hidle, ?_⟩, by simp⟩
    rw [hdata]
    exact hcommitted.insertRawRows
      (show ([] ++ u.pending).Perm v.pending by rw [List.nil_append, hpending])
  · -- the transaction was committed with what it had seen, or it was not
    have hadded {written : List RawRow} (hadding : Adding t written v)
        (hview : u.committed = v.view.insertRawRows rows) : Added t written u :=
      ⟨hidle, by rw [hview]; exact hadding.seen.insertRawRows hpending⟩
    rcases hdata with ⟨⟨e, rfl⟩, hdata⟩ | hdata
    · refine ⟨.inl ⟨hidle, ?_⟩, by simp⟩
      rw [hdata]
      exact hcommitted.insertRawRows hpending
    · refine ⟨honce.imp (hadded · hdata) (hadded · hdata), fun row hresult => ?_⟩
      obtain ⟨hadding, hload⟩ := hrow row (congrArg Except.ok (hsame _ hresult).symm)
      exact ⟨hadded hadding hdata, hload⟩

/-- The row that an insertion of a version is to add. -/
def newVersionRow (supply : Supply) (draft : VersionDraft) (t : Server) : VersionRow :=
  .ofDraft (supply.versionId t.versionIds) draft

/-- The insertion of a version ends with the failure to get a connection, or as its transaction
ends, which is run once. Only the connection is asked for again. -/
inductive InsertsVersion (supply : Supply) (draft : VersionDraft) (expected : Option Int32)
    (t : Server) : Except StoreError RouteVersion → Server → Prop
  | unconnected {c : Server} {e : DatabaseError}
    (hconnect : (retrying connect retries).run { t with versionIds := t.versionIds + 1 } =
      (.error e, c)) :
    InsertsVersion supply draft expected t (.error e.toStoreError) c
  | transacted {c u : Server} {outcome : Except DatabaseError (Option VersionRow)}
    (hconnect : (retrying connect retries).run { t with versionIds := t.versionIds + 1 } =
      (.ok (), c))
    (hrun : (transaction (compareAndInsert (newVersionRow supply draft t) expected)).run c =
      (outcome, u)) :
    InsertsVersion supply draft expected t (insertOutcome draft outcome) u

/-- A server inserts a version over one connection and in one transaction. -/
theorem insertsVersion {supply : Supply} {draft : VersionDraft} {expected : Option Int32}
    {result : Except StoreError RouteVersion}
    (h : answer supply (.insertVersion draft expected) t = (result, u)) :
    InsertsVersion supply draft expected t result u := by
  cases hrun : (attemptInsert supply draft expected).run t with
  | mk attempted v =>
    have hwork : (retrying connect retries >>= fun _ =>
        attempt (transaction (compareAndInsert (newVersionRow supply draft t) expected))).run
          { t with versionIds := t.versionIds + 1 } = (attempted, v) := hrun
    rw [answer, insertVersion, hrun] at h
    rcases bind_cases hwork with ⟨e, hconnect, rfl⟩ | ⟨_, c, hconnect, hattempt⟩
    · cases h
      exact .unconnected hconnect
    · simp only [attempt, ExceptT.run_mk] at hattempt
      cases hattempt
      cases h
      exact .transacted hconnect rfl

omit [Storage] in
/-- Asking for a connection leaves the data alone. -/
theorem retrying_connect_passes {tries : Nat} {result : Except DatabaseError Unit}
    (h : (retrying connect tries).run s = (result, u)) : Passes [] s u := by
  obtain ⟨v, hv, hconnect⟩ := exists_of_retrying (p := Passes [] s)
    (fun _ _ _ hpasses hrun => hpasses.trans (connect_passes hrun)) (.of_eq rfl rfl rfl) h
  exact hv.trans (connect_passes hconnect)

/-- Whatever strikes it, an insertion adds its version once at most; if it answers with a version,
it has added the row, and the version is read from it. -/
theorem InsertsVersion.addsOnce {supply : Supply} {draft : VersionDraft} {expected : Option Int32}
    {result : Except StoreError RouteVersion} (ht : t.open? = none)
    (h : InsertsVersion supply draft expected t result u) :
    let row := newVersionRow supply draft t
    AddedOnce t (.version (.ofRow row)) u ∧ ∀ v, result = .ok v →
      Added t [.version (.ofRow row)] u ∧
        ∃ saved, (VersionColumns.ofRow row).load = .ok saved ∧ saved.toVersion = .ok v := by
  intro row
  have hdrawn : Added t [] { t with versionIds := t.versionIds + 1 } := ⟨ht, .start⟩
  cases h with
  | unconnected hconnect =>
    exact ⟨.inl (hdrawn.passes (retrying_connect_passes hconnect)), by simp⟩
  | transacted hconnect hrun =>
    obtain ⟨honce, hrow⟩ :=
      transaction_addsOnce (hdrawn.passes (retrying_connect_passes hconnect)) hrun
    refine ⟨honce, fun v hv => ?_⟩
    unfold insertOutcome at hv
    split at hv
    · next saved =>
      obtain ⟨hadded, hload⟩ := hrow saved rfl
      refine ⟨hadded, saved, hload, ?_⟩
      cases hread : saved.toVersion with
      | error e =>
        rw [hread] at hv
        cases hv
      | ok v' =>
        rw [hread] at hv
        exact congrArg Except.ok (Except.ok.inj hv)
    all_goals cases hv

end

/-- **Insertions that are tried again add one row at most.** Work with retries runs four times at
most; it stops at the first run that succeeds or fails for good, and ends as its last run does. An
insertion of an override, whatever strikes it, adds its row to the data once at most, besides rows
of other writers; if it answers with an override, the row has been added and the override is read
from it. The insertion of a version runs one transaction at most, with the same effect. -/
theorem insertions_addOnce [Storage] (supply : Supply) {t : Server} (ht : t.open? = none) :
    (∀ (α : Type) (work : Work α) (s : Server), ∃ k, StopsAfter work 3 k s ∧
      (retrying work retries).run s = (resultAfter work k s, afterRuns work (k + 1) s)) ∧
    (∀ draft result u, answer supply (.insertOverride draft) t = (result, u) →
      let row := newOverrideRow supply draft t
      AddedOnce t (.override (.ofRow row)) u ∧ ∀ o, result = .ok o →
        Added t [.override (.ofRow row)] u ∧
          ∃ saved, (OverrideColumns.ofRow row).load = .ok saved ∧ saved.toOverride = .ok o) ∧
    ∀ draft expected result u, answer supply (.insertVersion draft expected) t = (result, u) →
      let row := newVersionRow supply draft t
      InsertsVersion supply draft expected t result u ∧
        AddedOnce t (.version (.ofRow row)) u ∧ ∀ v, result = .ok v →
          Added t [.version (.ofRow row)] u ∧
            ∃ saved, (VersionColumns.ofRow row).load = .ok saved ∧ saved.toVersion = .ok v := by
  refine ⟨fun α work s => retrying_eq work retries s, ?_, ?_⟩
  · intro draft result u h
    exact insertOverride_addsOnce ht h
  · intro draft expected result u h
    have hinserts := insertsVersion h
    exact ⟨hinserts, hinserts.addsOnce ht⟩

/-! ## A connection that is lost too late -/

namespace LostAnswer

def supply : Supply := ⟨fun _ => ⟨0, 0⟩, fun _ => "o1", fun _ => "v1"⟩

def draft : OverrideDraft where
  scope := .route
  routingId := some "r1"
  routingStepId := none
  sourceStepKey := none
  stationType := some .auto
  stationGroupId := none
  allowedStationIds := none
  requiresFAI := none
  requiresAuthorization := none
  dataSpecIds := none
  ingestMapping := none
  info := none

/-- The first insertion of an override takes effect, and then the connection is lost. -/
def server : Server :=
  { Server.start { Database.empty with tables := Table.ofStore } with
    faults := [⟨(Statement.insert .overrides).name, .dropAfter, 1, 0, []⟩] }

end LostAnswer

/-- The second try finds the row of the first one, and no other row is added. -/
theorem insertions_addOnce_lostAnswer :
    let (result, u) := answer LostAnswer.supply (.insertOverride LostAnswer.draft) LostAnswer.server
    (LostAnswer.server.open? = none ∧ result.toOption = none ∧ u.connections = 2 ∧
      u.committed.overrides.map (·.id) = [some "o1"]) ∧
    AddedOnce LostAnswer.server (.override (.ofRow
      (newOverrideRow LostAnswer.supply LostAnswer.draft LostAnswer.server))) u := by
  refine ⟨by decide +kernel, ?_⟩
  obtain ⟨-, hoverride, -⟩ := insertions_addOnce LostAnswer.supply (t := LostAnswer.server) rfl
  exact (hoverride LostAnswer.draft _ _ rfl).1

end Server
end RoutePlan
