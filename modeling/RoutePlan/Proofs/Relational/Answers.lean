import RoutePlan.Proofs.Relational.Tables
import RoutePlan.Proofs.Store.Identity
import RoutePlan.Relational.Store

/-!
# What a server answers

A server that nothing disturbs and whose tables hold the rows of a store in memory
(`Server.Represents`) answers every call from these rows as the store in memory would, and holds the
rows that the store would have afterwards. It differs in what follows: steps come in ascending
order, a stamp is a whole number of microseconds, and a version must be of a routing that is there.
Here is one lemma for each call.
-/

namespace RoutePlan

namespace Server

variable {α β : Type} {t u : Server}

/-! ## Work that succeeds -/

/-- Work goes on with the result of its first part. -/
theorem work_bind_of_ok {x : Work α} {a : α} (h : x.run t = (.ok a, u)) (f : α → Work β) :
    (x >>= f).run t = (f a).run u := by
  have hbind : (x >>= f).run t = ExceptT.bindCont f (x.run t).1 (x.run t).2 := rfl
  rw [hbind, h]
  rfl

/-- The server with a new connection. -/
def connected (t : Server) : Server := { t with connections := t.connections + 1, broken := false }

/-- A server that is available gives a connection. -/
theorem connect_run (h : t.access = .available) : connect.run t = (.ok (), t.connected) := by
  obtain ⟨committed, opened, faults, access, connections, broken, readings, overrideIds, versionIds,
    clockStopped⟩ := t
  subst h
  rfl

/-- Work that succeeds at the first try is not tried again. -/
theorem retrying_run {work : Work α} {a : α} (h : work.run t = (.ok a, u)) (tries : Nat) :
    (retrying work tries).run t = (.ok a, u) := by
  cases tries with
  | zero => exact h
  | succ tries =>
    simp only [retrying, ExceptT.run_mk]
    rw [h]

/-- A unit of work that succeeds at the first try is not tried again. -/
theorem unit_run {work : Work α} {a : α} (haccess : t.access = .available)
    (h : work.run t.connected = (.ok a, u)) : (unit work).run t = (.ok a, u) :=
  retrying_run ((work_bind_of_ok (connect_run haccess) fun _ => work).trans h) retries

/-- A statement runs on a connection that holds, if no fault waits and the tables are there. -/
structure Undisturbed (t : Server) : Prop where
  broken : t.broken = false
  faults : t.faults = []
  tables : ∀ table ∈ Table.ofStore, table ∈ t.view.tables

/-- A statement on a table of the store takes effect if it is accepted. -/
theorem perform_run {statement : Statement} {run : Database → Except Refusal (α × Database)}
    {a : α} {db : Database} (ht : t.Undisturbed) {table : Table} (hof : table ∈ Table.ofStore)
    (hstatement : statement.table? = some table) (h : run t.view = .ok (a, db)) :
    (perform statement run).run t = (.ok a, t.write db) := by
  have hmem : t.view.tables.contains table = true := by simpa using ht.tables table hof
  have heffect : effect statement run t.view = .ok (a, db) := by
    have hrequire : t.view.requireTable table = .ok () := by
      rw [Database.requireTable, requireThat, if_pos hmem]
    unfold effect
    rw [hstatement]
    change (t.view.requireTable table >>= fun _ => run t.view) = _
    rw [hrequire]
    exact h
  obtain ⟨committed, opened, faults, access, connections, broken, readings, overrideIds, versionIds,
    clockStopped⟩ := t
  obtain ⟨rfl, rfl, -⟩ := ht
  simp only [perform, query, strike, Bool.false_eq_true, if_false, ExceptT.run_mk]
  rw [heffect]
  rfl

/-- To write what a server sees changes nothing. -/
theorem write_view (t : Server) : t.write t.view = t := by
  obtain ⟨committed, opened, faults, access, connections, broken, readings, overrideIds, versionIds,
    clockStopped⟩ := t
  cases opened <;> rfl

/-- A statement that reads leaves the server as it is. -/
theorem read_run {statement : Statement} {run : Database → Except Refusal α} {a : α}
    (ht : t.Undisturbed) {table : Table} (hof : table ∈ Table.ofStore)
    (hstatement : statement.table? = some table) (h : run t.view = .ok a) :
    (read statement run).run t = (.ok a, t) := by
  have hrun : (run t.view).map (·, t.view) = .ok (a, t.view) := by
    rw [h]
    rfl
  exact (perform_run ht hof hstatement hrun).trans (by rw [write_view])

/-- A statement that changes the data does so if it is accepted. -/
theorem change_run {statement : Statement} {run : Database → Except Refusal Database}
    {db : Database} (ht : t.Undisturbed) {table : Table} (hof : table ∈ Table.ofStore)
    (hstatement : statement.table? = some table) (h : run t.view = .ok db) :
    (change statement run).run t = (.ok (), t.write db) := by
  have hrun : (run t.view).map ((), ·) = .ok ((), db) := by
    rw [h]
    rfl
  exact perform_run ht hof hstatement hrun

/-- A transaction that succeeds commits what it has left behind. -/
theorem transaction_run {work : Work α} {a : α}
    (h : work.run { t with open? := some t.committed } = (.ok a, u)) (hbroken : u.broken = false)
    (hfaults : u.faults = []) :
    (transaction work).run t = (.ok a, { u with committed := u.view, open? := none }) := by
  obtain ⟨committed, opened, faults, access, connections, broken, readings, overrideIds, versionIds,
    clockStopped⟩ := u
  subst hbroken hfaults
  simp only [transaction, transactionWith, ExceptT.run_mk]
  rw [h]
  rfl

/-- Work that succeeds has the same result as that of a store. -/
theorem asStore_run {work : Work α} {a : α} (h : work.run t = (.ok a, u)) :
    asStore work t = (.ok a, u) := by
  simp only [asStore, h]
  rfl

/-- Rows that are read back one by one. -/
theorem mapM_list_ok {α β ε : Type} {read : α → Except ε β} {store : β → α}
    (h : ∀ b, read (store b) = .ok b) (rows : List β) : (rows.map store).mapM read = .ok rows := by
  induction rows with
  | nil => rfl
  | cons b rows ih =>
    rw [List.map_cons, List.mapM_cons, h, ih]
    rfl

/-- A row that may be missing is read back. -/
theorem mapM_option_ok {α β ε : Type} {read : α → Except ε β} {store : β → α}
    (h : ∀ b, read (store b) = .ok b) (row : Option β) : (row.map store).mapM read = .ok row := by
  cases row with
  | none => rfl
  | some b =>
    rw [Option.map_some, Option.mapM_some, h]
    rfl

/-- A row that can be loaded is loaded. -/
theorem loading_run {result : Except ColumnError α} {a : α} (h : result = .ok a) :
    (loading result).run t = (.ok a, t) := by
  rw [h]
  rfl

/-- A value that is at hand is the result. -/
theorem ofExcept_run {result : Except DatabaseError α} {a : α} (h : result = .ok a) :
    (ofExcept result).run t = (.ok a, t) := by
  rw [h]
  rfl

end Server

/-! ## Serving from the tables of a store -/

/-- The server has nothing going on, nothing disturbs it, and its tables hold the rows of a store
in memory, of whose supply as much is used up. -/
structure Server.Represents [storage : Storage] (t : Server) (s : MemoryState) : Prop where
  committed : t.committed.Represents s.store
  idle : t.open? = none
  faults : t.faults = []
  access : t.access = .available
  readings : t.readings = s.readings
  overrideIds : t.overrideIds = s.overrideIds
  versionIds : t.versionIds = s.versionIds

namespace Server

variable [storage : Storage] {t : Server} {s : MemoryState} {supply : Supply}

namespace Represents

/-- A connection changes no rows. -/
theorem connected (h : t.Represents s) : t.connected.Represents s :=
  ⟨h.committed, h.idle, h.faults, h.access, h.readings, h.overrideIds, h.versionIds⟩

/-- Outside of a transaction the committed data are seen. -/
theorem view_connected (h : t.Represents s) : t.connected.view = t.committed := by
  rw [view, h.connected.idle]
  rfl

/-- Once it is connected, nothing disturbs the server. -/
theorem undisturbed (h : t.Represents s) : t.connected.Undisturbed :=
  ⟨rfl, h.faults, by rw [h.view_connected]; exact h.committed.tables⟩

/-- A unit of work that reads a table and loads what it has found. -/
theorem unit_read {α β : Type} (h : t.Represents s) (table : Table) (hof : table ∈ Table.ofStore)
    {run : Database → Except Refusal α} (found : α) (hrun : run t.committed = .ok found)
    {load : α → Work β} {b : β} (hload : (load found).run t.connected = (.ok b, t.connected)) :
    (unit do load (← read (.select table) run)).run t = (.ok b, t.connected) := by
  refine unit_run h.access ?_
  rw [work_bind_of_ok (read_run h.undisturbed hof rfl (by rw [h.view_connected]; exact hrun))]
  exact hload

end Represents

/-! ## An update of a row that is there -/

omit storage in
/-- A stamp is drawn for the next reading of the clock. -/
theorem drawStamp_run {last stamp : Instant}
    (h : stampAfter last (supply.reading t.readings).truncateToMicros = some stamp) :
    (drawStamp supply last).run t = (.ok stamp, { t with readings := t.readings + 1 }) := by
  have hclock : (readClock supply).run t = (.ok (supply.reading t.readings).truncateToMicros,
      { t with readings := t.readings + 1 }) := rfl
  rw [drawStamp, work_bind_of_ok hclock, h]
  rfl

section
variable {id : String} {patch : OverridePatch} {c : OverrideColumns} {row saved : OverrideRow}
  {old o : Override} {stamp : Instant} {db : Database} (htext : requireTexts [id] = .ok ())
  (hload : c.load = .ok row) (hread : row.toOverride = .ok old)
  (hstamp : stampAfter old.updatedAt (supply.reading t.readings).truncateToMicros = some stamp)
  (hsaved : (OverrideColumns.ofRow (patchedRow patch old stamp)).load = .ok saved)

include htext hload

/-- The first row with the id is loaded. -/
theorem loadOverride_run (ht : t.Undisturbed)
    (hfound : (t.view.overrides.find? fun r => r.id == some id) = some c) :
    (loadOverride id).run t = (.ok (some row), t) := by
  unfold loadOverride
  rw [work_bind_of_ok (read_run (a := some c) ht (by decide) rfl ?_)]
  · refine loading_run ?_
    rw [Option.mapM_some, hload]
    rfl
  · simp only [htext, hfound]
    rfl

include hread hstamp hsaved

/-- The row is stored as the patch leaves it, and loaded again. -/
theorem amendOverride_run (ht : t.Undisturbed)
    (hfound : (t.view.overrides.find? fun r => r.id == some id) = some c)
    (hdb : t.view.replaceOverride (patchedRow patch old stamp) = .ok db) :
    (amendOverride supply id patch).run t =
      (.ok (some saved), { t with readings := t.readings + 1 }.write db) := by
  have hdrawn : Undisturbed { t with readings := t.readings + 1 } :=
    ⟨ht.broken, ht.faults, ht.tables⟩
  unfold amendOverride
  rw [work_bind_of_ok (loadOverride_run htext hload ht hfound)]
  dsimp only
  rw [work_bind_of_ok (ofExcept_run hread), work_bind_of_ok (drawStamp_run hstamp),
    work_bind_of_ok (change_run hdrawn (by decide) rfl hdb), work_bind_of_ok (loading_run hsaved)]
  rfl

/-- A server that nothing disturbs answers with the override of the row that it has stored. -/
theorem updateOverride_run (haccess : t.access = .available) (hfaults : t.faults = [])
    (htables : ∀ table ∈ Table.ofStore, table ∈ t.committed.tables)
    (hfound : (t.committed.overrides.find? fun r => r.id == some id) = some c)
    (hdb : t.committed.replaceOverride (patchedRow patch old stamp) = .ok db)
    (ho : saved.toOverride = .ok o) :
    answer supply (.updateOverride id patch) t = (.ok (some o),
      { t.connected with committed := db, open? := none, readings := t.readings + 1 }) := by
  -- the transaction sees the committed rows
  let u : Server := { t.connected with open? := some t.connected.committed }
  have hamend : (amendOverride supply id patch).run u = (.ok (some saved),
      { u with open? := some db, readings := u.readings + 1 }) :=
    amendOverride_run (t := u) htext hload hread hstamp hsaved ⟨rfl, hfaults, htables⟩ hfound hdb
  have hrun : (updateOverride supply id patch).run t = (.ok (some o),
      { t.connected with committed := db, open? := none, readings := t.readings + 1 }) := by
    rw [updateOverride, work_bind_of_ok (unit_run haccess (transaction_run hamend rfl hfaults))]
    refine ofExcept_run ?_
    rw [Option.mapM_some, ho]
    rfl
  exact asStore_run hrun

end

/-! ## Replies -/

/-- The server answers a call, and then holds the rows of the given state. -/
def Replies (supply : Supply) (t : Server) (c : Call) (reply : c.Reply) (s : MemoryState) : Prop :=
  ∃ u, answer supply c t = (.ok reply, u) ∧ u.Represents s

/-- The last stamp of a store is in no table. -/
theorem Replies.congr {c : Call} {reply : c.Reply} {s' : MemoryState}
    (h : Replies supply t c reply s)
    (hs : s' = { s with store := { s.store with lastStamp := s'.store.lastStamp } }) :
    Replies supply t c reply s' := by
  obtain ⟨u, hanswer, hu⟩ := h
  rw [hs]
  exact ⟨u, hanswer, hu.committed.congr rfl, hu.idle, hu.faults, hu.access, hu.readings,
    hu.overrideIds, hu.versionIds⟩

section
variable (ideal : storage.Ideal) (h : t.Represents s)

include ideal h

/-! ## Design data -/

/-- The routing with the code is found. -/
theorem replies_findRouting (code : String) :
    Replies supply t (.findRouting code) (s.store.findRouting code) s := by
  have hrun : (findRouting code).run t = (.ok (s.store.findRouting code), t.connected) := by
    refine h.unit_read .routings (by decide) ((s.store.findRouting code).map .ofRouting) ?_
      (loading_run (mapM_option_ok RoutingColumns.load_ofRouting _))
    simp only [requireTexts_of_ideal ideal, h.committed.routings, List.find?_map]
    rfl
  exact ⟨_, asStore_run hrun, h.connected⟩

/-- The station group with the code is found. -/
theorem replies_findStationGroup (code : String) :
    Replies supply t (.findStationGroup code) (s.store.findStationGroup code) s := by
  have hrun : (findStationGroup code).run t =
      (.ok (s.store.findStationGroup code), t.connected) := by
    refine h.unit_read .stationGroups (by decide) ((s.store.findStationGroup code).map .ofGroup) ?_
      (loading_run (mapM_option_ok StationGroupColumns.load_ofGroup _))
    simp only [requireTexts_of_ideal ideal, h.committed.stationGroups, List.find?_map]
    rfl
  exact ⟨_, asStore_run hrun, h.connected⟩

/-- The specs with the ids are found in their order. -/
theorem replies_findDataSpecs (ids : List String) :
    Replies supply t (.findDataSpecs ids) (s.store.findDataSpecs ids) s := by
  by_cases hids : ids.isEmpty = true
  · have hnil : s.store.findDataSpecs ids = [] := by
      rw [List.isEmpty_iff.1 hids]
      exact List.filter_eq_nil_iff.2 fun _ _ => by simp
    have hrun : (findDataSpecs ids).run t = (.ok (s.store.findDataSpecs ids), t) := by
      rw [findDataSpecs, if_pos hids, hnil]
      rfl
    exact ⟨t, asStore_run hrun, h⟩
  · have hrun : (findDataSpecs ids).run t = (.ok (s.store.findDataSpecs ids), t.connected) := by
      rw [findDataSpecs, if_neg hids]
      refine h.unit_read .dataSpecs (by decide) ((s.store.findDataSpecs ids).map .ofSpec) ?_
        (loading_run (mapM_list_ok DataSpecColumns.load_ofSpec _))
      simp only [requireTexts_of_ideal ideal, h.committed.dataSpecs, List.filter_map]
      rfl
    exact ⟨_, asStore_run hrun, h.connected⟩

/-- The steps come in ascending order. -/
theorem replies_listSteps (routingId : String) :
    Replies supply t (.listSteps routingId)
      (RoutingStep.ascending (s.store.listSteps routingId)) s := by
  let rows := (s.store.listSteps routingId).map RoutingStepRow.ofStep
  have hsorted : (rows.mergeSort fun a b => decide (a.stepNo ≤ b.stepNo)).map
      RoutingStepRow.toStep = RoutingStep.ascending (s.store.listSteps routingId) := by
    have hmap := List.map_mergeSort (f := RoutingStepRow.ofStep)
      (r := fun a b : RoutingStep => decide (a.stepNo ≤ b.stepNo))
      (s := fun a b => decide (a.stepNo ≤ b.stepNo)) (l := s.store.listSteps routingId)
      fun _ _ _ _ => rfl
    have hid : RoutingStepRow.toStep ∘ RoutingStepRow.ofStep = id :=
      funext RoutingStepRow.toStep_ofStep
    rw [← hmap, List.map_map, hid, List.map_id]
    rfl
  have hrun : (listSteps routingId).run t =
      (.ok (RoutingStep.ascending (s.store.listSteps routingId)), t.connected) := by
    refine h.unit_read .routingSteps (by decide) (rows.map .ofRow) ?_ ?_
    · simp only [requireTexts_of_ideal ideal, h.committed.steps, List.filter_map, rows,
        List.map_map]
      rfl
    · rw [work_bind_of_ok (loading_run (mapM_list_ok StepColumns.load_ofRow rows)), hsorted]
      rfl
  exact ⟨_, asStore_run hrun, h.connected⟩

/-! ## Versions -/

/-- The version of a routing that is listed first. -/
theorem replies_latestVersion (routingId : String) : Replies supply t (.latestVersion routingId)
    (s.store.listVersions routingId).head? s := by
  let row := (s.store.listVersions routingId).head?.map VersionRow.ofVersion
  have hrun : (latestVersion routingId).run t =
      (.ok (s.store.listVersions routingId).head?, t.connected) := by
    rw [latestVersion, work_bind_of_ok (a := row) (u := t.connected)]
    · exact ofExcept_run (mapM_option_ok VersionRow.toVersion_ofVersion _)
    · refine h.unit_read .versions (by decide) (row.map .ofRow) ?_
        (loading_run (mapM_option_ok (VersionColumns.load_ofRow ideal) row))
      simp only [requireTexts_of_ideal ideal, h.committed.versionsOf_eq, List.head?_map, row]
      rfl
  exact ⟨_, asStore_run hrun, h.connected⟩

/-- The versions of a routing are listed in the same order. -/
theorem replies_listVersions (routingId : String) : Replies supply t (.listVersions routingId)
    (s.store.listVersions routingId) s := by
  let rows := (s.store.listVersions routingId).map VersionRow.ofVersion
  have hrun : (listVersions routingId).run t =
      (.ok (s.store.listVersions routingId), t.connected) := by
    rw [listVersions, work_bind_of_ok (a := rows) (u := t.connected)]
    · exact ofExcept_run (mapM_list_ok VersionRow.toVersion_ofVersion _)
    · refine h.unit_read .versions (by decide) (rows.map .ofRow) ?_
        (loading_run (mapM_list_ok (VersionColumns.load_ofRow ideal) rows))
      simp only [requireTexts_of_ideal ideal, h.committed.versionsOf_eq]
      rfl
  exact ⟨_, asStore_run hrun, h.connected⟩

/-- The version of a routing with the number is found. -/
theorem replies_findVersion (routingId : String) (versionNo : Int32) :
    Replies supply t (.findVersion routingId versionNo)
      (s.store.findVersion routingId versionNo) s := by
  let row := (s.store.findVersion routingId versionNo).map VersionRow.ofVersion
  have hrun : (findVersion routingId versionNo).run t =
      (.ok (s.store.findVersion routingId versionNo), t.connected) := by
    rw [findVersion, work_bind_of_ok (a := row) (u := t.connected)]
    · exact ofExcept_run (mapM_option_ok VersionRow.toVersion_ofVersion _)
    · refine h.unit_read .versions (by decide) (row.map .ofRow) ?_
        (loading_run (mapM_option_ok (VersionColumns.load_ofRow ideal) row))
      simp only [requireTexts_of_ideal ideal, h.committed.versions, List.find?_map, row,
        Option.map_map]
      rfl
  exact ⟨_, asStore_run hrun, h.connected⟩

/-! ## Overrides -/

/-- The override with the id is found. -/
theorem replies_findOverride (id : String) :
    Replies supply t (.findOverride id) (s.store.findOverride id) s := by
  let row := (s.store.findOverride id).map OverrideRow.ofOverride
  have hrun : (findOverride id).run t = (.ok (s.store.findOverride id), t.connected) := by
    rw [findOverride, work_bind_of_ok (a := row) (u := t.connected)]
    · exact ofExcept_run (mapM_option_ok OverrideRow.toOverride_ofOverride _)
    · refine h.unit_read .overrides (by decide) (row.map .ofRow) ?_
        (loading_run (mapM_option_ok (OverrideColumns.load_ofRow ideal) row))
      simp only [requireTexts_of_ideal ideal, h.committed.overrides, List.find?_map, row,
        Option.map_map]
      rfl
  exact ⟨_, asStore_run hrun, h.connected⟩

/-- The overrides are listed in the same order. -/
theorem replies_listOverrides (f : OverrideFilter) :
    Replies supply t (.listOverrides f) (s.store.listOverrides f) s := by
  let selected := (s.store.overrides.filter f.selects).map OverrideRow.ofOverride
  let rows := (s.store.listOverrides f).map OverrideRow.ofOverride
  have hrun : (listOverrides f).run t = (.ok (s.store.listOverrides f), t.connected) := by
    rw [listOverrides, work_bind_of_ok (a := rows) (u := t.connected)]
    · have hrows := mapM_list_ok OverrideRow.toOverride_ofOverride (s.store.listOverrides f)
      rw [work_bind_of_ok (ofExcept_run hrows), MemoryStore.listOverrides,
        Override.mostRecentFirst_mostRecentFirst]
      rfl
    · have hsorted : (selected.mergeSort fun a b => !decide (a.lt b)) = rows :=
        (List.map_mergeSort (f := OverrideRow.ofOverride) fun _ _ _ _ => rfl).symm
      refine h.unit_read .overrides (by decide) (selected.map .ofRow) ?_ ?_
      · simp only [requireTexts_of_ideal ideal, h.committed.overrides, List.filter_map, selected,
          List.map_map]
        rfl
      · have hloaded := mapM_list_ok (OverrideColumns.load_ofRow ideal) selected
        rw [work_bind_of_ok (loading_run hloaded), hsorted]
        rfl
  exact ⟨_, asStore_run hrun, h.connected⟩

/-- An id that no override has is taken for the new one. -/
theorem replies_insertOverride (draft : OverrideDraft)
    (hfresh : ∀ o ∈ s.store.overrides, o.id ≠ supply.overrideId s.overrideIds) {o : Override}
    (ho : o = draft.row (supply.overrideId s.overrideIds)
      (supply.reading s.readings).truncateToMicros) :
    Replies supply t (.insertOverride draft) o { s with
      store := s.store.addOverride o
      readings := s.readings + 1
      overrideIds := s.overrideIds + 1 } := by
  -- the clock and the ids are those of the program, so they move on before the first statement
  let u : Server := { t with readings := t.readings + 1, overrideIds := t.overrideIds + 1 }
  have hu : u.Represents { s with readings := s.readings + 1, overrideIds := s.overrideIds + 1 } :=
    ⟨h.committed, h.idle, h.faults, h.access, congrArg (· + 1) h.readings,
      congrArg (· + 1) h.overrideIds, h.versionIds⟩
  have hid : o.id = supply.overrideId s.overrideIds := by
    rw [ho]
    rfl
  obtain ⟨db, hdb, hrep⟩ := h.committed.insertOverride ideal (o := o) (by rwa [hid])
  have hsaved : (unit do
      change (.insert .overrides) (Database.insertOverride (.ofOverride o))
      loading (OverrideColumns.ofRow (.ofOverride o)).load).run u =
        (.ok (.ofOverride o), u.connected.write db) := by
    refine unit_run h.access ?_
    rw [work_bind_of_ok (change_run hu.undisturbed (by decide) rfl
      (by rw [hu.view_connected]; exact hdb))]
    exact loading_run (OverrideColumns.load_ofRow ideal _)
  have hrun : (insertOverride supply draft).run t = (.ok o, u.connected.write db) := by
    unfold insertOverride
    rw [work_bind_of_ok (a := (supply.reading s.readings).truncateToMicros)
        (u := { t with readings := t.readings + 1 }) (by rw [← h.readings]; rfl),
      work_bind_of_ok (a := supply.overrideId s.overrideIds) (u := u)
        (by rw [← h.overrideIds]; rfl), ← ho, work_bind_of_ok hsaved]
    exact ofExcept_run (OverrideRow.toOverride_ofOverride o)
  refine ⟨_, asStore_run hrun, ?_⟩
  have hidle := hu.connected.idle
  rw [write, hidle, if_neg (by simp)]
  exact ⟨hrep, rfl, h.faults, h.access, hu.readings, hu.overrideIds, h.versionIds⟩

/-- The clock is read after the row was last updated. -/
theorem replies_updateOverride (patch : OverridePatch) {before after : List Override}
    {old o : Override} (hrows : s.store.overrides = before ++ old :: after)
    (hids : (s.store.overrides.map (·.id)).Nodup)
    (hlater : old.updatedAt < (supply.reading s.readings).truncateToMicros)
    (ho : o = { patch.apply old with
      updatedAt := (supply.reading s.readings).truncateToMicros }) :
    Replies supply t (.updateOverride old.id patch) (some o) { s with
      store := { s.store with overrides := before ++ o :: after }
      readings := s.readings + 1 } := by
  have hid : o.id = old.id := by
    rw [ho]
    rfl
  have hfound : s.store.findOverride old.id = some old :=
    MemoryStore.findOverride_of_mem hids (by rw [hrows]; simp)
  obtain ⟨db, hdb, hrep⟩ := h.committed.replaceOverride ideal hrows hids hid
  have hfind : (t.committed.overrides.find? fun r => r.id == some old.id) =
      some (.ofRow (.ofOverride old)) := by
    rw [h.committed.overrides, List.find?_map]
    exact congrArg (Option.map fun o => OverrideColumns.ofRow (.ofOverride o)) hfound
  have hstamp : stampAfter old.updatedAt (supply.reading t.readings).truncateToMicros =
      some (supply.reading s.readings).truncateToMicros := by
    rw [h.readings]
    exact if_neg fun hle => hle hlater
  rw [ho] at hdb
  have hrun := updateOverride_run (requireTexts_of_ideal ideal _)
    (OverrideColumns.load_ofRow ideal _) (OverrideRow.toOverride_ofOverride old) hstamp
    (OverrideColumns.load_ofRow ideal _) h.access h.faults h.committed.tables hfind hdb
    (OverrideRow.toOverride_ofOverride _)
  rw [← ho] at hrun
  exact ⟨_, hrun, hrep, rfl, h.faults, h.access, congrArg (· + 1) h.readings, h.overrideIds,
    h.versionIds⟩

/-! ## The insertion of a version -/

/-- A version with a new id and a free positive number is inserted for a routing that is there. -/
theorem replies_insertVersion (draft : VersionDraft) {expected : Option Int32} {v : RouteVersion}
    (hv : v = draft.row (supply.versionId s.versionIds))
    (hexpected : (s.store.listVersions v.routingId).head?.map (·.versionNo) = expected)
    (hno : 1 ≤ v.versionNo) (hfresh : ∀ w ∈ s.store.versions, w.id ≠ v.id)
    (hfree : ¬s.store.HoldsNo v.routingId v.versionNo)
    (hrouting : ∃ r ∈ s.store.routings, r.id = v.routingId) :
    Replies supply t (.insertVersion draft expected) v { s with
      store := s.store.addVersion v
      versionIds := s.versionIds + 1 } := by
  let row := VersionRow.ofVersion v
  have hrow : VersionRow.ofDraft (supply.versionId t.versionIds) draft = row := by
    rw [VersionRow.ofDraft_eq, h.versionIds, ← hv]
  obtain ⟨db, hdb, hrep⟩ := h.committed.insertVersion ideal hno hfresh hfree hrouting
  -- the id is drawn before the connection is asked for
  let c : Server := { t with versionIds := t.versionIds + 1 }
  let u : Server := { c.connected with open? := some c.connected.committed }
  have hu : u.Undisturbed := ⟨rfl, h.faults, h.committed.tables⟩
  have hgreatest : (read (.greatest .versions) fun db => do
      requireTexts [row.routingId]
      return (db.versionsOf row.routingId).head?.bind (·.versionNo)).run u = (.ok expected, u) := by
    refine read_run hu (by decide) rfl ?_
    have hview : u.view = t.committed := rfl
    have hid : row.routingId = v.routingId := rfl
    simp only [requireTexts_of_ideal ideal, hview, h.committed.versionsOf_eq, List.head?_map,
      hid, ← hexpected]
    cases (s.store.listVersions v.routingId).head? <;> rfl
  have hchange : (change (.insert .versions) (Database.insertVersion row)).run u =
      (.ok (), { u with open? := some db }) :=
    change_run hu (by decide) rfl hdb
  have hcompare : (compareAndInsert row expected).run u =
      (.ok (some row), { u with open? := some db }) := by
    unfold compareAndInsert
    rw [work_bind_of_ok hgreatest, if_neg (by simp), work_bind_of_ok hchange,
      work_bind_of_ok (loading_run (VersionColumns.load_ofRow ideal row))]
    rfl
  have hattempt : (attemptInsert supply draft expected).run t =
      (.ok (.ok (some row)), { c.connected with committed := db, open? := none }) := by
    have hid : (newVersionId supply).run t = (.ok (supply.versionId t.versionIds), c) := rfl
    have hconnect : (retrying connect retries).run c = (.ok (), c.connected) :=
      retrying_run (connect_run (t := c) h.access) retries
    unfold attemptInsert
    rw [work_bind_of_ok hid, work_bind_of_ok hconnect, hrow]
    simp only [attempt, ExceptT.run_mk]
    rw [transaction_run hcompare rfl h.faults]
    rfl
  have hrun : answer supply (.insertVersion draft expected) t =
      (.ok v, { c.connected with committed := db, open? := none }) := by
    rw [answer, insertVersion, hattempt]
    simp only [insertOutcome, row, VersionRow.toVersion_ofVersion]
    rfl
  exact ⟨_, hrun, hrep, rfl, h.faults, h.access, h.readings, h.overrideIds,
    congrArg (· + 1) h.versionIds⟩

end
end Server
end RoutePlan
