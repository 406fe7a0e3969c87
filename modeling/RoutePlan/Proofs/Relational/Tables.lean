import RoutePlan.Proofs.Relational.Storage
import RoutePlan.Proofs.Store.Versions
import RoutePlan.Relational.Database

/-!
# Tables that hold the rows of a store

The tables of a database may hold the rows of a store in memory, in the same order
(`Database.Represents`). A change that breaks no constraint is then accepted by an ideal storage,
and the tables hold the rows of the changed store: a new override with a new id, the replacement of
an override under its id, a new version with a new id and a free positive number for a routing that
is there.
-/

namespace RoutePlan

/-- The row of an override passes the checks of its table. -/
theorem OverrideRow.check_ofOverride (o : Override) : (ofOverride o).check = .ok () := by
  have htype : (o.stationType.map StationType.name).all
      (fun t => (StationType.ofName? t).isSome) = true := by
    cases o.stationType with
    | none => rfl
    | some t => simp [StationType.ofName?_name]
  simp only [check, ofOverride, Scope.ofName?_name, Option.isSome_some, requireThat, htype]
  rfl

/-- The row of a version with a positive number passes the checks of its table. -/
theorem VersionRow.check_ofVersion {v : RouteVersion} (hno : 1 ≤ v.versionNo) :
    (ofVersion v).check = .ok () := by
  have hpositive : decide (1 ≤ (ofVersion v).versionNo) = true := decide_eq_true hno
  simp only [check, hpositive, requireThat]
  simp only [ofVersion, VersionStatus.ofName?_name, Option.isSome_some]
  rfl

namespace Database

/-- The first row that satisfies the test is the one that gives way. -/
theorem replaceFirst_append {α : Type} {p : α → Bool} {row a : α} {before after : List α}
    (hbefore : ∀ b ∈ before, p b = false) (ha : p a = true) :
    replaceFirst p row (before ++ a :: after) = before ++ row :: after := by
  induction before with
  | nil => rw [List.nil_append, replaceFirst, if_pos ha, List.nil_append]
  | cons b before ih =>
    obtain ⟨hb, hbefore⟩ := List.forall_mem_cons.1 hbefore
    rw [List.cons_append, replaceFirst, if_neg (by simp [hb]), ih hbefore, List.cons_append]

end Database

section
variable [storage : Storage]

/-- The tables hold the rows of a store in memory, in the same order. -/
structure Database.Represents (db : Database) (m : MemoryStore) : Prop where
  tables : ∀ table ∈ Table.ofStore, table ∈ db.tables
  routings : db.routings = m.routings.map .ofRouting
  stationGroups : db.stationGroups = m.stationGroups.map .ofGroup
  steps : db.steps = m.steps.map fun s => .ofRow (.ofStep s)
  dataSpecs : db.dataSpecs = m.dataSpecs.map .ofSpec
  overrides : db.overrides = m.overrides.map fun o => .ofRow (.ofOverride o)
  versions : db.versions = m.versions.map fun v => .ofRow (.ofVersion v)

/-- The last stamp of a store is in no table. -/
theorem Database.Represents.congr {db : Database} {m m' : MemoryStore} (h : db.Represents m)
    (hm : m' = { m with lastStamp := m'.lastStamp }) : db.Represents m' := by
  rw [hm]
  exact ⟨h.tables, h.routings, h.stationGroups, h.steps, h.dataSpecs, h.overrides, h.versions⟩

/-- The versions of a routing are in the order of their listing. -/
theorem Database.Represents.versionsOf_eq {db : Database} {m : MemoryStore} (h : db.Represents m)
    (routingId : String) : db.versionsOf routingId =
      ((m.listVersions routingId).map .ofVersion).map .ofRow := by
  have hmap := List.map_mergeSort (f := fun v => VersionColumns.ofRow (.ofVersion v))
    (r := fun a b : RouteVersion => decide (b.versionNo ≤ a.versionNo))
    (s := fun a b => b.numberLE a) (l := m.versionsOf routingId) fun _ _ _ _ => rfl
  rw [Database.versionsOf, h.versions, List.filter_map, List.map_map]
  exact hmap.symm

variable (ideal : storage.Ideal)

include ideal

/-- An ideal storage takes every text. -/
theorem requireTexts_of_ideal (texts : List String) : requireTexts texts = .ok () := by
  have hall : texts.all storage.accepts = true := by simp [ideal.accepts]
  rw [requireTexts, requireThat, if_pos hall]

/-- An ideal storage takes every document. -/
theorem requireDocuments_of_ideal (documents : List Document) :
    requireDocuments documents = .ok () := by
  have hall : (documents.all fun d => d.json.texts.all storage.accepts) = true := by
    simp [ideal.accepts]
  rw [requireDocuments, requireThat, if_pos hall]

/-- A row that passes the checks is put in the place of the only one with its id. -/
theorem Database.replaceOverride_of_check {db : Database} {before after : List OverrideColumns}
    {c : OverrideColumns} {row : OverrideRow} (hcheck : row.check = .ok ())
    (hrows : db.overrides = before ++ c :: after) (hid : c.id = some row.id)
    (hother : ∀ r ∈ before ++ after, r.id ≠ some row.id) :
    db.replaceOverride row = .ok { db with overrides := before ++ .ofRow row :: after } := by
  let isSame (r : OverrideColumns) : Bool := r.id == some row.id
  have hsame : isSame c = true := beq_iff_eq.2 hid
  have hother : ∀ r ∈ before ++ after, isSame r = false := fun r hr =>
    beq_false_of_ne (hother r hr)
  have hbefore : ∀ r ∈ before, isSame r = false := fun r hr =>
    hother r (List.mem_append_left _ hr)
  have hkey : (db.overrides.eraseP isSame).any isSame = false := by
    rw [hrows, List.eraseP_append_right _ fun r hr => by simp [hbefore r hr],
      List.eraseP_cons_of_pos hsame, List.any_eq_false]
    exact fun r hr => by simp [hother r hr]
  have hreplaced : replaceFirst isSame (.ofRow row) db.overrides =
      before ++ .ofRow row :: after := by
    rw [hrows, replaceFirst_append hbefore hsame]
  rw [← hreplaced]
  simp only [replaceOverride, requireTexts_of_ideal ideal, requireDocuments_of_ideal ideal, hcheck,
    requireThat]
  rw [if_pos (by rw [hkey]; rfl)]
  rfl

namespace Database.Represents

variable {db : Database} {m : MemoryStore} (h : db.Represents m)

include h

/-- The row of an override is accepted if its id is new. -/
theorem insertOverride {o : Override} (hfresh : ∀ c ∈ m.overrides, c.id ≠ o.id) :
    ∃ db', db.insertOverride (.ofOverride o) = .ok db' ∧ db'.Represents (m.addOverride o) := by
  have hkey : (db.overrides.any fun r => r.id == some (OverrideRow.ofOverride o).id) = false := by
    rw [h.overrides, List.any_map, List.any_eq_false]
    exact fun c hc heq => hfresh c hc (Option.some.inj (eq_of_beq heq))
  refine ⟨{ db with overrides := db.overrides ++ [.ofRow (.ofOverride o)] }, ?_, ?_⟩
  · simp only [Database.insertOverride, requireTexts_of_ideal ideal,
      requireDocuments_of_ideal ideal, OverrideRow.check_ofOverride, requireThat, hkey,
      Bool.not_false, if_true]
    rfl
  · refine ⟨h.tables, h.routings, h.stationGroups, h.steps, h.dataSpecs, ?_, h.versions⟩
    simp only [h.overrides, MemoryStore.addOverride, List.map_append, List.map_singleton]

/-- The row of an override is put in the place of the only one with its id. -/
theorem replaceOverride {before after : List Override} {old o : Override}
    (hrows : m.overrides = before ++ old :: after) (hids : (m.overrides.map (·.id)).Nodup)
    (hid : o.id = old.id) : ∃ db', db.replaceOverride (.ofOverride o) = .ok db' ∧
      db'.Represents { m with overrides := before ++ o :: after } := by
  let stored (c : Override) : OverrideColumns := .ofRow (.ofOverride c)
  have hrow : db.overrides = before.map stored ++ stored old :: after.map stored := by
    rw [h.overrides, hrows, List.map_append, List.map_cons]
  have hnodup : (old.id :: (before ++ after).map (·.id)).Nodup := by
    rw [hrows] at hids
    exact (List.perm_middle.map Override.id).nodup_iff.1 hids
  have hother : ∀ r ∈ before.map stored ++ after.map stored,
      r.id ≠ some (OverrideRow.ofOverride o).id := by
    rw [← List.map_append]
    refine List.forall_mem_map.2 fun c hc heq => (List.nodup_cons.1 hnodup).1 ?_
    exact List.mem_map.2 ⟨c, hc, (Option.some.inj heq).trans hid⟩
  refine ⟨_, Database.replaceOverride_of_check ideal (OverrideRow.check_ofOverride o) hrow
    (congrArg some hid.symm) hother, h.tables, h.routings, h.stationGroups, h.steps, h.dataSpecs,
    ?_, h.versions⟩
  simp only [List.map_append, List.map_cons, stored]

/-- The row of a version is accepted if its id and its number are new and its routing is there. -/
theorem insertVersion {v : RouteVersion} (hno : 1 ≤ v.versionNo)
    (hfresh : ∀ w ∈ m.versions, w.id ≠ v.id) (hfree : ¬m.HoldsNo v.routingId v.versionNo)
    (hrouting : ∃ r ∈ m.routings, r.id = v.routingId) :
    ∃ db', db.insertVersion (.ofVersion v) = .ok db' ∧ db'.Represents (m.addVersion v) := by
  let row := VersionRow.ofVersion v
  have hkey : (db.versions.any fun w => w.id == some row.id) = false := by
    rw [h.versions, List.any_map, List.any_eq_false]
    exact fun w hw heq => hfresh w hw (Option.some.inj (eq_of_beq heq))
  have hnumber : (db.versions.any fun w =>
      w.routingId == some row.routingId && w.versionNo == some row.versionNo) = false := by
    rw [h.versions, List.any_map, List.any_eq_false]
    intro w hw heq
    obtain ⟨hrid, hno⟩ := (Bool.and_eq_true ..).mp heq
    exact hfree ⟨w, hw, Option.some.inj (eq_of_beq hrid), Option.some.inj (eq_of_beq hno)⟩
  have hreference : (db.routings.any fun r => r.id == some row.routingId) = true := by
    rw [h.routings, List.any_map, List.any_eq_true]
    obtain ⟨r, hr, hid⟩ := hrouting
    exact ⟨r, hr, beq_iff_eq.2 (congrArg some hid)⟩
  refine ⟨{ db with versions := db.versions ++ [.ofRow row] }, ?_, ?_⟩
  · simp only [Database.insertVersion, requireTexts_of_ideal ideal,
      requireDocuments_of_ideal ideal, VersionRow.check_ofVersion hno, requireThat, hkey, hnumber,
      hreference, row, Bool.not_false, if_true]
    rfl
  · refine ⟨h.tables, h.routings, h.stationGroups, h.steps, h.dataSpecs, h.overrides, ?_⟩
    simp only [h.versions, MemoryStore.addVersion, List.map_append, List.map_singleton, row]

end Database.Represents

end
end RoutePlan
