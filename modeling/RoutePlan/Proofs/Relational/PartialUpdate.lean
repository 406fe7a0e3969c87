import RoutePlan.Proofs.Relational.Amending
import RoutePlan.Proofs.Relational.Answers

/-!
# What an update leaves alone

An update names some columns of a row. It stores the others too, as they were read into the
override: a mapping that is no object and a station type without meaning have been read as unset by
then, and that is how they are stored again (`OverrideRow.understood`). The table lets in no such
station type, but it takes any mapping. So all columns that the update does not name keep their
values exactly if it names the mapping or the mapping is an object
(`Server.updateOverride_keepsUnnamed_iff`).
-/

namespace RoutePlan

open Relation (TransGen)

/-- The scope that is found by a name has the name. -/
theorem Scope.name_of_ofName? {text : String} {scope : Scope} (h : ofName? text = some scope) :
    scope.name = text := by
  have hname := List.find?_some (p := fun s => names.name s == text) h
  exact eq_of_beq hname

/-- The station type that is found by a name has the name. -/
theorem StationType.name_of_ofName? {text : String} {t : StationType} (h : ofName? text = some t) :
    t.name = text := by
  have hname := List.find?_some (p := fun s => names.name s == text) h
  exact eq_of_beq hname

/-- What is stored again of a station type. -/
theorem map_name_readStationType (column : Option String) :
    (readStationType column).map StationType.name =
      column.filter fun t => (StationType.ofName? t).isSome := by
  cases column with
  | none => rfl
  | some text =>
    cases h : StationType.ofName? text with
    | none => simp [readStationType, Option.filter_some, h]
    | some t => simp [readStationType, Option.filter_some, h, StationType.name_of_ofName? h]

/-- What is stored again of a mapping. -/
theorem map_document_ofDocument? (column : Option Document) :
    (column.bind IngestMapping.ofDocument?).map (·.document) =
      column.filter fun d => d.json.isObject := by
  cases column with
  | none => rfl
  | some d =>
    by_cases h : d.json.isObject = true
    · simp [IngestMapping.ofDocument?, Option.filter_some, h]
    · simp [IngestMapping.ofDocument?, Option.filter_some, h]

/-- A change made twice is made once. -/
theorem Change.apply_apply {α : Type} (change : Change α) (old : Option α) :
    change.apply (change.apply old) = change.apply old := by
  cases change <;> rfl

namespace OverrideRow

/-- The row with what an override has of it. -/
def understood (row : OverrideRow) : OverrideRow :=
  { row with
    stationType := row.stationType.filter fun t => (StationType.ofName? t).isSome
    ingestMapping := row.ingestMapping.filter fun d => d.json.isObject }

/-- A row that is read comes back as far as it was understood. -/
theorem ofOverride_of_toOverride {row : OverrideRow} {o : Override} (h : row.toOverride = .ok o) :
    ofOverride o = row.understood := by
  unfold toOverride at h
  split at h
  · cases h
  · next scope hscope =>
    cases h
    simp only [ofOverride, understood, Scope.name_of_ofName? hscope, map_name_readStationType,
      map_document_ofDocument?]

/-- The table lets in no station type without meaning. -/
theorem understood_of_check {row : OverrideRow} (h : row.check = .ok ()) :
    row.understood =
      { row with ingestMapping := row.ingestMapping.filter fun d => d.json.isObject } := by
  obtain ⟨_, -, h⟩ := bind_eq_ok_iff.1 h
  have htype : row.stationType.all (fun t => (StationType.ofName? t).isSome) = true := by
    unfold requireThat at h
    split at h
    · assumption
    · cases h
  have hkept : row.stationType.filter (fun t => (StationType.ofName? t).isSome) =
      row.stationType := by
    cases hcolumn : row.stationType with
    | none => rfl
    | some t =>
      rw [hcolumn] at htype
      exact Option.filter_some_pos htype
  rw [understood, hkept]

/-- The columns that a patch does not name, but for the time of update, are the same in two rows. -/
structure KeepsUnnamed (patch : OverridePatch) (old new : OverrideRow) : Prop where
  id : new.id = old.id
  scope : new.scope = old.scope
  routingId : new.routingId = old.routingId
  routingStepId : new.routingStepId = old.routingStepId
  sourceStepKey : new.sourceStepKey = old.sourceStepKey
  operationId : new.operationId = old.operationId
  stationType : patch.stationType = .keep → new.stationType = old.stationType
  stationGroupId : patch.stationGroupId = .keep → new.stationGroupId = old.stationGroupId
  allowedStationIds : patch.allowedStationIds = .keep →
    new.allowedStationIds = old.allowedStationIds
  requiresFAI : patch.requiresFAI = .keep → new.requiresFAI = old.requiresFAI
  requiresAuthorization : patch.requiresAuthorization = .keep →
    new.requiresAuthorization = old.requiresAuthorization
  dataSpecIds : patch.dataSpecIds = .keep → new.dataSpecIds = old.dataSpecIds
  ingestMapping : patch.ingestMapping = .keep → new.ingestMapping = old.ingestMapping
  info : patch.info = .keep → new.info = old.info
  createdAt : new.createdAt = old.createdAt

/-- The row of a changed override has the columns of the override that are not named. -/
theorem keepsUnnamed_patchedRow (patch : OverridePatch) (o : Override) (stamp : Instant) :
    KeepsUnnamed patch (ofOverride o) (Server.patchedRow patch o stamp) := by
  constructor <;> first | rfl | exact fun h => by simp [Server.patchedRow, ofOverride,
    OverridePatch.apply, h, Change.apply]

/-- A mapping that is no object is lost unless it is named. -/
theorem keepsUnnamed_iff {patch : OverridePatch} {old new : OverrideRow}
    (h : KeepsUnnamed patch
      { old with ingestMapping := old.ingestMapping.filter fun d => d.json.isObject } new) :
    KeepsUnnamed patch old new ↔
      (patch.ingestMapping = .keep → ∀ d ∈ old.ingestMapping, d.json.isObject = true) := by
  constructor
  · intro hkept hkeep d hd
    have hfilter := (h.ingestMapping hkeep).symm.trans (hkept.ingestMapping hkeep)
    rw [hd] at hfilter
    simpa [Option.filter_some] using hfilter
  · intro hobject
    refine { h with ingestMapping := fun hkeep => (h.ingestMapping hkeep).trans ?_ }
    cases hd : old.ingestMapping with
    | none => rfl
    | some d => simp [Option.filter_some, hobject hkeep d hd]

end OverrideRow

namespace Server

/-- A change made twice is the change made once, under the later stamp. -/
theorem patchedRow_again (patch : OverridePatch) (o : Override) (stamp stamp' : Instant) :
    patchedRow patch { patch.apply o with updatedAt := stamp } stamp' =
      patchedRow patch o stamp' := by
  simp only [patchedRow, OverridePatch.apply, Change.apply_apply]

variable [storage : Storage] (ideal : storage.Ideal)

include ideal

/-- However often the row was changed, it holds the change of what it held at first. -/
theorem exists_stamp_of_amends {patch : OverridePatch} {c c' : OverrideColumns} {row : OverrideRow}
    (hload : c.load = .ok row) (h : TransGen (OverrideColumns.Amends patch) c c') :
    ∃ o stamp, row.toOverride = .ok o ∧ o.updatedAt < stamp ∧
      c' = .ofRow (patchedRow patch o stamp) := by
  induction h with
  | single hstep =>
    obtain ⟨hload', hread, hstamp⟩ := hstep
    cases hload.symm.trans hload'
    exact ⟨_, _, hread, lt_of_stampAfter hstamp, rfl⟩
  | tail _ hstep ih =>
    obtain ⟨o, stamp, hread, hlater, rfl⟩ := ih
    obtain ⟨hload', hread', hstamp⟩ := hstep
    cases (OverrideColumns.load_ofRow ideal _).symm.trans hload'
    cases (OverrideRow.toOverride_ofOverride _).symm.trans hread'
    refine ⟨o, _, hread, Instant.lt_trans hlater (lt_of_stampAfter hstamp), ?_⟩
    rw [patchedRow_again]

section
variable (supply : Supply) {id : String} (patch : OverridePatch)
  {before after : List OverrideColumns} {c : OverrideColumns} {row : OverrideRow}
  (hbefore : ∀ b ∈ before, b.id ≠ some id) (hload : c.load = .ok row) (hid : row.id = id)
  {t u : Server} (ht : t.committed.overrides = before ++ c :: after) {o : Override}
  (hanswer : answer supply (.updateOverride id patch) t = (.ok (some o), u))

include hbefore hload hid ht hanswer

/-- An update that answers with an override has stored what was read of the columns that it does not
name. -/
theorem updateOverride_keepsUnderstood :
    ∃ c' row' added, u.committed.overrides = before ++ c' :: (after ++ added) ∧
      c'.load = .ok row' ∧ row'.toOverride = .ok o ∧ row.updatedAt < row'.updatedAt ∧
      OverrideRow.KeepsUnnamed patch row.understood row' := by
  have hcolumn : c.id = some id := hid ▸ (OverrideColumns.columns_of_load hload).1
  obtain ⟨c', row', added, hrows, hamends, hload', hread'⟩ :=
    updateOverride_amends supply patch hbefore hcolumn ht hanswer
  obtain ⟨old, stamp, hread, hlater, rfl⟩ := exists_stamp_of_amends ideal hload hamends
  cases (OverrideColumns.load_ofRow ideal _).symm.trans hload'
  have hkept := OverrideRow.keepsUnnamed_patchedRow patch old stamp
  rw [OverrideRow.ofOverride_of_toOverride hread] at hkept
  rw [OverrideRow.updatedAt_of_toOverride hread] at hlater
  exact ⟨_, _, added, hrows, hload', hread', hlater, hkept⟩

/-- **What an update leaves alone.** Let the columns keep every value, let a row be the first one
with its id, and let it pass the checks of its table. If an update of it answers with an override,
whatever disturbs the server meanwhile, then the row stands in its place with a later time of
update, and all other columns that the patch does not name have their values, except that a mapping
that is no object is unset. So all that is not named is left alone exactly if the mapping is named
or is an object. The other rows have not changed. -/
theorem updateOverride_keepsUnnamed_iff (hcheck : row.check = .ok ()) :
    ∃ c' row' added, u.committed.overrides = before ++ c' :: (after ++ added) ∧
      c'.load = .ok row' ∧ row'.toOverride = .ok o ∧ row.updatedAt < row'.updatedAt ∧
      OverrideRow.KeepsUnnamed patch
        { row with ingestMapping := row.ingestMapping.filter fun d => d.json.isObject } row' ∧
      (OverrideRow.KeepsUnnamed patch row row' ↔
        (patch.ingestMapping = .keep → ∀ d ∈ row.ingestMapping, d.json.isObject = true)) := by
  obtain ⟨c', row', added, hrows, hload', hread', hlater, hkept⟩ :=
    updateOverride_keepsUnderstood ideal supply patch hbefore hload hid ht hanswer
  rw [OverrideRow.understood_of_check hcheck] at hkept
  exact ⟨c', row', added, hrows, hload', hread', hlater, hkept, OverrideRow.keepsUnnamed_iff hkept⟩

end

end Server

/-! ## A row with a mapping -/

namespace MappedRow

/-- A row for a route. -/
def row (mapping : Json) : OverrideRow where
  id := "o1"
  scope := "ROUTE"
  routingId := some "r1"
  routingStepId := none
  sourceStepKey := none
  operationId := none
  stationType := some "AUTO"
  stationGroupId := none
  allowedStationIds := none
  requiresFAI := none
  requiresAuthorization := none
  dataSpecIds := none
  ingestMapping := some (.ofJson mapping)
  info := none
  createdAt := ⟨0, 0⟩
  updatedAt := ⟨0, 0⟩

/-- A change of one other column. -/
def patch : OverridePatch where
  stationType := .keep
  stationGroupId := .keep
  allowedStationIds := .keep
  requiresFAI := .set true
  requiresAuthorization := .keep
  dataSpecIds := .keep
  ingestMapping := .keep
  info := .keep

def supply : Supply where
  reading _ := ⟨1, 0⟩
  overrideId _ := "o2"
  versionId _ := "v1"

/-- The stored row. -/
def columns [Storage] (mapping : Json) : OverrideColumns := .ofRow (row mapping)

/-- A server with no other row. -/
def server [Storage] (mapping : Json) : Server :=
  .start { Database.empty with
    overrides := [columns mapping]
    tables := Table.ofStore }

/-- The only row is the one with the mapping. -/
theorem rows [Storage] (mapping : Json) :
    (server mapping).committed.overrides = [] ++ columns mapping :: [] := rfl

/-- The update is answered. -/
theorem answered [storage : Storage] (ideal : storage.Ideal) (mapping : Json) : ∃ o u,
    Server.answer supply (.updateOverride "o1" patch) (server mapping) = (.ok (some o), u) := by
  obtain ⟨old, hread⟩ : ∃ o, (row mapping).toOverride = .ok o := ⟨_, rfl⟩
  have hid : (row mapping).id = old.id := (OverrideRow.id_of_toOverride hread).symm
  have hstamp : Server.stampAfter old.updatedAt (supply.reading 0).truncateToMicros =
      some ⟨1, 0⟩ := by
    rw [OverrideRow.updatedAt_of_toOverride hread]
    rfl
  have hdb := Database.replaceOverride_of_check ideal
    (OverrideRow.check_ofOverride { patch.apply old with updatedAt := ⟨1, 0⟩ }) (rows mapping)
    (congrArg some hid) (by simp)
  exact ⟨_, _, Server.updateOverride_run (requireTexts_of_ideal ideal _)
    (OverrideColumns.load_ofRow ideal _) hread hstamp (OverrideColumns.load_ofRow ideal _) rfl rfl
    (fun _ htable => htable) rfl hdb (OverrideRow.toOverride_ofOverride _)⟩

/-- What the row stands for after the update. -/
def Updated (storage : Storage) (mapping : Json) (row' : OverrideRow) : Prop :=
  ∃ o u c', Server.answer supply (.updateOverride "o1" patch) (server mapping) =
    (.ok (some o), u) ∧ u.committed.overrides.head? = some c' ∧ c'.load = .ok row'

end MappedRow

/-- A mapping that is an object is left alone when another column is changed. -/
theorem Server.updateOverride_keepsUnnamed_iff_objectMapping :
    let mapping : Json := .obj [("value", .str "$.value")]
    (MappedRow.row mapping).check = .ok () ∧
      ∃ row', MappedRow.Updated Storage.exact mapping row' ∧
        (MappedRow.row mapping).KeepsUnnamed MappedRow.patch row' := by
  let _ := Storage.exact
  intro mapping
  obtain ⟨o, u, hanswer⟩ := MappedRow.answered Storage.ideal_exact mapping
  obtain ⟨c', row', added, hrows, hload, -, -, -, hiff⟩ :=
    updateOverride_keepsUnnamed_iff Storage.ideal_exact MappedRow.supply MappedRow.patch
      (by simp) (OverrideColumns.load_ofRow Storage.ideal_exact _) rfl (MappedRow.rows mapping)
      hanswer rfl
  refine ⟨rfl, row', ⟨o, u, c', hanswer, ?_, hload⟩, hiff.2 fun _ d hd => ?_⟩
  · rw [hrows]
    rfl
  · obtain rfl := Option.some.inj hd
    rfl

/-- A list in the place of a mapping is lost when another column is changed. -/
theorem Server.not_keepsUnnamed :
    let mapping : Json := .arr [.str "not", .str "an", .str "object"]
    (MappedRow.row mapping).check = .ok () ∧
      ∃ row', MappedRow.Updated Storage.exact mapping row' ∧
        ¬(MappedRow.row mapping).KeepsUnnamed MappedRow.patch row' := by
  let _ := Storage.exact
  intro mapping
  obtain ⟨o, u, hanswer⟩ := MappedRow.answered Storage.ideal_exact mapping
  obtain ⟨c', row', added, hrows, hload, -, -, hkept⟩ :=
    updateOverride_keepsUnderstood Storage.ideal_exact MappedRow.supply MappedRow.patch
      (by simp) (OverrideColumns.load_ofRow Storage.ideal_exact _) rfl (MappedRow.rows mapping)
      hanswer
  refine ⟨rfl, row', ⟨o, u, c', hanswer, ?_, hload⟩, fun hunnamed => ?_⟩
  · rw [hrows]
    rfl
  · have hcleared := (hunnamed.ingestMapping rfl).symm.trans (hkept.ingestMapping rfl)
    cases hcleared

end RoutePlan
