import RoutePlan.Command.Run
import RoutePlan.Proofs.Design.Grouping
import RoutePlan.Proofs.Relational.Operations

/-!
# An import writes the file

An import performs operations in turn (`DesignData.operations`): it upserts the routings, the
station groups and the specs of the file, and then replaces the steps of each routing that has any
there. If the ids of the file are distinct, no operation undoes another one, so afterwards the
tables have what the file says (`DesignData.Imported`) and the operations may be repeated without
effect. A text that is no file of design data, or one with a step number twice, is refused before
anything is written (`Command.importFrom_exact`).
-/

namespace RoutePlan

open Database (Operation Settles KeptBy inTurn)

namespace DesignData

variable {d : DesignData} {groups : List (String × List RoutingStep)} {db db' : Database}

/-! ## What an import does -/

/-- The upserts of an import. -/
def upserts (d : DesignData) : List Operation :=
  d.routings.map (fun r => .on .routings (Database.upsertRouting r)) ++
    d.stationGroups.map (fun g => .on .stationGroups (Database.upsertStationGroup g)) ++
    d.dataSpecs.map fun s => .on .dataSpecs (Database.upsertDataSpec s)

/-- The operations of an import, with the steps of the file grouped by routing. -/
def operations (d : DesignData) (groups : List (String × List RoutingStep)) : List Operation :=
  d.upserts ++ [Database.replaceAll groups]

/-- The server replaces the steps of a routing by the operation on its table. -/
theorem performs_replaceSteps {routingId : String} {steps : List RoutingStep}
    (hown : ∀ s ∈ steps, s.routingId = routingId) :
    Server.Performs (Server.replaceSteps routingId steps)
      (Database.replaceSteps routingId steps) := by
  refine (Server.attempts_transaction ?_).unit (Database.settles_replaceSteps hown)
  refine (Server.performsWithin_change rfl).bind ?_
  cases steps with
  | nil => exact Server.performsWithin_pure
  | cons s steps => exact Server.performsWithin_change rfl

/-- The steps that are grouped by routing. -/
theorem ownGroups (h : IsGrouping d.steps groups) : Database.OwnGroups groups where
  nodup := by
    refine List.pairwise_map.2 (h.ascending.imp fun {g g'} hlt heq => ?_)
    rw [heq] at hlt
    exact String.lt_irrefl _ (lt_iff_utf8Bytes_lt.2 hlt)
  own g hg s hs := by
    rw [h.members g hg] at hs
    simpa using (List.mem_filter.1 hs).2

/-- The server writes a file by the operations of an import in turn. -/
theorem performs_write (d : DesignData) (hown : Database.OwnGroups groups) :
    Server.Performs (d.write groups) (inTurn (d.operations groups)) := by
  have hroutings : Server.Performs (d.routings.forM Server.upsertRouting)
      (inTurn (d.routings.map fun r => .on .routings (Database.upsertRouting r))) :=
    Server.performs_forM fun r _ =>
      (Server.attempts_change rfl).unit (Database.upserts_routing r).settles
  have hgroups : Server.Performs (d.stationGroups.forM Server.upsertStationGroup)
      (inTurn (d.stationGroups.map fun g => .on .stationGroups (Database.upsertStationGroup g))) :=
    Server.performs_forM fun g _ =>
      (Server.attempts_change rfl).unit (Database.upserts_stationGroup g).settles
  have hspecs : Server.Performs (d.dataSpecs.forM Server.upsertDataSpec)
      (inTurn (d.dataSpecs.map fun s => .on .dataSpecs (Database.upsertDataSpec s))) :=
    Server.performs_forM fun s _ =>
      (Server.attempts_change rfl).unit (Database.upserts_dataSpec s).settles
  have hsteps : Server.Performs (groups.forM fun g => Server.replaceSteps g.1 g.2)
      (Database.replaceAll groups) :=
    Server.performs_forM fun g hg => performs_replaceSteps (hown.own g hg)
  have hwrite := hroutings.bind (hgroups.bind (hspecs.bind hsteps.single))
  rwa [← List.append_assoc, ← List.append_assoc] at hwrite

/-! ## Settled operations -/

/-- The ids of the rows that are upserted are distinct. -/
structure DistinctIds (d : DesignData) : Prop where
  routings : (d.routings.map (·.id)).Nodup
  stationGroups : (d.stationGroups.map (·.id)).Nodup
  dataSpecs : (d.dataSpecs.map (·.id)).Nodup

/-- Every operation of an import may be repeated once it has succeeded. -/
theorem settles_operations (hown : Database.OwnGroups groups) :
    ∀ f ∈ d.operations groups, Settles f := by
  intro f hf
  simp only [operations, upserts, List.mem_append, List.mem_map, List.mem_singleton] at hf
  rcases hf with ((⟨r, -, rfl⟩ | ⟨g, -, rfl⟩) | ⟨s, -, rfl⟩) | rfl
  · exact (Database.upserts_routing r).settles
  · exact (Database.upserts_stationGroup g).settles
  · exact (Database.upserts_dataSpec s).settles
  · exact Database.settles_replaceAll hown

/-- No operation undoes an earlier one: it works on another table or under another key. -/
theorem keptBy_operations (hids : d.DistinctIds) (hown : Database.OwnGroups groups) :
    (d.operations groups).Pairwise KeptBy := by
  have hsteps {α : Type} {rows : Database.Rows α}
      (hget : ∀ steps db, rows.get { db with steps } = rows.get db) {db db' : Database}
      (h : Database.replaceAll groups db = .ok db') :
      rows.get db' = rows.get db ∧ db'.tables = db.tables := by
    rw [← Database.replaceAll_eq_ok hown h]
    exact ⟨hget _ db, rfl⟩
  have hroutings := Database.Upserts.pairwise_keptBy Database.upserts_routing
    (by simp [RoutingColumns.ofRouting]) (by simp [RoutingColumns.ofRouting, Bool.beq_comm])
    hids.routings
  have hgroups := Database.Upserts.pairwise_keptBy Database.upserts_stationGroup
    (by simp [StationGroupColumns.ofGroup]) (by simp [StationGroupColumns.ofGroup, Bool.beq_comm])
    hids.stationGroups
  have hspecs := Database.Upserts.pairwise_keptBy Database.upserts_dataSpec
    (by simp [DataSpecColumns.ofSpec]) (by simp [DataSpecColumns.ofSpec, Bool.beq_comm])
    hids.dataSpecs
  refine List.pairwise_append.2 ⟨List.pairwise_append.2 ⟨List.pairwise_append.2
    ⟨hroutings, hgroups, ?_⟩, hspecs, ?_⟩, List.pairwise_singleton _ _, ?_⟩
  · simp only [List.forall_mem_map]
    intro r _ g _
    exact (Database.upserts_routing r).keptBy_other (Database.upserts_stationGroup g) fun _ _ => rfl
  · simp only [List.forall_mem_append, List.forall_mem_map]
    refine ⟨fun r _ s _ => ?_, fun g _ s _ => ?_⟩
    · exact (Database.upserts_routing r).keptBy_other (Database.upserts_dataSpec s) fun _ _ => rfl
    · exact (Database.upserts_stationGroup g).keptBy_other (Database.upserts_dataSpec s)
        fun _ _ => rfl
  · simp only [upserts, List.forall_mem_append, List.forall_mem_map, List.forall_mem_singleton]
    refine ⟨⟨fun r _ => ?_, fun g _ => ?_⟩, fun s _ => ?_⟩
    · exact (Database.upserts_routing r).keptBy_of_get_eq (hsteps fun _ _ => rfl)
    · exact (Database.upserts_stationGroup g).keptBy_of_get_eq (hsteps fun _ _ => rfl)
    · exact (Database.upserts_dataSpec s).keptBy_of_get_eq (hsteps fun _ _ => rfl)

/-! ## What the tables have afterwards -/

/-- The rows of no id in the file, the steps of no routing that has steps there, and all other
tables are as they were. -/
structure SparesOthers (d : DesignData) (before after : Database) : Prop where
  routings : after.routings.filter (fun c => d.routings.all fun r => c.id != some r.id) =
    before.routings.filter fun c => d.routings.all fun r => c.id != some r.id
  stationGroups :
    after.stationGroups.filter (fun c => d.stationGroups.all fun g => c.id != some g.id) =
      before.stationGroups.filter fun c => d.stationGroups.all fun g => c.id != some g.id
  dataSpecs : after.dataSpecs.filter (fun c => d.dataSpecs.all fun s => c.id != some s.id) =
    before.dataSpecs.filter fun c => d.dataSpecs.all fun s => c.id != some s.id
  steps : after.steps.filter (fun c => d.steps.all fun s => c.routingId != some s.routingId) =
    before.steps.filter fun c => d.steps.all fun s => c.routingId != some s.routingId
  overrides : after.overrides = before.overrides
  versions : after.versions = before.versions
  migrations : after.migrations = before.migrations
  tables : after.tables = before.tables

/-- Whoever does nothing leaves all other rows alone. -/
theorem SparesOthers.refl (d : DesignData) (db : Database) : d.SparesOthers db db :=
  ⟨rfl, rfl, rfl, rfl, rfl, rfl, rfl, rfl⟩

/-- What leaves the other rows alone twice leaves them alone. -/
theorem SparesOthers.trans {next : Database} (h : d.SparesOthers db next)
    (h' : d.SparesOthers next db') : d.SparesOthers db db' where
  routings := h'.routings.trans h.routings
  stationGroups := h'.stationGroups.trans h.stationGroups
  dataSpecs := h'.dataSpecs.trans h.dataSpecs
  steps := h'.steps.trans h.steps
  overrides := h'.overrides.trans h.overrides
  versions := h'.versions.trans h.versions
  migrations := h'.migrations.trans h.migrations
  tables := h'.tables.trans h.tables

/-- The tables have what the file says, and otherwise what they had. -/
structure Imported (d : DesignData) (before after : Database) : Prop where
  routings : ∀ r ∈ d.routings,
    after.routings.filter (fun c => c.id == some r.id) = [.ofRouting r]
  stationGroups : ∀ g ∈ d.stationGroups,
    after.stationGroups.filter (fun c => c.id == some g.id) = [.ofGroup g]
  dataSpecs : ∀ s ∈ d.dataSpecs,
    after.dataSpecs.filter (fun c => c.id == some s.id) = [.ofSpec s]
  steps : ∀ s ∈ d.steps, after.steps.filter (fun c => c.routingId == some s.routingId) =
    Database.stepRows (stepsOf d.steps s.routingId)
  others : d.SparesOthers before after

/-- A stored step is of one of the groups exactly if the file has a step of its routing. -/
theorem isGrouped_iff (hgroups : IsGrouping d.steps groups) {c : StepColumns} :
    Database.isGrouped groups c = true ↔ ∃ s ∈ d.steps, c.routingId = some s.routingId := by
  simp only [Database.isGrouped, List.any_eq_true, beq_iff_eq]
  constructor
  · rintro ⟨g, hg, hc⟩
    obtain ⟨s, hs, heq⟩ := List.mem_map.1 ((hgroups.ids g.1).1 (List.mem_map_of_mem hg))
    exact ⟨s, hs, hc.trans (congrArg some heq.symm)⟩
  · rintro ⟨s, hs, hc⟩
    obtain ⟨g, hg, heq⟩ := List.mem_map.1 ((hgroups.ids s.routingId).2 (List.mem_map_of_mem hs))
    exact ⟨g, hg, hc.trans (congrArg some heq.symm)⟩

/-- The replacement of the steps leaves the rows alone that the file does not name. -/
theorem sparesOthers_of_replaceAll (hgroups : IsGrouping d.steps groups)
    (h : Database.replaceAll groups db = .ok db') : d.SparesOthers db db' := by
  have hother : (fun c : StepColumns => d.steps.all fun s => c.routingId != some s.routingId) =
      fun c => !Database.isGrouped groups c := by
    funext c
    rw [Bool.eq_iff_iff, Bool.not_eq_true', ← Bool.not_eq_true, isGrouped_iff hgroups]
    simp
  have hsteps := Database.otherSteps_of_replaceAll (ownGroups hgroups) h
  rw [← hother] at hsteps
  rw [← Database.replaceAll_eq_ok (ownGroups hgroups) h] at hsteps ⊢
  exact { SparesOthers.refl d db with steps := hsteps }

/-- The operations of an import leave the rows alone that the file does not name. -/
theorem sparesOthers_of_operations (hgroups : IsGrouping d.steps groups)
    (h : inTurn (d.operations groups) db = .ok db') : d.SparesOthers db db' := by
  refine Database.rel_of_inTurn (SparesOthers.refl d) SparesOthers.trans ?_ h
  intro f hf db db' h
  simp only [operations, upserts, List.mem_append, List.mem_map, List.mem_singleton] at hf
  rcases hf with ((⟨r, hr, rfl⟩ | ⟨g, hg, rfl⟩) | ⟨s, hs, rfl⟩) | rfl
  · have hrows := (Database.upserts_routing r).filter_eq h
      (q := fun c => d.routings.all fun r => c.id != some r.id)
      fun c hc => List.all_eq_false.2 ⟨r, hr, by simpa using hc⟩
    obtain ⟨-, -, rfl⟩ := (Database.upserts_routing r).eq_ok_iff.1 h
    exact { SparesOthers.refl d db with routings := hrows }
  · have hrows := (Database.upserts_stationGroup g).filter_eq h
      (q := fun c => d.stationGroups.all fun g => c.id != some g.id)
      fun c hc => List.all_eq_false.2 ⟨g, hg, by simpa using hc⟩
    obtain ⟨-, -, rfl⟩ := (Database.upserts_stationGroup g).eq_ok_iff.1 h
    exact { SparesOthers.refl d db with stationGroups := hrows }
  · have hrows := (Database.upserts_dataSpec s).filter_eq h
      (q := fun c => d.dataSpecs.all fun s => c.id != some s.id)
      fun c hc => List.all_eq_false.2 ⟨s, hs, by simpa using hc⟩
    obtain ⟨-, -, rfl⟩ := (Database.upserts_dataSpec s).eq_ok_iff.1 h
    exact { SparesOthers.refl d db with dataSpecs := hrows }
  · exact sparesOthers_of_replaceAll hgroups h

/-- The steps of one routing among those of all groups. -/
theorem filter_stepRows (hgroups : IsGrouping d.steps groups) {routingId : String}
    (hid : routingId ∈ d.steps.map (·.routingId)) :
    (groups.flatMap fun g => Database.stepRows g.2).filter
        (fun c => c.routingId == some routingId) =
      Database.stepRows (stepsOf d.steps routingId) := by
  have hown := ownGroups hgroups
  obtain ⟨g, hg, rfl⟩ := List.mem_map.1 ((hgroups.ids routingId).2 hid)
  rw [← hgroups.members g hg]
  obtain ⟨before, after, rfl⟩ := List.append_of_mem hg
  have hnodup := hown.nodup
  rw [List.map_append, List.map_cons, List.nodup_middle, List.nodup_cons] at hnodup
  have hothers : ∀ g' ∈ before ++ after, ∀ c ∈ Database.stepRows g'.2,
      (c.routingId == some g.1) = false := by
    intro g' hg' c hc
    have hmem : g' ∈ before ++ g :: after := by
      simp only [List.mem_append, List.mem_cons] at hg' ⊢
      exact hg'.imp_right .inr
    rw [Database.routingId_of_mem_stepRows (hown.own g' hmem) hc, beq_eq_false_iff_ne]
    intro heq
    rw [← List.map_append] at hnodup
    exact hnodup.1 (Option.some.inj heq ▸ List.mem_map_of_mem hg')
  have hnone {part : List (String × List RoutingStep)} (hpart : part ⊆ before ++ after) :
      (part.flatMap fun g => Database.stepRows g.2).filter (fun c => c.routingId == some g.1) =
        [] := by
    rw [List.filter_eq_nil_iff]
    intro c hc
    obtain ⟨g', hg', hc⟩ := List.mem_flatMap.1 hc
    rw [hothers g' (hpart hg') c hc]
    exact Bool.false_ne_true
  have hown' : (Database.stepRows g.2).filter (fun c => c.routingId == some g.1) =
      Database.stepRows g.2 := by
    rw [List.filter_eq_self]
    intro c hc
    exact beq_iff_eq.2 (Database.routingId_of_mem_stepRows (hown.own g hg) hc)
  rw [List.flatMap_append, List.flatMap_cons, List.filter_append, List.filter_append,
    hnone (List.subset_append_left ..), hnone (List.subset_append_right ..), hown', List.nil_append,
    List.append_nil]

/-- If the ids are distinct, the operations leave what the file says, and may be repeated. -/
theorem imported_of_operations (hids : d.DistinctIds) (hgroups : IsGrouping d.steps groups)
    (h : inTurn (d.operations groups) db = .ok db') :
    d.Imported db db' ∧ inTurn (d.operations groups) db' = .ok db' := by
  have hown := ownGroups hgroups
  have hsettled := Database.settled_of_inTurn (settles_operations hown)
    (keptBy_operations hids hown) h
  refine ⟨?_, Database.inTurn_of_settled hsettled⟩
  have hothers := sparesOthers_of_operations hgroups h
  simp only [operations, upserts, List.forall_mem_append, List.forall_mem_map,
    List.forall_mem_singleton] at hsettled
  obtain ⟨⟨⟨hroutings, hstationGroups⟩, hspecs⟩, hsteps⟩ := hsettled
  refine ⟨fun r hr => ?_, fun g hg => ?_, fun s hs => ?_, fun s hs => ?_, hothers⟩
  · exact (Database.upserts_routing r).filter_same_eq (hroutings r hr)
  · exact (Database.upserts_stationGroup g).filter_same_eq (hstationGroups g hg)
  · exact (Database.upserts_dataSpec s).filter_same_eq (hspecs s hs)
  · have hrows := congrArg Database.steps (Database.replaceAll_eq_ok hown hsteps)
    have hnone : (db'.steps.filter fun c => !Database.isGrouped groups c).filter
        (fun c => c.routingId == some s.routingId) = [] := by
      rw [List.filter_eq_nil_iff]
      intro c hc hrouting
      have hgrouped := (isGrouped_iff hgroups).2 ⟨s, hs, beq_iff_eq.1 hrouting⟩
      simp [hgrouped] at hc
    rw [← hrows, List.filter_append, hnone, List.nil_append]
    exact filter_stepRows hgroups (List.mem_map_of_mem hs)

end DesignData

namespace Command

section
variable {α β : Type} {text : String} {data : DesignData} {t u : Server}

/-! ## Runs of an import -/

/-- A command ends where its text is refused. -/
theorem accept_bind_run_of_error {e : InputError} (f : α → CommandWork β) (t : Server) :
    (accept (.error e) >>= f).run t = (.error (.input e), t) := rfl

/-- A command goes on with what its text says. -/
theorem accept_bind_run_of_ok (a : α) (f : α → CommandWork β) (t : Server) :
    (accept (.ok a) >>= f).run t = (f a).run t := rfl

/-- A command goes on with what the database returns. -/
theorem store_bind_run (work : Work α) (f : α → CommandWork β) (t : Server) :
    (store work >>= f).run t =
      ExceptT.bindCont f ((work.run t).1.mapError .database) (work.run t).2 := rfl

/-- A file that can be read and grouped is imported if and only if it can be written. -/
theorem importFrom_run_eq_ok_iff {groups : List (String × List RoutingStep)} {result : Json}
    (hread : DesignData.read text = .ok data)
    (hgroups : DesignData.groupSteps data.steps = .ok groups) :
    (importFrom text).run t = (.ok result, u) ↔
      (data.write groups).run t = (.ok (), u) ∧ data.counts = result := by
  rw [importFrom, hread, accept_bind_run_of_ok, hgroups, accept_bind_run_of_ok, store_bind_run]
  obtain ⟨written, s⟩ := (data.write groups).run t
  cases written with
  | error e =>
    constructor
    · intro h
      cases h
    · rintro ⟨h, -⟩
      cases h
  | ok a =>
    constructor
    · intro h
      cases h
      exact ⟨rfl, rfl⟩
    · rintro ⟨h, rfl⟩
      cases h
      rfl

/-- **An import writes the file, and may be repeated.** A text that is no file of design data is
refused, and so is one with a number twice among the steps of a routing; nothing is written then. If
the ids of the file are distinct, no other writer has rows to commit and the import succeeds,
whatever strikes the server, the tables have what the file says and otherwise what they had; and
where nothing strikes the server, the text can be imported once more, with the same result, which
changes no data. -/
theorem importFrom_exact (text : String) (t : Server) :
    (∀ e, DesignData.read text = .error e → (importFrom text).run t = (.error (.input e), t)) ∧
    ∀ data, DesignData.read text = .ok data →
      ((∃ place, 2 ≤ (data.steps.map RoutingStep.place).count place) →
        ∃ e, (importFrom text).run t = (.error (.input e), t)) ∧
      (t.Calm → data.DistinctIds → ∀ result u, (importFrom text).run t = (.ok result, u) →
        data.Imported t.committed u.committed ∧
          ∀ v, v.Quiet → v.committed = u.committed →
            ∃ w, (importFrom text).run v = (.ok result, w) ∧ w.committed = v.committed) := by
  refine ⟨fun e hread => ?_, fun data hread => ?_⟩
  · rw [importFrom, hread, accept_bind_run_of_error]
  rcases DesignData.groupSteps_cases data.steps with
    ⟨groups, hok, hgroups, hnodup⟩ | ⟨step, -, herror⟩
  · refine ⟨?_, fun ht hids result u h => ?_⟩
    · rintro ⟨place, htwice⟩
      have honce := List.nodup_iff_count_le_one.1 hnodup place
      omega
    · have hperforms := data.performs_write (DesignData.ownGroups hgroups)
      obtain ⟨hrun, hresult⟩ := (importFrom_run_eq_ok_iff hread hok).1 h
      obtain ⟨hops, -⟩ := hperforms.sound ht hrun
      obtain ⟨himported, hagain⟩ := DesignData.imported_of_operations hids hgroups hops
      refine ⟨himported, fun v hv hdata => ?_⟩
      rw [← hdata] at hagain
      obtain ⟨w, hrun', hsame, -⟩ := hperforms.complete hv hagain
      exact ⟨w, (importFrom_run_eq_ok_iff hread hok).2 ⟨hrun', hresult⟩, hsame⟩
  · have hrefused : (importFrom text).run t =
        (.error (.input (.duplicateStep step.routingId step.stepNo)), t) := by
      rw [importFrom, hread, accept_bind_run_of_ok, herror, accept_bind_run_of_error]
    refine ⟨fun _ => ⟨_, hrefused⟩, fun _ _ result u h => ?_⟩
    rw [hrefused] at h
    cases h

end

/-! ## A source key that is taken back -/

namespace TakenBack

/-- A file with a routing that has no source key, and a step. -/
def text : String :=
  "\x7b\"routings\": [\x7b\"id\": \"r1\", \"code\": \"R1\", \"name\": \"Main\", " ++
    "\"sourceSystem\": \"ERP\", \"sourceKey\": null\x7d], " ++
    "\"steps\": [\x7b\"id\": \"s2\", \"routingId\": \"r1\", \"stepNo\": 10, " ++
    "\"operationId\": \"op1\", \"requiresFAI\": true\x7d]\x7d"

def data : DesignData :=
  ⟨[⟨"r1", "R1", "Main", "ERP", none⟩], [⟨"s2", "r1", 10, "op1", none, none, none, true⟩], [], []⟩

/-- The routing has a source key and another step. -/
def server : Server :=
  Server.start
    { Database.empty with
      routings := [.ofRouting ⟨"r1", "R1", "Main", "ERP", some "K1"⟩]
      steps := [.ofRow (.ofStep ⟨"s1", "r1", 10, "op1", none, none, none, false⟩)]
      tables := Table.ofStore }

/-- How the server writes the file. -/
def written : Except DatabaseError Unit × Server :=
  (data.write [("r1", data.steps)]).run server

end TakenBack

/-- The source key goes, and the step of the file replaces the other one. -/
theorem importFrom_exact_takenBack :
    ∃ u, (importFrom TakenBack.text).run TakenBack.server = (.ok TakenBack.data.counts, u) ∧
      u.committed.routings.map (·.sourceKey) = [none] ∧
      u.committed.steps.map (·.id) = [some "s2"] ∧
      TakenBack.data.Imported TakenBack.server.committed u.committed := by
  have hread : DesignData.read TakenBack.text = .ok TakenBack.data := by decide +kernel
  have hids : TakenBack.data.DistinctIds := ⟨by decide, by decide, by decide⟩
  have hgroups : DesignData.groupSteps TakenBack.data.steps =
      .ok [("r1", TakenBack.data.steps)] := by decide +kernel
  have hwritten : TakenBack.written.1 = .ok () ∧
      TakenBack.written.2.committed.routings.map (·.sourceKey) = [none] ∧
      TakenBack.written.2.committed.steps.map (·.id) = [some "s2"] := by
    decide +kernel
  generalize hwrite : TakenBack.written = written at hwritten
  obtain ⟨result, u⟩ := written
  obtain ⟨rfl, hkeys, hsteps⟩ := hwritten
  have hrun := (importFrom_run_eq_ok_iff hread hgroups).2 ⟨hwrite, rfl⟩
  obtain ⟨-, himport⟩ := (importFrom_exact TakenBack.text TakenBack.server).2 _ hread
  exact ⟨u, hrun, hkeys, hsteps, (himport ⟨rfl, rfl⟩ hids _ _ hrun).1⟩

end Command
end RoutePlan
