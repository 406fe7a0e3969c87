import RoutePlan.Proofs.Relational.Amending
import RoutePlan.Relational.Database

/-!
# Operations on the design tables

An operation that succeeds may be repeated without effect (`Database.Settles`), and may still be so
after other operations (`Database.KeptBy`). If that holds of operations done in turn, they may be
repeated as a whole (`Database.settled_of_inTurn`). It holds of the upserts of rows with different
keys (`Database.Upserts`): each leaves its row as the only one with its key. The steps of several
routings are replaced one routing after the other, which moves them to the end of the table; done
once more, this leads to the same order again (`Database.settles_replaceAll`).
-/

namespace RoutePlan

namespace Database

/-- What may be done to a database, unless it is refused. -/
abbrev Operation := Database → Except Refusal Database

variable {f g : Operation} {ops : List Operation} {db db' : Database}

/-- An operation on a table, which must exist. -/
def Operation.on (table : Table) (f : Operation) : Operation := fun db => do
  db.requireTable table
  f db

/-- An operation on a table succeeds exactly if the table exists and the operation does. -/
theorem Operation.on_eq_ok_iff {table : Table} :
    f.on table db = .ok db' ↔ table ∈ db.tables ∧ f db = .ok db' := by
  simp [Operation.on, unit_bind_eq_ok_iff, requireTable, requireThat_eq_ok_iff]

/-- Operations in turn. -/
def inTurn (ops : List Operation) : Operation := fun db => ops.foldlM (fun db f => f db) db

/-- Operations in turn succeed exactly if the first one does and the others do after it. -/
theorem inTurn_cons_eq_ok_iff :
    inTurn (f :: ops) db = .ok db' ↔ ∃ next, f db = .ok next ∧ inTurn ops next = .ok db' := by
  rw [inTurn, List.foldlM_cons, bind_eq_ok_iff]
  rfl

/-- Operations in turn may be parted anywhere. -/
theorem inTurn_append_eq_ok_iff {more : List Operation} :
    inTurn (ops ++ more) db = .ok db' ↔
      ∃ next, inTurn ops db = .ok next ∧ inTurn more next = .ok db' := by
  rw [inTurn, List.foldlM_append, bind_eq_ok_iff]
  rfl

/-- One operation in turn is the operation. -/
theorem inTurn_singleton (f : Operation) : inTurn [f] = f := by
  funext db
  simp [inTurn]

/-! ## Repeated operations -/

/-- Once it has succeeded, the operation succeeds again and changes nothing. -/
def Settles (f : Operation) : Prop := ∀ db db', f db = .ok db' → f db' = .ok db'

/-- If the first operation would change nothing, it still would not after the second one. -/
def KeptBy (f g : Operation) : Prop := ∀ db db', f db = .ok db → g db = .ok db' → f db' = .ok db'

/-- What each of some operations keeps, they keep in turn. -/
theorem KeptBy.inTurn (h : ∀ g ∈ ops, KeptBy f g) : KeptBy f (inTurn ops) := by
  intro db db' hf hops
  induction ops generalizing db with
  | nil =>
    cases hops
    exact hf
  | cons g ops ih =>
    obtain ⟨next, hg, hops⟩ := inTurn_cons_eq_ok_iff.1 hops
    have hnext := h g (List.mem_cons_self ..) db next hf hg
    exact ih (fun g hg => h g (List.mem_cons_of_mem _ hg)) next hnext hops

/-- Operations in turn that keep what earlier ones have settled are settled in the end. -/
theorem settled_of_inTurn (hsettles : ∀ f ∈ ops, Settles f) (hkept : ops.Pairwise KeptBy)
    (h : inTurn ops db = .ok db') : ∀ f ∈ ops, f db' = .ok db' := by
  induction ops generalizing db with
  | nil => simp
  | cons f ops ih =>
    obtain ⟨next, hf, hops⟩ := inTurn_cons_eq_ok_iff.1 h
    obtain ⟨hfirst, hrest⟩ := List.pairwise_cons.1 hkept
    rw [List.forall_mem_cons]
    refine ⟨?_, ih (fun g hg => hsettles g (List.mem_cons_of_mem _ hg)) hrest hops⟩
    exact KeptBy.inTurn hfirst next db' (hsettles f (List.mem_cons_self ..) db next hf) hops

/-- Operations that change nothing change nothing in turn. -/
theorem inTurn_of_settled (h : ∀ f ∈ ops, f db = .ok db) : inTurn ops db = .ok db := by
  induction ops with
  | nil => rfl
  | cons f ops ih =>
    rw [List.forall_mem_cons] at h
    exact inTurn_cons_eq_ok_iff.2 ⟨db, h.1, ih h.2⟩

/-- What each operation relates, operations in turn relate. -/
theorem rel_of_inTurn {r : Database → Database → Prop} (hrefl : ∀ db, r db db)
    (htrans : ∀ {a b c}, r a b → r b c → r a c)
    (hstep : ∀ f ∈ ops, ∀ {db db'}, f db = .ok db' → r db db') (h : inTurn ops db = .ok db') :
    r db db' := by
  induction ops generalizing db with
  | nil =>
    cases h
    exact hrefl _
  | cons f ops ih =>
    obtain ⟨next, hf, hops⟩ := inTurn_cons_eq_ok_iff.1 h
    exact htrans (hstep f (List.mem_cons_self ..) hf)
      (ih (fun g hg => hstep g (List.mem_cons_of_mem _ hg)) hops)

/-! ## Rows that are added or overwritten -/

section
variable {α : Type} {p q : α → Bool} {row : α} {rows : List α}

/-- If the row that is put there is the only one to pass a test, nothing else passes it. -/
theorem filter_upsert_eq_singleton (hothers : ∀ r ∈ rows.eraseP p, q r = false)
    (hrow : q row = true) : (upsert p row rows).filter q = [row] := by
  induction rows with
  | nil => simp [upsert, hrow]
  | cons r rows ih =>
    rw [upsert]
    split
    · next hp =>
      rw [List.eraseP_cons_of_pos hp] at hothers
      simpa [hrow] using hothers
    · next hp =>
      rw [List.eraseP_cons_of_neg hp, List.forall_mem_cons] at hothers
      rw [List.filter_cons_of_neg (by simp [hothers.1]), ih hothers.2]

/-- Rows that pass a test are left alone if neither the row nor what it replaces does. -/
theorem filter_upsert_of_disjoint (hp : ∀ r ∈ rows, p r = true → q r = false)
    (hrow : q row = false) : (upsert p row rows).filter q = rows.filter q := by
  induction rows with
  | nil => simp [upsert, hrow]
  | cons r rows ih =>
    rw [List.forall_mem_cons] at hp
    rw [upsert]
    split
    · next hr => simp [hrow, hp.1 hr]
    · simp only [List.filter_cons, ih hp.2]

/-- A row that is the only one to pass a test is found in its place. -/
theorem upsert_eq_self (h : rows.filter q = [row]) (hp : ∀ r, p r = true → q r = true)
    (hrow : p row = true) : upsert p row rows = rows ∧ ∀ r ∈ rows.eraseP p, q r = false := by
  induction rows with
  | nil => cases h
  | cons r rows ih =>
    cases hq : q r with
    | true =>
      rw [List.filter_cons_of_pos hq, List.cons.injEq, List.filter_eq_nil_iff] at h
      obtain ⟨rfl, hnone⟩ := h
      rw [upsert, if_pos hrow, List.eraseP_cons_of_pos hrow]
      exact ⟨rfl, by simpa using hnone⟩
    | false =>
      have hpr : ¬p r = true := fun hpr => by rw [hp r hpr] at hq; cases hq
      rw [List.filter_cons_of_neg (by simp [hq])] at h
      obtain ⟨heq, hothers⟩ := ih h
      rw [upsert, if_neg hpr, heq, List.eraseP_cons_of_neg hpr, List.forall_mem_cons]
      exact ⟨rfl, hq, hothers⟩

end

/-- The rows of a table. -/
structure Rows (α : Type) where
  get : Database → List α
  set : List α → Database → Database
  get_set : ∀ rows db, get (set rows db) = rows
  set_get : ∀ db, set (get db) db = db
  tables_set : ∀ rows db, (set rows db).tables = db.tables

/-- The operation adds a row to a table or overwrites the one with its key. It is refused if any
other row clashes with it, or unless the tables that there are admit it. -/
structure Upserts {α : Type} (rows : Rows α) (admits : List Table → Prop)
    (same clashes : α → Bool) (row : α) (f : Operation) : Prop where
  same_row : same row = true
  clashes_of_same : ∀ r, same r = true → clashes r = true
  eq_ok_iff : ∀ {db db'}, f db = .ok db' ↔
    admits db.tables ∧ (∀ r ∈ (rows.get db).eraseP same, clashes r = false) ∧
      rows.set (upsert same row (rows.get db)) db = db'

namespace Upserts

variable {α : Type} {rows : Rows α} {admits admits' : List Table → Prop}
  {same same' clashes clashes' q : α → Bool} {row row' : α}

/-- The operation changes nothing if and only if its row is the only one that clashes with it. -/
theorem eq_ok_self_iff (h : Upserts rows admits same clashes row f) :
    f db = .ok db ↔ admits db.tables ∧ (rows.get db).filter clashes = [row] := by
  rw [h.eq_ok_iff]
  constructor
  · rintro ⟨hadmits, hothers, hset⟩
    have hget : upsert same row (rows.get db) = rows.get db := by
      have hrows := congrArg rows.get hset
      rwa [rows.get_set] at hrows
    refine ⟨hadmits, ?_⟩
    rw [← hget]
    exact filter_upsert_eq_singleton hothers (h.clashes_of_same row h.same_row)
  · rintro ⟨hadmits, hone⟩
    obtain ⟨hself, hothers⟩ := upsert_eq_self hone h.clashes_of_same h.same_row
    exact ⟨hadmits, hothers, by rw [hself, rows.set_get]⟩

/-- An upsert that has succeeded succeeds again and changes nothing. -/
theorem settles (h : Upserts rows admits same clashes row f) : Settles f := by
  intro db db' hf
  obtain ⟨hadmits, hothers, rfl⟩ := h.eq_ok_iff.1 hf
  rw [h.eq_ok_self_iff, rows.tables_set, rows.get_set]
  exact ⟨hadmits, filter_upsert_eq_singleton hothers (h.clashes_of_same row h.same_row)⟩

/-- The row is the only one with its key. -/
theorem filter_same_eq (h : Upserts rows admits same clashes row f) (hf : f db = .ok db) :
    (rows.get db).filter same = [row] := by
  obtain ⟨hself, hothers⟩ :=
    upsert_eq_self (h.eq_ok_self_iff.1 hf).2 h.clashes_of_same h.same_row
  rw [← hself]
  refine filter_upsert_eq_singleton (fun r hr => ?_) h.same_row
  rw [← Bool.not_eq_true]
  intro hsame
  have hclashes := hothers r hr
  rw [h.clashes_of_same r hsame] at hclashes
  cases hclashes

/-- Rows with other keys are left alone. -/
theorem filter_eq (h : Upserts rows admits same clashes row f) (hf : f db = .ok db')
    (hq : ∀ r, same r = true → q r = false) : (rows.get db').filter q = (rows.get db).filter q := by
  obtain ⟨-, -, rfl⟩ := h.eq_ok_iff.1 hf
  rw [rows.get_set]
  exact filter_upsert_of_disjoint (fun r _ => hq r) (hq row h.same_row)

/-- A row with another key, which clashes no more than it is clashed with, leaves the row alone. -/
theorem keptBy (hf : Upserts rows admits same clashes row f)
    (hg : Upserts rows admits' same' clashes' row' g) (hsame : same' row = false)
    (hclashes : clashes row' = clashes' row) : KeptBy f g := by
  intro db db' hself hother
  obtain ⟨hadmits, hone⟩ := hf.eq_ok_self_iff.1 hself
  obtain ⟨-, hothers, rfl⟩ := hg.eq_ok_iff.1 hother
  have hrow : row ∈ (rows.get db).filter clashes := hone ▸ List.mem_singleton_self row
  rw [hf.eq_ok_self_iff, rows.tables_set, rows.get_set]
  refine ⟨hadmits, ?_⟩
  rw [filter_upsert_of_disjoint ?_ ?_, hone]
  · intro r hr hkey
    rw [← Bool.not_eq_true]
    intro hr'
    obtain rfl : r = row := by
      simpa [hone] using List.mem_filter.2 ⟨hr, hr'⟩
    rw [hsame] at hkey
    cases hkey
  · rw [hclashes]
    refine hothers row ((List.mem_eraseP_of_neg ?_).2 (List.mem_filter.1 hrow).1)
    rw [hsame]
    exact Bool.false_ne_true

/-- Rows with different ids leave each other alone. -/
theorem pairwise_keptBy {β : Type} {items : List β} {id : β → String}
    {admits : β → List Table → Prop} {same clashes : β → α → Bool} {row : β → α}
    {upsertOf : β → Operation}
    (h : ∀ b, Upserts rows (admits b) (same b) (clashes b) (row b) (upsertOf b))
    (hsame : ∀ b b', same b' (row b) = (id b == id b'))
    (hclashes : ∀ b b', clashes b (row b') = clashes b' (row b)) (hids : (items.map id).Nodup) :
    (items.map upsertOf).Pairwise KeptBy := by
  refine List.pairwise_map.2 ((List.pairwise_map.1 hids).imp fun {b b'} hne => ?_)
  refine (h b).keptBy (h b') ?_ (hclashes b b')
  rw [hsame, beq_eq_false_iff_ne]
  exact hne

/-- An operation on other tables leaves the row alone. -/
theorem keptBy_of_get_eq (hf : Upserts rows admits same clashes row f)
    (hg : ∀ {db db'}, g db = .ok db' → rows.get db' = rows.get db ∧ db'.tables = db.tables) :
    KeptBy f g := by
  intro db db' hself hother
  obtain ⟨hrows, htables⟩ := hg hother
  rw [hf.eq_ok_self_iff, hrows, htables]
  exact hf.eq_ok_self_iff.1 hself

/-- An upsert into another table leaves the row alone. -/
theorem keptBy_other {β : Type} {others : Rows β} {same' clashes' : β → Bool} {row' : β}
    (hf : Upserts rows admits same clashes row f)
    (hg : Upserts others admits' same' clashes' row' g)
    (hget : ∀ rs db, rows.get (others.set rs db) = rows.get db) : KeptBy f g := by
  refine hf.keptBy_of_get_eq fun {db db'} h => ?_
  obtain ⟨-, -, rfl⟩ := hg.eq_ok_iff.1 h
  exact ⟨hget _ db, others.tables_set _ db⟩

end Upserts

/-! ## Routings, station groups and specs -/

namespace Rows

def routings : Rows RoutingColumns :=
  ⟨(·.routings), fun rows db => { db with routings := rows }, fun _ _ => rfl, fun _ => rfl,
    fun _ _ => rfl⟩

def stationGroups : Rows StationGroupColumns :=
  ⟨(·.stationGroups), fun rows db => { db with stationGroups := rows }, fun _ _ => rfl,
    fun _ => rfl, fun _ _ => rfl⟩

def dataSpecs : Rows DataSpecColumns :=
  ⟨(·.dataSpecs), fun rows db => { db with dataSpecs := rows }, fun _ _ => rfl, fun _ => rfl,
    fun _ _ => rfl⟩

end Rows

section
variable [Storage]

/-- The table is there and the texts can be stored. -/
def Admits (table : Table) (texts : List String) (tables : List Table) : Prop :=
  table ∈ tables ∧ requireTexts texts = .ok ()

/-- The upsert of a routing has its id as the key, and clashes with any other row of its code. -/
theorem upserts_routing (r : Routing) :
    Upserts .routings (Admits .routings r.texts) (fun c => c.id == some r.id)
      (fun c => c.id == some r.id || c.code == some r.code) (.ofRouting r)
      (Operation.on .routings (upsertRouting r)) where
  same_row := beq_self_eq_true _
  clashes_of_same c hc := by rw [hc, Bool.true_or]
  eq_ok_iff {db db'} := by
    simp only [Operation.on_eq_ok_iff, upsertRouting, unit_bind_eq_ok_iff, requireThat_eq_ok_iff]
    simp [pure, Except.pure, Rows.routings, Admits, forall_and, and_assoc]

/-- The upsert of a station group has its id as the key, and clashes with any other row of its
code. -/
theorem upserts_stationGroup (g : StationGroup) :
    Upserts .stationGroups (Admits .stationGroups g.texts) (fun c => c.id == some g.id)
      (fun c => c.id == some g.id || c.code == some g.code) (.ofGroup g)
      (Operation.on .stationGroups (upsertStationGroup g)) where
  same_row := beq_self_eq_true _
  clashes_of_same c hc := by rw [hc, Bool.true_or]
  eq_ok_iff {db db'} := by
    simp only [Operation.on_eq_ok_iff, upsertStationGroup, unit_bind_eq_ok_iff,
      requireThat_eq_ok_iff]
    simp [pure, Except.pure, Rows.stationGroups, Admits, forall_and, and_assoc]

/-- The upsert of a spec has its id as the key, and clashes by nothing else. -/
theorem upserts_dataSpec (s : DataSpec) :
    Upserts .dataSpecs (Admits .dataSpecs s.texts) (fun c => c.id == some s.id)
      (fun c => c.id == some s.id) (.ofSpec s)
      (Operation.on .dataSpecs (upsertDataSpec s)) where
  same_row := beq_self_eq_true _
  clashes_of_same _ hc := hc
  eq_ok_iff {db db'} := by
    simp only [Operation.on_eq_ok_iff, upsertDataSpec, unit_bind_eq_ok_iff, requireThat_eq_ok_iff]
    simp [pure, Except.pure, Rows.dataSpecs, Admits, and_assoc]

end

/-! ## Steps of a routing -/

/-- Two stored steps have different keys. -/
def Apart (a b : StepColumns) : Prop :=
  a.id ≠ b.id ∧ ¬(a.routingId = b.routingId ∧ a.stepNo = b.stepNo)

/-- The order of the two steps does not matter. -/
theorem Apart.symm {a b : StepColumns} (h : Apart a b) : Apart b a :=
  ⟨h.1.symm, fun ⟨hrouting, hnumber⟩ => h.2 ⟨hrouting.symm, hnumber.symm⟩⟩

/-- The rows of steps. -/
def stepRows (steps : List RoutingStep) : List StepColumns := steps.map fun s => .ofRow (.ofStep s)

/-- The keys of the steps that are added are new. -/
structure Fit (before added : List StepColumns) : Prop where
  apart : ∀ r ∈ before, ∀ c ∈ added, Apart r c
  pairwise : added.Pairwise Apart

/-- A step is added exactly if its keys are new, and then to the end. -/
theorem addStep_eq_ok_iff {row : RoutingStepRow} {before after : List StepColumns} :
    addStep row before = .ok after ↔
      (∀ r ∈ before, Apart r (.ofRow row)) ∧ before ++ [.ofRow row] = after := by
  simp only [addStep, unit_bind_eq_ok_iff, requireThat_eq_ok_iff]
  simp [pure, Except.pure, Apart, StepColumns.ofRow, forall_and, and_assoc]

/-- Steps are added one after another exactly if they fit, and then to the end. -/
theorem foldlM_addStep_eq_ok_iff {rows : List RoutingStepRow} {before after : List StepColumns} :
    rows.foldlM (fun steps row => addStep row steps) before = .ok after ↔
      Fit before (rows.map .ofRow) ∧ before ++ rows.map .ofRow = after := by
  induction rows generalizing before with
  | nil =>
    simp only [List.foldlM_nil, List.map_nil, List.append_nil]
    constructor
    · intro h
      exact ⟨⟨by simp, List.Pairwise.nil⟩, Except.ok.inj h⟩
    · rintro ⟨-, rfl⟩
      rfl
  | cons row rows ih =>
    simp only [List.foldlM_cons, bind_eq_ok_iff, addStep_eq_ok_iff, ih, List.map_cons]
    constructor
    · rintro ⟨_, ⟨hrow, rfl⟩, hrest, rfl⟩
      refine ⟨⟨fun r hr => ?_, ?_⟩, by simp⟩
      · rw [List.forall_mem_cons]
        exact ⟨hrow r hr, hrest.apart r (List.mem_append_left _ hr)⟩
      · exact List.pairwise_cons.2
          ⟨hrest.apart _ (List.mem_append_right _ (List.mem_singleton_self _)), hrest.pairwise⟩
    · rintro ⟨hfit, rfl⟩
      obtain ⟨hrow, hrest⟩ := List.pairwise_cons.1 hfit.pairwise
      refine ⟨_, ⟨fun r hr => hfit.apart r hr _ (List.mem_cons_self ..), rfl⟩, ⟨?_, hrest⟩,
        by simp⟩
      intro r hr c hc
      rcases List.mem_append.1 hr with hr | hr
      · exact hfit.apart r hr c (List.mem_cons_of_mem _ hc)
      · rw [List.mem_singleton.1 hr]
        exact hrow c hc

/-! ## Steps in groups -/

/-- Whether a step is of one of the routings. -/
def isGrouped (groups : List (String × List RoutingStep)) (r : StepColumns) : Bool :=
  groups.any fun g => r.routingId == some g.1

/-- Each group is of a routing of its own. -/
structure OwnGroups (groups : List (String × List RoutingStep)) : Prop where
  nodup : (groups.map Prod.fst).Nodup
  own : ∀ g ∈ groups, ∀ s ∈ g.2, s.routingId = g.1

variable {groups : List (String × List RoutingStep)} {g : String × List RoutingStep}

/-- The rows of the steps of a routing are of that routing. -/
theorem routingId_of_mem_stepRows {steps : List RoutingStep} {routingId : String}
    (hown : ∀ s ∈ steps, s.routingId = routingId) {r : StepColumns} (hr : r ∈ stepRows steps) :
    r.routingId = some routingId := by
  obtain ⟨s, hs, rfl⟩ := List.mem_map.1 hr
  exact congrArg some (hown s hs)

/-- The groups after the first one are of routings of their own. -/
theorem OwnGroups.tail (h : OwnGroups (g :: groups)) : OwnGroups groups :=
  ⟨(List.nodup_cons.1 h.nodup).2, fun g hg => h.own g (List.mem_cons_of_mem _ hg)⟩

/-- The steps of the first group belong to no other group. -/
theorem OwnGroups.isGrouped_eq_false (h : OwnGroups (g :: groups)) {r : StepColumns}
    (hr : r ∈ stepRows g.2) : isGrouped groups r = false := by
  have hrouting := routingId_of_mem_stepRows (h.own g (List.mem_cons_self ..)) hr
  rw [isGrouped, List.any_eq_false]
  intro g' hg' heq
  rw [hrouting, beq_iff_eq, Option.some.injEq] at heq
  exact (List.nodup_cons.1 h.nodup).1 (heq ▸ List.mem_map_of_mem hg')

/-- Among some steps, those of a group can replace those of its routing. -/
structure FitsAmong (steps : List StepColumns) (g : String × List RoutingStep) : Prop where
  mem : ∀ c ∈ stepRows g.2, c ∈ steps
  apart : ∀ r ∈ steps, r.routingId ≠ some g.1 → ∀ c ∈ stepRows g.2, Apart r c
  pairwise : (stepRows g.2).Pairwise Apart

section
variable [Storage]

/-- Replaces the steps of a routing. -/
def replaceSteps (routingId : String) (steps : List RoutingStep) : Operation := fun db => do
  let db ← Operation.on .routingSteps (deleteSteps routingId) db
  if steps.isEmpty then return db
  Operation.on .routingSteps (insertSteps (steps.map .ofStep)) db

/-- The table of steps and the routings of the steps are there, and the texts can be stored. -/
structure AdmitsSteps (routingId : String) (steps : List RoutingStep) (db : Database) : Prop where
  table : Table.routingSteps ∈ db.tables
  key : requireTexts [routingId] = .ok ()
  texts : requireTexts ((steps.map RoutingStepRow.ofStep).flatMap RoutingStepRow.texts) = .ok ()
  routings : ∀ s ∈ steps, ∃ r ∈ db.routings, r.id = some s.routingId

/-- The steps of other routings. -/
def otherSteps (routingId : String) (steps : List StepColumns) : List StepColumns :=
  steps.filter fun r => r.routingId != some routingId

/-- Steps are inserted exactly if their texts can be stored, they fit and their routings are
there. -/
theorem insertSteps_eq_ok_iff {rows : List RoutingStepRow} :
    insertSteps rows db = .ok db' ↔ requireTexts (rows.flatMap RoutingStepRow.texts) = .ok () ∧
      Fit db.steps (rows.map .ofRow) ∧
      (∀ row ∈ rows, ∃ r ∈ db.routings, r.id = some row.routingId) ∧
        { db with steps := db.steps ++ rows.map .ofRow } = db' := by
  rw [insertSteps, unit_bind_eq_ok_iff, bind_eq_ok_iff]
  simp only [unit_bind_eq_ok_iff, foldlM_addStep_eq_ok_iff, requireThat_eq_ok_iff]
  simp [pure, Except.pure]

/-- The steps of a routing are deleted exactly if its id can be stored as a text. -/
theorem deleteSteps_eq_ok_iff {routingId : String} :
    deleteSteps routingId db = .ok db' ↔ requireTexts [routingId] = .ok () ∧
      { db with steps := otherSteps routingId db.steps } = db' := by
  simp only [deleteSteps, unit_bind_eq_ok_iff]
  simp [pure, Except.pure, otherSteps]

/-- The steps of a routing are replaced exactly if they may be stored and fit among the steps of the
other routings. -/
theorem replaceSteps_eq_ok_iff {routingId : String} {steps : List RoutingStep} :
    replaceSteps routingId steps db = .ok db' ↔
      AdmitsSteps routingId steps db ∧ Fit (otherSteps routingId db.steps) (stepRows steps) ∧
        { db with steps := otherSteps routingId db.steps ++ stepRows steps } = db' := by
  have hrows : (steps.map RoutingStepRow.ofStep).map .ofRow = stepRows steps := by
    rw [stepRows, List.map_map]
    rfl
  simp only [replaceSteps, bind_eq_ok_iff, Operation.on_eq_ok_iff, deleteSteps_eq_ok_iff]
  constructor
  · rintro ⟨_, ⟨htable, hkey, rfl⟩, h⟩
    cases steps with
    | nil =>
      cases h
      refine ⟨⟨htable, hkey, ?_, by simp⟩, ⟨by simp [stepRows], .nil⟩, by simp [stepRows]⟩
      simp [requireTexts, requireThat]
    | cons s rest =>
      obtain ⟨-, htexts, hfit, hroutings, rfl⟩ := (by
        simpa only [List.isEmpty_cons, Bool.false_eq_true, if_false, Operation.on_eq_ok_iff,
          insertSteps_eq_ok_iff] using h)
      rw [hrows] at hfit
      refine ⟨⟨htable, hkey, htexts, ?_⟩, hfit, by rw [hrows]⟩
      simpa [RoutingStepRow.ofStep] using hroutings
  · rintro ⟨hadmits, hfit, rfl⟩
    refine ⟨_, ⟨hadmits.table, hadmits.key, rfl⟩, ?_⟩
    split
    · next hempty =>
      rw [List.isEmpty_iff.1 hempty]
      simp [stepRows, pure, Except.pure]
    · rw [Operation.on_eq_ok_iff, insertSteps_eq_ok_iff, hrows]
      refine ⟨hadmits.table, hadmits.texts, hfit, ?_, rfl⟩
      simpa [RoutingStepRow.ofStep] using hadmits.routings

/-- A replacement that has succeeded succeeds again. -/
theorem settles_replaceSteps {routingId : String} {steps : List RoutingStep}
    (hown : ∀ s ∈ steps, s.routingId = routingId) : Settles (replaceSteps routingId steps) := by
  intro db db' h
  obtain ⟨hadmits, hfit, rfl⟩ := replaceSteps_eq_ok_iff.1 h
  have hothers : otherSteps routingId (otherSteps routingId db.steps ++ stepRows steps) =
      otherSteps routingId db.steps := by
    have hnone : otherSteps routingId (stepRows steps) = [] := by
      simpa [otherSteps, stepRows, StepColumns.ofRow, RoutingStepRow.ofStep] using hown
    rw [otherSteps, List.filter_append, ← otherSteps, ← otherSteps, hnone, List.append_nil]
    simp [otherSteps]
  rw [replaceSteps_eq_ok_iff, hothers]
  exact ⟨⟨hadmits.table, hadmits.key, hadmits.texts, hadmits.routings⟩, hfit, rfl⟩

/-! ## Steps of several routings -/

/-- Replaces the steps of routings, one routing after the other. -/
def replaceAll (groups : List (String × List RoutingStep)) : Operation :=
  inTurn (groups.map fun g => replaceSteps g.1 g.2)

/-- The steps of the groups come to the end, and the steps of other routings stay. -/
theorem replaceAll_eq_ok (hown : OwnGroups groups) (h : replaceAll groups db = .ok db') :
    { db with
      steps := db.steps.filter (fun r => !isGrouped groups r) ++
        groups.flatMap fun g => stepRows g.2 } = db' := by
  induction groups generalizing db with
  | nil =>
    cases h
    simp [isGrouped]
  | cons g groups ih =>
    obtain ⟨next, hfirst, hrest⟩ := inTurn_cons_eq_ok_iff.1 h
    obtain ⟨-, -, rfl⟩ := replaceSteps_eq_ok_iff.1 hfirst
    rw [← ih hown.tail hrest]
    have hgroup : (stepRows g.2).filter (fun r => !isGrouped groups r) = stepRows g.2 := by
      rw [List.filter_eq_self]
      intro r hr
      rw [hown.isGrouped_eq_false hr, Bool.not_false]
    have hothers : (otherSteps g.1 db.steps).filter (fun r => !isGrouped groups r) =
        db.steps.filter fun r => !isGrouped (g :: groups) r := by
      rw [otherSteps, List.filter_filter]
      congr 1
      funext r
      rw [isGrouped, isGrouped, List.any_cons, Bool.not_or, Bool.and_comm]
      rfl
    rw [List.filter_append, hgroup, hothers, List.flatMap_cons, List.append_assoc]

/-- The steps of other routings are as they were. -/
theorem otherSteps_of_replaceAll (hown : OwnGroups groups) (h : replaceAll groups db = .ok db') :
    db'.steps.filter (fun r => !isGrouped groups r) =
      db.steps.filter fun r => !isGrouped groups r := by
  have hnone : (groups.flatMap fun g => stepRows g.2).filter (fun r => !isGrouped groups r) =
      [] := by
    rw [List.filter_eq_nil_iff]
    intro r hr
    obtain ⟨g, hg, hr⟩ := List.mem_flatMap.1 hr
    have hgrouped : isGrouped groups r = true :=
      List.any_eq_true.2 ⟨g, hg, beq_iff_eq.2 (routingId_of_mem_stepRows (hown.own g hg) hr)⟩
    simp [hgrouped]
  rw [← replaceAll_eq_ok hown h]
  simp only [List.filter_append, List.filter_filter, Bool.and_self, hnone, List.append_nil]

/-- After a replacement a step is one of a group, or it was there before and is of no group. -/
theorem mem_steps_of_replaceAll (hown : OwnGroups groups) (h : replaceAll groups db = .ok db')
    {r : StepColumns} : r ∈ db'.steps ↔
      (r ∈ db.steps ∧ isGrouped groups r = false) ∨ ∃ g ∈ groups, r ∈ stepRows g.2 := by
  rw [← replaceAll_eq_ok hown h]
  simp

/-- The groups that have been stored fit among the steps that are there then. -/
theorem fitsAmong_of_replaceAll (hown : OwnGroups groups) (h : replaceAll groups db = .ok db') :
    ∀ g ∈ groups, AdmitsSteps g.1 g.2 db ∧ FitsAmong db'.steps g := by
  induction groups generalizing db with
  | nil => simp
  | cons g groups ih =>
    obtain ⟨next, hfirst, hrest⟩ := inTurn_cons_eq_ok_iff.1 h
    have hmem := @mem_steps_of_replaceAll _ _ _ _ hown.tail hrest
    have hfits := ih hown.tail hrest
    obtain ⟨hadmits, hfit, rfl⟩ := replaceSteps_eq_ok_iff.1 hfirst
    rw [List.forall_mem_cons]
    refine ⟨⟨hadmits, ?_, ?_, hfit.pairwise⟩, ?_⟩
    · intro c hc
      exact hmem.2 (.inl ⟨List.mem_append_right _ hc, hown.isGrouped_eq_false hc⟩)
    · intro r hr hrouting c hc
      have hcrouting := routingId_of_mem_stepRows (hown.own g (List.mem_cons_self ..)) hc
      rcases hmem.1 hr with ⟨hr, -⟩ | ⟨g', hg', hr⟩
      · rcases List.mem_append.1 hr with hr | hr
        · exact hfit.apart r hr c hc
        · exact absurd (routingId_of_mem_stepRows (hown.own g (List.mem_cons_self ..)) hr) hrouting
      · -- the steps of a later group were added when those of this one were there
        have hcmem := hmem.2 (.inl ⟨List.mem_append_right _ hc, hown.isGrouped_eq_false hc⟩)
        have hother : c.routingId ≠ some g'.1 := fun heq => by
          have hgrouped := hown.isGrouped_eq_false hc
          rw [isGrouped, List.any_eq_false] at hgrouped
          exact hgrouped g' hg' (beq_iff_eq.2 heq)
        exact ((hfits g' hg').2.apart c hcmem hother r hr).symm
    · intro g' hg'
      obtain ⟨hadmits', hfits'⟩ := hfits g' hg'
      exact ⟨⟨hadmits'.table, hadmits'.key, hadmits'.texts, hadmits'.routings⟩, hfits'⟩

/-- Groups that fit among some steps replace each other in a table of such steps. -/
theorem exists_replaceAll {steps : List StepColumns} (hsteps : ∀ r ∈ db.steps, r ∈ steps)
    (hfits : ∀ g ∈ groups, AdmitsSteps g.1 g.2 db ∧ FitsAmong steps g) :
    ∃ db', replaceAll groups db = .ok db' := by
  induction groups generalizing db with
  | nil => exact ⟨db, rfl⟩
  | cons g groups ih =>
    rw [List.forall_mem_cons] at hfits
    obtain ⟨⟨hadmits, hgroup⟩, hrest⟩ := hfits
    let next : Database := { db with steps := otherSteps g.1 db.steps ++ stepRows g.2 }
    have hnext : replaceSteps g.1 g.2 db = .ok next := by
      refine replaceSteps_eq_ok_iff.2 ⟨hadmits, ⟨fun r hr => ?_, hgroup.pairwise⟩, rfl⟩
      obtain ⟨hr, hother⟩ := List.mem_filter.1 hr
      exact hgroup.apart r (hsteps r hr) (by simpa using hother)
    have hmem : ∀ r ∈ next.steps, r ∈ steps := by
      intro r hr
      rcases List.mem_append.1 hr with hr | hr
      · exact hsteps r (List.mem_filter.1 hr).1
      · exact hgroup.mem r hr
    obtain ⟨db', hdb'⟩ := ih hmem fun g hg =>
      have hadmits := (hrest g hg).1
      ⟨⟨hadmits.table, hadmits.key, hadmits.texts, hadmits.routings⟩, (hrest g hg).2⟩
    exact ⟨db', inTurn_cons_eq_ok_iff.2 ⟨next, hnext, hdb'⟩⟩

/-- Replacements that have succeeded succeed again, and the steps come in the same order. -/
theorem settles_replaceAll (hown : OwnGroups groups) : Settles (replaceAll groups) := by
  intro db db' h
  have hfits := fitsAmong_of_replaceAll hown h
  have hdb' := replaceAll_eq_ok hown h
  have hadmits : ∀ g ∈ groups, AdmitsSteps g.1 g.2 db' ∧ FitsAmong db'.steps g := by
    intro g hg
    obtain ⟨hadmits, hgroup⟩ := hfits g hg
    refine ⟨?_, hgroup⟩
    rw [← hdb']
    exact ⟨hadmits.table, hadmits.key, hadmits.texts, hadmits.routings⟩
  obtain ⟨again, hagain⟩ := exists_replaceAll (fun _ hr => hr) hadmits
  have hsame : again = db' := by
    rw [← replaceAll_eq_ok hown hagain, otherSteps_of_replaceAll hown h, ← hdb']
  rw [hagain, hsame]

end

end Database
end RoutePlan
