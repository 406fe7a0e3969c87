import Mathlib.Logic.Function.Iterate
import RoutePlan.Proofs.Relational.Answers
import RoutePlan.Proofs.Relational.Ensures

/-!
# Work that is tried again

What a unit of work leaves behind is what its last run has left, and every run before that has
failed for a transient reason (`Server.retrying_eq`). So what each failed run keeps holds when the
last one begins (`Server.exists_of_retrying`). A run may be disturbed: a fault strikes a statement,
and other writers commit rows that they had to commit (`Server.Passes`). Here is one lemma for each
way of putting work together, that says in which cases it ends as it does.
-/

namespace RoutePlan

/-- A function of a value succeeds exactly if the value is there. -/
theorem map_eq_ok_iff {ε α β : Type} {x : Except ε α} {f : α → β} {b : β} :
    x.map f = .ok b ↔ ∃ a, x = .ok a ∧ f a = b := by
  cases x <;> simp [Except.map]

@[simp] theorem Database.insertRawRows_nil (db : Database) : db.insertRawRows [] = db := rfl

/-- Two lists of rows may be brought in one after the other. -/
theorem Database.insertRawRows_append (db : Database) (rows more : List RawRow) :
    db.insertRawRows (rows ++ more) = (db.insertRawRows rows).insertRawRows more :=
  List.foldl_append

/-- The last row is brought in last. -/
theorem Database.insertRawRows_concat (db : Database) (rows : List RawRow) (row : RawRow) :
    db.insertRawRows (rows ++ [row]) = (db.insertRawRows rows).insertRaw row :=
  List.foldl_append

namespace Server

variable {α β : Type} {t s u : Server}

/-! ## Runs in turn -/

section
variable {work : Work α} {tries k : Nat}

/-- The server after a number of runs. -/
def afterRuns (work : Work α) (k : Nat) (t : Server) : Server := (fun s => (work.run s).2)^[k] t

/-- The result of one more run. -/
def resultAfter (work : Work α) (k : Nat) (t : Server) : Except DatabaseError α :=
  (work.run (afterRuns work k t)).1

/-- After `k` runs there is one more, which is the last one: all before have failed for a transient
reason, and it has not or there are no tries left. -/
structure StopsAfter (work : Work α) (tries k : Nat) (t : Server) : Prop where
  le : k ≤ tries
  earlier : ∀ j < k, ∃ e, resultAfter work j t = .error e ∧ e.isRetryable = true
  last : k = tries ∨ ∀ e, resultAfter work k t = .error e → e.isRetryable = false

/-- One more run begins where the runs before have ended. -/
theorem afterRuns_succ (work : Work α) (k : Nat) (t : Server) :
    afterRuns work (k + 1) t = (work.run (afterRuns work k t)).2 :=
  Function.iterate_succ_apply' _ k t

/-- A run that has not failed for a transient reason is the last one. -/
theorem StopsAfter.zero (h : ∀ e, (work.run t).1 = .error e → e.isRetryable = false) :
    StopsAfter work tries 0 t :=
  ⟨Nat.zero_le _, fun _ hj => absurd hj (Nat.not_lt_zero _), .inr h⟩

/-- A run before the others. -/
theorem StopsAfter.succ {e : DatabaseError} (hrun : work.run t = (.error e, u))
    (he : e.isRetryable = true) (h : StopsAfter work tries k u) :
    StopsAfter work (tries + 1) (k + 1) t := by
  have hafter (j : Nat) : afterRuns work (j + 1) t = afterRuns work j u := by
    simp only [afterRuns, Function.iterate_succ_apply, hrun]
  have hresult (j : Nat) : resultAfter work (j + 1) t = resultAfter work j u := by
    rw [resultAfter, resultAfter, hafter]
  refine ⟨Nat.succ_le_succ h.le, fun j hj => ?_, ?_⟩
  · cases j with
    | zero => exact ⟨e, congrArg Prod.fst hrun, he⟩
    | succ j =>
      rw [hresult]
      exact h.earlier j (Nat.lt_of_succ_lt_succ hj)
  · rw [hresult]
    exact h.last.imp_left (congrArg (· + 1))

/-- Work with retries ends as its last run does. -/
theorem retrying_eq (work : Work α) (tries : Nat) (t : Server) :
    ∃ k, StopsAfter work tries k t ∧
      (retrying work tries).run t = (resultAfter work k t, afterRuns work (k + 1) t) := by
  induction tries generalizing t with
  | zero => exact ⟨0, ⟨Nat.le_refl 0, fun _ hj => absurd hj (Nat.not_lt_zero _), .inl rfl⟩, rfl⟩
  | succ tries ih =>
    simp only [retrying, ExceptT.run_mk]
    cases hrun : work.run t with
    | mk result u =>
      have hfirst : (result, u) = (resultAfter work 0 t, afterRuns work 1 t) := hrun.symm
      cases result with
      | ok a =>
        refine ⟨0, .zero fun e he => ?_, hfirst⟩
        rw [hrun] at he
        cases he
      | error e =>
        dsimp only
        by_cases he : e.isRetryable
        · obtain ⟨k, hstops, heq⟩ := ih u
          refine ⟨k + 1, hstops.succ hrun he, ?_⟩
          rw [if_pos he, heq]
          simp only [resultAfter, afterRuns, Function.iterate_succ_apply, hrun]
        · refine ⟨0, .zero fun e' he' => ?_, by rw [if_neg he]; exact hfirst⟩
          rw [hrun] at he'
          cases he'
          exact Bool.eq_false_iff.2 he

/-- What a failed run keeps holds when the last run begins. -/
theorem exists_of_retrying {p : Server → Prop}
    (hkeeps : ∀ s e u, p s → work.run s = (.error e, u) → p u) (ht : p t)
    {result : Except DatabaseError α} (h : (retrying work tries).run t = (result, u)) :
    ∃ s, p s ∧ work.run s = (result, u) := by
  obtain ⟨k, hstops, heq⟩ := retrying_eq work tries t
  have hbefore : ∀ j ≤ k, p (afterRuns work j t) := by
    intro j hj
    induction j with
    | zero => exact ht
    | succ j ih =>
      obtain ⟨e, he, -⟩ := hstops.earlier j hj
      rw [afterRuns_succ]
      exact hkeeps _ e _ (ih (Nat.le_of_succ_le hj)) (Prod.ext he rfl)
  refine ⟨afterRuns work k t, hbefore k (Nat.le_refl k), ?_⟩
  rw [← h, heq, afterRuns_succ]
  rfl

end

/-! ## Data seen and written -/

/-- Outside of a transaction the committed data are seen. -/
theorem view_of_idle (h : t.open? = none) : t.view = t.committed := by
  rw [Server.view, h, Option.getD_none]

/-- Outside of a transaction the committed data are written. -/
theorem write_of_idle (h : t.open? = none) (db : Database) :
    t.write db = { t with committed := db } := by
  rw [Server.write, h]
  rfl

/-- In a transaction the data that it sees are written. -/
theorem write_of_isOpen (h : t.open?.isSome = true) (db : Database) :
    t.write db = { t with open? := some db } := by
  rw [Server.write, if_pos h]

/-! ## Other writers -/

/-- The rows that other writers have still to commit. -/
def pending (t : Server) : List RawRow := t.faults.flatMap (·.rows)

/-- Other writers commit rows, and nothing else happens to the data. -/
structure Passes (rows : List RawRow) (t u : Server) : Prop where
  committed : u.committed = t.committed.insertRawRows rows
  opened : u.open? = t.open?.map (·.insertRawRows rows)
  pending : (rows ++ u.pending).Perm t.pending

/-- Where nothing happens to the data, other writers commit nothing. -/
theorem Passes.of_eq (hcommitted : u.committed = t.committed) (hopen : u.open? = t.open?)
    (hfaults : u.faults = t.faults) : Passes [] t u where
  committed := hcommitted
  opened := by rw [hopen]; cases t.open? <;> rfl
  pending := by rw [List.nil_append, Server.pending, hfaults, Server.pending]

/-- The rows that other writers commit are seen. -/
theorem Passes.view {rows : List RawRow} (h : Passes rows t u) :
    u.view = t.view.insertRawRows rows := by
  rw [Server.view, Server.view, h.committed, h.opened]
  cases t.open? <;> rfl

/-- Rows that other writers commit in turn are rows that they commit. -/
theorem Passes.trans {rows more : List RawRow} (h : Passes rows t s) (h' : Passes more s u) :
    Passes (rows ++ more) t u where
  committed := by rw [h'.committed, h.committed, Database.insertRawRows_append]
  opened := by
    rw [h'.opened, h.opened, Option.map_map]
    congr 1
    exact funext fun db => (db.insertRawRows_append rows more).symm
  pending := by
    rw [List.append_assoc]
    exact (h'.pending.append_left rows).trans h.pending

/-- The rows of the fault that strikes are no longer to come. -/
theorem perm_strike (statement : String) (faults : List StatementFault) :
    (((strike statement faults).1.elim [] Prod.snd) ++
      (strike statement faults).2.flatMap (·.rows)).Perm (faults.flatMap (·.rows)) := by
  induction faults with
  | nil => exact .refl _
  | cons f rest ih =>
    rw [strike]
    split
    · split
      · exact .refl _
      · exact .refl _
    · simp only [List.flatMap_cons]
      refine .trans ?_ (ih.append_left f.rows)
      rw [← List.append_assoc, ← List.append_assoc]
      exact List.perm_append_comm.append_right _

/-- A statement is struck by no fault or by one whose rows are committed. -/
theorem passes_strike (statement : String) (t : Server) :
    Passes ((strike statement t.faults).1.elim [] Prod.snd) t
      ({ t with faults := (strike statement t.faults).2 }.commitRows
        ((strike statement t.faults).1.elim [] Prod.snd)) :=
  ⟨rfl, rfl, perm_strike statement t.faults⟩

/-! ## Statements -/

/-- A statement ends with its effect, or it fails without one. -/
theorem settle_cases {effect : Except Refusal (α × Database)} {result : Except Refusal α}
    (h : query.settle effect s = (result, u)) :
    (∃ e, result = .error e ∧ u = s) ∨
      ∃ a db, effect = .ok (a, db) ∧ result = .ok a ∧ u = s.write db := by
  cases effect with
  | error e =>
    cases h
    exact .inl ⟨e, rfl, rfl⟩
  | ok done =>
    cases h
    exact .inr ⟨done.1, done.2, rfl, rfl, rfl⟩

section
variable {statement : Statement} {run : Database → Except Refusal (α × Database)}

/-- A statement fails without effect, or it takes effect on the data it sees after other writers
have committed rows; then it ends in its value, or the connection is lost. -/
theorem query_cases {result : Except Refusal α} (h : query statement run t = (result, u)) :
    (∃ e rows, result = .error e ∧ Passes rows t u) ∨
      ∃ a db rows s, (∀ b, result = .ok b → b = a) ∧ Passes rows t s ∧
        effect statement run s.view = .ok (a, db) ∧ Passes [] (s.write db) u := by
  unfold query at h
  by_cases hbroken : t.broken = true
  · rw [if_pos hbroken] at h
    cases h
    exact .inl ⟨_, [], rfl, .of_eq rfl rfl rfl⟩
  rw [if_neg hbroken] at h
  have hpasses := passes_strike statement.name t
  cases hstrike : strike statement.name t.faults with
  | mk hit faults =>
    rw [hstrike] at h hpasses
    cases hit with
    | none =>
      have hwaits : Passes [] t { t with faults } :=
        ⟨rfl, by cases t.open? <;> rfl, hpasses.pending⟩
      rcases settle_cases h with ⟨e, rfl, rfl⟩ | ⟨a, db, heffect, rfl, rfl⟩
      · exact .inl ⟨e, [], rfl, hwaits⟩
      · refine .inr ⟨a, db, [], _, fun b hb => ?_, hwaits, heffect, .of_eq rfl rfl rfl⟩
        exact (Except.ok.inj hb).symm
    | some fault =>
      obtain ⟨fault, rows⟩ := fault
      dsimp only [Option.elim_some] at h hpasses
      cases fault with
      | none =>
        rcases settle_cases h with ⟨e, rfl, rfl⟩ | ⟨a, db, heffect, rfl, rfl⟩
        · exact .inl ⟨e, rows, rfl, hpasses⟩
        · refine .inr ⟨a, db, rows, _, fun b hb => ?_, hpasses, heffect, .of_eq rfl rfl rfl⟩
          exact (Except.ok.inj hb).symm
      | refuse refusal =>
        cases h
        exact .inl ⟨refusal, rows, rfl, hpasses⟩
      | drop =>
        cases h
        exact .inl ⟨lostConnection, rows, rfl, hpasses.committed, hpasses.opened, hpasses.pending⟩
      | dropAfter =>
        cases h
        generalize hsettle : query.settle _ _ = settled
        obtain ⟨result, u⟩ := settled
        rcases settle_cases hsettle with ⟨e, rfl, rfl⟩ | ⟨a, db, heffect, rfl, rfl⟩
        · exact .inl
            ⟨lostConnection, rows, rfl, hpasses.committed, hpasses.opened, hpasses.pending⟩
        · refine .inr ⟨a, db, rows, _, fun b hb => ?_, hpasses, heffect, .of_eq rfl rfl rfl⟩
          cases hb

/-- A statement fails without effect, or it takes effect after other writers have committed rows. -/
theorem perform_cases {result : Except DatabaseError α}
    (h : (perform statement run).run t = (result, u)) :
    (∃ e rows, result = .error e ∧ Passes rows t u) ∨
      ∃ a db rows s, (∀ b, result = .ok b → b = a) ∧ Passes rows t s ∧
        effect statement run s.view = .ok (a, db) ∧ Passes [] (s.write db) u := by
  cases hquery : query statement run t with
  | mk answer u' =>
    simp only [perform, ExceptT.run_mk, hquery] at h
    cases h
    rcases query_cases hquery with ⟨e, rows, rfl, hpasses⟩ | ⟨a, db, rows, s, ha, hpasses, hdone⟩
    · exact .inl ⟨e.meaning, rows, rfl, hpasses⟩
    · refine .inr ⟨a, db, rows, s, fun b hb => ?_, hpasses, hdone⟩
      cases answer with
      | error e => cases hb
      | ok c => exact ha b (congrArg Except.ok (Except.ok.inj hb))

end

/-- A statement takes effect only if its table exists. -/
theorem table_mem_of_effect {statement : Statement}
    {run : Database → Except Refusal (α × Database)} {db db' : Database} {a : α}
    (h : effect statement run db = .ok (a, db')) :
    ∀ table ∈ statement.table?, table ∈ db.tables := by
  intro table htable
  rw [Option.mem_def] at htable
  by_contra hmissing
  have hrequire : db.requireTable table = .error (.missingTable table) := by
    rw [Database.requireTable, requireThat, if_neg (by simpa using hmissing)]
  unfold effect at h
  rw [htable] at h
  change (db.requireTable table >>= fun _ => run db) = _ at h
  rw [hrequire] at h
  cases h

section
variable {statement : Statement}

/-- A statement that changes the data either does not, or does so after other writers have committed
rows; in that case too it may fail. -/
theorem change_cases {run : Database → Except Refusal Database}
    {result : Except DatabaseError Unit} (h : (change statement run).run t = (result, u)) :
    (∃ e rows, result = .error e ∧ Passes rows t u) ∨
      ∃ db rows s, Passes rows t s ∧ (∀ table ∈ statement.table?, table ∈ s.view.tables) ∧
        run s.view = .ok db ∧ Passes [] (s.write db) u := by
  rcases perform_cases h with hfailed | ⟨_, db, rows, s, -, hpasses, heffect, hwritten⟩
  · exact .inl hfailed
  · obtain ⟨_, hdb, heq⟩ := map_eq_ok_iff.1 (run_of_effect heffect)
    cases heq
    exact .inr ⟨db, rows, s, hpasses, table_mem_of_effect heffect, hdb, hwritten⟩

/-- A statement that reads leaves the data to other writers. -/
theorem read_cases {run : Database → Except Refusal α} {result : Except DatabaseError α}
    (h : (read statement run).run t = (result, u)) : ∃ rows, Passes rows t u := by
  rcases perform_cases h with ⟨e, rows, -, hpasses⟩ | ⟨a, db, rows, s, -, hpasses, heffect, hkept⟩
  · exact ⟨rows, hpasses⟩
  · obtain ⟨_, -, heq⟩ := map_eq_ok_iff.1 (run_of_effect heffect)
    cases heq
    rw [write_view] at hkept
    exact ⟨rows ++ [], hpasses.trans hkept⟩

end

/-! ## Work put together -/

/-- Work in two parts ends where the first one fails, or as the second one does. -/
theorem bind_cases {work : Work α} {next : α → Work β} {result : Except DatabaseError β}
    (h : (work >>= next).run t = (result, u)) :
    (∃ e, work.run t = (.error e, u) ∧ result = .error e) ∨
      ∃ a s, work.run t = (.ok a, s) ∧ (next a).run s = (result, u) := by
  have hbind : (work >>= next).run t = ExceptT.bindCont next (work.run t).1 (work.run t).2 := rfl
  rw [hbind] at h
  cases hrun : work.run t with
  | mk first s =>
    rw [hrun] at h
    cases first with
    | error e =>
      cases h
      exact .inl ⟨e, rfl, rfl⟩
    | ok a => exact .inr ⟨a, s, rfl, h⟩

/-- A connection leaves the data alone. -/
theorem connect_passes {result : Except DatabaseError Unit} (h : connect.run t = (result, u)) :
    Passes [] t u := by
  obtain ⟨committed, opened, faults, access, connections, broken, readings, overrideIds, versionIds,
    clockStopped⟩ := t
  rcases access with _ | (_ | ⟨e, _ | ⟨e', rest⟩⟩) <;> cases h <;> exact .of_eq rfl rfl rfl

/-- Loading a row leaves the server as it is. -/
theorem loading_cases {loaded : Except ColumnError α} {result : Except DatabaseError α}
    (h : (loading loaded).run t = (result, u)) :
    u = t ∧ ∀ a, result = .ok a → loaded = .ok a := by
  cases loaded <;> cases h <;> simp [Except.mapError]

/-! ## Transactions -/

/-- A transaction is committed or not, whatever the answer is. -/
theorem commit_cases {result : Except Refusal Unit} (h : t.commit = (result, u)) :
    u.open? = none ∧ ∃ rows, (rows ++ u.pending).Perm t.pending ∧
      ((∃ e, result = .error e) ∧ u.committed = t.committed.insertRawRows rows ∨
        u.committed = t.view.insertRawRows rows) := by
  unfold commit at h
  by_cases hbroken : t.broken = true
  · rw [if_pos hbroken] at h
    cases h
    exact ⟨rfl, [], .refl _, .inl ⟨⟨_, rfl⟩, rfl⟩⟩
  rw [if_neg hbroken] at h
  have hpasses := passes_strike Statement.commit.name t
  cases hstrike : strike Statement.commit.name t.faults with
  | mk hit faults =>
    rw [hstrike] at h hpasses
    cases hit with
    | none =>
      cases h
      exact ⟨rfl, [], hpasses.pending, .inr rfl⟩
    | some fault =>
      obtain ⟨fault, rows⟩ := fault
      cases fault with
      | none | dropAfter =>
        cases h
        exact ⟨rfl, rows, hpasses.pending, .inr hpasses.view⟩
      | refuse | drop =>
        cases h
        exact ⟨rfl, rows, hpasses.pending, .inl ⟨⟨_, rfl⟩, rfl⟩⟩

/-- A transaction whose work fails leaves the committed data to other writers. Otherwise what it
sees is committed or not, and it is committed if the transaction ends in a value. -/
theorem transaction_cases {work : Work α} {result : Except DatabaseError α}
    (h : (transaction work).run t = (result, u)) :
    u.open? = none ∧ ∃ done s, work.run { t with open? := some t.committed } = (done, s) ∧
      ((∃ e, done = .error e ∧ result = .error e ∧ u.committed = s.committed ∧
          u.pending = s.pending) ∨
        ∃ a rows, done = .ok a ∧ (∀ b, result = .ok b → b = a) ∧
          (rows ++ u.pending).Perm s.pending ∧
          ((∃ e, result = .error e) ∧ u.committed = s.committed.insertRawRows rows ∨
            u.committed = s.view.insertRawRows rows)) := by
  simp only [transaction, transactionWith, ExceptT.run_mk] at h
  cases hrun : work.run { t with open? := some t.committed } with
  | mk done s =>
    rw [hrun] at h
    cases done with
    | error e =>
      cases h
      exact ⟨rfl, _, _, rfl, .inl ⟨e, rfl, rfl, rfl, rfl⟩⟩
    | ok a =>
      cases hcommit : s.commit with
      | mk committed v =>
        simp only [hcommit] at h
        cases h
        obtain ⟨hopen, rows, hpending, hdata⟩ := commit_cases hcommit
        refine ⟨hopen, _, _, rfl, .inr ⟨a, rows, rfl, fun b hb => ?_, hpending, ?_⟩⟩
        · cases committed with
          | error e => cases hb
          | ok _ => exact (Except.ok.inj hb).symm
        · refine hdata.imp_left ?_
          rintro ⟨⟨e, rfl⟩, hcommitted⟩
          exact ⟨⟨_, rfl⟩, hcommitted⟩

end Server
end RoutePlan
