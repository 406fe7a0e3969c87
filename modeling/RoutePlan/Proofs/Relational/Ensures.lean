import RoutePlan.Relational.Store

/-!
# What work on a server ensures

Work on a server may be disturbed: statements fail, connections are lost before or after a statement
has taken effect, other writers commit rows in between, and a unit of work may be tried again. What
holds of the data all the same is stated with two conditions, one for work that ends in a value and
one for work that fails (`Server.Ensures`), and derived by one rule for each way of putting work
together. A condition must survive the rows of other writers (`Database.Persists`). In a transaction
there are two conditions, on the committed data and on the data as the transaction sees it
(`Server.Within`); a transaction that fails leaves the committed data as it was, or commits and
loses its connection, so the second condition must imply the first one
(`Server.ensures_transaction`).
-/

namespace RoutePlan

/-- A condition on the data that goes on to hold when other writers add rows. -/
def Database.Persists (p : Database → Prop) : Prop := ∀ db row, p db → p (db.insertRaw row)

/-- What persists when one row is added persists when several are. -/
theorem Database.Persists.insertRawRows {p : Database → Prop} (h : Persists p) (rows : List RawRow)
    {db : Database} (hdb : p db) : p (db.insertRawRows rows) := by
  induction rows generalizing db with
  | nil => exact hdb
  | cons row rows ih => exact ih (h db row hdb)

namespace Server

/-- A condition on the committed data and on the data of the open transaction. -/
abbrev Condition : Type := Database → Option Database → Prop

/-- The condition on the committed data alone. -/
def Outside (p : Database → Prop) : Condition := fun db _ => p db

/-- A transaction is open: one condition is on the committed data, the other one on the data that
the transaction sees. -/
def Within (p q : Database → Prop) : Condition := fun db opened =>
  p db ∧ ∃ db', opened = some db' ∧ q db'

variable {α β : Type} {pre pre' fail fail' : Condition} {post post' : α → Condition}

/-- Work that begins with the first condition ends in a value with the second one, or fails with the
third one. -/
def Ensures (pre : Condition) (work : Work α) (post : α → Condition) (fail : Condition) : Prop :=
  ∀ t : Server, pre t.committed t.open? →
    match work.run t with
    | (.ok a, u) => post a u.committed u.open?
    | (.error _, u) => fail u.committed u.open?

/-! ## Work put together -/

/-- A precondition may be strengthened, and postconditions may be weakened. -/
theorem Ensures.imp {work : Work α} (h : Ensures pre work post fail)
    (hpre : ∀ db opened, pre' db opened → pre db opened)
    (hpost : ∀ a db opened, post a db opened → post' a db opened)
    (hfail : ∀ db opened, fail db opened → fail' db opened) : Ensures pre' work post' fail' := by
  intro t ht
  have hrun := h t (hpre _ _ ht)
  split at hrun
  · exact hpost _ _ _ hrun
  · exact hfail _ _ hrun

/-- A value is returned under the condition that holds already. -/
theorem ensures_pure {a : α} (h : ∀ db opened, pre db opened → post a db opened) :
    Ensures pre (pure a) post fail := fun _ ht => h _ _ ht

/-- Two parts of some work in turn: the second begins with what the first one ensures. -/
theorem Ensures.bind {work : Work α} {next : α → Work β} {after : β → Condition}
    (h : Ensures pre work post fail) (hnext : ∀ a, Ensures (post a) (next a) after fail) :
    Ensures pre (work >>= next) after fail := by
  intro t ht
  have hbind : (work >>= next).run t = ExceptT.bindCont next (work.run t).1 (work.run t).2 := rfl
  have hrun := h t ht
  rw [hbind]
  cases hresult : work.run t with
  | mk result u =>
    rw [hresult] at hrun
    cases result with
    | ok a => exact hnext a u hrun
    | error e => exact hrun

/-- A fact that follows from the precondition but has nothing to do with the server. -/
theorem Ensures.of_fact {work : Work α} (fact : Prop) (hfact : ∀ db opened, pre db opened → fact)
    (h : fact → Ensures pre work post fail) : Ensures pre work post fail :=
  fun t ht => h (hfact _ _ ht) t ht

/-- A fact of the precondition may be assumed of the work. -/
theorem Ensures.of_and {work : Work α} {fact : Prop} (h : fact → Ensures pre work post fail) :
    Ensures (fun db opened => fact ∧ pre db opened) work post fail :=
  fun t ht => h ht.1 t ht.2

section
variable (hfail : ∀ db opened, pre db opened → fail db opened)

include hfail

/-- A value that is at hand is the result, and nothing else changes. -/
theorem ensures_ofExcept (result : Except DatabaseError α) :
    Ensures pre (ofExcept result) (fun a db opened => result = .ok a ∧ pre db opened) fail := by
  intro t ht
  cases result with
  | ok a => exact ⟨rfl, ht⟩
  | error e => exact hfail _ _ ht

/-- A row that can be loaded is loaded, and nothing else changes. -/
theorem ensures_loading (result : Except ColumnError α) :
    Ensures pre (loading result) (fun a db opened => result = .ok a ∧ pre db opened) fail := by
  intro t ht
  cases result with
  | ok a => exact ⟨rfl, ht⟩
  | error e => exact hfail _ _ ht

/-- A stamp is drawn for some reading of the clock, in whole microseconds. -/
theorem ensures_drawStamp (supply : Supply) (last : Instant) :
    Ensures pre (drawStamp supply last) (fun stamp db opened =>
      (∃ reading : Instant, stampAfter last reading.truncateToMicros = some stamp) ∧
        pre db opened) fail := by
  have hclock : Ensures pre (readClock supply) (fun reading db opened =>
      (∃ t : Instant, reading = t.truncateToMicros) ∧ pre db opened) fail :=
    fun t ht => ⟨⟨_, rfl⟩, ht⟩
  refine hclock.bind fun reading => Ensures.of_and ?_
  rintro ⟨t, rfl⟩
  cases hstamp : stampAfter last t.truncateToMicros with
  | none => exact fun t ht => hfail _ _ ht
  | some stamp => exact ensures_pure fun _ _ hpre => ⟨⟨t, hstamp⟩, hpre⟩

end

/-- Work whose failures are those of a store. -/
theorem Ensures.asStore {work : Work α} (h : Ensures pre work post fail) {t : Server}
    (ht : pre t.committed t.open?) :
    match Server.asStore work t with
    | (.ok a, u) => post a u.committed u.open?
    | (.error _, u) => fail u.committed u.open? := by
  have hrun := h t ht
  unfold Server.asStore
  cases hresult : work.run t with
  | mk result u =>
    rw [hresult] at hrun
    cases result with
    | ok a => exact hrun
    | error e => exact hrun

/-! ## Units of work -/

section
variable {p : Database → Prop}

/-- A connection leaves the committed data alone. -/
theorem ensures_connect : Ensures (Outside p) connect (fun _ => Outside p) (Outside p) := by
  intro t ht
  obtain ⟨committed, opened, faults, access, connections, broken, readings, overrideIds, versionIds,
    clockStopped⟩ := t
  rcases access with _ | (_ | ⟨e, _ | ⟨e', rest⟩⟩) <;> exact ht

/-- Work that keeps its precondition when it fails may be tried again. -/
theorem Ensures.retrying {work : Work α} (h : Ensures pre work post pre) (tries : Nat) :
    Ensures pre (Server.retrying work tries) post pre := by
  induction tries with
  | zero => exact h
  | succ tries ih =>
    intro t ht
    have hrun := h t ht
    simp only [Server.retrying, ExceptT.run_mk]
    cases hresult : work.run t with
    | mk result u =>
      rw [hresult] at hrun
      cases result with
      | ok a => exact hrun
      | error e =>
        dsimp only at hrun ⊢
        by_cases hretry : e.isRetryable
        · rw [if_pos hretry]
          exact ih u hrun
        · rw [if_neg hretry]
          exact hrun

/-- A unit of work ensures what each of its tries does. -/
theorem Ensures.unit {work : Work α} (h : Ensures (Outside p) work post (Outside p)) :
    Ensures (Outside p) (Server.unit work) post (Outside p) :=
  Ensures.retrying (ensures_connect.bind fun _ => h) retries

/-! ## Transactions -/

variable {q : Database → Prop} (hp : Database.Persists p)

/-- The effect of a statement is what it does to the data. -/
theorem run_of_effect {statement : Statement} {run : Database → Except Refusal (α × Database)}
    {db db' : Database} {a : α} (h : effect statement run db = .ok (a, db')) :
    run db = .ok (a, db') := by
  unfold effect at h
  cases htable : statement.table?.forM db.requireTable with
  | error e =>
    rw [htable] at h
    cases h
  | ok =>
    rw [htable] at h
    exact h

/-- The effect of a statement in a transaction is on the data that the transaction sees. -/
theorem settle_within (statement : Statement) {run : Database → Except Refusal (α × Database)}
    {r : α → Database → Prop} (h : ∀ db a db', q db → run db = .ok (a, db') → r a db') {t : Server}
    (ht : Within p q t.committed t.open?) :
    match query.settle (effect statement run t.view) t with
    | (.ok a, u) => Within p (r a) u.committed u.open?
    | (.error _, u) => Outside p u.committed u.open? := by
  obtain ⟨hcommitted, db, hopen, hdb⟩ := ht
  have hview : t.view = db := by rw [view, hopen, Option.getD_some]
  cases heffect : effect statement run t.view with
  | error e => exact hcommitted
  | ok result =>
    obtain ⟨a, db'⟩ := result
    rw [hview] at heffect
    have hwrite : t.write db' = { t with open? := some db' } := by
      rw [write, hopen]
      rfl
    simp only [query.settle, hwrite]
    exact ⟨hcommitted, db', rfl, h _ _ _ hdb (run_of_effect heffect)⟩

include hp

/-- Rows of other writers keep what persists, in the committed data and in what a transaction
sees. -/
theorem commitRows_within (hq : Database.Persists q) (rows : List RawRow) {t : Server}
    (ht : Within p q t.committed t.open?) :
    Within p q (t.commitRows rows).committed (t.commitRows rows).open? := by
  obtain ⟨hcommitted, db, hopen, hdb⟩ := ht
  refine ⟨hp.insertRawRows rows hcommitted, db.insertRawRows rows, ?_, hq.insertRawRows rows hdb⟩
  rw [commitRows, hopen]
  rfl

/-- A statement in a transaction leaves the transaction open with its effect, or fails. -/
theorem query_within (hq : Database.Persists q) (statement : Statement)
    {run : Database → Except Refusal (α × Database)} {r : α → Database → Prop}
    (h : ∀ db a db', q db → run db = .ok (a, db') → r a db') {t : Server}
    (ht : Within p q t.committed t.open?) :
    match query statement run t with
    | (.ok a, u) => Within p (r a) u.committed u.open?
    | (.error _, u) => Outside p u.committed u.open? := by
  unfold query
  by_cases hbroken : t.broken
  · rw [if_pos hbroken]
    exact ht.1
  rw [if_neg hbroken]
  cases strike statement.name t.faults with
  | mk hit faults =>
    cases hit with
    | none => exact settle_within statement (t := { t with faults }) h ht
    | some fault =>
      obtain ⟨effect, rows⟩ := fault
      have hrows := commitRows_within hp hq rows (t := { t with faults }) ht
      cases effect with
      | none => exact settle_within statement h hrows
      | refuse refusal => exact hrows.1
      | drop => exact hrows.1
      | dropAfter =>
        -- the statement has taken effect in the transaction, which is lost
        have hsettle := settle_within statement h hrows
        dsimp only
        split at hsettle
        · next heq =>
          rw [heq]
          exact hsettle.1
        · next heq =>
          rw [heq]
          exact hsettle

/-- A statement in a transaction sees what the transaction has done and the rows that other writers
have added. -/
theorem ensures_perform (hq : Database.Persists q) {statement : Statement}
    {run : Database → Except Refusal (α × Database)} {r : α → Database → Prop}
    (h : ∀ db a db', q db → run db = .ok (a, db') → r a db') :
    Ensures (Within p q) (perform statement run) (fun a => Within p (r a)) (Outside p) := by
  intro t ht
  have hquery := query_within hp hq statement h ht
  simp only [perform, ExceptT.run_mk]
  split at hquery
  · next heq =>
    rw [heq]
    exact hquery
  · next heq =>
    rw [heq]
    exact hquery

/-- In a transaction, what is read is read of the data that it sees. -/
theorem ensures_read (hq : Database.Persists q) {statement : Statement}
    {run : Database → Except Refusal α} :
    Ensures (Within p q) (read statement run)
      (fun a => Within p fun db => q db ∧ run db = .ok a) (Outside p) := by
  refine ensures_perform hp hq fun db a db' hdb hrun => ?_
  cases hresult : run db with
  | error e =>
    rw [hresult] at hrun
    cases hrun
  | ok a' =>
    rw [hresult] at hrun
    cases hrun
    exact ⟨hdb, hresult⟩

/-- In a transaction, a change is made to the data that it sees. -/
theorem ensures_change (hq : Database.Persists q) {statement : Statement}
    {run : Database → Except Refusal Database} :
    Ensures (Within p q) (change statement run)
      (fun _ => Within p fun db' => ∃ db, q db ∧ run db = .ok db') (Outside p) := by
  refine ensures_perform hp hq fun db _ db' hdb hrun => ?_
  cases hresult : run db with
  | error e =>
    rw [hresult] at hrun
    cases hrun
  | ok db'' =>
    rw [hresult] at hrun
    cases hrun
    exact ⟨db, hdb, hresult⟩

/-- What work in a transaction has left behind is committed as a whole or not at all; it may be
committed although the transaction fails. -/
theorem ensures_transaction {work : Work α} {r : α → Database → Prop}
    (h : Ensures (Within p p) work (fun a => Within p (r a)) (Outside p))
    (hr : ∀ a, Database.Persists (r a)) (hrp : ∀ a db, r a db → p db) :
    Ensures (Outside p) (transaction work) (fun a => Outside (r a)) (Outside p) := by
  intro t ht
  have hrun := h { t with open? := some t.committed } ⟨ht, _, rfl, ht⟩
  simp only [transaction, transactionWith, ExceptT.run_mk]
  cases hresult : work.run { t with open? := some t.committed } with
  | mk result u =>
    rw [hresult] at hrun
    cases result with
    | error e => exact hrun
    | ok a =>
      dsimp only at hrun ⊢
      unfold commit
      by_cases hbroken : u.broken
      · rw [if_pos hbroken]
        exact hrun.1
      rw [if_neg hbroken]
      cases strike Statement.commit.name u.faults with
      | mk hit faults =>
        have hview {w : Server} (hw : Within p (r a) w.committed w.open?) : r a w.view := by
          obtain ⟨-, db, hopen, hdb⟩ := hw
          rwa [view, hopen, Option.getD_some]
        cases hit with
        | none => exact hview (w := { u with faults }) hrun
        | some fault =>
          obtain ⟨effect, rows⟩ := fault
          have hrows := commitRows_within hp (hr a) rows (t := { u with faults }) hrun
          cases effect with
          | none => exact hview hrows
          | refuse refusal => exact hrows.1
          | drop => exact hrows.1
          | dropAfter => exact hrp a _ (hview hrows)

end

end Server
end RoutePlan
