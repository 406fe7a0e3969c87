import RoutePlan.Proofs.Design.Tables
import RoutePlan.Proofs.Relational.Tries

/-!
# Work that performs an operation

A unit of work with retries may take effect more than once, as when the connection is lost after the
server has committed. If no other writer has anything to commit and the operation may be repeated,
it has taken effect as if once when the work succeeds; and if nothing strikes the server, the work
succeeds whenever the operation does (`Server.Performs`). Work put together performs the operations
in turn (`Server.Performs.bind`).
-/

namespace RoutePlan.Server

open Database (Operation Settles inTurn)

variable {t u : Server} {f g : Operation} {db : Database} {statement : Statement} {table : Table}

/-! ## Statements without other writers -/

/-- The second server has the data of the first one. -/
structure Agrees (t u : Server) : Prop where
  committed : u.committed = t.committed
  opened : u.open? = t.open?

/-- Servers with the same data show the same. -/
theorem Agrees.view (h : Agrees t u) : u.view = t.view := by
  rw [Server.view, Server.view, h.committed, h.opened]

/-- To write the same keeps the data the same. -/
theorem Agrees.write (h : Agrees t u) (db : Database) : Agrees (t.write db) (u.write db) := by
  rw [Server.write, Server.write, h.opened]
  split
  · exact ⟨h.committed, rfl⟩
  · exact ⟨rfl, rfl⟩

/-- Servers with the data of one server have the same data. -/
theorem Agrees.trans {s : Server} (h : Agrees t s) (h' : Agrees s u) : Agrees t u :=
  ⟨h'.committed.trans h.committed, h'.opened.trans h.opened⟩

/-- Other writers without rows to commit do nothing. -/
theorem Passes.agrees {rows : List RawRow} (h : Passes rows t u) (ht : t.pending = []) :
    Agrees t u ∧ u.pending = [] := by
  have hnil := h.pending
  rw [ht, List.perm_nil, List.append_eq_nil_iff] at hnil
  obtain ⟨rfl, hpending⟩ := hnil
  refine ⟨⟨h.committed, ?_⟩, hpending⟩
  rw [h.opened]
  cases t.open? <;> rfl

/-- What other writers have to commit does not depend on what is written. -/
theorem pending_write (t : Server) (db : Database) : (t.write db).pending = t.pending := by
  rw [write]
  split <;> rfl

/-- A statement does nothing and fails, or it takes effect. -/
theorem change_effect (htable : statement.table? = some table) (ht : t.pending = [])
    {result : Except DatabaseError Unit} (h : (change statement f).run t = (result, u)) :
    u.pending = [] ∧ ((∃ e, result = .error e) ∧ Agrees t u ∨
      ∃ db, f.on table t.view = .ok db ∧ Agrees (t.write db) u) := by
  rcases change_cases h with
    ⟨e, rows, rfl, hpasses⟩ | ⟨db, rows, s, hpasses, htables, hdb, hwritten⟩
  · obtain ⟨hagrees, hpending⟩ := hpasses.agrees ht
    exact ⟨hpending, .inl ⟨⟨e, rfl⟩, hagrees⟩⟩
  · obtain ⟨hagrees, hpending⟩ := hpasses.agrees ht
    obtain ⟨hwrite, hpending⟩ := hwritten.agrees ((pending_write s db).trans hpending)
    refine ⟨hpending, .inr ⟨db, ?_, (hagrees.write db).trans hwrite⟩⟩
    rw [← hagrees.view, Database.Operation.on_eq_ok_iff]
    exact ⟨htables table htable, hdb⟩

/-- A statement that nothing strikes takes effect if it can. -/
theorem change_run_on (htable : statement.table? = some table) (hbroken : t.broken = false)
    (hfaults : t.faults = []) (h : f.on table t.view = .ok db) :
    (change statement f).run t = (.ok (), t.write db) := by
  have heffect : effect statement (fun db => (f db).map ((), ·)) t.view = .ok ((), db) := by
    obtain ⟨hmem, hdb⟩ := Database.Operation.on_eq_ok_iff.1 h
    have hrequire : t.view.requireTable table = .ok () :=
      requireThat_eq_ok_iff.2 (by simpa using hmem)
    unfold effect
    rw [htable]
    change (t.view.requireTable table >>= fun _ => (f t.view).map ((), ·)) = _
    rw [hrequire, hdb]
    rfl
  obtain ⟨committed, opened, faults, access, connections, broken, readings, overrideIds, versionIds,
    clockStopped⟩ := t
  subst hbroken hfaults
  simp only [change, perform, query, strike, Bool.false_eq_true, if_false, ExceptT.run_mk]
  rw [heffect]
  rfl

/-! ## Work in a transaction -/

/-- In a transaction, the work has done the operation to what the transaction sees if it succeeds,
and it succeeds if it can and nothing strikes it. -/
structure PerformsWithin (work : Work Unit) (f : Operation) : Prop where
  sound : ∀ {t u result}, t.open?.isSome = true → t.pending = [] → work.run t = (result, u) →
    (u.open?.isSome = true ∧ u.pending = [] ∧ u.committed = t.committed) ∧
      (result = .ok () → f t.view = .ok u.view)
  complete : ∀ {t db}, t.open?.isSome = true → t.broken = false → t.faults = [] →
    f t.view = .ok db → work.run t = (.ok (), t.write db)

/-- To do nothing is to perform the operation that does nothing. -/
theorem performsWithin_pure : PerformsWithin (pure ()) .ok where
  sound hopen hpending h := by
    cases h
    exact ⟨⟨hopen, hpending, rfl⟩, fun _ => rfl⟩
  complete {t db} _ _ _ h := by
    cases h
    rw [write_view]
    rfl

/-- A statement performs its operation on its table. -/
theorem performsWithin_change (htable : statement.table? = some table) :
    PerformsWithin (change statement f) (f.on table) where
  sound {t u result} hopen ht h := by
    obtain ⟨hpending, ⟨⟨e, rfl⟩, hagrees⟩ | ⟨db, hdb, hagrees⟩⟩ := change_effect htable ht h
    · refine ⟨⟨?_, hpending, hagrees.committed⟩, nofun⟩
      rw [hagrees.opened, hopen]
    · rw [write_of_isOpen hopen] at hagrees
      refine ⟨⟨?_, hpending, hagrees.committed⟩, fun _ => ?_⟩
      · rw [hagrees.opened, Option.isSome_some]
      · rw [hdb, hagrees.view]
        rfl
  complete _ hbroken hfaults h := change_run_on htable hbroken hfaults h

/-- Two parts of some work in turn perform both operations in turn. -/
theorem PerformsWithin.bind {x y : Work Unit} (hx : PerformsWithin x f)
    (hy : PerformsWithin y g) : PerformsWithin (do x; y) fun db => f db >>= g where
  sound {t u result} hopen ht h := by
    rcases bind_cases h with ⟨e, hrun, rfl⟩ | ⟨_, s, hrun, hrest⟩
    · exact ⟨(hx.sound hopen ht hrun).1, nofun⟩
    · obtain ⟨⟨hopen', hpending', hcommitted'⟩, hf⟩ := hx.sound hopen ht hrun
      obtain ⟨⟨hopen'', hpending'', hcommitted''⟩, hg⟩ := hy.sound hopen' hpending' hrest
      refine ⟨⟨hopen'', hpending'', hcommitted''.trans hcommitted'⟩, fun hresult => ?_⟩
      rw [hf rfl]
      exact hg hresult
  complete {t db} hopen hbroken hfaults h := by
    obtain ⟨next, hf, hg⟩ := bind_eq_ok_iff.1 h
    rw [work_bind_of_ok (hx.complete hopen hbroken hfaults hf), write_of_isOpen hopen,
      write_of_isOpen hopen]
    exact hy.complete (t := { t with open? := some next }) rfl hbroken hfaults hg

/-! ## Units of work -/

/-- No transaction is open, and no other writer has anything to commit. -/
structure Calm (t : Server) : Prop where
  idle : t.open? = none
  pending : t.pending = []

/-- Nothing is going on, nothing strikes the server, and connections are to be had. -/
structure Quiet (t : Server) : Prop where
  idle : t.open? = none
  faults : t.faults = []
  access : t.access = .available

/-- A try of some work either fails without effect, or it has done the operation; and it succeeds if
it can and nothing strikes it. -/
structure Attempts (work : Work Unit) (f : Operation) : Prop where
  sound : ∀ {t u result}, t.Calm → work.run t = (result, u) →
    u.Calm ∧ ((∃ e, result = .error e) ∧ u.committed = t.committed ∨
      f t.committed = .ok u.committed)
  complete : ∀ {t db}, t.open? = none → t.broken = false → t.faults = [] →
    f t.committed = .ok db → work.run t = (.ok (), { t with committed := db })

/-- A statement outside of a transaction attempts its operation on its table. -/
theorem attempts_change (htable : statement.table? = some table) :
    Attempts (change statement f) (f.on table) where
  sound {t u result} ht h := by
    obtain ⟨hpending, ⟨he, hagrees⟩ | ⟨db, hdb, hagrees⟩⟩ := change_effect htable ht.pending h
    · exact ⟨⟨hagrees.opened.trans ht.idle, hpending⟩, .inl ⟨he, hagrees.committed⟩⟩
    · rw [write_of_idle ht.idle] at hagrees
      refine ⟨⟨hagrees.opened.trans ht.idle, hpending⟩, .inr ?_⟩
      rw [← view_of_idle ht.idle, hdb, hagrees.committed]
  complete {t db} hidle hbroken hfaults h := by
    rw [← view_of_idle hidle] at h
    rw [change_run_on htable hbroken hfaults h, write_of_idle hidle]

/-- A transaction attempts what is performed within it. -/
theorem attempts_transaction {work : Work Unit} (hwork : PerformsWithin work f) :
    Attempts (transaction work) f where
  sound {t u result} ht h := by
    obtain ⟨hidle, done, s, hrun, hends⟩ := transaction_cases h
    obtain ⟨⟨-, hpending, hcommitted⟩, hdone⟩ :=
      hwork.sound (t := { t with open? := some t.committed }) rfl ht.pending hrun
    rcases hends with ⟨e, -, rfl, hdata, hrest⟩ | ⟨_, rows, rfl, -, hperm, hdata⟩
    · exact ⟨⟨hidle, hrest.trans hpending⟩, .inl ⟨⟨e, rfl⟩, hdata.trans hcommitted⟩⟩
    · rw [hpending, List.perm_nil, List.append_eq_nil_iff] at hperm
      obtain ⟨rfl, hrest⟩ := hperm
      refine ⟨⟨hidle, hrest⟩, hdata.imp (fun ⟨he, hsame⟩ => ⟨he, hsame.trans hcommitted⟩) ?_⟩
      intro hview
      rw [hview]
      exact hdone rfl
  complete {t db} hidle hbroken hfaults h := by
    have hrun : work.run { t with open? := some t.committed } =
        (.ok (), { t with open? := some db }) :=
      hwork.complete (t := { t with open? := some t.committed }) rfl hbroken hfaults h
    rw [transaction_run hrun hbroken hfaults]
    simp [view, hidle]

/-- Work has done the operation if it succeeds and other writers have nothing to commit; and it
succeeds if it can and nothing strikes it. -/
structure Performs (work : Work Unit) (f : Operation) : Prop where
  sound : ∀ {t u}, t.Calm → work.run t = (.ok (), u) → f t.committed = .ok u.committed ∧ u.Calm
  complete : ∀ {t db}, t.Quiet → f t.committed = .ok db →
    ∃ u, work.run t = (.ok (), u) ∧ u.committed = db ∧ u.Quiet

/-- A unit of work performs an operation that may be repeated, since tries that have failed have
done it or nothing. -/
theorem Attempts.unit {work : Work Unit} (hwork : Attempts work f) (hf : Settles f) :
    Performs (unit work) f where
  sound {t u} ht h := by
    let tried (s : Server) : Prop :=
      s.Calm ∧ (s.committed = t.committed ∨ f t.committed = .ok s.committed)
    have htry {s v : Server} {result : Except DatabaseError Unit} (hs : tried s)
        (hrun : (do connect; work : Work Unit).run s = (result, v)) :
        tried v ∧ (result = .ok () → f t.committed = .ok v.committed) := by
      obtain ⟨hcalm, hdata⟩ := hs
      rcases bind_cases hrun with ⟨e, hconnect, rfl⟩ | ⟨_, c, hconnect, hrun⟩
      · obtain ⟨hagrees, hpending⟩ := (connect_passes hconnect).agrees hcalm.pending
        refine ⟨⟨⟨hagrees.opened.trans hcalm.idle, hpending⟩, ?_⟩, nofun⟩
        rwa [hagrees.committed]
      · obtain ⟨hagrees, hpending⟩ := (connect_passes hconnect).agrees hcalm.pending
        rw [← hagrees.committed] at hdata
        obtain ⟨hv, hends⟩ := hwork.sound ⟨hagrees.opened.trans hcalm.idle, hpending⟩ hrun
        rcases hends with ⟨⟨e, rfl⟩, hsame⟩ | hdone
        · refine ⟨⟨hv, ?_⟩, nofun⟩
          rwa [hsame]
        · -- it was done now, and perhaps before
          have hdone : f t.committed = .ok v.committed := by
            rcases hdata with hnone | hbefore
            · rwa [← hnone]
            · have hagain := hf _ _ hbefore
              rw [hdone] at hagain
              rw [hbefore, ← hagain]
          exact ⟨⟨hv, .inr hdone⟩, fun _ => hdone⟩
    obtain ⟨s, hs, hrun⟩ := exists_of_retrying (p := tried) (fun s e v hs hrun => (htry hs hrun).1)
      ⟨ht, .inl rfl⟩ h
    obtain ⟨⟨hcalm, -⟩, hdone⟩ := htry hs hrun
    exact ⟨hdone rfl, hcalm⟩
  complete {t db} ht h := by
    refine ⟨{ t.connected with committed := db }, ?_, rfl, ht.idle, ht.faults, ht.access⟩
    exact unit_run ht.access (hwork.complete (t := t.connected) ht.idle rfl ht.faults h)

/-! ## Work put together -/

/-- To do nothing is to perform no operations. -/
theorem performs_nothing : Performs (pure ()) (inTurn []) where
  sound ht h := by
    cases h
    exact ⟨rfl, ht⟩
  complete ht h := by
    cases h
    exact ⟨_, rfl, rfl, ht⟩

/-- Two works in turn perform the operations of both in turn. -/
theorem Performs.bind {x y : Work Unit} {ops more : List Operation} (hx : Performs x (inTurn ops))
    (hy : Performs y (inTurn more)) : Performs (do x; y) (inTurn (ops ++ more)) where
  sound {t u} ht h := by
    rcases bind_cases h with ⟨e, -, he⟩ | ⟨_, s, hrun, hrest⟩
    · cases he
    · obtain ⟨hops, hs⟩ := hx.sound ht hrun
      obtain ⟨hmore, hu⟩ := hy.sound hs hrest
      exact ⟨Database.inTurn_append_eq_ok_iff.2 ⟨_, hops, hmore⟩, hu⟩
  complete {t db} ht h := by
    obtain ⟨next, hops, hmore⟩ := Database.inTurn_append_eq_ok_iff.1 h
    obtain ⟨s, hrun, rfl, hs⟩ := hx.complete ht hops
    obtain ⟨u, hrest, hdb, hu⟩ := hy.complete hs hmore
    exact ⟨u, (work_bind_of_ok hrun _).trans hrest, hdb, hu⟩

/-- One operation is performed as operations in turn. -/
theorem Performs.single {work : Work Unit} (h : Performs work f) : Performs work (inTurn [f]) := by
  rwa [Database.inTurn_singleton]

/-- Works for the items of a list perform the operations for them in turn. -/
theorem performs_forM {α : Type} {items : List α} {work : α → Work Unit} {f : α → Operation}
    (h : ∀ a ∈ items, Performs (work a) (f a)) :
    Performs (items.forM work) (inTurn (items.map f)) := by
  induction items with
  | nil => exact performs_nothing
  | cons a items ih =>
    rw [List.forall_mem_cons] at h
    exact h.1.single.bind (ih h.2)

end RoutePlan.Server
