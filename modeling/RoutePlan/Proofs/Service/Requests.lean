import RoutePlan.Proofs.Compile.Alone
import RoutePlan.Proofs.Store.Stamps
import RoutePlan.Service.Overrides

/-!
# Requests, one after another

A client creates and changes overrides (`OverrideWrite`), lists them, compiles routes and reads
versions (`Request`); one request is served after another on a store in memory
(`MemoryState.serveAll`). Serving them keeps what every call keeps
(`MemoryState.wellStamped_serveAll`). A write reads before it writes, and when it succeeds, it has
written the one row that it returns (`OverrideWrite.wrote`).
-/

namespace RoutePlan

/-- A request that writes an override. -/
inductive OverrideWrite
  | create (code : String) (request : OverrideRequest)
  | update (code id : String) (edit : OverrideEdit)

/-- The service that a write asks for. -/
def OverrideWrite.serve : OverrideWrite → Service Override
  | create code request => Service.createOverride code request
  | update code id edit => Service.updateOverride code id edit

/-- What a client may request. -/
inductive Request
  | write (w : OverrideWrite)
  | listOverrides (code : String)
  | compile (code : String) (attempts : Nat)
  | listVersions (code : String)
  | getVersion (code : String) (versionNo : Int32)

namespace Request

/-- What a request is answered with unless it is refused. -/
abbrev Reply : Request → Type
  | write _ => Override
  | listOverrides _ => List Override
  | compile _ _ => RouteVersion
  | listVersions _ => List RouteVersion
  | getVersion _ _ => RouteVersion

/-- The service that a request asks for. -/
def serve : (q : Request) → Service q.Reply
  | write w => w.serve
  | listOverrides code => Service.listOverrides code
  | compile code attempts => Service.compile code attempts
  | listVersions code => Service.listVersions code
  | getVersion code versionNo => Service.getVersion code versionNo

end Request

/-- The state after some requests, each of them served or refused. -/
def MemoryState.serveAll (supply : Supply) (s : MemoryState) (requests : List Request) :
    MemoryState :=
  requests.foldl (fun s q => (q.serve.run.run (backend supply) s).2) s

/-- The stamps stay in order, whatever is requested. -/
theorem MemoryState.wellStamped_serveAll (supply : Supply) {s : MemoryState}
    (h : s.store.WellStamped) (requests : List Request) :
    (s.serveAll supply requests).store.WellStamped := by
  induction requests generalizing s with
  | nil => exact h
  | cons q rest ih =>
    have hcall : ∀ c s, s.store.WellStamped → ((backend supply).answer c s).2.store.WellStamped :=
      fun c _ => wellStamped_answer supply c
    have hclock : ∀ s, s.store.WellStamped → ((backend supply).readClock s).2.store.WellStamped :=
      fun _ h => h
    exact ih (Program.run_preserves hcall hclock q.serve.run h)

namespace Service

/-! ## Services that only read -/

/-- The service leaves every state as it is, whether it is refused or not. -/
def ReadsOnly {α : Type} (supply : Supply) (x : Service α) : Prop :=
  ∀ s, (x.run.run (MemoryState.backend supply) s).2 = s

variable {α β : Type} {supply : Supply} {s t : MemoryState}

namespace ReadsOnly

/-- A service ends where its first part is refused, or goes on in the same state. -/
theorem bind_run {x : Service α} {f : α → Service β} {outcome : Except RequestError β}
    (hx : x.ReadsOnly supply)
    (h : (x >>= f).run.run (MemoryState.backend supply) s = (outcome, t)) :
    (∃ e, outcome = .error e ∧ t = s) ∨
      ∃ a, x.run.run (MemoryState.backend supply) s = (.ok a, s) ∧
        (f a).run.run (MemoryState.backend supply) s = (outcome, t) := by
  obtain ⟨result, hrun⟩ : ∃ result, x.run.run (MemoryState.backend supply) s = (result, s) :=
    ⟨_, Prod.ext rfl (hx s)⟩
  cases result with
  | error e =>
    rw [run_bind_of_error hrun] at h
    exact .inl ⟨e, (Prod.mk.inj h).1.symm, (Prod.mk.inj h).2.symm⟩
  | ok a => exact .inr ⟨a, hrun, (run_bind_of_ok hrun f).symm.trans h⟩

/-- If it has a result, its first part had one too. -/
theorem of_bind_eq_ok {x : Service α} {f : α → Service β} {b : β} (hx : x.ReadsOnly supply)
    (h : (x >>= f).run.run (MemoryState.backend supply) s = (.ok b, t)) :
    ∃ a, x.run.run (MemoryState.backend supply) s = (.ok a, s) ∧
      (f a).run.run (MemoryState.backend supply) s = (.ok b, t) := by
  rcases hx.bind_run h with ⟨e, he, -⟩ | hrest
  · cases he
  · exact hrest

/-- A service only reads if both of its parts do. -/
theorem bind {x : Service α} {f : α → Service β} (hx : x.ReadsOnly supply)
    (hf : ∀ a, (f a).ReadsOnly supply) : (x >>= f).ReadsOnly supply := by
  intro s
  obtain ⟨result, hrun⟩ : ∃ result, x.run.run (MemoryState.backend supply) s = (result, s) :=
    ⟨_, Prod.ext rfl (hx s)⟩
  cases result with
  | error e => rw [run_bind_of_error hrun]
  | ok a =>
    rw [run_bind_of_ok hrun]
    exact hf a s

end ReadsOnly

/-- To return a result only reads. -/
theorem readsOnly_pure (a : α) : (pure a : Service α).ReadsOnly supply := fun _ => rfl

/-- To refuse what is not there only reads. -/
theorem readsOnly_orRefuse (e : RequestError) (a? : Option α) :
    (orRefuse e a?).ReadsOnly supply := by
  cases a? <;> exact fun _ => rfl

/-- To load the routing only reads. -/
theorem readsOnly_loadRouting (code : String) : (loadRouting code).ReadsOnly supply :=
  .bind (fun _ => rfl) fun _ => readsOnly_orRefuse _ _

/-- To look up the target of an override only reads. -/
theorem readsOnly_resolveTarget (r : Routing) (stepNo : Option Int32) :
    (resolveTarget r stepNo).ReadsOnly supply := by
  cases stepNo with
  | none => exact readsOnly_pure _
  | some stepNo =>
    exact .bind (fun _ => rfl) fun _ => .bind (readsOnly_orRefuse _ _) fun _ => readsOnly_pure _

/-- To look up a station group only reads. -/
theorem readsOnly_resolveGroup (code : Change String) : (resolveGroup code).ReadsOnly supply := by
  cases code with
  | keep => exact readsOnly_pure _
  | clear => exact readsOnly_pure _
  | set code =>
    exact .bind (fun _ => rfl) fun _ => .bind (readsOnly_orRefuse _ _) fun _ => readsOnly_pure _

/-! ## Writes -/

/-- The override that a request answers with is the one row that it has added. -/
theorem wrote_createOverride {code : String} {request : OverrideRequest} {o : Override}
    (h : (createOverride code request).run.run (MemoryState.backend supply) s = (.ok o, t)) :
    s.store.Wrote t.store o := by
  unfold createOverride at h
  obtain ⟨stepNo, -, h⟩ := ReadsOnly.of_bind_eq_ok (fun _ => rfl) h
  obtain ⟨r, -, h⟩ := (readsOnly_loadRouting code).of_bind_eq_ok h
  obtain ⟨target, -, h⟩ := (readsOnly_resolveTarget r stepNo).of_bind_eq_ok h
  obtain ⟨group, -, h⟩ := (readsOnly_resolveGroup _).of_bind_eq_ok h
  obtain ⟨ho, rfl⟩ := Prod.mk.inj h
  obtain rfl := Except.ok.inj ho
  exact MemoryStore.wrote_insertOverride rfl

/-- The override that a request answers with is the one row that it has changed. -/
theorem wrote_updateOverride {code id : String} {edit : OverrideEdit} {o : Override}
    (h : (updateOverride code id edit).run.run (MemoryState.backend supply) s = (.ok o, t)) :
    s.store.Wrote t.store o := by
  unfold updateOverride at h
  obtain ⟨r, -, h⟩ := (readsOnly_loadRouting code).of_bind_eq_ok h
  obtain ⟨steps, -, h⟩ := ReadsOnly.of_bind_eq_ok (fun _ => rfl) h
  obtain ⟨found?, -, h⟩ := ReadsOnly.of_bind_eq_ok (fun _ => rfl) h
  obtain ⟨found, -, h⟩ := (readsOnly_orRefuse _ _).of_bind_eq_ok h
  split at h
  · cases h
  · obtain ⟨group, -, h⟩ := (readsOnly_resolveGroup _).of_bind_eq_ok h
    cases hupdate : s.store.updateOverride id (edit.patch group) (supply.reading s.readings) with
    | mk written store =>
      have hcall : (call (.updateOverride id (edit.patch group))).run.run
          (MemoryState.backend supply) s =
            (.ok written, { s with store, readings := s.readings + 1 }) :=
        call_run_of_ok (by simp only [MemoryState.backend, MemoryState.answer, hupdate])
      rw [run_bind_of_ok hcall] at h
      cases written with
      | none => cases h
      | some o' =>
        obtain ⟨ho, rfl⟩ := Prod.mk.inj h
        obtain rfl := Except.ok.inj ho
        exact MemoryStore.wrote_updateOverride hupdate

end Service

/-- A write that succeeds has written the row that it returns. -/
theorem OverrideWrite.wrote {w : OverrideWrite} {supply : Supply} {s t : MemoryState} {o : Override}
    (h : w.serve.run.run (MemoryState.backend supply) s = (.ok o, t)) :
    s.store.Wrote t.store o := by
  cases w with
  | create code request => exact Service.wrote_createOverride h
  | update code id edit => exact Service.wrote_updateOverride h

end RoutePlan
