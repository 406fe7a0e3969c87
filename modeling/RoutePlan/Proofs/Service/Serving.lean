import RoutePlan.Proofs.Service.Confinement

/-!
# Requests that are served at the same time

Each request is a program, and the programs run call by call on one store, in any order
(`World.Serves`). The design stays as it is and the tables only grow (`World.later_advance`). If all
overrides are written by requests, each of them has a proper target
(`World.Serves.wellTargeted`), and they have the ids that were drawn from the supply
(`World.Serves.drawsIds`). Each move leaves alone what does not belong to the route that the request
names (`World.Serves.confined`).
-/

namespace RoutePlan

/-! ## Ids of overrides -/

/-- To change an override is to keep its id. -/
theorem MemoryStore.map_id_writeOverride (id : String) (patch : OverridePatch) (stamp : Instant)
    (s : MemoryStore) :
    (s.writeOverride id patch stamp).2.overrides.map (·.id) = s.overrides.map (·.id) := by
  unfold writeOverride
  split
  · rfl
  · next h =>
    obtain ⟨before, old, after, hs, ht, rfl, -⟩ := updateFirst_eq_some h
    rw [hs, ht, List.map_append, List.map_append]
    rfl

namespace MemoryState

/-- The overrides have the ids that were drawn from the supply, in this order. -/
def DrawsIds (supply : Supply) (s : MemoryState) : Prop :=
  s.store.overrides.map (·.id) = (List.range s.overrideIds).map supply.overrideId

variable {supply : Supply} {s : MemoryState}

/-- Whatever is called, the overrides have the ids that were drawn. -/
theorem drawsIds_answer (h : s.DrawsIds supply) (c : Call) :
    (answer supply c s).2.DrawsIds supply := by
  cases c with
  | insertOverride draft =>
    have hnext : (List.range (s.overrideIds + 1)).map supply.overrideId =
        (List.range s.overrideIds).map supply.overrideId ++ [supply.overrideId s.overrideIds] := by
      rw [List.range_succ, List.map_append, List.map_singleton]
    exact ((List.map_append ..).trans
      (congrArg (· ++ [supply.overrideId s.overrideIds]) h)).trans hnext.symm
  | updateOverride id patch =>
    exact (MemoryStore.map_id_writeOverride id patch _ _).trans h
  | insertVersion draft expected =>
    simp only [answer]
    split
    · exact h
    · next hinsert =>
      obtain ⟨-, -, -, rfl⟩ := MemoryStore.insertVersion_eq_ok.1 hinsert
      exact h
  | _ => exact h

/-- If the supply does not repeat itself, no two overrides have the same id. -/
theorem DrawsIds.nodup (h : s.DrawsIds supply) (hids : Function.Injective supply.overrideId) :
    (s.store.overrides.map (·.id)).Nodup := by
  rw [h]
  exact List.nodup_range.map hids

end MemoryState

/-! ## Requests as programs -/

/-- The program that serves a request and ends with its outcome. -/
def Request.program (q : Request) : Program Request.Outcome :=
  q.serve.run.bind fun outcome => .done ⟨q, outcome⟩

/-- Each move of a request is confined to its route, and what it answers with is stored. -/
theorem Request.keeps_program (supply : Supply) (q : Request) (s : MemoryState) :
    q.program.Keeps (MemoryState.backend supply) (confinement q.code)
      (fun outcome t => outcome.Stored t.store) s := by
  refine Program.keeps_bind.2 (Program.Keeps.imp (q.keeps_serve supply s) fun outcome t h => ?_)
  cases outcome <;> exact h

/-- A request ends as soon as the service that it asks for. -/
theorem Request.endsWithin_program {q : Request} {n : Nat} (h : q.serve.EndsWithin n) :
    q.program.EndsWithin n := by
  have hdone : ∀ outcome, Program.EndsWithin 0
      (.done (⟨q, outcome⟩ : Request.Outcome)) := fun _ => trivial
  have hprogram := Program.EndsWithin.bind hdone h
  rwa [Nat.zero_add] at hprogram

namespace World

variable {ι : Type} [DecidableEq ι] {supply : Supply}

/-- While programs run and no one else moves, the store is a later one. -/
theorem later_advance {α : Type} (w : World ι α) (i : ι) :
    w.state.store.Later (w.move supply (.advance i)).state.store :=
  (w.programs i).advance_state (MemoryState.backend supply)
    (P := fun t => w.state.store.Later t.store) (.refl _) (.refl _)
    fun c => MemoryState.later_answer supply c w.state

/-- While programs run and no one else moves, every schedule leads to a later store. -/
theorem later_runSchedule {α : Type} (schedule : List ι) (w : World ι α) :
    w.state.store.Later (w.runSchedule supply schedule).state.store := by
  induction schedule generalizing w with
  | nil => exact .refl _
  | cons i schedule ih => exact (w.later_advance i).trans (ih _)

/-- So a contract that relies on no more than this is kept in every such run. -/
theorem respects_later {α : Type} {guarantee : MemoryState → MemoryState → Prop}
    (schedule : List ι) (w : World ι α) :
    w.Respects ⟨fun s t => s.store.Later t.store, guarantee⟩ supply (schedule.map .advance) := by
  induction schedule generalizing w with
  | nil => exact .refl _
  | cons i schedule ih => exact ⟨.refl _, w.later_advance i, ih _⟩

/-- A store and requests that have not begun to be served. -/
def serving (s : MemoryState) (q : ι → Request) : World ι Request.Outcome :=
  ⟨s, fun i => (q i).program⟩

/-- A world that is reached when requests are served on a store, in any order of their moves. -/
inductive Serves (supply : Supply) (store : MemoryStore) (q : ι → Request) :
    World ι Request.Outcome → Prop
  | start : Serves supply store q (serving (.start store) q)
  | move {w : World ι Request.Outcome} (i : ι) (h : Serves supply store q w) :
    Serves supply store q (w.move supply (.advance i))

namespace Serves

variable {store : MemoryStore} {q : ι → Request} {w : World ι Request.Outcome}

/-- Requests go on being served along every schedule. -/
theorem runSchedule (h : w.Serves supply store q) (schedule : List ι) :
    (w.runSchedule supply schedule).Serves supply store q := by
  induction schedule generalizing w with
  | nil => exact h
  | cons i schedule ih => exact ih (h.move i)

/-- The store is a later one than that in which the requests began. -/
theorem later (h : w.Serves supply store q) : store.Later w.state.store := by
  induction h with
  | start => exact .refl store
  | @move w i _ ih => exact ih.trans (w.later_advance i)

/-- Each request keeps its contract all along. -/
theorem keeps (h : w.Serves supply store q) (i : ι) :
    (w.programs i).Keeps (MemoryState.backend supply) (confinement (q i).code)
      (fun outcome t => outcome.Stored t.store) w.state := by
  induction h with
  | start => exact (q i).keeps_program supply _
  | @move w j _ ih =>
    have hlater : w.state.store.Later (w.move supply (.advance j)).state.store := w.later_advance j
    exact keeps_move MemoryStore.growing_later.trans ih (.refl _) hlater
      fun outcome _ hstored => hstored.later hlater

/-- A move leaves alone what does not belong to the route that the request names. -/
theorem confined (h : w.Serves supply store q) (i : ι) :
    w.state.store.Confined (q i).code (w.move supply (.advance i)).state.store := by
  cases hdone : (w.programs i).isDone with
  | true =>
    rw [state_advance, Program.advance_of_isDone hdone]
    exact .refl _
  | false => exact guarantee_advance (h.keeps i) (.refl _) hdone

/-- So do any moves of requests through one route. -/
theorem confined_runSchedule (h : w.Serves supply store q) {code : String} {schedule : List ι}
    (hcode : ∀ i ∈ schedule, (q i).code = code) :
    w.state.store.Confined code (w.runSchedule supply schedule).state.store := by
  induction schedule generalizing w with
  | nil => exact .refl _
  | cons i schedule ih =>
    obtain ⟨rfl, hrest⟩ := List.forall_mem_cons.1 hcode
    exact (h.confined i).trans (w.later_advance i) (ih (h.move i) hrest)

/-- If there are no overrides to begin with, all are written by requests. -/
theorem wellTargeted (h : w.Serves supply store q) (hstore : store.overrides = []) :
    ∀ o ∈ w.state.store.overrides, o.WellTargeted w.state.store.steps := by
  induction h with
  | start => exact fun o ho => absurd (hstore ▸ ho) List.not_mem_nil
  | @move w i hw ih => exact (hw.confined i).wellTargeted ih

/-- If there are no overrides to begin with, all have the ids that were drawn. -/
theorem drawsIds (h : w.Serves supply store q) (hstore : store.overrides = []) :
    w.state.DrawsIds supply := by
  induction h with
  | start => exact congrArg (List.map (·.id)) hstore
  | @move w i _ ih =>
    exact (w.programs i).advance_state (MemoryState.backend supply) ih ih
      (MemoryState.drawsIds_answer ih)

/-- An override that a request says it has created is stored, and belongs to the route that the
request names. -/
theorem stores (h : w.Serves supply store q) {j : ι} {code : String} {request : OverrideRequest}
    {o : Override} (hj : w.programs j = .done ⟨.write (.create code request), .ok o⟩) :
    w.state.store.Stores code o := by
  have hkeeps := h.keeps j
  rw [hj] at hkeeps
  exact hkeeps

end Serves
end World
end RoutePlan
