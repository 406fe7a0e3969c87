import RoutePlan.Proofs.Concurrency.Contract
import RoutePlan.Proofs.Store.Growth
import Mathlib.Logic.Function.Basic

/-!
# Programs interleaved on one store

Programs run on a store in memory call by call, in any order, among calls of other clients and
direct changes of the design data (`World.run`). Every call is atomic. Two facts carry over from a
program alone to a program in a run: the store only grows (`World.grows_run`), and a contract that a
program keeps is still kept later on, if every move of the run satisfies its rely
(`World.keeps_run`); whenever the program moves, its guarantee holds of that move
(`World.guarantee_advance`).
-/

namespace RoutePlan

/-- A change of design data or of overrides. The change of an override may be split into two: its
stamp is drawn first and written later. -/
inductive DesignChange
  | addRouting (r : Routing)
  | addStep (step : RoutingStep)
  | replaceSteps (routingId : String) (steps : List RoutingStep)
  | addStationGroup (g : StationGroup)
  | addDataSpec (spec : DataSpec)
  | addOverride (o : Override)
  | drawStamp (reading : Instant)
  | writeOverride (id : String) (patch : OverridePatch) (stamp : Instant)

/-- The store after the change. -/
def DesignChange.apply : DesignChange → MemoryStore → MemoryStore
  | addRouting r => .addRouting r
  | addStep step => .addStep step
  | replaceSteps routingId steps => .replaceSteps routingId steps
  | addStationGroup g => .addStationGroup g
  | addDataSpec spec => .addDataSpec spec
  | addOverride o => .addOverride o
  | drawStamp reading => fun s => (s.drawStamp reading).2
  | writeOverride id patch stamp => fun s => (s.writeOverride id patch stamp).2

/-- One atomic move of a run. -/
inductive Move (ι : Type)
  /-- The program makes its next call or reads the clock; one that has ended stays as it is. -/
  | advance (i : ι)
  /-- Another client makes a call. -/
  | call (c : Call)
  | change (d : DesignChange)

namespace Program

variable {σ α : Type}

/-- What is left of a program after its next call or reading of the clock. -/
def advance (backend : Backend σ) : Program α → σ → Program α × σ
  | done a, s => (done a, s)
  | readClock next, s => (next (backend.readClock s).1, (backend.readClock s).2)
  | call c next, s => (next (backend.answer c s).1, (backend.answer c s).2)

/-- A program that keeps a contract satisfies its guarantee with its next move, if it has one, and
keeps the contract afterwards. -/
theorem Keeps.advance {backend : Backend σ} {k : Contract σ} {post : α → σ → Prop} {p : Program α}
    {s : σ} (h : p.Keeps backend k post s) (hself : k.rely s s) :
    (p.isDone = true ∨ k.guarantee s (p.advance backend s).2) ∧
      (p.advance backend s).1.Keeps backend k post (p.advance backend s).2 := by
  cases p with
  | done a => exact ⟨.inl rfl, h⟩
  | readClock next => exact ⟨.inr (h s hself).1, (h s hself).2⟩
  | call c next => exact ⟨.inr (h s hself).1, (h s hself).2⟩

/-- A move is a call or a reading of the clock, or nothing is left to be done. -/
theorem advance_state (backend : Backend σ) (p : Program α) {P : σ → Prop} {s : σ} (hdone : P s)
    (hclock : P (backend.readClock s).2) (hcall : ∀ c, P (backend.answer c s).2) :
    P (p.advance backend s).2 := by
  cases p with
  | done a => exact hdone
  | readClock next => exact hclock
  | call c next => exact hcall c

/-- A program that has ended makes no move. -/
theorem advance_of_isDone {backend : Backend σ} {p : Program α} {s : σ} (h : p.isDone = true) :
    p.advance backend s = (p, s) := by
  cases p with
  | done a => rfl
  | readClock next => cases h
  | call c next => cases h

end Program

/-! ## Growth -/

namespace MemoryState

/-- A change of the design lets the store grow. -/
theorem grows_change (d : DesignChange) (s : MemoryStore) : s.Grows (d.apply s) := by
  cases d with
  | addRouting r => exact ⟨⟨[], (List.append_nil _).symm, nofun⟩, List.prefix_append ..⟩
  | writeOverride id patch stamp => exact MemoryStore.grows_writeOverride id patch stamp s
  | _ => exact .of_eq rfl rfl

end MemoryState

/-- A store in memory and the programs that run on it. -/
structure World (ι α : Type) where
  state : MemoryState
  programs : ι → Program α

namespace World

variable {ι α : Type} [DecidableEq ι] {supply : Supply}

/-- The world after a move. -/
def move (supply : Supply) (w : World ι α) : Move ι → World ι α
  | .advance i =>
    let (p, s) := (w.programs i).advance (MemoryState.backend supply) w.state
    ⟨s, Function.update w.programs i p⟩
  | .call c => { w with state := (MemoryState.answer supply c w.state).2 }
  | .change d => { w with state := { w.state with store := d.apply w.state.store } }

/-- The world after some moves. -/
def run (supply : Supply) (w : World ι α) (moves : List (Move ι)) : World ι α :=
  moves.foldl (move supply) w

@[simp] theorem run_nil (w : World ι α) : w.run supply [] = w := rfl

@[simp] theorem run_cons (w : World ι α) (m : Move ι) (moves : List (Move ι)) :
    w.run supply (m :: moves) = (w.move supply m).run supply moves := rfl

/-- Two lists of moves in turn are one run. -/
@[simp] theorem run_append (w : World ι α) (moves more : List (Move ι)) :
    w.run supply (moves ++ more) = (w.run supply moves).run supply more :=
  List.foldl_append ..

/-- The world after the moves of some programs, in the given order. -/
def runSchedule (supply : Supply) (w : World ι α) (schedule : List ι) : World ι α :=
  w.run supply (schedule.map .advance)

@[simp] theorem runSchedule_nil (w : World ι α) : w.runSchedule supply [] = w := rfl

@[simp] theorem runSchedule_cons (w : World ι α) (i : ι) (schedule : List ι) :
    w.runSchedule supply (i :: schedule) =
      (w.move supply (.advance i)).runSchedule supply schedule := rfl

/-- Two schedules in turn are one schedule. -/
theorem runSchedule_append (w : World ι α) (schedule more : List ι) :
    w.runSchedule supply (schedule ++ more) =
      (w.runSchedule supply schedule).runSchedule supply more := by
  rw [runSchedule, List.map_append, run_append]
  rfl

/-- The last move of a schedule is made last. -/
theorem runSchedule_concat (w : World ι α) (schedule : List ι) (i : ι) :
    w.runSchedule supply (schedule ++ [i]) =
      (w.runSchedule supply schedule).move supply (.advance i) :=
  runSchedule_append ..

/-- The state after the move of a program is the one that the program leaves. -/
theorem state_advance (w : World ι α) (i : ι) :
    (w.move supply (.advance i)).state =
      ((w.programs i).advance (MemoryState.backend supply) w.state).2 := rfl

/-- What is left of a program after its move. -/
theorem programs_advance_self (w : World ι α) (i : ι) :
    (w.move supply (.advance i)).programs i =
      ((w.programs i).advance (MemoryState.backend supply) w.state).1 :=
  Function.update_self ..

/-- A move of another one leaves a program alone. -/
theorem programs_move_of_ne (w : World ι α) {m : Move ι} {j : ι} (h : m ≠ .advance j) :
    (w.move supply m).programs j = w.programs j := by
  cases m with
  | advance i => exact Function.update_of_ne (fun hji => h (by rw [hji])) ..
  | call c => rfl
  | change d => rfl

/-- A program that has ended keeps its result. -/
theorem programs_move_of_isDone (w : World ι α) {m : Move ι} {j : ι}
    (h : (w.programs j).isDone = true) : (w.move supply m).programs j = w.programs j := by
  by_cases hm : m = .advance j
  · rw [hm, programs_advance_self, Program.advance_of_isDone h]
  · exact programs_move_of_ne w hm

/-- A program that has ended keeps its result in every run. -/
theorem programs_run_of_isDone {j : ι} (moves : List (Move ι)) : ∀ {w : World ι α},
    (w.programs j).isDone = true → (w.run supply moves).programs j = w.programs j := by
  induction moves with
  | nil => exact fun _ => rfl
  | cons m moves ih =>
    intro w h
    have hm : (w.move supply m).programs j = w.programs j := programs_move_of_isDone w h
    rw [run_cons, ih (by rw [hm, h]), hm]

/-! ## Growth in a run -/

/-- A move lets the store grow. -/
theorem grows_move (w : World ι α) (m : Move ι) :
    w.state.store.Grows (w.move supply m).state.store := by
  cases m with
  | advance i =>
    exact (w.programs i).advance_state (MemoryState.backend supply)
      (P := fun t => w.state.store.Grows t.store) (.refl _) (.refl _)
      fun c => MemoryState.grows_answer supply c w.state
  | call c => exact MemoryState.grows_answer supply c w.state
  | change d => exact MemoryState.grows_change d w.state.store

/-- In a run the store only grows. -/
theorem grows_run (moves : List (Move ι)) : ∀ w : World ι α,
    w.state.store.Grows (w.run supply moves).state.store := by
  induction moves with
  | nil => exact fun w => .refl _
  | cons m moves ih => exact fun w => (grows_move w m).trans (ih _)

/-- In a run in which no one moves but programs the store only grows. -/
theorem grows_runSchedule (schedule : List ι) (w : World ι α) :
    w.state.store.Grows (w.runSchedule supply schedule).state.store :=
  grows_run ..

/-! ## Contracts in a run -/

/-- Every move of the run satisfies the rely of `k`, and so does standing still. -/
def Respects (k : Contract MemoryState) (supply : Supply) (w : World ι α) :
    List (Move ι) → Prop
  | [] => k.rely w.state w.state
  | m :: moves => k.rely w.state w.state ∧ k.rely w.state (w.move supply m).state ∧
    (w.move supply m).Respects k supply moves

variable {k : Contract MemoryState} {post : α → MemoryState → Prop} {w : World ι α} {j : ι}

/-- A run that satisfies the rely of a contract ends in a state that may stand still. -/
theorem Respects.run {moves : List (Move ι)} (h : w.Respects k supply moves) :
    k.rely (w.run supply moves).state (w.run supply moves).state := by
  induction moves generalizing w with
  | nil => exact h
  | cons m moves ih => exact ih h.2.2

/-- A transitive rely holds across the whole run. -/
theorem Respects.rely_run (htrans : ∀ {s t u}, k.rely s t → k.rely t u → k.rely s u)
    {moves : List (Move ι)} (h : w.Respects k supply moves) :
    k.rely w.state (w.run supply moves).state := by
  induction moves generalizing w with
  | nil => exact h
  | cons m moves ih =>
    obtain ⟨-, hmove, hrest⟩ := h
    exact htrans hmove (ih hrest)

/-- The move of a program that keeps a contract satisfies its guarantee. -/
theorem guarantee_advance (h : (w.programs j).Keeps (MemoryState.backend supply) k post w.state)
    (hself : k.rely w.state w.state) (hrun : (w.programs j).isDone = false) :
    k.guarantee w.state (w.move supply (.advance j)).state := by
  rcases (h.advance hself).1 with hd | hg
  · rw [hrun] at hd
    cases hd
  · exact hg

/-- A contract is kept by a move, if the program goes on or its postcondition is stable. -/
theorem keeps_move (htrans : ∀ {s t u}, k.rely s t → k.rely t u → k.rely s u) {m : Move ι}
    (h : (w.programs j).Keeps (MemoryState.backend supply) k post w.state)
    (hself : k.rely w.state w.state) (hmove : k.rely w.state (w.move supply m).state)
    (hdone : ∀ a, w.programs j = .done a → post a w.state →
      post a (w.move supply m).state) :
    ((w.move supply m).programs j).Keeps (MemoryState.backend supply) k post
      (w.move supply m).state := by
  by_cases hm : m = .advance j
  · rw [hm, programs_advance_self, state_advance]
    exact (h.advance hself).2
  · rw [programs_move_of_ne w hm]
    exact h.of_rely htrans hmove hdone

/-- A contract with a stable postcondition is kept along a run. -/
theorem keeps_run (htrans : ∀ {s t u}, k.rely s t → k.rely t u → k.rely s u)
    (hstable : ∀ a s t, post a s → k.rely s t → post a t) {moves : List (Move ι)}
    (h : (w.programs j).Keeps (MemoryState.backend supply) k post w.state)
    (hmoves : w.Respects k supply moves) :
    ((w.run supply moves).programs j).Keeps (MemoryState.backend supply) k post
      (w.run supply moves).state := by
  induction moves generalizing w with
  | nil => exact h
  | cons m moves ih =>
    obtain ⟨hself, hmove, hrest⟩ := hmoves
    exact ih (keeps_move htrans h hself hmove fun a _ ha => hstable a _ _ ha hmove) hrest

/-- Any contract is kept along a run as long as the program has not ended. -/
theorem keeps_run_of_running (htrans : ∀ {s t u}, k.rely s t → k.rely t u → k.rely s u)
    {moves : List (Move ι)}
    (h : (w.programs j).Keeps (MemoryState.backend supply) k post w.state)
    (hmoves : w.Respects k supply moves)
    (hrun : ((w.run supply moves).programs j).isDone = false) :
    ((w.run supply moves).programs j).Keeps (MemoryState.backend supply) k post
      (w.run supply moves).state := by
  induction moves generalizing w with
  | nil => exact h
  | cons m moves ih =>
    obtain ⟨hself, hmove, hrest⟩ := hmoves
    refine ih (keeps_move htrans h hself hmove fun a ha _ => ?_) hrest hrun
    have hd : (w.programs j).isDone = true := by rw [ha]; rfl
    rw [programs_run_of_isDone (m :: moves) hd, hd] at hrun
    cases hrun

end World

/-! ## Calls that only read -/

namespace Service

variable {supply : Supply} {k : Contract MemoryState} {s : MemoryState}

/-- A call that only reads is answered from some state that the others leave behind. -/
theorem keeps_reading (hnothing : ∀ t, k.guarantee t t) {c : Call} (read : MemoryStore → c.Reply)
    (hread : ∀ t, MemoryState.answer supply c t = (.ok (read t.store), t))
    {post : c.Reply → MemoryState → Prop} {refused : RequestError → MemoryState → Prop}
    (h : ∀ t, k.rely s t → post (read t.store) t) :
    Keeps (MemoryState.backend supply) k post refused (call c) s := by
  refine keeps_call.2 fun t ht => ?_
  simp only [MemoryState.backend, hread]
  exact ⟨hnothing t, h t ht⟩

/-- The routing is found at some moment, or the request is refused. -/
theorem keeps_loadRouting (hnothing : ∀ t, k.guarantee t t) {code : String}
    {post : Routing → MemoryState → Prop} {refused : RequestError → MemoryState → Prop}
    (hpost : ∀ t r, k.rely s t → t.store.findRouting code = some r → post r t)
    (hrefused : ∀ t, k.rely s t → t.store.findRouting code = none →
      refused (.routeNotFound code) t) :
    Keeps (MemoryState.backend supply) k post refused (loadRouting code) s := by
  rw [loadRouting, keeps_bind]
  refine keeps_reading hnothing (·.findRouting code) (fun _ => rfl) fun t ht => keeps_orRefuse.2 ?_
  cases hr : t.store.findRouting code with
  | none => exact hrefused t ht hr
  | some r => exact hpost t r ht hr

end Service
end RoutePlan
