import RoutePlan.Proofs.Concurrency.Interleaving

/-!
# Programs that end after so many moves of their own

Nothing in a store waits for another client, so whether a program comes to its end depends on its
own moves only: if it ends within `n` moves whatever it is answered (`Program.EndsWithin`), it has
ended in every run that moves it `n` times (`World.isDone_runSchedule`).
-/

namespace RoutePlan

namespace Program

variable {α β σ : Type}

/-- The program has ended after `n` moves of its own, whatever it is answered. -/
def EndsWithin : Nat → Program α → Prop
  | _, done _ => True
  | 0, _ => False
  | n + 1, readClock next => ∀ t, (next t).EndsWithin n
  | n + 1, call _ next => ∀ a, (next a).EndsWithin n

/-- A program that has ended after `m` moves has ended after any more. -/
theorem EndsWithin.mono {m n : Nat} (hmn : m ≤ n) : ∀ {p : Program α}, p.EndsWithin m →
    p.EndsWithin n := by
  induction m generalizing n with
  | zero =>
    intro p h
    cases p with
    | done a => cases n <;> trivial
    | readClock next => exact h.elim
    | call c next => exact h.elim
  | succ m ih =>
    intro p h
    obtain ⟨n, rfl⟩ := Nat.exists_eq_add_of_le' (Nat.le_trans (Nat.le_add_left 1 m) hmn)
    cases p with
    | done a => trivial
    | readClock next => exact fun t => ih (Nat.le_of_succ_le_succ hmn) (h t)
    | call c next => exact fun a => ih (Nat.le_of_succ_le_succ hmn) (h a)

/-- One program after another takes the moves of both. -/
theorem EndsWithin.bind {m n : Nat} {f : α → Program β} (hf : ∀ a, (f a).EndsWithin n) :
    ∀ {p : Program α}, p.EndsWithin m → (p.bind f).EndsWithin (n + m) := by
  induction m with
  | zero =>
    intro p h
    cases p with
    | done a => exact hf a
    | readClock next => exact h.elim
    | call c next => exact h.elim
  | succ m ih =>
    intro p h
    cases p with
    | done a => exact (hf a).mono (Nat.le_add_right ..)
    | readClock next => exact fun t => ih (h t)
    | call c next => exact fun a => ih (h a)

/-- Each move brings the end nearer. -/
theorem EndsWithin.advance {n : Nat} {p : Program α} (h : p.EndsWithin n) (backend : Backend σ)
    (s : σ) : (p.advance backend s).1.EndsWithin (n - 1) := by
  cases p with
  | done a => cases n - 1 <;> trivial
  | readClock next =>
    cases n with
    | zero => exact h.elim
    | succ n => exact h _
  | call c next =>
    cases n with
    | zero => exact h.elim
    | succ n => exact h _

/-- A program that runs alone makes its first move, and what is left runs alone. -/
theorem run_advance (backend : Backend σ) (p : Program α) (s : σ) :
    (p.advance backend s).1.run backend (p.advance backend s).2 = p.run backend s := by
  cases p <;> rfl

/-- A program that ends within no move has ended. -/
theorem EndsWithin.isDone {p : Program α} (h : p.EndsWithin 0) : p.isDone = true := by
  cases p with
  | done a => rfl
  | readClock next => exact h.elim
  | call c next => exact h.elim

end Program

namespace Service

variable {α β : Type} {m n : Nat}

/-- The service has ended after `n` moves of its own. -/
def EndsWithin (n : Nat) (x : Service α) : Prop := Program.EndsWithin n x.run

/-- A result takes no move. -/
theorem endsWithin_pure (a : α) : EndsWithin 0 (pure a) := trivial

/-- A refusal takes no move. -/
theorem endsWithin_throw (e : RequestError) : EndsWithin 0 (throw e : Service α) := trivial

/-- A call takes one move. -/
theorem endsWithin_call (c : Call) : EndsWithin 1 (call c) := fun _ => trivial

/-- A reading of the clock takes one move. -/
theorem endsWithin_now : EndsWithin 1 now := fun _ => trivial

/-- A service that has ended after `m` moves has ended after any more. -/
theorem EndsWithin.mono {x : Service α} (h : EndsWithin m x) (hmn : m ≤ n) : EndsWithin n x :=
  Program.EndsWithin.mono hmn h

/-- Two parts of a service in turn take the moves of both. -/
theorem EndsWithin.bind {x : Service α} {f : α → Service β} (hx : EndsWithin m x)
    (hf : ∀ a, EndsWithin n (f a)) : EndsWithin (n + m) (x >>= f) := by
  refine Program.EndsWithin.bind (fun r => ?_) hx
  cases r with
  | ok a => exact hf a
  | error e => exact (endsWithin_throw e).mono (Nat.zero_le n)

/-- A service with a handler takes the moves of both at most. -/
theorem EndsWithin.tryCatch {x : Service α} {handler : RequestError → Service α}
    (hx : EndsWithin m x) (hhandler : ∀ e, EndsWithin n (handler e)) :
    EndsWithin (n + m) (tryCatch x handler) := by
  refine Program.EndsWithin.bind (fun r => ?_) hx
  cases r with
  | ok a => exact (endsWithin_pure a).mono (Nat.zero_le n)
  | error e => exact hhandler e

/-- A conditional takes the moves of either branch. -/
theorem endsWithin_ite {c : Prop} [Decidable c] {x y : Service α} (hx : EndsWithin n x)
    (hy : EndsWithin n y) : EndsWithin n (if c then x else y) := by
  split
  · exact hx
  · exact hy

/-- To refuse what is not there takes no move. -/
theorem endsWithin_orRefuse (e : RequestError) (a? : Option α) :
    EndsWithin 0 (orRefuse e a?) := by
  cases a? with
  | none => exact endsWithin_throw e
  | some a => exact endsWithin_pure a

end Service

namespace World

variable {ι α : Type} [DecidableEq ι] {supply : Supply}

/-- A program that ends within `n` moves of its own has ended in every run that moves it `n`
times. -/
theorem isDone_runSchedule {i : ι} {n : Nat} {schedule : List ι} {w : World ι α}
    (h : (w.programs i).EndsWithin n) (hcount : n ≤ schedule.count i) :
    ((w.runSchedule supply schedule).programs i).isDone = true := by
  induction schedule generalizing w n with
  | nil =>
    rw [List.count_nil, Nat.le_zero] at hcount
    rw [hcount] at h
    exact h.isDone
  | cons j schedule ih =>
    rw [runSchedule_cons]
    by_cases hj : j = i
    · subst hj
      rw [List.count_cons_self] at hcount
      refine ih ?_ (Nat.sub_le_of_le_add hcount)
      rw [programs_advance_self]
      exact h.advance _ _
    · rw [List.count_cons_of_ne (by simpa using hj)] at hcount
      refine ih ?_ hcount
      rw [programs_move_of_ne w (fun h => hj (by cases h; rfl))]
      exact h

/-- If no one else moves, a program ends as it does when it runs alone. -/
theorem runSchedule_replicate {i : ι} {n : Nat} {w : World ι α} (h : (w.programs i).EndsWithin n) :
    (w.runSchedule supply (List.replicate n i)).state =
        ((w.programs i).run (MemoryState.backend supply) w.state).2 ∧
      (w.runSchedule supply (List.replicate n i)).programs i =
        .done ((w.programs i).run (MemoryState.backend supply) w.state).1 := by
  induction n generalizing w with
  | zero =>
    rw [List.replicate_zero, runSchedule_nil]
    cases hp : w.programs i with
    | done a => exact ⟨rfl, rfl⟩
    | readClock next => rw [hp] at h; exact h.elim
    | call c next => rw [hp] at h; exact h.elim
  | succ n ih =>
    rw [List.replicate_succ, runSchedule_cons, ← Program.run_advance (MemoryState.backend supply)]
    have hrest := h.advance (MemoryState.backend supply) w.state
    rw [← programs_advance_self] at hrest ⊢
    exact ih hrest

end World
end RoutePlan
