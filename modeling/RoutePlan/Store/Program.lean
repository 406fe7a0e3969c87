import RoutePlan.Store.Call

/-!
# Programs over a store

A request to the service is served by a program: a tree of calls to a store and readings of a clock
that ends in a result (`Program`). Programs say nothing about the store, so one program runs on
every backend (`Program.run`), alone or interleaved with others call by call.
-/

namespace RoutePlan

/-- A program that ends in a result of type `α`. -/
inductive Program (α : Type)
  | done (result : α)
  | readClock (next : Instant → Program α)
  | call (c : Call) (next : c.Answer → Program α)

namespace Program

variable {α β : Type}

/-- One program after another. -/
def bind : Program α → (α → Program β) → Program β
  | done a, f => f a
  | readClock next, f => .readClock fun t => (next t).bind f
  | call c next, f => .call c fun r => (next r).bind f

instance : Monad Program where
  pure := done
  bind := bind

/-- A program that only hands on its result is the program. -/
theorem bind_done (p : Program α) : p.bind done = p := by
  induction p with
  | done a => rfl
  | readClock next ih => exact congrArg Program.readClock (funext ih)
  | call c next ih => exact congrArg (Program.call c) (funext ih)

/-- Three programs in turn may be put together in either order. -/
theorem bind_assoc {γ : Type} (p : Program α) (f : α → Program β) (g : β → Program γ) :
    (p.bind f).bind g = p.bind fun a => (f a).bind g := by
  induction p with
  | done a => rfl
  | readClock next ih => exact congrArg Program.readClock (funext ih)
  | call c next ih => exact congrArg (Program.call c) (funext ih)

instance : LawfulMonad Program :=
  LawfulMonad.mk' Program bind_done (fun _ _ => rfl) bind_assoc

/-- The result of a program that runs alone on a backend, and the state it leaves. -/
def run {σ : Type} (backend : Backend σ) : Program α → σ → α × σ
  | done a, s => (a, s)
  | readClock next, s => (next (backend.readClock s).1).run backend (backend.readClock s).2
  | call c next, s => (next (backend.answer c s).1).run backend (backend.answer c s).2

/-- The second of two programs in turn runs on the state that the first one leaves. -/
theorem run_bind {σ : Type} (backend : Backend σ) (p : Program α) (f : α → Program β) (s : σ) :
    (p.bind f).run backend s = (f (p.run backend s).1).run backend (p.run backend s).2 := by
  induction p generalizing s with
  | done a => rfl
  | readClock next ih => exact ih _ _
  | call c next ih => exact ih _ _

/-- What every call and every reading of the clock preserves is preserved by a program. -/
theorem run_preserves {σ : Type} {backend : Backend σ} {inv : σ → Prop}
    (hcall : ∀ c s, inv s → inv (backend.answer c s).2)
    (hclock : ∀ s, inv s → inv (backend.readClock s).2) (p : Program α) {s : σ} (h : inv s) :
    inv (p.run backend s).2 := by
  induction p generalizing s with
  | done a => exact h
  | readClock next ih => exact ih _ (hclock s h)
  | call c next ih => exact ih _ (hcall c s h)

end Program
end RoutePlan
