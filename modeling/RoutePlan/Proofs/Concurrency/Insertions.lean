import RoutePlan.Proofs.Concurrency.Protocol

/-!
# Versions that others insert

Versions are never removed, so in a run the versions of a route only become more, and one may count
how many of them are added by the moves of others than a given program
(`World.insertedByOthers`). If there are none, and the program makes no call meanwhile
(`World.Silent`), the route has the same versions as before (`World.versionsOf_run_of_silent`).
-/

namespace RoutePlan

namespace MemoryStore

variable {s t : MemoryStore} {routingId : String}

/-- The versions of a route stay at the front as the store grows. -/
theorem Grows.isPrefix_versionsOf (h : s.Grows t) (routingId : String) :
    s.versionsOf routingId <+: t.versionsOf routingId := by
  obtain ⟨more, ht, -⟩ := h.versions
  unfold versionsOf
  rw [ht, List.filter_append]
  exact List.prefix_append ..

/-- How many versions of a route were added from `s` to `t`. -/
def versionsAdded (routingId : String) (s t : MemoryStore) : Nat :=
  (t.versionsOf routingId).length - (s.versionsOf routingId).length

/-- A route to which no version is added keeps its versions. -/
theorem Grows.versionsOf_eq (h : s.Grows t) (hadded : versionsAdded routingId s t = 0) :
    t.versionsOf routingId = s.versionsOf routingId :=
  ((h.isPrefix_versionsOf routingId).eq_of_length_le (Nat.le_of_sub_eq_zero hadded)).symm

end MemoryStore

/-- Whether the move is one of the program. -/
def Move.isOf {ι : Type} [DecidableEq ι] (i : ι) : Move ι → Bool
  | advance j => decide (j = i)
  | _ => false

/-- The moves of a program are its own advances. -/
theorem Move.isOf_iff {ι : Type} [DecidableEq ι] {i : ι} {m : Move ι} :
    m.isOf i = true ↔ m = .advance i := by
  cases m <;> simp [isOf]

namespace World

variable {ι α : Type} [DecidableEq ι] {supply : Supply}

/-- How many versions of a route the moves of others than the program add. -/
def insertedByOthers (supply : Supply) (i : ι) (routingId : String) (w : World ι α) :
    List (Move ι) → Nat
  | [] => 0
  | m :: moves =>
    (if m.isOf i then 0
      else w.state.store.versionsAdded routingId (w.move supply m).state.store) +
      (w.move supply m).insertedByOthers supply i routingId moves

/-- The program makes no call in the moves. -/
def Silent (supply : Supply) (i : ι) (w : World ι α) : List (Move ι) → Prop
  | [] => True
  | m :: moves => (m = .advance i → (w.programs i).isCall = false) ∧
    (w.move supply m).Silent supply i moves

variable {w : World ι α} {i : ι} {routingId : String}

/-- The versions that others add in two runs in turn are those of both. -/
theorem insertedByOthers_append (moves more : List (Move ι)) :
    w.insertedByOthers supply i routingId (moves ++ more) =
      w.insertedByOthers supply i routingId moves +
        (w.run supply moves).insertedByOthers supply i routingId more := by
  induction moves generalizing w with
  | nil => exact (Nat.zero_add _).symm
  | cons m moves ih => exact (congrArg (_ + ·) ih).trans (Nat.add_assoc ..).symm

/-- The moves of the program itself do not count. -/
theorem insertedByOthers_cons_advance (moves : List (Move ι)) :
    w.insertedByOthers supply i routingId (.advance i :: moves) =
      (w.move supply (.advance i)).insertedByOthers supply i routingId moves := by
  rw [insertedByOthers, if_pos (Move.isOf_iff.2 rfl), Nat.zero_add]

/-- A program is silent in two runs in turn if it is silent in each of them. -/
theorem silent_append {moves more : List (Move ι)} : w.Silent supply i (moves ++ more) ↔
    w.Silent supply i moves ∧ (w.run supply moves).Silent supply i more := by
  induction moves generalizing w with
  | nil => exact ⟨fun h => ⟨trivial, h⟩, And.right⟩
  | cons m moves ih => exact (and_congr_right fun _ => ih).trans and_assoc.symm

/-- A program that makes no call leaves the versions alone. -/
theorem versionsOf_move_of_silent {m : Move ι}
    (hsilent : m = .advance i → (w.programs i).isCall = false)
    (hadded : (if m.isOf i then 0
      else w.state.store.versionsAdded routingId (w.move supply m).state.store) = 0) :
    (w.move supply m).state.store.versionsOf routingId = w.state.store.versionsOf routingId := by
  by_cases hm : m = .advance i
  · subst hm
    rw [state_advance]
    cases hp : w.programs i with
    | done a => rfl
    | readClock next => rfl
    | call c next =>
      have hcall := hsilent rfl
      rw [hp] at hcall
      cases hcall
  · rw [if_neg (mt Move.isOf_iff.1 hm)] at hadded
    exact (grows_move w m).versionsOf_eq hadded

/-- If a program is silent and others add no version of a route, the route keeps its versions. -/
theorem versionsOf_run_of_silent {moves : List (Move ι)} (hsilent : w.Silent supply i moves)
    (hadded : w.insertedByOthers supply i routingId moves = 0) :
    (w.run supply moves).state.store.versionsOf routingId =
      w.state.store.versionsOf routingId := by
  induction moves generalizing w with
  | nil => rfl
  | cons m moves ih =>
    obtain ⟨hmove, hrest⟩ := Nat.add_eq_zero_iff.1 hadded
    rw [run_cons, ih hsilent.2 hrest, versionsOf_move_of_silent hsilent.1 hmove]

end World
end RoutePlan
