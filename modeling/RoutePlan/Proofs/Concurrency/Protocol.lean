import RoutePlan.Proofs.Concurrency.Interleaving

/-!
# Protocols of calls

A contract speaks of the states between the moves of a program. A protocol speaks of its calls: it
says which calls are allowed after what the program has been answered so far (`Protocol`). Whether a
program follows a protocol is decided by the program alone, for every answer that a store in memory
may give, and it is shown part by part, as for a contract (`Program.follows_bind`). A fact about a
run then holds along the run if the allowed calls of the program keep it and so do all other moves
(`World.run_follows`).
-/

namespace RoutePlan

/-- Which calls are allowed after what is remembered, and what is remembered after an answer. -/
structure Protocol (γ : Type) where
  allows : γ → Call → Prop
  next : γ → (c : Call) → c.Answer → γ

namespace Program

variable {α β γ : Type} {supply : Supply} {π : Protocol γ} {g : γ}

/-- `p`, which remembers `g`, makes no calls but those that are allowed, whatever a store in memory
answers, and ends with a result and with a memory that satisfy `post`. -/
def Follows (supply : Supply) (π : Protocol γ) (post : α → γ → Prop) : Program α → γ → Prop
  | done a, g => post a g
  | readClock next, g => ∀ t, (next t).Follows supply π post g
  | call c next, g => π.allows g c ∧ ∀ s, (next (MemoryState.answer supply c s).1).Follows supply π
      post (π.next g c (MemoryState.answer supply c s).1)

/-- One program after another: the second goes on with what the first one remembers. -/
theorem follows_bind {p : Program α} {f : α → Program β} {post : β → γ → Prop} :
    (p.bind f).Follows supply π post g ↔
      p.Follows supply π (fun a g => (f a).Follows supply π post g) g := by
  induction p generalizing g with
  | done a => rfl
  | readClock next ih => exact forall_congr' fun t => ih t
  | call c next ih => exact and_congr_right fun _ => forall_congr' fun s => ih _

/-- The postcondition of a program may be weakened. -/
theorem Follows.imp {post post' : α → γ → Prop} {p : Program α} (h : p.Follows supply π post g)
    (hpost : ∀ a g, post a g → post' a g) : p.Follows supply π post' g := by
  induction p generalizing g with
  | done a => exact hpost a g h
  | readClock next ih => exact fun t => ih t (h t)
  | call c next ih => exact ⟨h.1, fun s => ih _ (h.2 s)⟩

/-- Postconditions that say the same may replace each other. -/
theorem follows_congr {post post' : α → γ → Prop} {p : Program α}
    (h : ∀ a g, post a g ↔ post' a g) :
    p.Follows supply π post g ↔ p.Follows supply π post' g :=
  ⟨fun hp => hp.imp fun a g => (h a g).1, fun hp => hp.imp fun a g => (h a g).2⟩

/-- Every call that the program may make, whatever it is answered, satisfies `ok`. -/
def OnlyCalls (ok : Call → Prop) : Program α → Prop
  | done _ => True
  | readClock next => ∀ t, (next t).OnlyCalls ok
  | call c next => ok c ∧ ∀ r, (next r).OnlyCalls ok

/-- Two programs in turn make the calls of both. -/
theorem OnlyCalls.bind {ok : Call → Prop} {p : Program α} {f : α → Program β}
    (hp : p.OnlyCalls ok) (hf : ∀ a, (f a).OnlyCalls ok) : (p.bind f).OnlyCalls ok := by
  induction p with
  | done a => exact hf a
  | readClock next ih => exact fun t => ih t (hp t)
  | call c next ih => exact ⟨hp.1, fun r => ih r (hp.2 r)⟩

/-- A program that makes calls of one kind makes calls of every wider kind. -/
theorem OnlyCalls.imp {ok ok' : Call → Prop} {p : Program α} (h : p.OnlyCalls ok)
    (hok : ∀ c, ok c → ok' c) : p.OnlyCalls ok' := by
  induction p with
  | done a => trivial
  | readClock next ih => exact fun t => ih t (h t)
  | call c next ih => exact ⟨hok c h.1, fun r => ih r (h.2 r)⟩

/-- What is left of a program after a move makes calls of the same kind. -/
theorem OnlyCalls.advance {σ : Type} {backend : Backend σ} {ok : Call → Prop} {p : Program α}
    (h : p.OnlyCalls ok) (s : σ) : (p.advance backend s).1.OnlyCalls ok := by
  cases p with
  | done a => trivial
  | readClock next => exact h _
  | call c next => exact h.2 _

/-- Calls that are always allowed follow every protocol. -/
theorem OnlyCalls.follows {ok : Call → Prop} {p : Program α} (h : p.OnlyCalls ok)
    (hok : ∀ g c, ok c → π.allows g c) : p.Follows supply π (fun _ _ => True) g := by
  induction p generalizing g with
  | done a => trivial
  | readClock next ih => exact fun t => ih t (h t)
  | call c next ih => exact ⟨hok g c h.1, fun s => ih _ (h.2 _)⟩

end Program

/-! ## Services -/

namespace Service

variable {α β γ : Type} {supply : Supply} {π : Protocol γ} {g : γ}

/-- The protocol of a service, with a postcondition for its result and one for a refusal. -/
def Follows (supply : Supply) (π : Protocol γ) (post : α → γ → Prop)
    (refused : RequestError → γ → Prop) (x : Service α) (g : γ) : Prop :=
  Program.Follows supply π
    (fun r g => match r with
      | .ok a => post a g
      | .error e => refused e g) x.run g

variable {post : α → γ → Prop} {refused : RequestError → γ → Prop}

/-- The postconditions of a service may be weakened. -/
theorem Follows.imp {x : Service α} {post' : α → γ → Prop} {refused' : RequestError → γ → Prop}
    (h : Follows supply π post refused x g) (hpost : ∀ a g, post a g → post' a g)
    (hrefused : ∀ e g, refused e g → refused' e g) : Follows supply π post' refused' x g :=
  Program.Follows.imp h fun r g => by
    cases r with
    | ok a => exact hpost a g
    | error e => exact hrefused e g

/-- What returns at once has to satisfy the postcondition. -/
theorem follows_pure {a : α} : Follows supply π post refused (pure a) g ↔ post a g := Iff.rfl

/-- What is refused at once has to satisfy the postcondition of a refusal. -/
theorem follows_throw {e : RequestError} :
    Follows supply π post refused (throw e) g ↔ refused e g := Iff.rfl

/-- One part of a service after another: the second goes on with what the first one remembers. -/
theorem follows_bind {post : β → γ → Prop} {x : Service α} {f : α → Service β} :
    Follows supply π post refused (x >>= f) g ↔
      Follows supply π (fun a g => Follows supply π post refused (f a) g) refused x g := by
  refine Program.follows_bind.trans (Program.follows_congr fun r g => ?_)
  cases r <;> rfl

/-- A handler goes on with what is remembered when the service is refused. -/
theorem follows_tryCatch {x : Service α} {handler : RequestError → Service α} :
    Follows supply π post refused (tryCatch x handler) g ↔
      Follows supply π post (fun e g => Follows supply π post refused (handler e) g) x g := by
  refine Program.follows_bind.trans (Program.follows_congr fun r g => ?_)
  cases r <;> rfl

/-- A call must be allowed, and whatever a store answers is remembered. -/
theorem follows_call {c : Call} {post : c.Reply → γ → Prop} :
    Follows supply π post refused (call c) g ↔ π.allows g c ∧ ∀ s,
      match (MemoryState.answer supply c s).1 with
      | .ok a => post a (π.next g c (.ok a))
      | .error e => refused (.storage e) (π.next g c (.error e)) := by
  refine and_congr_right fun _ => forall_congr' fun s => ?_
  cases (MemoryState.answer supply c s).1 <;> rfl

/-- A call that only reads is never refused. -/
theorem follows_read {c : Call} (read : MemoryStore → c.Reply)
    (hread : ∀ s, MemoryState.answer supply c s = (.ok (read s.store), s))
    {post : c.Reply → γ → Prop} (hallows : π.allows g c)
    (h : ∀ s, post (read s) (π.next g c (.ok (read s)))) :
    Follows supply π post refused (call c) g := by
  refine follows_call.2 ⟨hallows, fun s => ?_⟩
  rw [hread]
  exact h s.store

/-- A reading of the clock may have any outcome, and nothing is remembered of it. -/
theorem follows_now {post : Instant → γ → Prop} :
    Follows supply π post refused now g ↔ ∀ t, post t g := Iff.rfl

/-- A conditional follows the protocol if each branch does where it is taken. -/
theorem follows_ite {c : Prop} [Decidable c] {x y : Service α}
    (hx : c → Follows supply π post refused x g) (hy : ¬c → Follows supply π post refused y g) :
    Follows supply π post refused (if c then x else y) g := by
  by_cases h : c
  · rw [if_pos h]
    exact hx h
  · rw [if_neg h]
    exact hy h

/-- What is there is the result, and what is not is refused. -/
theorem follows_orRefuse {e : RequestError} {a? : Option α} :
    Follows supply π post refused (orRefuse e a?) g ↔
      match a? with
      | some a => post a g
      | none => refused e g := by
  cases a? <;> rfl

/-- Every call that the service may make satisfies `ok`. -/
def OnlyCalls (ok : Call → Prop) (x : Service α) : Prop := Program.OnlyCalls ok x.run

section
variable {ok : Call → Prop}

/-- A result makes no calls. -/
theorem onlyCalls_pure (a : α) : OnlyCalls ok (pure a : Service α) := trivial

/-- A refusal makes no calls. -/
theorem onlyCalls_throw (e : RequestError) : OnlyCalls ok (throw e : Service α) := trivial

/-- A reading of the clock makes no calls. -/
theorem onlyCalls_now : OnlyCalls ok now := fun _ => trivial

/-- A call makes no other calls. -/
theorem onlyCalls_call {c : Call} (h : ok c) : OnlyCalls ok (call c) := ⟨h, fun _ => trivial⟩

/-- To refuse what is not there takes no calls. -/
theorem onlyCalls_orRefuse (e : RequestError) (a? : Option α) : OnlyCalls ok (orRefuse e a?) := by
  cases a? <;> trivial

/-- A service that makes calls of one kind makes calls of every wider kind. -/
theorem OnlyCalls.imp {ok' : Call → Prop} {x : Service α} (h : OnlyCalls ok x)
    (hok : ∀ c, ok c → ok' c) : OnlyCalls ok' x :=
  Program.OnlyCalls.imp h hok

/-- Two parts of a service in turn make the calls of both. -/
theorem OnlyCalls.bind {x : Service α} {f : α → Service β} (hx : OnlyCalls ok x)
    (hf : ∀ a, OnlyCalls ok (f a)) : OnlyCalls ok (x >>= f) :=
  Program.OnlyCalls.bind hx fun r => by
    cases r with
    | ok a => exact hf a
    | error e => trivial

/-- A service with a handler makes the calls of both. -/
theorem OnlyCalls.tryCatch {x : Service α} {handler : RequestError → Service α}
    (hx : OnlyCalls ok x) (hhandler : ∀ e, OnlyCalls ok (handler e)) :
    OnlyCalls ok (tryCatch x handler) :=
  Program.OnlyCalls.bind hx fun r => by
    cases r with
    | ok a => trivial
    | error e => exact hhandler e

/-- A conditional makes the calls of its branches. -/
theorem onlyCalls_ite {c : Prop} [Decidable c] {x y : Service α} (hx : OnlyCalls ok x)
    (hy : OnlyCalls ok y) : OnlyCalls ok (if c then x else y) := by
  split
  · exact hx
  · exact hy

/-- The routing is loaded with one call. -/
theorem onlyCalls_loadRouting {code : String} (h : ok (.findRouting code)) :
    OnlyCalls ok (loadRouting code) :=
  .bind (onlyCalls_call h) fun _ => onlyCalls_orRefuse _ _

end

end Service

/-! ## Runs -/

/-- Whether the next move of a program is a call. -/
def Program.isCall {α : Type} : Program α → Bool
  | call _ _ => true
  | _ => false

namespace World

variable {ι α γ : Type} [DecidableEq ι] {supply : Supply} {π : Protocol γ} {post : α → γ → Prop}
  {w : World ι α} {i : ι}

/-- Along a run a program goes on following its protocol. What is said of the run and of what the
program remembers is kept by the moves that are no calls of the program, and by its calls as far as
they are allowed. -/
theorem run_follows {P : List (Move ι) → γ → Prop} {g₀ : γ}
    (hfollows : (w.programs i).Follows supply π post g₀) (hinit : P [] g₀)
    (hother : ∀ moves m g, P moves g →
      (m = .advance i → ((w.run supply moves).programs i).isCall = false) → P (moves ++ [m]) g)
    (hcall : ∀ moves g c next, P moves g → (w.run supply moves).programs i = .call c next →
      π.allows g c → P (moves ++ [.advance i])
        (π.next g c (MemoryState.answer supply c (w.run supply moves).state).1))
    (moves : List (Move ι)) :
    ∃ g, ((w.run supply moves).programs i).Follows supply π post g ∧ P moves g := by
  induction moves using List.reverseRecOn with
  | nil => exact ⟨g₀, hfollows, hinit⟩
  | append_singleton moves m ih =>
    obtain ⟨g, hg, h⟩ := ih
    rw [run_append, run_cons, run_nil]
    by_cases hm : m = .advance i
    · subst hm
      rw [programs_advance_self]
      cases hp : (w.run supply moves).programs i with
      | done a =>
        rw [hp] at hg
        exact ⟨g, hg, hother moves _ g h fun _ => by rw [hp]; rfl⟩
      | readClock next =>
        rw [hp] at hg
        exact ⟨g, hg _, hother moves _ g h fun _ => by rw [hp]; rfl⟩
      | call c next =>
        rw [hp] at hg
        exact ⟨_, hg.2 _, hcall moves g c next h hp hg.1⟩
    · rw [programs_move_of_ne _ hm]
      exact ⟨g, hg, hother moves m g h fun heq => absurd heq hm⟩

/-- The same for a run in which no one moves but programs. -/
theorem runSchedule_follows {P : List ι → γ → Prop} {g₀ : γ}
    (hfollows : (w.programs i).Follows supply π post g₀) (hinit : P [] g₀)
    (hother : ∀ schedule j g, P schedule g →
      (j = i → ((w.runSchedule supply schedule).programs i).isCall = false) →
      P (schedule ++ [j]) g)
    (hcall : ∀ schedule g c next, P schedule g →
      (w.runSchedule supply schedule).programs i = .call c next → π.allows g c →
      P (schedule ++ [i])
        (π.next g c (MemoryState.answer supply c (w.runSchedule supply schedule).state).1))
    (schedule : List ι) :
    ∃ g, ((w.runSchedule supply schedule).programs i).Follows supply π post g ∧ P schedule g := by
  have hsplit {moves : List (Move ι)} {m : Move ι} {schedule : List ι}
      (h : moves ++ [m] = schedule.map .advance) :
      ∃ earlier j, schedule = earlier ++ [j] ∧ moves = earlier.map .advance ∧ m = .advance j := by
    obtain ⟨earlier, last, rfl, hmoves, hlast⟩ := List.map_eq_append_iff.1 h.symm
    obtain ⟨j, rfl, hj⟩ := List.map_eq_singleton_iff.1 hlast
    exact ⟨earlier, j, rfl, hmoves.symm, hj.symm⟩
  obtain ⟨g, hg, h⟩ := run_follows
    (P := fun moves g => ∀ schedule, moves = schedule.map .advance → P schedule g) hfollows
    (fun schedule h => by rw [List.map_eq_nil_iff.1 h.symm]; exact hinit)
    (fun moves m g h hm schedule heq => by
      obtain ⟨earlier, j, rfl, rfl, rfl⟩ := hsplit heq
      exact hother earlier j g (h earlier rfl) fun hj => hm (by rw [hj]))
    (fun moves g c next h hp hallows schedule heq => by
      obtain ⟨earlier, j, rfl, rfl, hj⟩ := hsplit heq
      cases hj
      exact hcall earlier g c next (h earlier rfl) hp hallows)
    (schedule.map .advance)
  exact ⟨g, hg, h schedule rfl⟩

end World
end RoutePlan
