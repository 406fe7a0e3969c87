import RoutePlan.Service.Basic
import Mathlib.Logic.Relation

/-!
# Contracts of programs that run among others

A program that is interleaved with others keeps a contract (`Program.Keeps`) if, as long as the
moves of the others satisfy the *rely*, each of its own moves satisfies the *guarantee* and its
result satisfies a postcondition in the state in which it ends. `Keeps` is a predicate transformer:
the contract of one program after another is the contract of the first with the contract of the
second as its postcondition (`Program.keeps_bind`), so the contract of a service is put together
from those of its parts. The rely is meant to be transitive: then the contract of a program that has
not ended outlasts the moves of the others (`Program.Keeps.of_rely`).
-/

namespace RoutePlan

/-- What a program relies on between its own moves, and what it guarantees of each of them. -/
structure Contract (σ : Type) where
  rely : σ → σ → Prop
  guarantee : σ → σ → Prop

namespace Program

variable {σ α β : Type} {backend : Backend σ} {k : Contract σ}

/-- `p`, started in a state among others that satisfy the rely of `k`, satisfies the guarantee of
`k` with every move, and ends with a result and in a state that satisfy `post`. -/
def Keeps (backend : Backend σ) (k : Contract σ) (post : α → σ → Prop) : Program α → σ → Prop
  | done a, s => post a s
  | readClock next, s => ∀ t, k.rely s t →
    k.guarantee t (backend.readClock t).2 ∧
      (next (backend.readClock t).1).Keeps backend k post (backend.readClock t).2
  | call c next, s => ∀ t, k.rely s t →
    k.guarantee t (backend.answer c t).2 ∧
      (next (backend.answer c t).1).Keeps backend k post (backend.answer c t).2

/-- One program after another: the second takes over in the state in which the first ends. -/
theorem keeps_bind {p : Program α} {f : α → Program β} {post : β → σ → Prop} {s : σ} :
    (p.bind f).Keeps backend k post s ↔
      p.Keeps backend k (fun a t => (f a).Keeps backend k post t) s := by
  induction p generalizing s with
  | done a => rfl
  | readClock next ih => exact forall₂_congr fun t _ => and_congr_right fun _ => ih _
  | call c next ih => exact forall₂_congr fun t _ => and_congr_right fun _ => ih _

/-- A contract with a weaker rely keeps a stronger one's promises. -/
theorem Keeps.mono {k' : Contract σ} {post post' : α → σ → Prop} {p : Program α} {s : σ}
    (h : p.Keeps backend k post s) (hrely : ∀ s t, k'.rely s t → k.rely s t)
    (hguarantee : ∀ s t, k.guarantee s t → k'.guarantee s t)
    (hpost : ∀ a t, post a t → post' a t) : p.Keeps backend k' post' s := by
  induction p generalizing s with
  | done a => exact hpost a s h
  | readClock next ih =>
    intro t ht
    have ⟨hg, hn⟩ := h t (hrely s t ht)
    exact ⟨hguarantee _ _ hg, ih _ hn⟩
  | call c next ih =>
    intro t ht
    have ⟨hg, hn⟩ := h t (hrely s t ht)
    exact ⟨hguarantee _ _ hg, ih _ hn⟩

/-- The postcondition of a program may be weakened. -/
theorem Keeps.imp {post post' : α → σ → Prop} {p : Program α} {s : σ}
    (h : p.Keeps backend k post s) (hpost : ∀ a t, post a t → post' a t) :
    p.Keeps backend k post' s :=
  h.mono (fun _ _ => id) (fun _ _ => id) hpost

/-- Postconditions that say the same may replace each other. -/
theorem keeps_congr {post post' : α → σ → Prop} {p : Program α} {s : σ}
    (h : ∀ a t, post a t ↔ post' a t) : p.Keeps backend k post s ↔ p.Keeps backend k post' s :=
  ⟨fun hp => hp.imp fun a t => (h a t).1, fun hp => hp.imp fun a t => (h a t).2⟩

/-- Whether a program has come to its end. -/
def isDone : Program α → Bool
  | done _ => true
  | _ => false

/-- The contract outlasts moves that satisfy the rely, if the program goes on or the others leave
its postcondition alone. -/
theorem Keeps.of_rely (htrans : ∀ {s t u}, k.rely s t → k.rely t u → k.rely s u)
    {post : α → σ → Prop} {p : Program α} {s t : σ} (h : p.Keeps backend k post s)
    (hst : k.rely s t) (hdone : ∀ a, p = done a → post a s → post a t) :
    p.Keeps backend k post t := by
  cases p with
  | done a => exact hdone a rfl h
  | readClock next => exact fun u hu => h u (htrans hst hu)
  | call c next => exact fun u hu => h u (htrans hst hu)

/-- A program that runs alone ends with its postcondition, and satisfies the guarantee with every
move on the way. -/
theorem Keeps.run {post : α → σ → Prop} {p : Program α} {s : σ}
    (h : p.Keeps backend k post s) (hself : ∀ s, k.rely s s) :
    Relation.ReflTransGen k.guarantee s (p.run backend s).2 ∧
      post (p.run backend s).1 (p.run backend s).2 := by
  induction p generalizing s with
  | done a => exact ⟨.refl, h⟩
  | readClock next ih =>
    obtain ⟨hmove, hnext⟩ := h s (hself s)
    obtain ⟨hrest, hpost⟩ := ih _ hnext
    exact ⟨.head hmove hrest, hpost⟩
  | call c next ih =>
    obtain ⟨hmove, hnext⟩ := h s (hself s)
    obtain ⟨hrest, hpost⟩ := ih _ hnext
    exact ⟨.head hmove hrest, hpost⟩

end Program

namespace Service

variable {σ α β : Type} {backend : Backend σ} {k : Contract σ}

/-- The contract of a service, with a postcondition for its result and one for a refusal. -/
def Keeps (backend : Backend σ) (k : Contract σ) (post : α → σ → Prop)
    (refused : RequestError → σ → Prop) (x : Service α) (s : σ) : Prop :=
  Program.Keeps backend k
    (fun r t => match r with
      | .ok a => post a t
      | .error e => refused e t) x.run s

variable {post : α → σ → Prop} {refused : RequestError → σ → Prop} {s : σ}

/-- The postconditions of a service may be weakened. -/
theorem Keeps.imp {x : Service α} {post' : α → σ → Prop} {refused' : RequestError → σ → Prop}
    (h : Keeps backend k post refused x s) (hpost : ∀ a t, post a t → post' a t)
    (hrefused : ∀ e t, refused e t → refused' e t) : Keeps backend k post' refused' x s :=
  Program.Keeps.imp h fun r t => by
    cases r with
    | ok a => exact hpost a t
    | error e => exact hrefused e t

/-- What returns at once has to satisfy the postcondition in the present state. -/
theorem keeps_pure {a : α} : Keeps backend k post refused (pure a) s ↔ post a s := Iff.rfl

/-- What is refused at once has to satisfy the postcondition of a refusal. -/
theorem keeps_throw {e : RequestError} :
    Keeps backend k post refused (throw e) s ↔ refused e s := Iff.rfl

/-- One part of a service after another: the second takes over where the first ends. -/
theorem keeps_bind {post : β → σ → Prop} {x : Service α} {f : α → Service β} :
    Keeps backend k post refused (x >>= f) s ↔
      Keeps backend k (fun a t => Keeps backend k post refused (f a) t) refused x s := by
  refine Program.keeps_bind.trans (Program.keeps_congr fun r t => ?_)
  cases r <;> rfl

/-- A handler takes over in the state in which the service is refused. -/
theorem keeps_tryCatch {x : Service α} {handler : RequestError → Service α} :
    Keeps backend k post refused (tryCatch x handler) s ↔
      Keeps backend k post (fun e t => Keeps backend k post refused (handler e) t) x s := by
  refine Program.keeps_bind.trans (Program.keeps_congr fun r t => ?_)
  cases r <;> rfl

/-- A call is answered in some state that the rely allows. -/
theorem keeps_call {c : Call} {post : c.Reply → σ → Prop} :
    Keeps backend k post refused (call c) s ↔
      ∀ t, k.rely s t → k.guarantee t (backend.answer c t).2 ∧
        match (backend.answer c t).1 with
        | .ok a => post a (backend.answer c t).2
        | .error e => refused (.storage e) (backend.answer c t).2 := by
  refine forall₂_congr fun t _ => and_congr_right fun _ => ?_
  cases (backend.answer c t).1 <;> rfl

/-- A conditional keeps the contract when the branch that is taken does. -/
theorem keeps_ite {c : Prop} [Decidable c] {x y : Service α}
    (hx : c → Keeps backend k post refused x s) (hy : ¬c → Keeps backend k post refused y s) :
    Keeps backend k post refused (if c then x else y) s := by
  by_cases h : c
  · rw [if_pos h]
    exact hx h
  · rw [if_neg h]
    exact hy h

/-- The clock is read in some state that the rely allows. -/
theorem keeps_now {post : Instant → σ → Prop} :
    Keeps backend k post refused now s ↔
      ∀ t, k.rely s t → k.guarantee t (backend.readClock t).2 ∧
        post (backend.readClock t).1 (backend.readClock t).2 := Iff.rfl

/-- What is there is the result, and what is not is refused, in the same state. -/
theorem keeps_orRefuse {e : RequestError} {a? : Option α} :
    Keeps backend k post refused (orRefuse e a?) s ↔
      match a? with
      | some a => post a s
      | none => refused e s := by
  cases a? <;> rfl

end Service
end RoutePlan
