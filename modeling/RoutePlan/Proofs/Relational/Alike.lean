import RoutePlan.Proofs.Compile.Outcome

/-!
# Two services side by side

A service runs on one backend and another service on a second one (`Service.Alike`): either both
end with a result, or both are refused, and results, refusals and the states that they leave are
related. One rule for each way to put services together.
-/

namespace RoutePlan.Service

variable {α β γ δ σ τ : Type}

/-- Both services, each alone on its backend, end with results and in states that `post` relates, or
both are refused, with errors and in states that `refused` relates. -/
def Alike (b : Backend σ) (b' : Backend τ) (post : α → β → σ → τ → Prop)
    (refused : RequestError → RequestError → σ → τ → Prop) (x : Service α) (y : Service β)
    (s : σ) (t : τ) : Prop :=
  (∃ a a' s' t', x.run.run b s = (.ok a, s') ∧ y.run.run b' t = (.ok a', t') ∧ post a a' s' t') ∨
    ∃ e e' s' t', x.run.run b s = (.error e, s') ∧ y.run.run b' t = (.error e', t') ∧
      refused e e' s' t'

variable {b : Backend σ} {b' : Backend τ} {post : α → β → σ → τ → Prop}
  {refused : RequestError → RequestError → σ → τ → Prop} {s : σ} {t : τ}

/-- Both end with a result. -/
theorem alike_pure {a : α} {a' : β} (h : post a a' s t) :
    Alike b b' post refused (pure a) (pure a') s t :=
  .inl ⟨a, a', s, t, rfl, rfl, h⟩

/-- Both are refused. -/
theorem alike_throw {e e' : RequestError} (h : refused e e' s t) :
    Alike b b' post refused (throw e) (throw e') s t :=
  .inr ⟨e, e', s, t, rfl, rfl, h⟩

/-- Both go on from the results of their first parts. -/
theorem alike_bind {x : Service α} {y : Service β} {f : α → Service γ} {g : β → Service δ}
    {post : γ → δ → σ → τ → Prop}
    (h : Alike b b' (fun a a' s t => Alike b b' post refused (f a) (g a') s t) refused x y s t) :
    Alike b b' post refused (x >>= f) (y >>= g) s t := by
  rcases h with ⟨a, a', s', t', hx, hy, hpost⟩ | ⟨e, e', s', t', hx, hy, hrefused⟩
  · unfold Alike
    rw [run_bind_of_ok hx, run_bind_of_ok hy]
    exact hpost
  · exact .inr ⟨e, e', s', t', run_bind_of_error hx f, run_bind_of_error hy g, hrefused⟩

/-- Both are answered with a reply. -/
theorem alike_call {c d : Call} {reply : c.Reply} {reply' : d.Reply} {s' : σ} {t' : τ}
    {post : c.Reply → d.Reply → σ → τ → Prop} (hs : b.answer c s = (.ok reply, s'))
    (ht : b'.answer d t = (.ok reply', t')) (h : post reply reply' s' t') :
    Alike b b' post refused (call c) (call d) s t :=
  .inl ⟨reply, reply', s', t', call_run_of_ok hs, call_run_of_ok ht, h⟩

/-- Each reads its own clock. -/
theorem alike_now {post : Instant → Instant → σ → τ → Prop}
    (h : post (b.readClock s).1 (b'.readClock t).1 (b.readClock s).2 (b'.readClock t).2) :
    Alike b b' post refused now now s t :=
  .inl ⟨_, _, _, _, rfl, rfl, h⟩

/-- Where one finds a value, the other finds its image. -/
theorem alike_orRefuse {e e' : RequestError} {a? : Option α} {a'? : Option β} (f : α → β)
    (ha : a'? = a?.map f) (hsome : ∀ a, a? = some a → post a (f a) s t)
    (hnone : a? = none → refused e e' s t) :
    Alike b b' post refused (orRefuse e a?) (orRefuse e' a'?) s t := by
  subst ha
  cases a? with
  | none => exact alike_throw (hnone rfl)
  | some a => exact alike_pure (hsome a rfl)

/-- Both look at the same value, or at the same error. -/
theorem alike_lift {x : Except RequestError α} {post : α → α → σ → τ → Prop}
    (hok : ∀ a, x = .ok a → post a a s t) (herror : ∀ e, x = .error e → refused e e s t) :
    Alike b b' post refused (liftM x : Service α) (liftM x : Service α) s t := by
  cases x with
  | ok a => exact alike_pure (hok a rfl)
  | error e => exact alike_throw (herror e rfl)

/-- Both handlers take over if the first parts are refused. -/
theorem alike_tryCatch {x : Service α} {y : Service β} {f : RequestError → Service α}
    {g : RequestError → Service β}
    (h : Alike b b' post (fun e e' s t => Alike b b' post refused (f e) (g e') s t) x y s t) :
    Alike b b' post refused (tryCatch x f) (tryCatch y g) s t := by
  unfold Alike
  rw [run_tryCatch, run_tryCatch]
  rcases h with ⟨a, a', s', t', hx, hy, hpost⟩ | ⟨e, e', s', t', hx, hy, hrefused⟩
  · rw [hx, hy]
    exact .inl ⟨a, a', s', t', rfl, rfl, hpost⟩
  · rw [hx, hy]
    exact hrefused

/-- The postconditions of two services may be weakened. -/
theorem Alike.imp {x : Service α} {y : Service β} {post' : α → β → σ → τ → Prop}
    {refused' : RequestError → RequestError → σ → τ → Prop}
    (h : Alike b b' post refused x y s t) (hpost : ∀ a a' s t, post a a' s t → post' a a' s t)
    (hrefused : ∀ e e' s t, refused e e' s t → refused' e e' s t) :
    Alike b b' post' refused' x y s t := by
  rcases h with ⟨a, a', s', t', hx, hy, h⟩ | ⟨e, e', s', t', hx, hy, h⟩
  · exact .inl ⟨a, a', s', t', hx, hy, hpost _ _ _ _ h⟩
  · exact .inr ⟨e, e', s', t', hx, hy, hrefused _ _ _ _ h⟩

end RoutePlan.Service
