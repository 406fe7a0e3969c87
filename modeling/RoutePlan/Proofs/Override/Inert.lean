import RoutePlan.Proofs.Compile.Prefetch

/-!
# Overrides that change nothing

The table of overrides is a history: rows that were replaced stay in it, and so do rows of scopes
that are no longer compiled. `Override.IsInert` says when a row is without effect on a route, by
what it applies to and by its rank alone: it is of a legacy scope, it is for another route or for no
step, or some row of higher rank applies wherever it does. Wherever such a row stands among the
others, the steps of the route are resolved as without it (`RoutingStep.resolve_of_isInert`). A row
that is not inert counts somewhere (`Override.counts_of_not_isInert`).

One row may apply to several steps at once, by its id and by its source key, and a different row may
be above it at each of them. So the argument is made for one target at a time: a row that is not of
the highest rank can be taken out of a fold (`Override.latest?_insert_of_lt`).
-/

namespace RoutePlan
namespace Override

variable {c d : Override} {before after rows : List Override}

/-! ## A row among others -/

/-- The latest of two lists of rows together. -/
theorem latest?_append (before after : List Override) : latest? (before ++ after) =
    (latest? before).elim (latest? after) fun o => some ((latest? after).elim o (later o)) := by
  induction before with
  | nil => rfl
  | cons a before ih =>
    rw [List.cons_append, latest?_cons, latest?_cons, ih]
    cases latest? before with
    | none => rfl
    | some b =>
      cases latest? after with
      | none => rfl
      | some c => simp [later_assoc]

/-- What is below some row is below the latest one. -/
theorem lt_latest? (hd : d ∈ rows) (h : c.lt d) : ∃ best, latest? rows = some best ∧ c.lt best := by
  cases hbest : latest? rows with
  | none => simp [latest?_eq_none.1 hbest] at hd
  | some best =>
    have hmax := (latest?_eq_some hbest).2 d hd
    exact ⟨best, rfl, (lt_or_lt h best).resolve_right hmax⟩

/-- A row that is below another one makes no difference to the latest row, wherever it stands. -/
theorem latest?_insert_of_lt (hd : d ∈ before ++ after) (h : c.lt d) :
    latest? (before ++ c :: after) = latest? (before ++ after) := by
  rw [latest?_append, latest?_append, latest?_cons]
  rcases List.mem_append.1 hd with hd | hd
  · obtain ⟨best, hbest, hlt⟩ := lt_latest? hd h
    have hkeep : later best c = best := if_neg (lt_asymm hlt)
    rw [hbest]
    cases latest? after with
    | none => simp [hkeep]
    | some a => simp [← later_assoc, hkeep]
  · obtain ⟨best, hbest, hlt⟩ := lt_latest? hd h
    have hkeep : later c best = best := if_pos hlt
    rw [hbest]
    simp [hkeep]

/-- A row that is below no other one is the latest, if the others have ids of their own. -/
theorem latest?_insert_of_not_lt (hids : ∀ d ∈ before ++ after, d.id ≠ c.id)
    (h : ∀ d ∈ before ++ after, ¬c.lt d) : latest? (before ++ c :: after) = some c := by
  cases hbest : latest? (before ++ c :: after) with
  | none => simp [latest?_eq_none] at hbest
  | some best =>
    obtain ⟨hmem, hmax⟩ := latest?_eq_some hbest
    rw [List.mem_append, List.mem_cons] at hmem
    have hc : c ∈ before ++ c :: after := by simp
    by_cases heq : best = c
    · rw [heq]
    · have hother : best ∈ before ++ after := by
        rw [List.mem_append]
        tauto
      rcases lt_or_gt_of_id_ne (hids best hother) with hlt | hlt
      · exact absurd hlt (hmax c hc)
      · exact absurd hlt (h best hother)

/-- Among the rows that pass a test a row makes no difference if it does not pass the test, or if it
is below another one that does. -/
theorem latest?_filter_insert {p : Override → Prop} [DecidablePred p]
    (h : p c → ∃ d ∈ before ++ after, p d ∧ c.lt d) :
    latest? ((before ++ c :: after).filter fun o => p o) =
      latest? ((before ++ after).filter fun o => p o) := by
  rw [List.filter_append, List.filter_append]
  by_cases hc : p c
  · obtain ⟨d, hd, hp, hlt⟩ := h hc
    rw [List.filter_cons_of_pos (by simpa using hc)]
    refine latest?_insert_of_lt ?_ hlt
    rw [← List.filter_append]
    exact List.mem_filter.2 ⟨hd, by simpa using hp⟩
  · rw [List.filter_cons_of_neg (by simpa using hc)]

/-- A row that passes a test and is below no other one that does is the latest of them. -/
theorem latest?_filter_insert_eq_self {p : Override → Prop} [DecidablePred p] (hc : p c)
    (hids : ∀ d ∈ before ++ after, d.id ≠ c.id) (h : ∀ d ∈ before ++ after, p d → ¬c.lt d) :
    latest? ((before ++ c :: after).filter fun o => p o) = some c := by
  rw [List.filter_append, List.filter_cons_of_pos (by simpa using hc)]
  refine latest?_insert_of_not_lt (fun d hd => ?_) (fun d hd => ?_)
  all_goals
    rw [← List.filter_append] at hd
    obtain ⟨hmem, hp⟩ := List.mem_filter.1 hd
  · exact hids d hmem
  · exact h d hmem (by simpa using hp)

/-! ## Inert rows -/

/-- The row has no effect on the route, whatever it sets, because of what it applies to or because
of its rank among the other rows. -/
inductive IsInert (c : Override) (r : Routing) (steps : List RoutingStep) (rows : List Override) :
    Prop
  /-- Rows of these scopes are kept but not compiled. -/
  | legacy (h : c.scope = .operation ∨ c.scope = .sourceStep)
  | ofOtherRoute (hscope : c.scope = .route) (h : c.routingId ≠ some r.id)
  | ofNoStep (hscope : c.scope = .step) (h : ∀ step ∈ steps, ¬c.Targets step)
  /-- Wherever the row applies, so does a row of the same scope that is later. -/
  | superseded (hsteps : ∀ step ∈ steps, c.Targets step → ∃ d ∈ rows, d.Targets step ∧ c.lt d)
    (hroute : c.IsOfRoute r → ∃ d ∈ rows, d.IsOfRoute r ∧ c.lt d)

/-- Whatever makes a row inert, a later row applies wherever it does. -/
theorem isInert_iff {r : Routing} {steps : List RoutingStep} : c.IsInert r steps rows ↔
    (∀ step ∈ steps, c.Targets step → ∃ d ∈ rows, d.Targets step ∧ c.lt d) ∧
      (c.IsOfRoute r → ∃ d ∈ rows, d.IsOfRoute r ∧ c.lt d) := by
  constructor
  · intro h
    cases h with
    | legacy h =>
      constructor
      · rintro step - ⟨hscope, -⟩
        simp [hscope] at h
      · rintro ⟨hscope, -⟩
        simp [hscope] at h
    | ofOtherRoute hscope h =>
      constructor
      · rintro step - ⟨hstep, -⟩
        simp [hscope] at hstep
      · rintro ⟨-, hid⟩
        exact absurd hid h
    | ofNoStep hscope h =>
      constructor
      · intro step hstep htarget
        exact absurd htarget (h step hstep)
      · rintro ⟨hroute, -⟩
        simp [hscope] at hroute
    | superseded hsteps hroute => exact ⟨hsteps, hroute⟩
  · rintro ⟨hsteps, hroute⟩
    exact .superseded hsteps hroute

end Override

open Override (latest?)

variable {c : Override} {before after : List Override} {r : Routing} {steps : List RoutingStep}

/-- A step of the route is resolved as without the row. -/
theorem RoutingStep.resolve_of_isInert {step : RoutingStep} (hstep : step ∈ steps)
    (h : c.IsInert r steps (before ++ after)) :
    step.resolve r (before ++ c :: after) = step.resolve r (before ++ after) := by
  obtain ⟨hsteps, hroute⟩ := Override.isInert_iff.1 h
  have hofStep := Override.latest?_filter_insert (p := fun o => o.Targets step) (hsteps step hstep)
  have hofRoute := Override.latest?_filter_insert (p := fun o => o.IsOfRoute r) hroute
  simp only [RoutingStep.resolve, RoutingStep.overrides_eq_filter, Routing.overrides_eq_filter,
    hofStep, hofRoute]

/-- A row that is not inert is the one that counts for one of the steps or for the route. -/
theorem Override.counts_of_not_isInert (hids : ∀ d ∈ before ++ after, d.id ≠ c.id)
    (h : ¬c.IsInert r steps (before ++ after)) :
    (∃ step ∈ steps, c.Targets step ∧
      latest? (step.overrides (before ++ c :: after)) = some c) ∨
    (c.IsOfRoute r ∧ latest? (r.overrides (before ++ c :: after)) = some c) := by
  rw [isInert_iff, not_and_or] at h
  rcases h with h | h
  · simp only [not_forall, not_exists, not_and] at h
    obtain ⟨step, hstep, htarget, hmax⟩ := h
    refine .inl ⟨step, hstep, htarget, ?_⟩
    rw [RoutingStep.overrides_eq_filter]
    exact latest?_filter_insert_eq_self htarget hids hmax
  · simp only [not_forall, not_exists, not_and] at h
    obtain ⟨hroute, hmax⟩ := h
    refine .inr ⟨hroute, ?_⟩
    rw [Routing.overrides_eq_filter]
    exact latest?_filter_insert_eq_self hroute hids hmax

/-- **Inert rows.** A row that is inert may stand anywhere among the overrides: the steps of the
route are resolved as without it. A row that is not, and that has an id of its own, counts: some
step takes from it what it sets, or all steps do where their own overrides leave it open. -/
theorem Routing.resolve_insert_inert (r : Routing) (steps : List RoutingStep)
    (before after : List Override) (c : Override) :
    (c.IsInert r steps (before ++ after) →
      r.resolve steps (before ++ c :: after) = r.resolve steps (before ++ after)) ∧
    ((∀ d ∈ before ++ after, d.id ≠ c.id) → ¬c.IsInert r steps (before ++ after) →
      (∃ step ∈ steps, c.Targets step ∧ step.resolve r (before ++ c :: after) =
        step.resolveWith (some c) (latest? (r.overrides (before ++ c :: after)))) ∨
      (c.IsOfRoute r ∧ ∀ step ∈ steps, step.resolve r (before ++ c :: after) =
        step.resolveWith (latest? (step.overrides (before ++ c :: after))) (some c))) := by
  constructor
  · intro h
    refine List.map_congr_left fun step hstep => ?_
    exact RoutingStep.resolve_of_isInert (RoutingStep.mem_ascending.1 hstep) h
  · intro hids h
    rcases Override.counts_of_not_isInert hids h with ⟨step, hstep, htarget, hc⟩ | ⟨hroute, hc⟩
    · refine .inl ⟨step, hstep, htarget, ?_⟩
      rw [RoutingStep.resolve, hc]
    · refine .inr ⟨hroute, fun step _ => ?_⟩
      rw [RoutingStep.resolve, hc]

namespace KeyedSteps

/-- An override of both steps, of the first one by its id and of the second one by its key. -/
def ofBoth : Override := { byKey with id := "o0", routingStepId := some "s1" }

/-- A later override of the first step. -/
def ofFirst : Override := { byId with routingStepId := some "s1" }

/-- The override of both steps under an id that puts it above the others. -/
def ofBothLast : Override := { ofBoth with id := "o9" }

end KeyedSteps

open KeyedSteps in
/-- The override of both steps is inert below one override of each, and above them it counts. -/
theorem Routing.resolve_insert_inert_twoTargets :
    SingleStep.routing.resolve store.steps [byKey, ofBoth, ofFirst] =
      SingleStep.routing.resolve store.steps [byKey, ofFirst] ∧
    ∃ step ∈ store.steps, step.resolve SingleStep.routing [byKey, ofBothLast, ofFirst] =
      step.resolveWith (some ofBothLast) none := by
  have hlast := (resolve_insert_inert SingleStep.routing store.steps [byKey] [ofFirst]
    ofBothLast).2 (by decide) (mt Override.isInert_iff.1 (by decide))
  refine ⟨(resolve_insert_inert SingleStep.routing store.steps [byKey] [ofFirst] ofBoth).1
    (.superseded (by decide) (by decide)), ?_⟩
  rcases hlast with ⟨step, hstep, -, hresolve⟩ | ⟨hroute, -⟩
  · exact ⟨step, hstep, hresolve⟩
  · exact absurd hroute (by decide)

end RoutePlan
