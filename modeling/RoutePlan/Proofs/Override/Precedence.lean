import RoutePlan.Compile.Resolve
import Mathlib.Data.List.Nodup
import Mathlib.Data.List.Pairwise
import Mathlib.Data.List.Perm.Basic

/-!
# Precedence among overrides

Overrides are ranked by their time of update, then by their id. The one that counts among some rows
is found by a fold over them (`Override.latest?`), while a listing is sorted with the most recent
row first (`Override.mostRecentFirst`); both ways agree on all rows, those of equal rank included:
the first listed row that passes a test is the latest of the rows that pass it
(`Override.find?_mostRecentFirst`). Among rows of which no two have the same rank
(`Override.Ranked`) the latest one does not depend on their order (`Override.latest?_perm`).
-/

namespace RoutePlan
namespace Override

variable {a b c o : Override} {rows rows' : List Override}

/-! ## The order -/

/-- No row is below itself. -/
theorem lt_irrefl (o : Override) : ¬o.lt o := by
  rintro (h | ⟨-, h⟩)
  · exact Instant.lt_irrefl _ h
  · exact String.lt_irrefl _ h

/-- What is below a row is below every row above it. -/
theorem lt_trans (h : a.lt b) (h' : b.lt c) : a.lt c := by
  rcases h with h | ⟨heq, h⟩ <;> rcases h' with h' | ⟨heq', h'⟩
  · exact .inl (Instant.lt_trans h h')
  · exact .inl (heq' ▸ h)
  · exact .inl (heq ▸ h')
  · exact .inr ⟨heq.trans heq', String.lt_trans h h'⟩

/-- Of two rows not each is below the other. -/
theorem lt_asymm (h : a.lt b) : ¬b.lt a := fun h' => lt_irrefl a (lt_trans h h')

/-- If one row is below another, any third row is above the lower one or below the upper one. -/
theorem lt_or_lt (h : a.lt c) (b : Override) : a.lt b ∨ b.lt c := by
  rcases Instant.lt_or_eq_or_gt a.updatedAt b.updatedAt with hab | hab | hab
  · exact .inl (.inl hab)
  · by_cases hid : a.id < b.id
    · exact .inl (.inr ⟨hab, hid⟩)
    · rcases h with h | ⟨heq, h⟩
      · exact .inr (.inl (hab ▸ h))
      · refine .inr (.inr ⟨hab.symm.trans heq, String.not_le.1 fun hcb => ?_⟩)
        exact String.not_le.2 h (String.le_trans hcb (String.not_lt.1 hid))
  · rcases h with h | ⟨heq, -⟩
    · exact .inr (.inl (Instant.lt_trans hab h))
    · exact .inr (.inl (heq ▸ hab))

/-- Rows with different ids differ in rank. -/
theorem lt_or_gt_of_id_ne (h : a.id ≠ b.id) : a.lt b ∨ b.lt a := by
  rcases Instant.lt_or_eq_or_gt a.updatedAt b.updatedAt with hab | hab | hab
  · exact .inl (.inl hab)
  · by_cases hid : a.id < b.id
    · exact .inl (.inr ⟨hab, hid⟩)
    · exact .inr (.inr ⟨hab.symm, lt_of_not_lt_of_ne hid h⟩)
  · exact .inr (.inl hab)

/-! ## The latest row -/

/-- The later one of two rows, the first of them if they have the same rank. -/
def later (a b : Override) : Override := if a.lt b then b else a

/-- The later of three rows does not depend on which two are compared first. -/
theorem later_assoc (a b c : Override) : later (later a b) c = later a (later b c) := by
  unfold later
  by_cases hab : a.lt b <;> by_cases hbc : b.lt c
  · rw [if_pos hab, if_pos hbc, if_pos (lt_trans hab hbc)]
  · rw [if_pos hab, if_neg hbc, if_pos hab]
  · rw [if_neg hab, if_pos hbc]
  · have hac : ¬a.lt c := fun h => (lt_or_lt h b).elim hab hbc
    rw [if_neg hab, if_neg hbc, if_neg hac, if_neg hab]

/-- One more row in front counts unless one of the others is later. -/
theorem latest?_cons (o : Override) (rows : List Override) :
    latest? (o :: rows) = some ((latest? rows).elim o (later o)) := by
  have : Std.Associative later := ⟨later_assoc⟩
  cases rows with
  | nil => rfl
  | cons a rows =>
    have hfold : rows.foldl later (later o a) = later o (rows.foldl later a) := List.foldl_assoc
    exact congrArg some hfold

/-- Only among no rows there is no latest one. -/
theorem latest?_eq_none : latest? rows = none ↔ rows = [] := by
  cases rows <;> simp [latest?]

/-- The latest row is one of the rows, and none of them is later. -/
theorem latest?_eq_some (h : latest? rows = some o) : o ∈ rows ∧ ∀ c ∈ rows, ¬o.lt c := by
  induction rows generalizing o with
  | nil => cases h
  | cons a rows ih =>
    rw [latest?_cons, Option.some.injEq] at h
    cases hl : latest? rows with
    | none =>
      rw [hl, Option.elim_none] at h
      rw [latest?_eq_none.1 hl, ← h]
      exact ⟨List.mem_singleton_self a, fun c hc => List.mem_singleton.1 hc ▸ lt_irrefl a⟩
    | some best =>
      obtain ⟨hmem, hbest⟩ := ih hl
      rw [hl, Option.elim_some, later] at h
      split at h
      · next hlt =>
        subst h
        refine ⟨List.mem_cons_of_mem _ hmem, fun c hc => ?_⟩
        rcases List.mem_cons.1 hc with rfl | hc
        · exact lt_asymm hlt
        · exact hbest c hc
      · next hlt =>
        subst h
        refine ⟨List.mem_cons_self .., fun c hc => ?_⟩
        rcases List.mem_cons.1 hc with rfl | hc
        · exact lt_irrefl c
        · exact fun hac => (lt_or_lt hac best).elim hlt (hbest c hc)

/-! ## Listings -/

/-- The order of a listing is transitive. -/
private theorem listedBefore_trans (a b c : Override) (hab : (!decide (a.lt b)) = true)
    (hbc : (!decide (b.lt c)) = true) : (!decide (a.lt c)) = true := by
  simp only [Bool.not_eq_true', decide_eq_false_iff_not] at *
  exact fun hac => (lt_or_lt hac b).elim hab hbc

/-- Of two rows one may be listed before the other. -/
private theorem listedBefore_total (a b : Override) :
    (!decide (a.lt b) || !decide (b.lt a)) = true := by
  by_cases h : a.lt b
  · simp [lt_asymm h]
  · simp [h]

/-- In a listing no row is followed by a later one. -/
theorem pairwise_mostRecentFirst (rows : List Override) :
    (mostRecentFirst rows).Pairwise fun a b => ¬a.lt b :=
  (List.pairwise_mergeSort listedBefore_trans listedBefore_total rows).imp fun h => by simpa using h

/-- A listing that is sorted again stays as it is. -/
theorem mostRecentFirst_mostRecentFirst (rows : List Override) :
    mostRecentFirst (mostRecentFirst rows) = mostRecentFirst rows :=
  List.mergeSort_of_pairwise (List.pairwise_mergeSort listedBefore_trans listedBefore_total rows)

/-- The first listed row that passes a test is the latest of the rows that pass it. -/
theorem find?_mostRecentFirst (p : Override → Bool) (rows : List Override) :
    (mostRecentFirst rows).find? p = latest? (rows.filter p) := by
  induction rows with
  | nil => rw [mostRecentFirst, List.mergeSort_nil, List.find?_nil, List.filter_nil, latest?]
  | cons a rows ih =>
    -- the listing of one more row in front is the old listing with that row at some place
    obtain ⟨l₁, l₂, hnew, hold, hbefore⟩ :=
      List.mergeSort_cons listedBefore_trans listedBefore_total a rows
    have hsorted := pairwise_mostRecentFirst (a :: rows)
    rw [mostRecentFirst, hnew] at hsorted
    rw [mostRecentFirst, hold, List.find?_append] at ih
    rw [mostRecentFirst, hnew, List.find?_append]
    by_cases hp : p a = true
    · rw [List.filter_cons_of_pos hp, latest?_cons, ← ih, List.find?_cons_of_pos hp]
      cases hfirst : l₁.find? p with
      | some b =>
        have hab : a.lt b := by simpa using hbefore b (List.mem_of_find?_eq_some hfirst)
        rw [Option.some_or, Option.some_or, Option.elim_some, later, if_pos hab]
      | none =>
        rw [Option.none_or, Option.none_or]
        cases hrest : l₂.find? p with
        | none => rfl
        | some b =>
          have hab : ¬a.lt b := (List.pairwise_cons.1 (List.pairwise_append.1 hsorted).2.1).1 b
            (List.mem_of_find?_eq_some hrest)
          rw [Option.elim_some, later, if_neg hab]
    · rw [List.filter_cons_of_neg hp, ← ih, List.find?_cons_of_neg hp]

/-- Sorting before or after makes no difference to the latest of the rows that pass a test. -/
theorem latest?_filter_mostRecentFirst (p : Override → Bool) (rows : List Override) :
    latest? ((mostRecentFirst rows).filter p) = latest? (rows.filter p) := by
  rw [← find?_mostRecentFirst, mostRecentFirst_mostRecentFirst, find?_mostRecentFirst]

/-! ## Rows of different ranks -/

/-- No two of the rows have the same rank. -/
def Ranked (rows : List Override) : Prop := rows.Pairwise fun a b => a.lt b ∨ b.lt a

/-- Rows with different ids are ranked. -/
theorem Ranked.of_nodup_ids (h : (rows.map (·.id)).Nodup) : Ranked rows :=
  (List.pairwise_map.1 h).imp lt_or_gt_of_id_ne

/-- Some of the ranked rows are ranked. -/
theorem Ranked.filter (p : Override → Bool) (h : Ranked rows) : Ranked (rows.filter p) :=
  List.Pairwise.filter p h

/-- The latest of some rows, `none` if there are none: all others precede it. -/
def IsLatest (rows : List Override) : Option Override → Prop
  | none => rows = []
  | some o => o ∈ rows ∧ ∀ c ∈ rows, c = o ∨ c.lt o

/-- Among ranked rows the fold finds the latest one. -/
theorem Ranked.isLatest (h : Ranked rows) : IsLatest rows (latest? rows) := by
  cases hl : latest? rows with
  | none => exact latest?_eq_none.1 hl
  | some o =>
    obtain ⟨ho, hnone⟩ := latest?_eq_some hl
    have : Std.Symm fun a b : Override => a.lt b ∨ b.lt a := ⟨fun _ _ => Or.symm⟩
    refine ⟨ho, fun c hc => ?_⟩
    by_cases heq : c = o
    · exact .inl heq
    · exact .inr ((List.Pairwise.forall h hc ho heq).resolve_right (hnone c hc))

/-- There is one latest row at most. -/
theorem IsLatest.unique {x y : Option Override} (hx : IsLatest rows x) (hy : IsLatest rows y) :
    x = y := by
  cases x with
  | none =>
    cases y with
    | none => rfl
    | some o => exact absurd (hx ▸ hy.1) List.not_mem_nil
  | some a =>
    cases y with
    | none => exact absurd (hy ▸ hx.1) List.not_mem_nil
    | some b =>
      rcases hy.2 a hx.1 with heq | hab
      · rw [heq]
      · rcases hx.2 b hy.1 with heq | hba
        · rw [heq]
        · exact absurd hba (lt_asymm hab)

/-- The latest row is the same in every order. -/
theorem IsLatest.perm {x : Option Override} (hperm : rows.Perm rows') (h : IsLatest rows x) :
    IsLatest rows' x := by
  cases x with
  | none =>
    have h : rows = [] := h
    subst h
    exact hperm.nil_eq.symm
  | some o => exact ⟨hperm.mem_iff.1 h.1, fun c hc => h.2 c (hperm.mem_iff.2 hc)⟩

/-- The latest of ranked rows does not depend on their order. -/
theorem latest?_perm (hperm : rows.Perm rows') (h : Ranked rows) : latest? rows' = latest? rows :=
  have h' : Ranked rows' := (hperm.pairwise_iff Or.symm).1 h
  h'.isLatest.unique (h.isLatest.perm hperm)

/-! ## What an override applies to -/

/-- The override is for the step: it names the id of the step, or the source key that both have. -/
def Targets (o : Override) (step : RoutingStep) : Prop :=
  o.scope = .step ∧ (o.routingStepId = some step.id ∨
    ∃ key, o.sourceStepKey = some key ∧ step.sourceStepKey = some key)

/-- The override is for the route as a whole. -/
def IsOfRoute (o : Override) (r : Routing) : Prop := o.scope = .route ∧ o.routingId = some r.id

/-- A row is for a step exactly if its scope and its target say so. -/
theorem targets_iff {step : RoutingStep} :
    o.Targets step ↔ (o.scope == .step && step.isTargetOf o) = true := by
  rw [Targets, RoutingStep.isTargetOf, Bool.and_eq_true, beq_iff_eq, Bool.or_eq_true, beq_iff_eq]
  cases hkey : o.sourceStepKey with
  | none => simp
  | some key => simp [@eq_comm _ (some key)]

instance (o : Override) (step : RoutingStep) : Decidable (o.Targets step) :=
  decidable_of_iff _ targets_iff.symm

instance (o : Override) (r : Routing) : Decidable (o.IsOfRoute r) :=
  inferInstanceAs (Decidable (_ ∧ _))

/-- Both overrides are for the same steps and routes. -/
structure SameTarget (a b : Override) : Prop where
  scope : a.scope = b.scope
  routingId : a.routingId = b.routingId
  routingStepId : a.routingStepId = b.routingStepId
  sourceStepKey : a.sourceStepKey = b.sourceStepKey

/-- Rows with the same target are for the same steps. -/
theorem SameTarget.targets_iff (h : a.SameTarget b) (step : RoutingStep) :
    a.Targets step ↔ b.Targets step := by
  rw [Targets, Targets, h.scope, h.routingStepId, h.sourceStepKey]

/-- Rows with the same target are for the same routes. -/
theorem SameTarget.isOfRoute_iff (h : a.SameTarget b) (r : Routing) :
    a.IsOfRoute r ↔ b.IsOfRoute r := by
  rw [IsOfRoute, IsOfRoute, h.scope, h.routingId]

end Override

/-- The rows that may count for a step are those that are for it. -/
theorem RoutingStep.overrides_eq_filter (step : RoutingStep) (rows : List Override) :
    step.overrides rows = rows.filter fun o => decide (o.Targets step) :=
  List.filter_congr fun o _ => by
    rw [Bool.eq_iff_iff, decide_eq_true_iff]
    exact Override.targets_iff.symm

/-- The rows that may count for a route are those that are for it. -/
theorem Routing.overrides_eq_filter (r : Routing) (rows : List Override) :
    r.overrides rows = rows.filter fun o => decide (o.IsOfRoute r) :=
  List.filter_congr fun o _ => by
    rw [Bool.eq_iff_iff, decide_eq_true_iff, Bool.and_eq_true, beq_iff_eq, beq_iff_eq]
    rfl

end RoutePlan
