import Mathlib.Data.List.Nodup
import RoutePlan.Design.Import
import RoutePlan.Proofs.Json.Members
import RoutePlan.Proofs.Text.ByteOrder

/-!
# Steps grouped by routing

The steps of a file are grouped one by one. What has been seen and what has been grouped so far
belong to the same steps (`Grouped`), and one more step keeps this unless its routing and number
have been seen before (`Grouped.step`). So either the steps fall apart into the groups of their
routings, with nothing lost and nothing out of order (`IsGrouping`), or the first step that repeats
an earlier one is reported (`DesignData.groupSteps_exact`).
-/

namespace RoutePlan

/-! ## One member changed -/

section
variable {α : Type} {key : String} {f : Option α → α} {members : List (String × α)}

/-- Only the value of the key that is changed is another one. -/
theorem lookupMember_alterMember (h : StrictKeys members) (k : String) :
    lookupMember k (alterMember key f members) =
      if key = k then some (f (lookupMember key members)) else lookupMember k members := by
  induction members with
  | nil => simp [alterMember, lookupMember]
  | cons m rest ih =>
    obtain ⟨l, v⟩ := m
    rw [alterMember]
    split
    · next hlt =>
      rw [h.lookupMember_eq_none hlt, lookupMember]
    · split
      · next heq =>
        subst heq
        by_cases hk : key = k <;> simp [lookupMember, hk]
      · next hne =>
        have hlk : ¬l = key := fun heq => hne heq.symm
        rw [lookupMember, ih (List.pairwise_cons.1 h).2]
        by_cases hk : key = k
        · subst hk
          simp [lookupMember, hlk]
        · simp [lookupMember, hk]

/-- Every key is the one that is changed or was there before. -/
theorem mem_keys_alterMember {m : String × α} (h : m ∈ alterMember key f members) :
    m.1 = key ∨ ∃ n ∈ members, n.1 = m.1 := by
  induction members with
  | nil =>
    obtain rfl := List.mem_singleton.1 h
    exact .inl rfl
  | cons n rest ih =>
    obtain ⟨l, v⟩ := n
    rw [alterMember] at h
    split at h
    · rcases List.mem_cons.1 h with rfl | h
      · exact .inl rfl
      · exact .inr ⟨m, h, rfl⟩
    · split at h
      · rcases List.mem_cons.1 h with rfl | h
        · exact .inr ⟨(l, v), List.mem_cons_self .., rfl⟩
        · exact .inr ⟨m, List.mem_cons_of_mem _ h, rfl⟩
      · rcases List.mem_cons.1 h with rfl | h
        · exact .inr ⟨(l, v), List.mem_cons_self .., rfl⟩
        · rcases ih h with hkey | ⟨n, hn, hkey⟩
          · exact .inl hkey
          · exact .inr ⟨n, List.mem_cons_of_mem _ hn, hkey⟩

/-- A member that is changed or added leaves the keys strictly increasing. -/
theorem StrictKeys.alterMember (h : StrictKeys members) :
    StrictKeys (alterMember key f members) := by
  induction members with
  | nil => exact List.pairwise_singleton _ _
  | cons m rest ih =>
    obtain ⟨l, v⟩ := m
    obtain ⟨hhead, htail⟩ := List.pairwise_cons.1 h
    rw [RoutePlan.alterMember]
    split
    · next hlt =>
      refine List.pairwise_cons.2 ⟨fun n hn => ?_, h⟩
      rcases List.mem_cons.1 hn with rfl | hn
      · exact hlt
      · exact String.lt_trans hlt (hhead n hn)
    · next hlt =>
      split
      · exact List.pairwise_cons.2 ⟨hhead, htail⟩
      · next hne =>
        refine List.pairwise_cons.2 ⟨fun n hn => ?_, ih htail⟩
        rcases mem_keys_alterMember hn with hkey | ⟨o, ho, hkey⟩
        · rw [hkey]
          exact lt_of_not_lt_of_ne hlt hne
        · rw [← hkey]
          exact hhead o ho

end

/-! ## Groups -/

namespace RoutingStep

/-- The routing of the step and its number there. -/
def place (s : RoutingStep) : String × Int32 := (s.routingId, s.stepNo)

end RoutingStep

/-- The steps of a routing, in their order. -/
def stepsOf (steps : List RoutingStep) (routingId : String) : List RoutingStep :=
  steps.filter fun s => s.routingId == routingId

/-- There is one group for each routing that occurs, in the order of the bytes of its id. Each group
has the steps of its routing, in their order. -/
structure IsGrouping (steps : List RoutingStep) (groups : List (String × List RoutingStep)) :
    Prop where
  ascending : groups.Pairwise fun g h => utf8Bytes g.1 < utf8Bytes h.1
  ids : ∀ id, id ∈ groups.map Prod.fst ↔ id ∈ steps.map (·.routingId)
  members : ∀ g ∈ groups, g.2 = stepsOf steps g.1
  perm : (groups.flatMap Prod.snd).Perm steps

/-- The first step whose routing and number occur before it: up to there none occurs twice. -/
def FirstRepeated (steps : List RoutingStep) (step : RoutingStep) : Prop :=
  ∃ before after, steps = before ++ step :: after ∧ (before.map RoutingStep.place).Nodup ∧
    step.place ∈ before.map RoutingStep.place

/-- What has been seen and what has been grouped is that of the steps so far. -/
structure Grouped (steps : List RoutingStep) (seen : List (String × Int32))
    (groups : List (String × List RoutingStep)) : Prop where
  seen : ∀ place, place ∈ seen ↔ place ∈ steps.map RoutingStep.place
  nodup : (steps.map RoutingStep.place).Nodup
  strict : StrictKeys groups
  lookup : ∀ id, (lookupMember id groups).getD [] = stepsOf steps id
  nonempty : ∀ id, lookupMember id groups ≠ some []
  perm : (groups.flatMap Prod.snd).Perm steps

namespace Grouped

variable {steps : List RoutingStep} {seen : List (String × Int32)}
  {groups : List (String × List RoutingStep)}

/-- No steps are grouped at the start. -/
theorem start : Grouped [] [] [] where
  seen _ := Iff.rfl
  nodup := List.nodup_nil
  strict := List.Pairwise.nil
  lookup _ := rfl
  nonempty _ h := nomatch h
  perm := List.Perm.nil

/-- A step that goes to its group is the only one that is added. -/
theorem perm_addToGroup (step : RoutingStep) (groups : List (String × List RoutingStep)) :
    ((DesignData.addToGroup step groups).flatMap Prod.snd).Perm
      (groups.flatMap Prod.snd ++ [step]) := by
  unfold DesignData.addToGroup
  induction groups with
  | nil => exact List.Perm.refl _
  | cons g rest ih =>
    obtain ⟨id, group⟩ := g
    rw [alterMember]
    split
    · exact (List.perm_append_singleton step _).symm
    · split
      · simp only [List.flatMap_cons, Option.getD_some, List.append_assoc]
        exact List.perm_append_comm.append_left group
      · simp only [List.flatMap_cons, List.append_assoc]
        exact ih.append_left group

/-- One more step goes to its group. -/
theorem step (h : Grouped steps seen groups) {step : RoutingStep}
    (hnew : step.place ∉ seen) :
    Grouped (steps ++ [step]) (step.place :: seen) (DesignData.addToGroup step groups) where
  seen place := by simp [h.seen place, or_comm]
  nodup := by
    rw [List.map_append, List.map_singleton, List.nodup_append']
    refine ⟨h.nodup, List.nodup_singleton _, List.disjoint_singleton.2 ?_⟩
    intro hmem
    exact hnew ((h.seen _).2 hmem)
  strict := h.strict.alterMember
  lookup id := by
    rw [DesignData.addToGroup, lookupMember_alterMember h.strict, stepsOf, List.filter_append]
    by_cases hid : step.routingId = id
    · subst hid
      simp [h.lookup, stepsOf]
    · simp [h.lookup, stepsOf, hid]
  nonempty id := by
    rw [DesignData.addToGroup, lookupMember_alterMember h.strict]
    by_cases hid : step.routingId = id
    · simp [hid]
    · simpa [hid] using h.nonempty id
  perm := (perm_addToGroup step groups).trans (h.perm.append_right _)

/-- Steps that have been grouped to the end. -/
theorem isGrouping (h : Grouped steps seen groups) : IsGrouping steps groups where
  ascending := h.strict.imp fun hlt => lt_iff_utf8Bytes_lt.1 hlt
  ids id := by
    have hmem : id ∈ groups.map Prod.fst ↔ stepsOf steps id ≠ [] := by
      rw [← h.lookup, ← Decidable.not_iff_not, ← lookupMember_eq_none]
      have hnonempty := h.nonempty id
      cases hfound : lookupMember id groups with
      | none => simp
      | some group =>
        rw [hfound] at hnonempty
        simpa using fun hnil => hnonempty (congrArg some hnil)
    rw [hmem, stepsOf, ne_eq, List.filter_eq_nil_iff]
    simp
  members g hg := by
    rw [← h.lookup, lookupMember_of_mem h.strict.nodup_keys hg, Option.getD_some]
  perm := h.perm

/-- The rest of the steps is grouped, or the first one that repeats another is reported. -/
theorem groupFrom (h : Grouped steps seen groups) (rest : List RoutingStep) :
    match DesignData.groupFrom seen groups rest with
    | .ok groups' => ∃ seen', Grouped (steps ++ rest) seen' groups'
    | .error e => ∃ step, FirstRepeated (steps ++ rest) step ∧
      e = .duplicateStep step.routingId step.stepNo := by
  induction rest generalizing steps seen groups with
  | nil => exact ⟨seen, by rwa [List.append_nil]⟩
  | cons step rest ih =>
    rw [DesignData.groupFrom, show (step.routingId, step.stepNo) = step.place from rfl]
    by_cases hseen : step.place ∈ seen
    · rw [if_pos hseen]
      exact ⟨step, ⟨steps, rest, rfl, h.nodup, (h.seen _).1 hseen⟩, rfl⟩
    · have hrest := ih (h.step hseen)
      rw [List.append_assoc, List.singleton_append] at hrest
      rw [if_neg hseen]
      exact hrest

end Grouped

/-- The first step that repeats another has its routing and number in common with it. -/
theorem FirstRepeated.two_le_count {steps : List RoutingStep} {step : RoutingStep}
    (h : FirstRepeated steps step) : 2 ≤ (steps.map RoutingStep.place).count step.place := by
  obtain ⟨before, after, rfl, -, hmem⟩ := h
  have hbefore := List.count_pos_iff.2 hmem
  rw [List.map_append, List.map_cons, List.count_append, List.count_cons_self]
  omega

namespace DesignData

/-- Steps are grouped, or the first one that repeats another is reported. -/
theorem groupSteps_cases (steps : List RoutingStep) :
    (∃ groups, groupSteps steps = .ok groups ∧ IsGrouping steps groups ∧
      (steps.map RoutingStep.place).Nodup) ∨
    ∃ step, FirstRepeated steps step ∧
      groupSteps steps = .error (.duplicateStep step.routingId step.stepNo) := by
  have hgrouped := Grouped.start.groupFrom steps
  rw [List.nil_append] at hgrouped
  unfold groupSteps
  cases hresult : groupFrom [] [] steps with
  | error e =>
    rw [hresult] at hgrouped
    obtain ⟨step, hfirst, rfl⟩ := hgrouped
    exact .inr ⟨step, hfirst, rfl⟩
  | ok groups =>
    rw [hresult] at hgrouped
    obtain ⟨seen, hgrouped⟩ := hgrouped
    exact .inl ⟨groups, rfl, hgrouped.isGrouping, hgrouped.nodup⟩

/-- **Grouping keeps every step and its order.** Steps are not grouped if and only if a routing has
a step number twice, and then the first step that repeats another one is reported. Otherwise there
is one group for each routing that occurs, in the order of the bytes of its id, and each group has
the steps of its routing, in their order. -/
theorem groupSteps_exact (steps : List RoutingStep) :
    ((∃ e, groupSteps steps = .error e) ↔
      ∃ place, 2 ≤ (steps.map RoutingStep.place).count place) ∧
    (∀ e, groupSteps steps = .error e → ∃ step, FirstRepeated steps step ∧
      e = .duplicateStep step.routingId step.stepNo) ∧
    ∀ groups, groupSteps steps = .ok groups → IsGrouping steps groups := by
  rcases groupSteps_cases steps with ⟨groups, hok, hgrouping, hnodup⟩ | ⟨step, hfirst, herror⟩
  · refine ⟨⟨?_, ?_⟩, ?_, ?_⟩
    · rintro ⟨e, he⟩
      rw [hok] at he
      cases he
    · rintro ⟨place, htwice⟩
      have honce := List.nodup_iff_count_le_one.1 hnodup place
      omega
    · intro e he
      rw [hok] at he
      cases he
    · intro groups' hgroups
      rw [hok] at hgroups
      cases hgroups
      exact hgrouping
  · refine ⟨⟨fun _ => ⟨_, hfirst.two_le_count⟩, fun _ => ⟨_, herror⟩⟩, ?_, ?_⟩
    · intro e he
      rw [herror] at he
      cases he
      exact ⟨step, hfirst, rfl⟩
    · intro groups hgroups
      rw [herror] at hgroups
      cases hgroups

end DesignData
end RoutePlan
