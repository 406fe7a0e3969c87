import RoutePlan.Proofs.Compile.Calls
import RoutePlan.Proofs.Service.Effect
import RoutePlan.Proofs.Service.Serving

/-!
# No update of an override is lost

A request to change an override reads the row before it writes it, and others may write the row in
between. What it writes does not depend on what it has read: it is the change that the request asks
for, with the station group looked up by its code (`Request.follows_editing`). The store applies the
change to the row as it is at that moment (`MemoryState.findOverride_updateOverride`). So after
requests that are served at the same time, each attribute of the row has the value of the last
change that names it (`World.findOverride_edits`), and requests that name different attributes do
not get in each other's way.
-/

namespace RoutePlan

/-! ## Attributes -/

/-- The attributes of an override that a request may change. -/
inductive Attribute
  | stationType
  | stationGroupId
  | allowedStationIds
  | requiresFAI
  | requiresAuthorization
  | dataSpecIds
  | ingestMapping
  | info

namespace Attribute

abbrev Value : Attribute → Type
  | stationType => StationType
  | stationGroupId => String
  | allowedStationIds => List String
  | requiresFAI => Bool
  | requiresAuthorization => Bool
  | dataSpecIds => List String
  | ingestMapping => IngestMapping
  | info => Document

/-- The value of the attribute, if it is set. -/
def get : (a : Attribute) → Override → Option a.Value
  | stationType => (·.stationType)
  | stationGroupId => (·.stationGroupId)
  | allowedStationIds => (·.allowedStationIds)
  | requiresFAI => (·.requiresFAI)
  | requiresAuthorization => (·.requiresAuthorization)
  | dataSpecIds => (·.dataSpecIds)
  | ingestMapping => (·.ingestMapping)
  | info => (·.info)

/-- What a patch does to the attribute. -/
def change : (a : Attribute) → OverridePatch → Change a.Value
  | stationType => (·.stationType)
  | stationGroupId => (·.stationGroupId)
  | allowedStationIds => (·.allowedStationIds)
  | requiresFAI => (·.requiresFAI)
  | requiresAuthorization => (·.requiresAuthorization)
  | dataSpecIds => (·.dataSpecIds)
  | ingestMapping => (·.ingestMapping)
  | info => (·.info)

/-- What a request asks for the attribute; a station group is named by its code. -/
def asked : (a : Attribute) → OverrideEdit → Change a.Value
  | stationType => (·.stationType)
  | stationGroupId => (·.stationGroupCode)
  | allowedStationIds => (·.allowedStationIds)
  | requiresFAI => (·.requiresFAI)
  | requiresAuthorization => (·.requiresAuthorization)
  | dataSpecIds => (·.dataSpecIds)
  | ingestMapping => (·.ingestMapping)
  | info => (·.info)

/-- A patch changes each attribute of a row as it says. -/
theorem get_apply (a : Attribute) (p : OverridePatch) (o : Override) :
    a.get (p.apply o) = (a.change p).apply (a.get o) := by
  cases a <;> rfl

end Attribute

/-- The patch changes every attribute as the request asks. Only the station group, which the request
names by its code, is changed as `group` says. -/
structure OverrideEdit.Asks (e : OverrideEdit) (group : Change String) (p : OverridePatch) :
    Prop where
  stationGroupId : Attribute.stationGroupId.change p = group
  others : ∀ a : Attribute, a ≠ .stationGroupId → a.change p = a.asked e

/-- The patch that is made of a request has its changes, each at its attribute. -/
theorem OverrideEdit.asks_patch (e : OverrideEdit) (group : Change String) :
    e.Asks group (e.patch group) where
  stationGroupId := rfl
  others a ha := by
    cases a with
    | stationGroupId => exact absurd rfl ha
    | _ => rfl

/-! ## The last change -/

namespace Change

variable {α : Type} {c : Change α} {changes : List (Change α)} {old : Option α}

/-- The value that the last of the changes but for those that keep it has written, or the old value
if there is no such change. -/
def lastWritten (changes : List (Change α)) (old : Option α) : Option α :=
  ((changes.filter fun c => !c.isKeep).getLast?).elim old (·.apply old)

/-- Only one change keeps the value. -/
theorem eq_keep (h : c.isKeep = true) : c = .keep := by
  cases c with
  | keep => rfl
  | clear => cases h
  | set a => cases h

/-- A change that does not keep the value does not depend on it. -/
theorem apply_of_not_isKeep (h : c.isKeep = false) (old old' : Option α) :
    c.apply old = c.apply old' := by
  cases c with
  | keep => cases h
  | clear => rfl
  | set a => rfl

/-- The first change is made first. -/
theorem lastWritten_cons (c : Change α) (changes : List (Change α)) (old : Option α) :
    lastWritten (c :: changes) old = lastWritten changes (c.apply old) := by
  unfold lastWritten
  cases hc : c.isKeep with
  | true =>
    rw [List.filter_cons_of_neg (by simp [hc]), eq_keep hc]
    rfl
  | false =>
    rw [List.filter_cons_of_pos (by simp [hc]), List.getLast?_cons]
    cases hlast : (changes.filter fun c => !c.isKeep).getLast? with
    | none => rfl
    | some d =>
      have hd := (List.mem_filter.1 (List.mem_of_getLast? hlast)).2
      exact apply_of_not_isKeep (by simpa using hd) _ _

/-- If all changes but one keep the value, that one determines it. -/
theorem lastWritten_of_keeps {before after : List (Change α)} (hbefore : ∀ d ∈ before, d = .keep)
    (hafter : ∀ d ∈ after, d = .keep) (c : Change α) (old : Option α) :
    lastWritten (before ++ c :: after) old = c.apply old := by
  have hnone {ds : List (Change α)} (h : ∀ d ∈ ds, d = .keep) :
      ds.filter (fun d => !d.isKeep) = [] :=
    List.filter_eq_nil_iff.2 fun d hd => by simp [h d hd, isKeep]
  unfold lastWritten
  rw [List.filter_append, List.filter_cons, hnone hbefore, hnone hafter]
  cases hc : c.isKeep with
  | true =>
    rw [eq_keep hc]
    rfl
  | false => rfl

end Change

/-- If everyone makes one change at most, what one writes to an attribute that no other one names is
what counts. -/
theorem Attribute.lastWritten_of_disjoint {ι : Type} {edits : List (ι × OverridePatch)} {i : ι}
    (hnodup : (edits.map Prod.fst).Nodup) (a : Attribute) {patch : OverridePatch}
    (hmem : (i, patch) ∈ edits)
    (hothers : ∀ j patch', (j, patch') ∈ edits → j ≠ i → a.change patch' = .keep)
    (old : Option a.Value) :
    Change.lastWritten (edits.map fun e => a.change e.2) old = (a.change patch).apply old := by
  obtain ⟨before, after, rfl⟩ := List.append_of_mem hmem
  rw [List.map_append, List.map_cons, List.nodup_append] at hnodup
  obtain ⟨-, hcons, hdisjoint⟩ := hnodup
  have hbefore : ∀ e ∈ before, a.change e.2 = .keep := fun e he =>
    hothers e.1 e.2 (List.mem_append_left _ he) fun hei =>
      hdisjoint e.1 (List.mem_map_of_mem he) i (List.mem_cons_self ..) hei
  have hafter : ∀ e ∈ after, a.change e.2 = .keep := fun e he =>
    hothers e.1 e.2 (List.mem_append_right _ (List.mem_cons_of_mem _ he)) fun hei =>
      (List.nodup_cons.1 hcons).1 (List.mem_map.2 ⟨e, he, hei⟩)
  rw [List.map_append, List.map_cons]
  exact Change.lastWritten_of_keeps (List.forall_mem_map.2 hbefore) (List.forall_mem_map.2 hafter)
    _ _

/-! ## A row among other rows -/

namespace MemoryStore

/-- The first row that passes the test is changed, and it is still the first one. -/
theorem find?_updateFirst {α : Type} {p : α → Bool} {f : α → α} (hf : ∀ a, p (f a) = p a)
    {items items' : List α} {b : α} (h : updateFirst p f items = some (b, items')) :
    items'.find? p = some b := by
  induction items generalizing items' with
  | nil => cases h
  | cons a rest ih =>
    rw [updateFirst] at h
    split at h
    · next hp =>
      obtain ⟨rfl, rfl⟩ := Prod.mk.inj (Option.some.inj h)
      exact List.find?_cons_of_pos (by rw [hf, hp])
    · next hp =>
      obtain ⟨⟨b', rest'⟩, hrest, heq⟩ := Option.map_eq_some_iff.1 h
      obtain ⟨rfl, rfl⟩ := Prod.mk.inj heq
      rw [List.find?_cons_of_neg hp]
      exact ih hrest

variable {s : MemoryStore} {id : String} {o : Override}

/-- A row that is changed is found as the patch leaves it, under its stamp. -/
theorem findOverride_writeOverride (ho : s.findOverride id = some o) (patch : OverridePatch)
    (stamp : Instant) : (s.writeOverride id patch stamp).2.findOverride id =
      some { patch.apply o with updatedAt := stamp } := by
  unfold writeOverride
  split
  · next h =>
    rw [findOverride, updateFirst_eq_none.1 h] at ho
    cases ho
  · next h =>
    obtain ⟨_, old, _, -, -, rfl, hold⟩ := updateFirst_eq_some h
    obtain rfl : old = o := Option.some.inj (hold.symm.trans ho)
    refine find?_updateFirst ?_ h
    exact fun _ => rfl

/-- A row that is there is changed, and no stamp is drawn. -/
theorem writeOverride_eq (ho : s.findOverride id = some o) (patch : OverridePatch)
    (stamp : Instant) :
    ∃ t, s.writeOverride id patch stamp = (some { patch.apply o with updatedAt := stamp }, t) ∧
      t.findOverride id = some { patch.apply o with updatedAt := stamp } ∧
      t.lastStamp = s.lastStamp := by
  have hfound := findOverride_writeOverride ho patch stamp
  cases hwrite : s.writeOverride id patch stamp with
  | mk after t =>
    rw [hwrite] at hfound
    unfold writeOverride at hwrite
    split at hwrite
    · next hnone =>
      rw [findOverride, updateFirst_eq_none.1 hnone] at ho
      cases ho
    · next hsome =>
      obtain ⟨rfl, rfl⟩ := Prod.mk.inj hwrite
      obtain ⟨_, old, _, -, -, rfl, hold⟩ := updateFirst_eq_some hsome
      obtain rfl : old = o := Option.some.inj (hold.symm.trans ho)
      exact ⟨_, rfl, hfound, rfl⟩

/-- A change of one row leaves the others alone. -/
theorem findOverride_writeOverride_of_ne {id' : String} (hid : id' ≠ id) (patch : OverridePatch)
    (stamp : Instant) :
    (s.writeOverride id' patch stamp).2.findOverride id = s.findOverride id := by
  unfold writeOverride
  split
  · rfl
  · next h =>
    obtain ⟨before, old, after, hs, ht, rfl, hold⟩ := updateFirst_eq_some h
    have hold : old.id = id' := by simpa using List.find?_some hold
    have hskip (c : Override) (hc : c.id = id') :
        (c :: after).find? (fun o => o.id == id) = after.find? fun o => o.id == id :=
      List.find?_cons_of_neg (by simpa [hc] using hid)
    rw [findOverride, findOverride, hs, ht, List.find?_append, List.find?_append, hskip old hold,
      hskip { patch.apply old with updatedAt := stamp } hold]

end MemoryStore

namespace MemoryState

variable {supply : Supply} {s : MemoryState} {id : String} {o : Override}

/-- The change of a row that is there is answered with the row as the patch leaves it, and that is
how it is stored. -/
theorem answer_updateOverride (supply : Supply) (ho : s.store.findOverride id = some o)
    (patch : OverridePatch) :
    ∃ new t, answer supply (.updateOverride id patch) s = (.ok (some new), t) ∧
      t.store.findOverride id = some new ∧
      new = { patch.apply o with updatedAt := new.updatedAt } := by
  have hdraw : (s.store.drawStamp (supply.reading s.readings)).2.findOverride id = some o := ho
  obtain ⟨store, hwrite, hfound, -⟩ := MemoryStore.writeOverride_eq hdraw patch
    (s.store.drawStamp (supply.reading s.readings)).1
  refine ⟨_, { s with store, readings := s.readings + 1 }, ?_, hfound, rfl⟩
  simp only [answer, MemoryStore.updateOverride]
  rw [hwrite]

/-- A change is applied to the row as it is. -/
theorem findOverride_updateOverride (ho : s.store.findOverride id = some o)
    (patch : OverridePatch) :
    ∃ o', (answer supply (.updateOverride id patch) s).2.store.findOverride id = some o' ∧
      o'.identity = o.identity ∧ ∀ a : Attribute, a.get o' = (a.change patch).apply (a.get o) := by
  obtain ⟨new, t, hanswer, hfound, hnew⟩ := answer_updateOverride supply ho patch
  refine ⟨new, by rw [hanswer]; exact hfound, by rw [hnew]; rfl, fun a => ?_⟩
  rw [← a.get_apply, hnew]
  cases a <;> rfl

/-- No other call changes the row. -/
theorem findOverride_answer {c : Call} (hc : ∀ patch, c ≠ .updateOverride id patch)
    (ho : s.store.findOverride id = some o) :
    (answer supply c s).2.store.findOverride id = some o := by
  cases c with
  | insertOverride draft =>
    have hrows : s.store.overrides.find? (fun o => o.id == id) = some o := ho
    change (s.store.overrides ++ [_]).find? _ = some o
    rw [List.find?_append, hrows, Option.some_or]
  | updateOverride id' patch =>
    have hid : id' ≠ id := fun hid => hc patch (by rw [hid])
    exact (MemoryStore.findOverride_writeOverride_of_ne hid patch _).trans ho
  | insertVersion draft expected =>
    simp only [answer]
    split
    · exact ho
    · next hinsert =>
      obtain ⟨-, -, -, rfl⟩ := MemoryStore.insertVersion_eq_ok.1 hinsert
      exact ho
  | _ => exact ho

end MemoryState

/-! ## The changes of a row in a run -/

/-- The change of the override that a program makes with its next move, if it makes one. -/
def Program.nextEdit? {α : Type} (id : String) : Program α → Option OverridePatch
  | call (.updateOverride id' patch) _ => if id' = id then some patch else none
  | _ => none

namespace World

variable {ι α : Type} [DecidableEq ι] {supply : Supply} {id : String} {o : Override}

/-- The change of the override that a move makes, if it makes one. -/
def edit? (id : String) (w : World ι α) (i : ι) : Option (ι × OverridePatch) :=
  ((w.programs i).nextEdit? id).map (i, ·)

/-- The changes of an override in a run, each with the program that makes it. -/
def edits (supply : Supply) (id : String) (w : World ι α) : List ι → List (ι × OverridePatch)
  | [] => []
  | i :: rest => (w.edit? id i).toList ++ (w.move supply (.advance i)).edits supply id rest

/-- The changes of two schedules in turn are those of both. -/
theorem edits_append (w : World ι α) (schedule more : List ι) :
    w.edits supply id (schedule ++ more) =
      w.edits supply id schedule ++ (w.runSchedule supply schedule).edits supply id more := by
  induction schedule generalizing w with
  | nil => rfl
  | cons i schedule ih =>
    rw [List.cons_append, edits, edits, ih, List.append_assoc, runSchedule_cons]

/-- The last move of a schedule makes the last change, if it makes one. -/
theorem edits_concat (w : World ι α) (schedule : List ι) (i : ι) :
    w.edits supply id (schedule ++ [i]) =
      w.edits supply id schedule ++ ((w.runSchedule supply schedule).edit? id i).toList := by
  rw [edits_append, edits, edits, List.append_nil]

/-- A move applies its change to the row, or leaves the row as it is. -/
theorem findOverride_advance (supply : Supply) (w : World ι α) (i : ι)
    (ho : w.state.store.findOverride id = some o) :
    ∃ o', (w.move supply (.advance i)).state.store.findOverride id = some o' ∧
      o'.identity = o.identity ∧ ∀ a : Attribute,
        a.get o' = ((w.edit? id i).toList.map fun e => a.change e.2).foldl
          (fun old c => c.apply old) (a.get o) := by
  rw [state_advance, edit?]
  cases w.programs i with
  | done r => exact ⟨o, ho, rfl, fun _ => rfl⟩
  | readClock next => exact ⟨o, ho, rfl, fun _ => rfl⟩
  | call c next =>
    by_cases hc : ∃ patch, c = .updateOverride id patch
    · obtain ⟨patch, rfl⟩ := hc
      simp only [Program.nextEdit?, if_pos]
      exact MemoryState.findOverride_updateOverride ho patch
    · have hnone : (Program.call c next).nextEdit? id = none := by
        unfold Program.nextEdit?
        split
        · next id' patch _ heq =>
          obtain ⟨rfl, -⟩ := Program.call.inj heq
          exact if_neg fun hid => hc ⟨patch, by rw [hid]⟩
        · rfl
      rw [hnone]
      exact ⟨o, MemoryState.findOverride_answer (fun patch h => hc ⟨patch, h⟩) ho, rfl,
        fun _ => rfl⟩

/-- After a run each attribute of a row has the value that the last change of it has written. -/
theorem findOverride_edits (supply : Supply) (schedule : List ι) (w : World ι α)
    (ho : w.state.store.findOverride id = some o) :
    ∃ o', (w.runSchedule supply schedule).state.store.findOverride id = some o' ∧
      o'.identity = o.identity ∧ ∀ a : Attribute, a.get o' =
        Change.lastWritten ((w.edits supply id schedule).map fun e => a.change e.2) (a.get o) := by
  induction schedule generalizing w o with
  | nil => exact ⟨o, ho, rfl, fun _ => rfl⟩
  | cons i schedule ih =>
    obtain ⟨o₁, ho₁, hid₁, hget₁⟩ := findOverride_advance supply w i ho
    obtain ⟨o₂, ho₂, hid₂, hget₂⟩ := ih _ ho₁
    refine ⟨o₂, ho₂, hid₂.trans hid₁, fun a => ?_⟩
    rw [hget₂, hget₁, edits]
    cases w.edit? id i with
    | none => rfl
    | some e => exact (Change.lastWritten_cons ..).symm

end World

/-! ## What a request writes -/

/-- The call does not change an override. -/
def Call.SparesOverrides : Call → Prop
  | updateOverride _ _ => False
  | _ => True

namespace Service

/-- The target of an override is looked up without changing one. -/
theorem onlyCalls_resolveTarget (r : Routing) (stepNo : Option Int32) :
    OnlyCalls Call.SparesOverrides (resolveTarget r stepNo) := by
  cases stepNo with
  | none => exact onlyCalls_pure _
  | some stepNo =>
    exact .bind (onlyCalls_call trivial) fun _ =>
      .bind (onlyCalls_orRefuse _ _) fun _ => onlyCalls_pure _

/-- A station group is looked up without changing an override. -/
theorem onlyCalls_resolveGroup (code : Change String) :
    OnlyCalls Call.SparesOverrides (resolveGroup code) := by
  cases code with
  | keep => exact onlyCalls_pure _
  | clear => exact onlyCalls_pure _
  | set code =>
    exact .bind (onlyCalls_call trivial) fun _ =>
      .bind (onlyCalls_orRefuse _ _) fun _ => onlyCalls_pure _

/-- A request to create an override changes none. -/
theorem onlyCalls_createOverride (code : String) (request : OverrideRequest) :
    OnlyCalls Call.SparesOverrides (createOverride code request) := by
  have hstepNo : OnlyCalls Call.SparesOverrides (liftM request.stepNo? : Service _) := by
    cases request.stepNo? <;> trivial
  exact .bind hstepNo fun _ => .bind (onlyCalls_loadRouting trivial) fun _ =>
    .bind (onlyCalls_resolveTarget _ _) fun _ => .bind (onlyCalls_resolveGroup _) fun _ =>
      onlyCalls_call trivial

end Service

/-- Only a request to change an override changes one. -/
theorem Request.onlyCalls_serve {q : Request}
    (hq : ∀ code id edit, q ≠ .write (.update code id edit)) :
    q.serve.OnlyCalls Call.SparesOverrides := by
  cases q with
  | write w =>
    cases w with
    | create code request => exact Service.onlyCalls_createOverride code request
    | update code id edit => exact absurd rfl (hq code id edit)
  | listOverrides code =>
    exact .bind (Service.onlyCalls_loadRouting trivial) fun _ =>
      .bind (Service.onlyCalls_call trivial) fun _ =>
        .bind (Service.onlyCalls_call trivial) fun _ => Service.onlyCalls_pure _
  | compile code attempts =>
    refine (Service.onlyCalls_compileWithin code _ _).imp fun c hc => ?_
    cases c with
    | updateOverride => exact hc
    | _ => trivial
  | listVersions code =>
    exact .bind (Service.onlyCalls_loadRouting trivial) fun _ => Service.onlyCalls_call trivial
  | getVersion code versionNo =>
    exact .bind (Service.onlyCalls_loadRouting trivial) fun _ =>
      .bind (Service.onlyCalls_call trivial) fun _ => Service.onlyCalls_orRefuse _ _

/-- The change of the override that a request asks for: what the request says of each attribute,
with the station group looked up by its code. -/
inductive Request.Edits (s : MemoryStore) (id : String) : Request → OverridePatch → Prop
  | update {code : String} {edit : OverrideEdit} {group : Change String} {patch : OverridePatch}
    (hgroup : s.ResolvesGroup edit.stationGroupCode group) (hasks : edit.Asks group patch) :
    Edits s id (.write (.update code id edit)) patch

/-- What a request remembers: the station group that was found by its code, and the change of the
override that it has written. -/
structure EditMemory where
  group : Option (String × StationGroup)
  written : Option OverridePatch

/-- The station group is the one with the code. -/
def EditMemory.Holds (g : EditMemory) (s : MemoryStore) : Prop :=
  ∀ code group, g.group = some (code, group) → s.findStationGroup code = some group

/-- A request changes the override once, and as it was asked to. -/
def editing (id : String) (q : Request) : Protocol EditMemory where
  allows g c := ∀ patch, c = .updateOverride id patch →
    g.written = none ∧ ∀ s, g.Holds s → q.Edits s id patch
  next g
    | .findStationGroup code, .ok found => { g with group := found.map (code, ·) }
    | .updateOverride id' patch, _ => if id' = id then { g with written := some patch } else g
    | _, _ => g

/-- The protocol allows every call that changes no override. -/
theorem editing_allows {id : String} {q : Request} {g : EditMemory} {c : Call}
    (hc : c.SparesOverrides) : (editing id q).allows g c := by
  rintro patch rfl
  exact hc.elim

namespace Service

variable {supply : Supply} {id : String} {q : Request}

/-- The station group is found by its code, or nothing is to be found. -/
theorem follows_resolveGroup (change : Change String) {post : Change String → EditMemory → Prop}
    (hpost : ∀ group g, g.written = none →
      (∀ s, g.Holds s → s.ResolvesGroup change group) → post group g) :
    Follows supply (editing id q) post (fun _ _ => True) (resolveGroup change) ⟨none, none⟩ := by
  cases change with
  | keep => exact follows_pure.2 (hpost _ _ rfl fun _ _ => .keep)
  | clear => exact follows_pure.2 (hpost _ _ rfl fun _ _ => .clear)
  | set code =>
    refine follows_bind.2 (follows_read (·.findStationGroup code) (fun _ => rfl)
      (editing_allows trivial) fun t => follows_bind.2 (follows_orRefuse.2 ?_))
    cases t.findStationGroup code with
    | none => trivial
    | some group => exact follows_pure.2 (hpost _ _ rfl fun s hs => .set (hs code group rfl))

/-- A request to change an override writes the change once if it succeeds. -/
theorem follows_updateOverride (code id' : String) (edit : OverrideEdit) :
    Follows supply (editing id (.write (.update code id' edit)))
      (fun _ g => id' = id → ∃ patch, g.written = some patch) (fun _ _ => True)
      (updateOverride code id' edit) ⟨none, none⟩ := by
  refine follows_bind.2 (follows_bind.2 (follows_read (·.findRouting code) (fun _ => rfl)
    (editing_allows trivial) fun s => follows_orRefuse.2 ?_))
  cases s.findRouting code with
  | none => trivial
  | some r =>
    refine follows_bind.2 (follows_read (·.listSteps r.id) (fun _ => rfl)
      (editing_allows trivial) fun t => ?_)
    refine follows_bind.2 (follows_read (·.findOverride id') (fun _ => rfl)
      (editing_allows trivial) fun u => ?_)
    refine follows_bind.2 (follows_orRefuse.2 ?_)
    cases u.findOverride id' with
    | none => trivial
    | some found =>
      refine follows_ite (fun _ => trivial) fun _ => ?_
      refine follows_bind.2 (follows_resolveGroup _ fun group g hg hgroup => ?_)
      refine follows_bind.2 (follows_call.2 ⟨fun patch heq => ?_, fun v => ?_⟩)
      · cases heq
        exact ⟨hg, fun s hs => .update (hgroup s hs) (edit.asks_patch group)⟩
      · split
        · refine follows_orRefuse.2 ?_
          split
          · exact fun hid => ⟨edit.patch group, by simp [editing, hid]⟩
          · trivial
        · trivial

end Service

/-- Every request follows the protocol, and one to change the override that succeeds has done so. -/
theorem Request.follows_editing (supply : Supply) (id : String) (q : Request) :
    q.program.Follows supply (editing id q)
      (fun outcome g => ∀ code edit o, outcome = ⟨.write (.update code id edit), .ok o⟩ →
        ∃ patch, g.written = some patch) ⟨none, none⟩ := by
  refine Program.follows_bind.2 ?_
  by_cases hq : ∃ code id' edit, q = .write (.update code id' edit)
  · obtain ⟨code, id', edit, rfl⟩ := hq
    refine Program.Follows.imp (Service.follows_updateOverride code id' edit) fun result g h => ?_
    intro code edit o heq
    cases heq
    exact h rfl
  · refine Program.Follows.imp
      (Program.OnlyCalls.follows (onlyCalls_serve fun code id' edit h => hq ⟨code, id', edit, h⟩)
        fun _ _ => editing_allows) fun result g _ => ?_
    intro code edit o heq
    exact absurd ⟨code, id, edit, congrArg Sigma.fst heq⟩ hq

namespace World

variable {ι : Type} [DecidableEq ι] {supply : Supply} {id : String} {q : ι → Request}
  {s : MemoryState} {i : ι}

/-- What a request remembers of a run is true: the station group has the code, and the change that
it has written is the only one by it in the run. -/
structure RemembersEdit (supply : Supply) (id : String) (q : ι → Request) (s : MemoryState) (i : ι)
    (schedule : List ι) (g : EditMemory) : Prop where
  holds : g.Holds s.store
  written : ((serving s q).edits supply id schedule).filter (fun e => e.1 = i) =
    (g.written.map (i, ·)).toList
  edits : ∀ patch, g.written = some patch → (q i).Edits s.store id patch

/-- The last move of a schedule counts among the changes of its own call. -/
theorem filter_edits_concat {α : Type} (w : World ι α) (schedule : List ι) (i j : ι) :
    (w.edits supply id (schedule ++ [j])).filter (fun e => e.1 = i) =
      (w.edits supply id schedule).filter (fun e => e.1 = i) ++
        if j = i then ((w.runSchedule supply schedule).edit? id i).toList else [] := by
  rw [edits_concat, List.filter_append, edit?]
  congr 1
  by_cases hj : j = i
  · subst hj
    rw [if_pos rfl, edit?]
    cases ((w.runSchedule supply schedule).programs j).nextEdit? id <;> simp
  · rw [if_neg hj]
    cases ((w.runSchedule supply schedule).programs j).nextEdit? id <;> simp [hj]

namespace RemembersEdit

variable {schedule : List ι} {g : EditMemory}

/-- A request that has not begun has written nothing. -/
theorem start : RemembersEdit supply id q s i [] ⟨none, none⟩ := by
  refine ⟨fun code group h => ?_, rfl, fun patch h => ?_⟩
  · cases h
  · cases h

/-- Other moves than calls of the request are nothing to remember. -/
theorem other (h : RemembersEdit supply id q s i schedule g) {j : ι}
    (hj : j = i → (((serving s q).runSchedule supply schedule).programs i).isCall = false) :
    RemembersEdit supply id q s i (schedule ++ [j]) g := by
  refine ⟨h.holds, ?_, h.edits⟩
  rw [filter_edits_concat, h.written]
  split
  · next heq =>
    have hcall := hj heq
    rw [edit?]
    cases hp : ((serving s q).runSchedule supply schedule).programs i with
    | call c next =>
      rw [hp] at hcall
      cases hcall
    | done r => exact List.append_nil _
    | readClock next => exact List.append_nil _
  · exact List.append_nil _

/-- Each call of the request that is allowed keeps its memory true. -/
theorem call (h : RemembersEdit supply id q s i schedule g) {c : Call}
    {next : c.Answer → Program Request.Outcome}
    (hp : ((serving s q).runSchedule supply schedule).programs i = .call c next)
    (hallows : (editing id (q i)).allows g c) :
    RemembersEdit supply id q s i (schedule ++ [i]) ((editing id (q i)).next g c
      (MemoryState.answer supply c ((serving s q).runSchedule supply schedule).state).1) := by
  have hedit : ((serving s q).runSchedule supply schedule).edit? id i =
      ((Program.call c next).nextEdit? id).map (i, ·) := by rw [edit?, hp]
  have hsilent (hnone : (Program.call c next).nextEdit? id = none) :
      ((serving s q).edits supply id (schedule ++ [i])).filter (fun e => e.1 = i) =
        (g.written.map (i, ·)).toList := by
    rw [filter_edits_concat, h.written, if_pos rfl, hedit, hnone]
    exact List.append_nil _
  cases c with
  | updateOverride id' patch =>
    by_cases hid : id' = id
    · subst hid
      obtain ⟨hfirst, hedits⟩ := hallows patch rfl
      simp only [editing, if_pos]
      refine ⟨h.holds, ?_, fun patch' heq => ?_⟩
      · rw [filter_edits_concat, h.written, hfirst, if_pos rfl, hedit]
        simp only [Program.nextEdit?, if_pos]
        rfl
      · cases heq
        exact hedits s.store h.holds
    · simp only [editing, if_neg hid]
      exact ⟨h.holds, hsilent (if_neg hid), h.edits⟩
  | findStationGroup code =>
    refine ⟨fun code' group heq => ?_, hsilent rfl, h.edits⟩
    obtain ⟨found, hfound, hpair⟩ := Option.map_eq_some_iff.1 heq
    obtain ⟨rfl, rfl⟩ := Prod.mk.inj hpair
    have hlater : s.store.Later ((serving s q).runSchedule supply schedule).state.store :=
      later_runSchedule schedule (serving s q)
    rwa [hlater.findStationGroup] at hfound
  | _ => exact ⟨h.holds, hsilent rfl, h.edits⟩

/-- A request has made just the change that it remembers. -/
theorem mem_edits (h : RemembersEdit supply id q s i schedule g) {patch : OverridePatch} :
    (i, patch) ∈ (serving s q).edits supply id schedule ↔ g.written = some patch := by
  have hfilter : (i, patch) ∈ (serving s q).edits supply id schedule ↔
      (i, patch) ∈ ((serving s q).edits supply id schedule).filter fun e => e.1 = i := by
    simp
  rw [hfilter, h.written]
  simp

/-- A request makes one change at most. -/
theorem count_le_one (h : RemembersEdit supply id q s i schedule g) :
    (((serving s q).edits supply id schedule).map Prod.fst).count i ≤ 1 := by
  have hcount : (((serving s q).edits supply id schedule).map Prod.fst).count i =
      (((serving s q).edits supply id schedule).filter fun e => e.1 = i).length := by
    rw [List.count, List.countP_map, List.countP_eq_length_filter]
    congr 2
  rw [hcount, h.written]
  cases g.written <;> simp

end RemembersEdit

/-- Along a run every request remembers what it has written. -/
theorem serving_remembersEdit (supply : Supply) (id : String) (q : ι → Request) (s : MemoryState)
    (i : ι) (schedule : List ι) : ∃ g,
    (((serving s q).runSchedule supply schedule).programs i).Follows supply (editing id (q i))
      (fun outcome g => ∀ code edit o, outcome = ⟨.write (.update code id edit), .ok o⟩ →
        ∃ patch, g.written = some patch) g ∧
      RemembersEdit supply id q s i schedule g :=
  runSchedule_follows ((q i).follows_editing supply id) .start (fun _ _ _ h hj => h.other hj)
    (fun _ _ _ _ h hp hallows => h.call hp hallows) schedule

/-- **No update of an override is lost.** Requests are served at the same time, their calls in any
order. Every request that changes the row with the id does so once, and what it writes is what it
asks for, with the station group looked up by its code; and every request to change it that has
succeeded is among them. Afterwards each attribute of the row has the value that the last of these
changes that names it has written, or the value from before if none of them names it. So what a
request writes to an attribute that no other request names is kept. -/
theorem serving_keepsUpdates (supply : Supply) (q : ι → Request) {o : Override}
    (hids : (s.store.overrides.map (·.id)).Nodup) (ho : o ∈ s.store.overrides)
    (schedule : List ι) :
    let final := (serving s q).runSchedule supply schedule
    let edits := (serving s q).edits supply o.id schedule
    (edits.map Prod.fst).Nodup ∧
      (∀ i patch, (i, patch) ∈ edits → (q i).Edits s.store o.id patch) ∧
      (∀ i code edit o', final.programs i = .done ⟨.write (.update code o.id edit), .ok o'⟩ →
        ∃ patch, (i, patch) ∈ edits) ∧
      ∃ o', final.state.store.findOverride o.id = some o' ∧ o'.identity = o.identity ∧
        (∀ a : Attribute, a.get o' =
          Change.lastWritten (edits.map fun e => a.change e.2) (a.get o)) ∧
        ∀ (a : Attribute) i patch, (i, patch) ∈ edits →
          (∀ j patch', (j, patch') ∈ edits → j ≠ i → a.change patch' = .keep) →
          a.get o' = (a.change patch).apply (a.get o) := by
  intro final edits
  have hremembers (i : ι) := serving_remembersEdit supply o.id q s i schedule
  have hnodup : (edits.map Prod.fst).Nodup :=
    List.nodup_iff_count_le_one.2 fun i => (hremembers i).elim fun g hg => hg.2.count_le_one
  obtain ⟨o', ho', hidentity, hget⟩ := findOverride_edits supply schedule (serving s q)
    (MemoryStore.findOverride_of_mem hids ho)
  refine ⟨hnodup, fun i patch hmem => ?_, fun i code edit written hdone => ?_,
    o', ho', hidentity, hget, fun a i patch hmem hothers => ?_⟩
  · obtain ⟨g, -, hg⟩ := hremembers i
    exact hg.edits patch (hg.mem_edits.1 hmem)
  · obtain ⟨g, hfollows, hg⟩ := hremembers i
    rw [hdone] at hfollows
    obtain ⟨patch, hwritten⟩ := hfollows code edit written rfl
    exact ⟨patch, hg.mem_edits.2 hwritten⟩
  · rw [hget, a.lastWritten_of_disjoint hnodup hmem hothers]

end World

namespace TwoAttributes

/-- The override of a route whose station type and inspection are set by two requests. -/
def state : MemoryState :=
  .start { SingleStep.store none with overrides := [SingleStep.manual] }

/-- One request sets the station type, and the other one requires an inspection. -/
def edit (i : Bool) : OverrideEdit where
  stationType := if i then .set .auto else .keep
  stationGroupCode := .keep
  allowedStationIds := .keep
  requiresFAI := if i then .keep else .set true
  requiresAuthorization := .keep
  dataSpecIds := .keep
  ingestMapping := .keep
  info := .keep

def request (i : Bool) : Request := .write (.update "R1" "o1" (edit i))

/-- Both requests read before one of them writes. -/
def schedule : List Bool := [true, false, true, false, true, false, true, false]

/-- Each of the requests changes its own attribute. -/
theorem edits_eq : (World.serving state request).edits SingleStep.supply "o1" schedule =
    [(true, (edit true).patch .keep), (false, (edit false).patch .keep)] := by
  decide +kernel

end TwoAttributes

/-- Two requests read the same row, and what both of them write is kept. -/
theorem World.serving_keepsUpdates_twoAttributes :
    ∃ o', ((serving TwoAttributes.state TwoAttributes.request).runSchedule SingleStep.supply
        TwoAttributes.schedule).state.store.findOverride "o1" = some o' ∧
      o'.stationType = some .auto ∧ o'.requiresFAI = some true := by
  obtain ⟨-, -, -, o', ho', -, -, hkept⟩ :=
    serving_keepsUpdates (s := TwoAttributes.state) (o := SingleStep.manual) SingleStep.supply
      TwoAttributes.request (by decide) (List.mem_singleton_self _) TwoAttributes.schedule
  rw [show SingleStep.manual.id = "o1" from rfl, TwoAttributes.edits_eq] at hkept
  refine ⟨o', ho', ?_, ?_⟩
  · refine hkept .stationType true ((TwoAttributes.edit true).patch .keep) (by simp) ?_
    intro j patch' hmem hne
    obtain rfl : patch' = (TwoAttributes.edit false).patch .keep := by simp_all
    rfl
  · refine hkept .requiresFAI false ((TwoAttributes.edit false).patch .keep) (by simp) ?_
    intro j patch' hmem hne
    obtain rfl : patch' = (TwoAttributes.edit true).patch .keep := by simp_all
    rfl

end RoutePlan
