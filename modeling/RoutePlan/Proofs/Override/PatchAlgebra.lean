import RoutePlan.Command.Input
import RoutePlan.Proofs.Override.Updates
import RoutePlan.Proofs.Record.Changes

/-!
# Patches compose

A request to change an override names some of the eight attributes (`Attribute`) under their keys.
What it says of an attribute comes from the member with its key (`OverrideEdit.reflects`), reaches
the store in the patch that is written (`Service.carries_updateOverride`) and is what the patch does
to the row (`Service.updateOverride_run_patched`). Two patches in turn are one patch
(`OverridePatch.apply_andThen`), and patches are compared attribute by attribute
(`OverridePatch.ext_change`), so the laws of patches are those of a single change.
-/

namespace RoutePlan

/-! ## Attributes in a request -/

namespace Attribute

/-- The key of the attribute in the body of a request. -/
def key : Attribute → String
  | stationType => "stationType"
  | stationGroupId => "stationGroupCode"
  | allowedStationIds => "allowedStationIds"
  | requiresFAI => "requiresFAI"
  | requiresAuthorization => "requiresAuthorization"
  | dataSpecIds => "dataSpecIds"
  | ingestMapping => "ingestMapping"
  | info => "meta"

/-- How a value of the attribute is read from the body of a request. -/
def value : (a : Attribute) → Decoder a.Value
  | stationType => StationType.decode
  | stationGroupId => .text
  | allowedStationIds => .list .text
  | requiresFAI => .bool
  | requiresAuthorization => .bool
  | dataSpecIds => .list .text
  | ingestMapping => IngestMapping.decode
  | info => .document

/-- The key of an attribute is a field of the request. -/
theorem key_mem_fields (a : Attribute) : a.key ∈ OverrideEdit.reader.fields.map Field.name := by
  cases a <;> decide

end Attribute

namespace OverrideEdit

/-- Every attribute is read under its key. -/
theorem build_asked {look : String → Option Source} {e : OverrideEdit}
    (h : reader.build look = .ok e) (a : Attribute) :
    (RecordReader.change a.key a.value).build look = .ok (a.asked e) := by
  simp only [reader, RecordReader.build_seq_eq_ok, RecordReader.build_map_eq_ok] at h
  obtain ⟨_, ⟨_, ⟨_, ⟨_, ⟨_, ⟨_, ⟨_, ⟨_, h₁, rfl⟩, _, h₂, rfl⟩, _, h₃, rfl⟩, _, h₄, rfl⟩, _, h₅,
    rfl⟩, _, h₆, rfl⟩, _, h₇, rfl⟩, _, h₈, rfl⟩ := h
  cases a <;> assumption

/-- What is read of an object says of each attribute what the object says of its key. -/
theorem reflects {members : List (Option String × Source)} {ending : Ending} {e : OverrideEdit}
    (h : decode (.obj members ending) = .ok e) (a : Attribute) :
    RecordReader.Reflects a.value a.key members (a.asked e) := by
  obtain ⟨hcheck, hbuild⟩ := RecordReader.decode_obj_eq_ok h
  exact RecordReader.reflects_of_build
    (fun _ => RecordReader.lookupMember_eq_some_iff_mem hcheck a.key_mem_fields)
    (build_asked hbuild a)

end OverrideEdit

/-- What a text is accepted as is decoded from the value that is read of it. -/
theorem Decoder.eq_ok_of_ofText {α : Type} {d : Decoder α} {text : String} {a : α}
    (h : d.ofText text = .ok a) : d (Source.read text).1 = .ok a := by
  unfold ofText at h
  generalize Source.read text = found at h ⊢
  cases hread : d found.1 with
  | error e =>
    simp only [hread] at h
    cases h
  | ok b =>
    simp only [hread] at h
    split at h
    · cases h
      rfl
    · cases h

/-! ## The patch that a request writes -/

/-- The changes keep, clear or set the same, whatever they set it to. -/
def Change.Alike {α β : Type} (c : Change α) (d : Change β) : Prop :=
  (c.map fun _ => ()) = d.map fun _ => ()

/-- If the call changes an override, it changes the one that the request is for, and the patch has
the changes that the request asks for. Only the station group is named by its id instead. -/
def OverrideEdit.Carries (e : OverrideEdit) (id : String) (c : Call) : Prop :=
  ∀ id' patch, c = .updateOverride id' patch →
    id' = id ∧ ∃ group, group.Alike e.stationGroupCode ∧ e.Asks group patch

namespace Service

/-- Whatever the store answers, the one change that a request makes is the one it asks for. -/
theorem carries_updateOverride (code id : String) (edit : OverrideEdit) :
    OnlyCalls (edit.Carries id) (updateOverride code id edit) := by
  have hread {c : Call} (hc : c.SparesOverrides) : edit.Carries id c := by
    rintro id' patch rfl
    exact hc.elim
  have hwrite {group : Change String} (hgroup : group.Alike edit.stationGroupCode) :
      OnlyCalls (edit.Carries id) (do
        orRefuse (.overrideNotFound id) (← call (.updateOverride id (edit.patch group)))) := by
    refine .bind (onlyCalls_call fun id' patch heq => ?_) fun _ => onlyCalls_orRefuse _ _
    cases heq
    exact ⟨rfl, group, hgroup, edit.asks_patch group⟩
  refine .bind (onlyCalls_loadRouting (hread trivial)) fun r =>
    .bind (onlyCalls_call (hread trivial)) fun steps =>
      .bind (onlyCalls_call (hread trivial)) fun found? =>
        .bind (onlyCalls_orRefuse _ _) fun found => ?_
  refine onlyCalls_ite (onlyCalls_throw _) ?_
  -- the station group is looked up only if its code is set
  cases hcode : edit.stationGroupCode with
  | keep => exact hwrite (by rw [hcode]; rfl)
  | clear => exact hwrite (by rw [hcode]; rfl)
  | set name =>
    refine ⟨hread trivial, fun reply => ?_⟩
    rcases reply with e | group?
    · trivial
    · cases group? with
      | none => trivial
      | some g => exact hwrite (by rw [hcode]; rfl)

/-- A request to change a row that belongs to the route is answered with the row as the patch leaves
it, if the station group is known, and that is how the row is stored. -/
theorem updateOverride_run_patched (supply : Supply) {s : MemoryState} {code id : String}
    {e : OverrideEdit} {r : Routing} {old : Override} {group : Change String}
    (hr : s.store.findRouting code = some r) (ho : s.store.findOverride id = some old)
    (howns : r.owns (s.store.listSteps r.id) old = true)
    (hgroup : s.store.ResolvesGroup e.stationGroupCode group) :
    ∃ patch new t, e.Asks group patch ∧
      (updateOverride code id e).run.run (MemoryState.backend supply) s = (.ok new, t) ∧
        t.store.findOverride id = some new ∧
          new = { patch.apply old with updatedAt := new.updatedAt } := by
  obtain ⟨new, t, hanswer, hfound, hnew⟩ :=
    MemoryState.answer_updateOverride supply ho (e.patch group)
  refine ⟨e.patch group, new, t, e.asks_patch group, ?_, hfound, hnew⟩
  have hfind : (call (.findOverride id)).run.run (MemoryState.backend supply) s =
    (.ok (some old), s) := call_run_of_ok (by rw [← ho]; rfl)
  have hcall : (call (.updateOverride id (e.patch group))).run.run (MemoryState.backend supply) s =
    (.ok (some new), t) := call_run_of_ok hanswer
  unfold updateOverride
  rw [run_bind_of_ok (loadRouting_run hr), run_bind_of_ok (t := s) rfl, run_bind_of_ok hfind,
    run_bind_of_ok (a := old) (t := s) rfl, howns]
  refine (run_bind_of_ok (resolveGroup_run_of_resolves supply hgroup) _).trans ?_
  exact run_bind_of_ok hcall _

end Service

/-! ## Patches in turn -/

/-- A value after a change: the old one if it is kept, none if it is cleared, or the one that it is
set to. -/
structure Change.Writes {α : Type} (c : Change α) (old new : Option α) : Prop where
  keep : c = .keep → new = old
  clear : c = .clear → new = none
  set : ∀ a, c = .set a → new = some a

namespace Change

variable {α : Type} {c d : Change α}

/-- Applied to a value, a change keeps it, clears it or sets it. -/
theorem writes_apply (c : Change α) (old : Option α) : c.Writes old (c.apply old) where
  keep h := by rw [h]; rfl
  clear h := by rw [h]; rfl
  set a h := by rw [h]; rfl

/-- A change made twice is made once. -/
theorem andThen_self (c : Change α) : c.andThen c = c := by cases c <;> rfl

/-- Two changes commute if one of them keeps the value. -/
theorem andThen_comm (h : c = .keep ∨ d = .keep) : c.andThen d = d.andThen c := by
  rcases h with rfl | rfl
  · cases d <;> rfl
  · cases c <;> rfl

/-- Of two changes the second one counts, unless it keeps the value. -/
theorem andThen_eq_ite (c d : Change α) : c.andThen d = if d.isKeep then c else d := by
  cases d <;> rfl

end Change

namespace OverridePatch

/-- The patch that takes each change from the second patch unless that keeps the attribute, and from
the first one otherwise. -/
def andThen (p q : OverridePatch) : OverridePatch where
  stationType := p.stationType.andThen q.stationType
  stationGroupId := p.stationGroupId.andThen q.stationGroupId
  allowedStationIds := p.allowedStationIds.andThen q.allowedStationIds
  requiresFAI := p.requiresFAI.andThen q.requiresFAI
  requiresAuthorization := p.requiresAuthorization.andThen q.requiresAuthorization
  dataSpecIds := p.dataSpecIds.andThen q.dataSpecIds
  ingestMapping := p.ingestMapping.andThen q.ingestMapping
  info := p.info.andThen q.info

variable {p q : OverridePatch}

/-- Two patches in turn make two changes in turn of each attribute. -/
@[simp] theorem change_andThen (a : Attribute) (p q : OverridePatch) :
    a.change (p.andThen q) = (a.change p).andThen (a.change q) := by
  cases a <;> rfl

/-- A patch is known from what it does to each attribute. -/
theorem ext_change (h : ∀ a : Attribute, a.change p = a.change q) : p = q := by
  obtain ⟨p₁, p₂, p₃, p₄, p₅, p₆, p₇, p₈⟩ := p
  obtain rfl := h .stationType
  obtain rfl := h .stationGroupId
  obtain rfl := h .allowedStationIds
  obtain rfl := h .requiresFAI
  obtain rfl := h .requiresAuthorization
  obtain rfl := h .dataSpecIds
  obtain rfl := h .ingestMapping
  obtain rfl := h .info
  rfl

/-- Two patches in turn are one patch. -/
theorem apply_andThen (p q : OverridePatch) (o : Override) :
    (p.andThen q).apply o = q.apply (p.apply o) := by
  simp only [apply, andThen, Change.apply_andThen]

/-- A patch in turn with itself is the patch. -/
theorem andThen_self (p : OverridePatch) : p.andThen p = p :=
  ext_change fun a => by rw [change_andThen, Change.andThen_self]

/-- Patches that change different attributes commute. -/
theorem andThen_comm (h : ∀ a : Attribute, a.change p = .keep ∨ a.change q = .keep) :
    p.andThen q = q.andThen p :=
  ext_change fun a => by rw [change_andThen, change_andThen, Change.andThen_comm (h a)]

/-- The patch that keeps every attribute. -/
def nothing : OverridePatch := ⟨.keep, .keep, .keep, .keep, .keep, .keep, .keep, .keep⟩

/-- A patch that keeps every attribute is the one that changes none. -/
theorem eq_nothing (h : ∀ a : Attribute, a.change p = .keep) : p = nothing :=
  ext_change fun a => by cases a <;> exact h _

/-- The laws of patches on rows. -/
structure Lawful : Prop where
  /-- A patch writes each attribute as it says, and what is no attribute stays. -/
  writes : ∀ (p : OverridePatch) o, (∀ a : Attribute, (a.change p).Writes (a.get o)
    (a.get (p.apply o))) ∧ (p.apply o).identity = o.identity ∧ (p.apply o).updatedAt = o.updatedAt
  /-- Two patches in turn are one patch, which takes each change from the second one unless it keeps
  the attribute, and from the first one otherwise. -/
  inTurn : ∀ (p q : OverridePatch) o, q.apply (p.apply o) = (p.andThen q).apply o ∧
    ∀ a : Attribute, a.change (p.andThen q) = if (a.change q).isKeep then a.change p else a.change q
  /-- A patch applied twice is applied once. -/
  again : ∀ (p : OverridePatch) o, p.apply (p.apply o) = p.apply o
  /-- Patches that change different attributes commute. -/
  commute : ∀ p q : OverridePatch, (∀ a : Attribute, a.change p = .keep ∨ a.change q = .keep) →
    ∀ o, q.apply (p.apply o) = p.apply (q.apply o)
  /-- A patch that changes no attribute does nothing. -/
  nothing : ∀ p : OverridePatch, (∀ a : Attribute, a.change p = .keep) → ∀ o, p.apply o = o

/-- Patches obey the laws, since each attribute is changed on its own. -/
theorem lawful : Lawful where
  writes p o := by
    refine ⟨fun a => ?_, rfl, rfl⟩
    rw [a.get_apply]
    exact (a.change p).writes_apply _
  inTurn p q o := by
    refine ⟨(p.apply_andThen q o).symm, fun a => ?_⟩
    rw [change_andThen, Change.andThen_eq_ite]
  again p o := by rw [← p.apply_andThen, p.andThen_self]
  commute p q hdisjoint o := by
    rw [← p.apply_andThen, ← q.apply_andThen, andThen_comm hdisjoint]
  nothing p hkeep o := by
    rw [eq_nothing hkeep]
    rfl

end OverridePatch

/-- **Updates of an override compose.** Whatever object the body of an update is, if it is accepted,
each attribute is kept, cleared or set exactly as its key is absent, null or holds a value. Whatever
the store answers, the patch that the service writes has these changes and is for the row that the
request names; and if the row belongs to the route and the station group is known, the request is
answered with the row as this patch leaves it, but for the time of update. On every row a patch
writes what it says and nothing else, and patches in turn, the same patch twice, patches of
different attributes and the patch of none obey their laws (`OverridePatch.Lawful`). -/
theorem OverrideEdit.patches_lawful :
    (∀ text members ending e, (Source.read text).1 = .obj members ending →
      Decoder.ofText decode text = .ok e →
      ∀ a : Attribute, RecordReader.Reflects a.value a.key members (a.asked e)) ∧
    (∀ code id e, Service.OnlyCalls (Carries e id) (Service.updateOverride code id e)) ∧
    (∀ (supply : Supply) (s : MemoryState) code id e r old group,
      s.store.findRouting code = some r → s.store.findOverride id = some old →
      r.owns (s.store.listSteps r.id) old = true →
      s.store.ResolvesGroup e.stationGroupCode group →
      ∃ patch new t, e.Asks group patch ∧
        (Service.updateOverride code id e).run.run (MemoryState.backend supply) s = (.ok new, t) ∧
          t.store.findOverride id = some new ∧
            new = { patch.apply old with updatedAt := new.updatedAt }) ∧
    OverridePatch.Lawful := by
  refine ⟨?_, Service.carries_updateOverride, ?_, OverridePatch.lawful⟩
  · intro text members ending e hobject haccepted
    have hread := Decoder.eq_ok_of_ofText haccepted
    rw [hobject] at hread
    exact reflects hread
  · intro supply s code id e r old group hr ho howns hgroup
    exact Service.updateOverride_run_patched supply hr ho howns hgroup

/-! ## An inspection that is cleared -/

namespace ClearedInspection

/-- The inspection is cleared and the station type is set. -/
def text : String := "\x7b\"requiresFAI\": null, \"stationType\": \"AUTO\"\x7d"

/-- What the text asks for. -/
def edit : OverrideEdit where
  stationType := .set .auto
  stationGroupCode := .keep
  allowedStationIds := .keep
  requiresFAI := .clear
  requiresAuthorization := .keep
  dataSpecIds := .keep
  ingestMapping := .keep
  info := .keep

/-- The row has an inspection and other data. -/
def row : Override :=
  { SingleStep.manual with requiresFAI := some true, dataSpecIds := some ["d1"] }

/-- The row is one of the route with the single step. -/
def state : MemoryState := .start { SingleStep.store none with overrides := [row] }

end ClearedInspection

/-- The null of the body clears the inspection of the row, its text sets the station type, and what
has no key in it is as before. -/
theorem OverrideEdit.patches_lawful_clearedInspection :
    (∃ members ending, (Source.read ClearedInspection.text).1 = .obj members ending ∧
      (some "requiresFAI", .null) ∈ members ∧
      (∃ s, (some "stationType", s) ∈ members ∧ s ≠ .null ∧ StationType.decode s = .ok .auto) ∧
      ∀ s, (some "dataSpecIds", s) ∉ members) ∧
    ∃ new t, (Service.updateOverride "R1" "o1" ClearedInspection.edit).run.run
        (MemoryState.backend SingleStep.supply) ClearedInspection.state = (.ok new, t) ∧
      t.store.findOverride "o1" = some new ∧ new.requiresFAI = none ∧
        new.stationType = some .auto ∧ new.dataSpecIds = some ["d1"] := by
  have haccepted : Decoder.ofText decode ClearedInspection.text = .ok ClearedInspection.edit := by
    decide +kernel
  obtain ⟨members, ending, hobject⟩ : ∃ members ending,
      (Source.read ClearedInspection.text).1 = .obj members ending := by
    have hshape : (match (Source.read ClearedInspection.text).1 with
      | .obj _ _ => true
      | _ => false) = true := by decide +kernel
    generalize (Source.read ClearedInspection.text).1 = value at hshape ⊢
    cases value with
    | obj members ending => exact ⟨members, ending, rfl⟩
    | _ => cases hshape
  obtain ⟨hdecoded, -, hanswered, hlawful⟩ := patches_lawful
  have hreflects := hdecoded _ _ _ _ hobject haccepted
  obtain ⟨patch, new, t, hasks, hrun, hfound, hnew⟩ := hanswered SingleStep.supply
    ClearedInspection.state "R1" "o1" ClearedInspection.edit SingleStep.routing
    ClearedInspection.row .keep rfl rfl rfl .keep
  obtain ⟨hwrites, -⟩ := hlawful.writes patch ClearedInspection.row
  refine ⟨⟨members, ending, hobject, ?_, ?_, ?_⟩, new, t, hrun, hfound, ?_, ?_, ?_⟩
  · exact (hreflects .requiresFAI).clear.1 rfl
  · exact ((hreflects .stationType).set .auto).1 rfl
  · exact (hreflects .dataSpecIds).keep.1 rfl
  · rw [hnew]
    exact (hwrites .requiresFAI).clear (hasks.others .requiresFAI nofun)
  · rw [hnew]
    exact (hwrites .stationType).set .auto (hasks.others .stationType nofun)
  · rw [hnew]
    exact (hwrites .dataSpecIds).keep (hasks.others .dataSpecIds nofun)

end RoutePlan
