import RoutePlan.Proofs.Json.SameData
import RoutePlan.Proofs.Version.Signature
import Mathlib.Logic.Relation

/-!
# Edits that a signature does not cover

A stored snapshot may be written anew with its members in another order, at any depth; members other
than the route and the steps may be added, replaced or, as the stamp, taken out. None of these edits
(`UnsignedEdit`) changes what the document has at the two signed keys
(`UnsignedEdit.sameSigned`), and the stored signature depends on nothing else
(`Document.storedSignature?_congr`). So it stays that of the compiled core
(`SnapshotCore.storedSignature?_unsignedEdits`).
-/

namespace RoutePlan

namespace Json

/-- The members but for those at a key. -/
def dropMember (key : String) (members : List (String × Json)) : List (String × Json) :=
  members.filter fun m => m.1 != key

/-- The members with a value at a key, in place of what is there. -/
def setMember (key : String) (value : Json) (members : List (String × Json)) :
    List (String × Json) :=
  dropMember key members ++ [(key, value)]

variable {key k : String} {members : List (String × Json)}

/-- Taking out a member leaves what is found at the other keys. -/
theorem lookupMember_dropMember (h : k ≠ key) :
    lookupMember k (dropMember key members) = lookupMember k members := by
  induction members with
  | nil => rfl
  | cons m rest ih =>
    obtain ⟨l, v⟩ := m
    simp only [dropMember] at ih ⊢
    by_cases hl : l = key
    · have hlk : l ≠ k := fun hlk => h (hlk ▸ hl)
      simp [lookupMember, hl, ih, hl ▸ hlk]
    · simp [lookupMember, hl, ih]

/-- Taking out a member leaves what is at the other keys. -/
theorem member?_dropMember (h : k ≠ key) :
    (obj (dropMember key members)).member? k = (obj members).member? k := by
  have hreverse : (dropMember key members).reverse = dropMember key members.reverse :=
    (List.filter_reverse ..).symm
  rw [member?, member?, hreverse, lookupMember_dropMember h]

/-- Putting a member leaves what is at the other keys. -/
theorem member?_setMember (h : k ≠ key) (value : Json) :
    (obj (setMember key value members)).member? k = (obj members).member? k := by
  have hdrop : (obj (dropMember key members)).member? k = (obj members).member? k :=
    member?_dropMember h
  rw [member?, setMember, List.reverse_concat, lookupMember, if_neg (Ne.symm h)]
  exact hdrop

end Json

/-- The keys of a snapshot that its signature covers. -/
def signedKeys : List String := ["route", "steps"]

/-- A change of a stored snapshot that its signature does not cover. -/
inductive UnsignedEdit : Json → Json → Prop
  | reorder {a b : Json} : a.SameData b → UnsignedEdit a b
  | set {key : String} {value : Json} {members : List (String × Json)} : key ∉ signedKeys →
    UnsignedEdit (.obj members) (.obj (Json.setMember key value members))
  | dropStamp {members : List (String × Json)} :
    UnsignedEdit (.obj members) (.obj (Json.dropMember "routeVersion" members))

/-- Two values have the same data at the signed keys. -/
def SameSigned (a b : Json) : Prop :=
  ∀ key ∈ signedKeys, (a.member? key).map Json.normal = (b.member? key).map Json.normal

/-- An edit leaves the data at the signed keys. -/
theorem UnsignedEdit.sameSigned {a b : Json} (h : UnsignedEdit a b) : SameSigned a b := by
  intro k hk
  cases h with
  | reorder hsame => rw [← Json.field?_normal, ← Json.field?_normal, hsame.normal_eq]
  | @set key value members hkey =>
    have hne : k ≠ key := fun heq => hkey (heq ▸ hk)
    rw [Json.member?_setMember hne]
  | dropStamp =>
    have hne : k ≠ "routeVersion" := by
      rintro rfl
      revert hk
      decide
    rw [Json.member?_dropMember hne]

namespace Document

/-- A document has at a key the normal form of what was written there, unless it is null. -/
theorem present?_ofJson (key : String) (j : Json) :
    (ofJson j).present? key = ((j.member? key).map Json.normal).filter fun v => !v.isNull := by
  rw [present?, json_ofJson, Json.field?_normal]

/-- The stored signature depends on the data at the signed keys only. -/
theorem storedSignature?_congr {a b : Json} (h : SameSigned a b) :
    (ofJson a).storedSignature? = (ofJson b).storedSignature? := by
  have hroute := h "route" (by decide)
  have hsteps := h "steps" (by decide)
  simp only [storedSignature?, present?_ofJson, hroute, hsteps]

/-- A document has nothing at a key exactly if nothing or null was written there. -/
theorem present?_eq_none {key : String} {j : Json} :
    (ofJson j).present? key = none ↔ j.member? key = none ∨ j.member? key = some .null := by
  rw [present?_ofJson]
  cases j.member? key with
  | none => simp
  | some v => cases v <;> simp [Json.normal, Json.isNull]

/-- There is no signature exactly if one of the signed members is missing or null. -/
theorem storedSignature?_eq_none {j : Json} : (ofJson j).storedSignature? = none ↔
    ∃ key ∈ signedKeys, j.member? key = none ∨ j.member? key = some .null := by
  simp only [signedKeys, List.mem_cons, List.not_mem_nil, or_false, exists_eq_or_imp,
    exists_eq_left, ← present?_eq_none]
  unfold storedSignature?
  cases (ofJson j).present? "route" with
  | none => simp
  | some route => cases (ofJson j).present? "steps" <;> simp

end Document

namespace SnapshotCore

/-- **Both signatures agree.** Whatever route and steps a snapshot was made from, and whatever its
stamp, the signature recomputed from the stored document is that of its core; it still is after any
number of edits that it does not cover. From a stored value no signature can be recomputed exactly
if it is no object or its route or its steps are missing or null. -/
theorem storedSignature?_unsignedEdits :
    (∀ (route : RouteIdentity) (steps : List CompiledStep) (stamp : VersionStamp) (j : Json),
      Relation.ReflTransGen UnsignedEdit ((ofSteps route steps).stamp stamp).toJson j →
        (Document.ofJson j).storedSignature? = some (ofSteps route steps).signature) ∧
    ∀ j : Json, (Document.ofJson j).storedSignature? = none ↔
      j.isObject = false ∨
        ∃ key ∈ signedKeys, j.member? key = none ∨ j.member? key = some .null := by
  refine ⟨fun route steps stamp j h => ?_, fun j => ?_⟩
  · have hsame : (Document.ofJson ((ofSteps route steps).stamp stamp).toJson).storedSignature? =
        (Document.ofJson j).storedSignature? := by
      induction h with
      | refl => rfl
      | tail _ hedit ih => exact ih.trans (Document.storedSignature?_congr hedit.sameSigned)
    rw [← hsame, storedSignature?_stamp]
  · rw [Document.storedSignature?_eq_none, or_iff_right_of_imp]
    intro hobject
    refine ⟨"route", by decide, .inl ?_⟩
    cases j with
    | obj members => cases hobject
    | _ => rfl

end SnapshotCore

namespace EditedSnapshot

def identity : RouteIdentity := ⟨"R1", "MES", none⟩

/-- A step that can be executed, under a number. -/
def step (stepNo : Int32) : CompiledStep where
  stepNo
  operationId := "op"
  stationType := .manual
  stationGroupId := some "g"
  allowedStationIds := []
  requiresFAI := false
  requiresAuthorization := false
  dataSpecIds := []
  ingestMapping := none

def core : SnapshotCore := .ofSteps identity [step 2, step 1]

/-- The snapshot has two steps. -/
theorem core_eq : core = ⟨identity, [step 1, step 2]⟩ := by
  simp [core, SnapshotCore.ofSteps, step, List.mergeSort, List.MergeSort.Internal.splitInTwo]

/-- The members of the snapshot in another order, those of the route too. -/
def members : List (String × Json) :=
  [("steps", stepsJson [step 1, step 2]), ("routeVersion", (VersionStamp.mk 1 ⟨0, 0⟩).toJson),
    ("route", .obj [("sourceKey", .null), ("code", .str "R1"), ("sourceSystem", .str "MES")])]

end EditedSnapshot

/-- A snapshot of two steps keeps its signature when its members are written in another order, a
note is added and the stamp is taken out. -/
theorem SnapshotCore.storedSignature?_unsignedEdits_twoSteps :
    (Document.ofJson (.obj (Json.dropMember "routeVersion"
      (Json.setMember "note" (.str "checked") EditedSnapshot.members)))).storedSignature? =
        some EditedSnapshot.core.signature := by
  refine storedSignature?_unsignedEdits.1 EditedSnapshot.identity
    [EditedSnapshot.step 2, EditedSnapshot.step 1] ⟨1, ⟨0, 0⟩⟩ _ ?_
  have hreorder : UnsignedEdit (EditedSnapshot.core.stamp ⟨1, ⟨0, 0⟩⟩).toJson
      (.obj EditedSnapshot.members) := by
    rw [EditedSnapshot.core_eq]
    exact .reorder (by decide +kernel)
  exact ((Relation.ReflTransGen.single hreorder).tail (.set (by decide))).tail .dropStamp

end RoutePlan
